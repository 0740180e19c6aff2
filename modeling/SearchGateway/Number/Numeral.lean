import SearchGateway.Number.Binary64

/-!
# Numerals

A decimal numeral is split into its parts once: sign, whole part, fraction and exponent. From the
parts follow the integer or the double it denotes. `Binary64.read?` reads the wider spelling of
configuration and boosts: a leading `+`, a missing whole part or fraction, digit separators,
hexadecimal digits and the names of the values that are not finite.

Two limits show on numerals of enormous length. Digits of an exponent that has reached 10000 are
passed over, and of a whole part that its first nineteen digits do not settle, only eight hundred
digits count.
-/

namespace SearchGateway

/-- The value of a list of decimal digits. -/
def digitsValue (ds : List Char) : Nat :=
  ds.foldl (fun n c => 10 * n + (c.toNat - '0'.toNat)) 0

/-- The value of the digits of an exponent; digits after it has reached 10000 are passed over. -/
def exponentValue (ds : List Char) : Nat :=
  ds.foldl (fun n c => if n < 10000 then 10 * n + (c.toNat - '0'.toNat) else n) 0

def signed (negative : Bool) (n : Nat) : Int := if negative then -n else n

def hexValue (c : Char) : Nat :=
  if c.isDigit then c.toNat - '0'.toNat
  else if c.isLower then c.toNat - 'a'.toNat + 10
  else c.toNat - 'A'.toNat + 10

def isHexDigit (c : Char) : Bool :=
  c.isDigit || ('a' ≤ c && c ≤ 'f') || ('A' ≤ c && c ≤ 'F')

namespace Binary64

/-- The number that nineteen leading digits settle, times a power of ten; `cut` tells that other
digits than zeros were left out. Nothing is settled beyond the powers that are tabulated, for a
number without all bits of precision, between two neighbours, or where one more in the last digit
would lead to another number. -/
def settled? (negative : Bool) (lead : Nat) (cut : Bool) (e : Int) : Option Binary64 :=
  if e < -348 ∨ 347 < e then none
  else
    (ofDecimal? negative lead e).filter fun x =>
      x.isNormal &&
        if cut then ofDecimal? negative (lead + 1) e == some x else !x.isHalfAbove lead e

/-- The number nearest to `whole.fraction · 10^e`, unless it is too large. -/
def ofDigits? (negative : Bool) (whole fraction : List Char) (e : Int) : Option Binary64 :=
  let significant := whole.dropWhile (· = '0')
  if significant.length ≤ 800 then
    ofDecimal? negative (digitsValue (significant ++ fraction)) (e - fraction.length)
  else
    let digits := significant ++ fraction
    let isCut := fun n => (digits.drop n).any (· ≠ '0')
    settled? negative (digitsValue (digits.take 19)) (isCut 19) (e + significant.length - 19) <|>
      ofDecimal? negative (10 * digitsValue (digits.take 800) + (isCut 800).toNat) (e - 1)

end Binary64

/-- The parts of a decimal numeral. A part that is not written is `none`. -/
structure Numeral where
  negative : Bool
  whole : List Char
  fraction : Option (List Char)
  exponent : Option (Bool × List Char)
  deriving DecidableEq

namespace Numeral

def splitSign : List Char → Bool × List Char
  | '-' :: cs => (true, cs)
  | cs => (false, cs)

/-- A fraction is a point followed by at least one digit. -/
def splitFraction : List Char → Option (List Char) × List Char
  | '.' :: cs =>
    match cs.takeWhile Char.isDigit with
    | [] => (none, '.' :: cs)
    | ds => (some ds, cs.dropWhile Char.isDigit)
  | cs => (none, cs)

/-- The sign of an exponent may be left out. -/
def splitExponentSign : List Char → Bool × List Char
  | '-' :: cs => (true, cs)
  | '+' :: cs => (false, cs)
  | cs => (false, cs)

/-- An exponent is `e` or `E`, a sign if any, and at least one digit; nothing may follow it. -/
def readExponent? : List Char → Option (Option (Bool × List Char))
  | [] => some none
  | c :: cs =>
    if c = 'e' ∨ c = 'E' then
      let (negative, ds) := splitExponentSign cs
      if ds ≠ [] ∧ ds.all Char.isDigit then some (some (negative, ds)) else none
    else none

/-- Reads `-?digits(.digits)?([eE][+-]?digits)?` and nothing else. -/
def read? (cs : List Char) : Option Numeral :=
  let (negative, cs) := splitSign cs
  match cs.takeWhile Char.isDigit with
  | [] => none
  | whole =>
    let (fraction, cs) := splitFraction (cs.dropWhile Char.isDigit)
    (readExponent? cs).map fun exponent => ⟨negative, whole, fraction, exponent⟩

/-- Only a sign and digits. -/
def isInteger (n : Numeral) : Bool := n.fraction.isNone && n.exponent.isNone

def integer (n : Numeral) : Int :=
  signed n.negative (digitsValue n.whole)

/-- The power of ten of the exponent. -/
def power (n : Numeral) : Int :=
  match n.exponent with
  | none => 0
  | some (negative, ds) => signed negative (exponentValue ds)

/-- The nearest double, unless the numeral is too large. -/
def toBinary64? (n : Numeral) : Option Binary64 :=
  Binary64.ofDigits? n.negative n.whole (n.fraction.getD []) n.power

end Numeral

/-- An integer of 64 bits, if it is one. -/
def int64? (i : Int) : Option Int64 :=
  if Int64.minValue.toInt ≤ i ∧ i ≤ Int64.maxValue.toInt then some (Int64.ofInt i) else none

/-- Reads `[+-]?digits` that fit in 64 bits. -/
def readInt64? (s : String) : Option Int64 :=
  let (negative, ds) := Numeral.splitExponentSign s.toList
  if ds ≠ [] ∧ ds.all Char.isDigit then
    int64? (signed negative (digitsValue ds))
  else none

namespace Binary64

/-- Digit separators stand between two digits, or between a base mark and a digit. The first
argument tells whether a digit and whether a separator came just before. -/
def separatorsOk (hex : Bool) : Bool → Bool → List Char → Bool
  | _, separator, [] => !separator
  | digit, separator, c :: cs =>
    if c.isDigit || (hex && isHexDigit c) then separatorsOk hex true false cs
    else if c = '_' then digit && separatorsOk hex false true cs
    else !separator && separatorsOk hex false false cs

def validSeparators (cs : List Char) : Bool :=
  match cs with
  | '0' :: c :: rest =>
    if c = 'x' ∨ c = 'X' then separatorsOk true true false rest
    else separatorsOk false false false cs
  | _ => separatorsOk false false false cs

/-- Digits, a point somewhere among them at most once, then the rest. -/
def splitMantissa (isDigit : Char → Bool) (cs : List Char) : List Char × List Char × List Char :=
  let whole := cs.takeWhile isDigit
  match cs.dropWhile isDigit with
  | '.' :: rest => (whole, rest.takeWhile isDigit, rest.dropWhile isDigit)
  | rest => (whole, [], rest)

/-- The exponent after its mark, or none when the digits are missing. -/
def readPower? (cs : List Char) : Option Int :=
  let (negative, ds) := Numeral.splitExponentSign cs
  if ds ≠ [] ∧ ds.all Char.isDigit then
    some (signed negative (exponentValue ds))
  else none

def readDecimal? (large : Option Binary64) (negative : Bool) (cs : List Char) : Option Binary64 :=
  let (whole, fraction, rest) := splitMantissa Char.isDigit cs
  if whole = [] ∧ fraction = [] then none
  else
    match rest with
    | [] => ofDigits? negative whole fraction 0 <|> large
    | m :: rest =>
      if m = 'e' ∨ m = 'E' then
        (readPower? rest).bind fun e => ofDigits? negative whole fraction e <|> large
      else none

def readHex? (large : Option Binary64) (negative : Bool) (cs : List Char) : Option Binary64 :=
  let (whole, fraction, rest) := splitMantissa isHexDigit cs
  if whole = [] ∧ fraction = [] then none
  else
    let c := (whole ++ fraction).foldl (fun n d => 16 * n + hexValue d) 0
    match rest with
    | [] => none
    | m :: rest =>
      if m = 'p' ∨ m = 'P' then
        (readPower? rest).bind fun e => ofBinary? negative c (e - 4 * fraction.length) <|> large
      else none

/-- Reads any spelling of a number; `large` is the outcome for a number of either sign that is too
large to be finite. -/
def readOr? (large : Bool → Option Binary64) (s : String) : Option Binary64 :=
  let cs := s.toList
  if cs.map Char.toLower = "nan".toList then some nan
  else
    let (negative, body) := Numeral.splitExponentSign cs
    let name := body.map Char.toLower
    if name = "inf".toList ∨ name = "infinity".toList then some (infinity negative)
    else if body.contains '_' && !validSeparators body then none
    else
      match body.filter (· ≠ '_') with
      | '0' :: c :: rest =>
        if c = 'x' ∨ c = 'X' then readHex? (large negative) negative rest
        else readDecimal? (large negative) negative ('0' :: c :: rest)
      | digits => readDecimal? (large negative) negative digits

/-- Reads a number; one that is too large is refused, while infinity written as such is not. -/
def read? (s : String) : Option Binary64 := readOr? (fun _ => none) s

/-- Reads a number; one that is too large becomes infinity. -/
def readSaturated? (s : String) : Option Binary64 :=
  readOr? (fun negative => some (infinity negative)) s

end Binary64

end SearchGateway
