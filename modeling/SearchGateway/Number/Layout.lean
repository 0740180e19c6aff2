import SearchGateway.Number.Shortest

/-!
# Layouts of a number

Three ways to lay out the same shortest digits: *plain* digits without exponent, the *general*
layout, which switches to an exponent below 10⁻⁴ and from 10⁶ on, and the layout of a JSON body,
which switches below 10⁻⁶ and from 10²¹ on.
-/

namespace SearchGateway

namespace Decimal

def digits (d : Decimal) : List Char := Nat.toDigits 10 d.coefficient

/-- Digits in front of the point: the value is `0.digits · 10^point`. -/
def point (d : Decimal) : Int := (d.digits.length : Int) + d.exponent

/-- Digits with a point where one is needed. -/
def plain (d : Decimal) : List Char :=
  if d.coefficient = 0 then ['0']
  else if d.point ≤ 0 then '0' :: '.' :: (List.replicate (-d.point).toNat '0' ++ d.digits)
  else if 0 ≤ d.exponent then d.digits ++ List.replicate d.exponent.toNat '0'
  else d.digits.take d.point.toNat ++ '.' :: d.digits.drop d.point.toNat

/-- An exponent with its sign and at least two digits. -/
def exponentChars (e : Int) : List Char :=
  let ds := Nat.toDigits 10 e.natAbs
  (if e < 0 then '-' else '+') :: (if ds.length < 2 then '0' :: ds else ds)

/-- One digit in front of the point, then the exponent. -/
def scientific (d : Decimal) : List Char :=
  let mantissa :=
    match d.digits with
    | [] => ['0']
    | [c] => [c]
    | c :: cs => c :: '.' :: cs
  mantissa ++ 'e' :: exponentChars (d.point - 1)

end Decimal

/-- Where a layout leaves plain digits: below `10^least` and from `10^limit` on. -/
structure Layout where
  least : Int
  limit : Int

namespace Layout

def general : Layout := ⟨-4, 6⟩

def json : Layout := ⟨-6, 21⟩

def chars (l : Layout) (d : Decimal) : List Char :=
  if d.coefficient ≠ 0 ∧ (d.point - 1 < l.least ∨ l.limit ≤ d.point - 1) then d.scientific
  else d.plain

end Layout

namespace Binary64

def signed (x : Binary64) (cs : List Char) : List Char :=
  if x.negative then '-' :: cs else cs

/-- The text of a number by the layout of its digits; what is not finite has a name. -/
def charsBy (layout : Decimal → List Char) (x : Binary64) : List Char :=
  if x.isNaN then ['N', 'a', 'N']
  else if x.isInfinite then (if x.negative then '-' else '+') :: ['I', 'n', 'f']
  else x.signed (layout (shortest x.rank))

def plainChars (x : Binary64) : List Char := x.charsBy Decimal.plain

def generalChars (x : Binary64) : List Char := x.charsBy Layout.general.chars

def jsonChars (x : Binary64) : List Char := x.charsBy Layout.json.chars

/-- Plain digits, with a fraction even when it is zero. -/
def pointedChars (x : Binary64) : List Char :=
  let cs := x.plainChars
  if cs.any fun c => c == '.' || c == 'I' || c == 'N' then cs else cs ++ ['.', '0']

def plainText (x : Binary64) : String := String.ofList x.plainChars

def generalText (x : Binary64) : String := String.ofList x.generalChars

end Binary64

end SearchGateway
