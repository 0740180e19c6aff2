import SearchGateway.Number.Numeral

/-!
# Spans of time

A span is a whole number of nanoseconds. Its text names hours, minutes and seconds, or a single
smaller unit below one second, with the fraction cut to the digits it needs. A text is read as a
sequence of decimal numbers with their units.
-/

namespace SearchGateway.Duration

/-- The fraction `n / 10^places` without trailing zeros, with its point if anything is left. -/
def fractionChars (n places : Nat) : List Char :=
  let digits := Nat.toDigits 10 n
  let padded := List.replicate (places - digits.length) '0' ++ digits
  match (padded.reverse.dropWhile (· == '0')).reverse with
  | [] => []
  | ds => '.' :: ds

/-- `n` units of `10^places` nanoseconds and what is left over. -/
def scaledChars (n places : Nat) : List Char :=
  Nat.toDigits 10 (n / Nat.pow 10 places) ++ fractionChars (n % Nat.pow 10 places) places

def magnitudeChars (n : Nat) : List Char :=
  if n = 0 then "0s".toList
  else if n < 1000 then scaledChars n 0 ++ "ns".toList
  else if n < 1000000 then scaledChars n 3 ++ "µs".toList
  else if n < 1000000000 then scaledChars n 6 ++ "ms".toList
  else
    let seconds := n / 1000000000
    let minutes := seconds / 60
    let hours := minutes / 60
    (if hours = 0 then [] else Nat.toDigits 10 hours ++ ['h']) ++
    (if minutes = 0 then [] else Nat.toDigits 10 (minutes % 60) ++ ['m']) ++
    Nat.toDigits 10 (seconds % 60) ++ fractionChars (n % 1000000000) 9 ++ ['s']

/-- The text of a span in nanoseconds. -/
def text (ns : Int) : String :=
  String.ofList (if ns < 0 then '-' :: magnitudeChars ns.natAbs else magnitudeChars ns.natAbs)

/-! ### Reading -/

/-- Nanoseconds of a unit. -/
def unit? (name : List Char) : Option Nat :=
  if name = "ns".toList then some 1
  else if name = "us".toList ∨ name = ['µ', 's'] ∨ name = ['μ', 's'] then some (1000)
  else if name = "ms".toList then some (1000000)
  else if name = "s".toList then some (1000000000)
  else if name = "m".toList then some (60 * 1000000000)
  else if name = "h".toList then some (3600 * 1000000000)
  else none

/-- The most nanoseconds of a negative span. -/
def limit : Nat := Nat.pow 2 63

/-- The digits of a fraction that count: as many as keep their value within the limit. -/
def countedDigits : Nat → List Char → List Char
  | _, [] => []
  | n, d :: ds =>
    let next := n * 10 + (d.toNat - '0'.toNat)
    if next ≤ limit then d :: countedDigits next ds else []

/-- The whole nanoseconds in a fraction of a unit, computed with doubles. -/
def fractionOf (unit : Nat) (digits : List Char) : Nat :=
  let ds := countedDigits 0 digits
  let value := Binary64.rankOf (digitsValue ds * Binary64.one) 1
  let share := Binary64.rankOf (unit * Binary64.one) (Nat.pow 10 ds.length)
  let product := Binary64.rankOf (Binary64.units value * Binary64.units share) Binary64.one
  Binary64.units product / Binary64.one

/-- Reads one number with its unit after another and adds them up. -/
def readParts (s : List Char) : Option Nat :=
  match s with
  | [] => some 0
  | c :: cs =>
    let whole := (c :: cs).takeWhile Char.isDigit
    let rest := (c :: cs).dropWhile Char.isDigit
    let fraction : List Char :=
      match rest with
      | '.' :: ds => ds.takeWhile Char.isDigit
      | _ => []
    let rest : List Char :=
      match rest with
      | '.' :: ds => ds.dropWhile Char.isDigit
      | rest => rest
    let name := rest.takeWhile fun c => c ≠ '.' ∧ !c.isDigit
    if _h : (rest.drop name.length).length < (c :: cs).length then
      if (whole = [] ∧ fraction = []) ∨ limit < digitsValue whole then none
      else do
        let unit ← unit? name
        let here := digitsValue whole * unit + fractionOf unit fraction
        let more ← readParts (rest.drop name.length)
        if limit < here + more then none else return here + more
    else none
termination_by s.length
decreasing_by exact _h

/-- The nanoseconds of a span; a number other than zero needs a unit. -/
def read? (text : String) : Option Int :=
  let (negative, cs) := Numeral.splitExponentSign text.toList
  if cs = ['0'] then some 0
  else if cs = [] then none
  else do
    let n ← readParts cs
    if negative then return -n
    else if n < limit then return n
    else none

end SearchGateway.Duration
