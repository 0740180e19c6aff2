import SearchGateway.Text.Duration

/-!
# Points in time

A plain scalar that begins with a year and a hyphen may be a date, alone or with a time of day. A
time after a `T` has a zone, one after a blank is of the zone zero.
-/

namespace SearchGateway.Yaml

structure Timestamp where
  year : Nat
  month : Nat
  day : Nat
  hour : Nat := 0
  minute : Nat := 0
  second : Nat := 0
  nanosecond : Nat := 0
  /-- Minutes that the zone is ahead. -/
  offset : Int := 0
  deriving DecidableEq

namespace Timestamp

def isLeap (year : Nat) : Bool := year % 4 == 0 && (year % 100 != 0 || year % 400 == 0)

def daysIn (year month : Nat) : Nat :=
  if month = 2 then if isLeap year then 29 else 28
  else if month = 4 ∨ month = 6 ∨ month = 9 ∨ month = 11 then 30
  else 31

/-- A number of one or two digits, and what follows. -/
def number? (cs : List Char) : Option (Nat × List Char) :=
  let ds := (cs.take 2).takeWhile Char.isDigit
  if ds = [] then none else some (digitsValue ds, cs.drop ds.length)

/-- What follows a character. -/
def after? (c : Char) : List Char → Option (List Char)
  | d :: cs => if d = c then some cs else none
  | [] => none

/-- A date, and what follows. -/
def date? (cs : List Char) : Option (Timestamp × List Char) := do
  let ys := cs.takeWhile Char.isDigit
  if ys.length ≠ 4 then none
  else
    let year := digitsValue ys
    let (month, rest) ← number? (← after? '-' (cs.drop 4))
    let (day, rest) ← number? (← after? '-' rest)
    if 1 ≤ month ∧ month ≤ 12 ∧ 1 ≤ day ∧ day ≤ daysIn year month then
      some (⟨year, month, day, 0, 0, 0, 0, 0⟩, rest)
    else none

/-- Nanoseconds after a point or a comma; digits beyond the ninth do not count. -/
def fraction : List Char → Nat × List Char
  | m :: cs =>
    let ds := cs.takeWhile Char.isDigit
    if (m = '.' ∨ m = ',') ∧ ds ≠ [] then
      let kept := ds.take 9
      (digitsValue kept * Nat.pow 10 (9 - kept.length), cs.drop ds.length)
    else (0, m :: cs)
  | [] => (0, [])

/-- A time of day, and what follows. -/
def clock? (t : Timestamp) (cs : List Char) : Option (Timestamp × List Char) := do
  let (hour, rest) ← number? cs
  let (minute, rest) ← number? (← after? ':' rest)
  let (second, rest) ← number? (← after? ':' rest)
  let (nanosecond, rest) := fraction rest
  if hour < 24 ∧ minute < 60 ∧ second < 60 then
    some ({ t with hour, minute, second, nanosecond }, rest)
  else none

/-- The zone at the end of a time. -/
def zone? : List Char → Option Int
  | ['Z'] => some 0
  | [sign, h, i, ':', m, n] =>
    if [h, i, m, n].all Char.isDigit then
      let hours := digitsValue [h, i]
      let minutes := digitsValue [m, n]
      let offset : Int := 60 * hours + minutes
      if 24 < hours ∨ 60 < minutes then none
      else if sign = '+' then some offset
      else if sign = '-' then some (-offset)
      else none
    else none
  | _ => none

def read? (text : String) : Option Timestamp := do
  let (t, rest) ← date? text.toList
  match rest with
  | [] => return t
  | c :: rest =>
    if c = 'T' ∨ c = 't' then
      let (t, rest) ← clock? t rest
      return { t with offset := ← zone? rest }
    else if c = ' ' then
      let (t, rest) ← clock? t (rest.dropWhile (· == ' '))
      if rest = [] then some t else none
    else none

/-- A number with zeros before it. -/
def padded (width n : Nat) : List Char :=
  let ds := Nat.toDigits 10 n
  List.replicate (width - ds.length) '0' ++ ds

/-- The offset of a zone, hours and minutes. -/
def offsetChars (minutes : Int) : List Char :=
  let n := minutes.natAbs
  (if minutes < 0 then '-' else '+') :: padded 2 (n / 60) ++ padded 2 (n % 60)

def text (t : Timestamp) : String :=
  let zone := offsetChars t.offset
  String.ofList (padded 4 t.year ++ '-' :: padded 2 t.month ++ '-' :: padded 2 t.day ++ ' ' ::
    padded 2 t.hour ++ ':' :: padded 2 t.minute ++ ':' :: padded 2 t.second ++
    Duration.fractionChars t.nanosecond 9 ++ ' ' :: zone ++ ' ' ::
    (if t.offset = 0 then "UTC".toList else zone))

end Timestamp

end SearchGateway.Yaml
