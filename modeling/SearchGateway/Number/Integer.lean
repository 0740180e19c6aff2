import SearchGateway.Number.Numeral

/-!
# Integers in any base

An integer option may be written in base two, eight, ten or sixteen, told apart by its first
characters, with separators between digits. It has to fit in a given number of bits.
-/

namespace SearchGateway.Integer

inductive ReadError
  | syntactic
  | range
  deriving DecidableEq

def ReadError.message : ReadError → String
  | syntactic => "invalid syntax"
  | range => "value out of range"

/-- The base of an integer and its digits. A leading zero alone stands for base eight. -/
def splitBase : List Char → Nat × List Char
  | '0' :: c :: d :: cs =>
    if c = 'b' ∨ c = 'B' then (2, d :: cs)
    else if c = 'o' ∨ c = 'O' then (8, d :: cs)
    else if c = 'x' ∨ c = 'X' then (16, d :: cs)
    else (8, c :: d :: cs)
  | '0' :: cs => (8, cs)
  | cs => (10, cs)

/-- The value of a digit in a base. -/
def digit? (base : Nat) (c : Char) : Option Nat :=
  if isHexDigit c && hexValue c < base then some (hexValue c) else none

/-- Reads digits from left to right; the first that is wrong, or that makes the value exceed
`limit`, settles the outcome. -/
def readDigits (base limit : Nat) : Nat → List Char → Except ReadError Nat
  | n, [] => .ok n
  | n, c :: cs =>
    if c = '_' then readDigits base limit n cs
    else
      match digit? base c with
      | none => .error .syntactic
      | some d =>
        if limit < n * base + d then .error .range else readDigits base limit (n * base + d) cs

/-- Separators stand after a digit or a base mark and before a digit. -/
def separatorsFit (cs : List Char) : Bool :=
  match cs with
  | '0' :: c :: rest =>
    if c = 'x' ∨ c = 'X' then Binary64.separatorsOk true true false rest
    else if c = 'b' ∨ c = 'B' ∨ c = 'o' ∨ c = 'O' then Binary64.separatorsOk false true false rest
    else Binary64.separatorsOk false false false cs
  | _ => Binary64.separatorsOk false false false cs

/-- A natural number of at most `bits` bits. -/
def readNat (bits : Nat) (s : String) : Except ReadError Nat :=
  let cs := s.toList
  if cs = [] then .error .syntactic
  else do
    let (base, ds) := splitBase cs
    let n ← readDigits base (Nat.pow 2 bits - 1) 0 ds
    if cs.contains '_' && !separatorsFit cs then .error .syntactic else return n

/-- A signed integer of `bits` bits. -/
def read (bits : Nat) (s : String) : Except ReadError Int :=
  let (negative, cs) := Numeral.splitExponentSign s.toList
  match readNat bits (String.ofList cs) with
  | .error e => .error e
  | .ok n =>
    if negative then if n ≤ Nat.pow 2 (bits - 1) then .ok (-n) else .error .range
    else if n < Nat.pow 2 (bits - 1) then .ok n
    else .error .range

end SearchGateway.Integer
