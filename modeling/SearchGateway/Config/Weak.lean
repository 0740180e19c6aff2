import SearchGateway.Number.Integer
import SearchGateway.Text.Blank
import SearchGateway.Text.Duration
import SearchGateway.Yaml.Value

/-!
# Settings of a wrong type

A setting may be written as another type than it has, as long as its value carries over: texts that
read as numbers are numbers, truth values count as one and zero, and a single value is a list of
one. Numbers too large for their type wrap around. `none` means that a value does not carry over.
-/

namespace SearchGateway.Config

open SearchGateway.Yaml (Value)

/-- A double without its fraction, the least integer of 64 bits if that does not fit. -/
def truncate (x : Binary64) : Int :=
  let n : Int := Binary64.units x.rank / Binary64.one
  let i := if x.negative then -n else n
  let bound : Int := Nat.pow 2 63
  if x.isFinite ∧ -bound ≤ i ∧ i < bound then i else -bound

/-- A signed integer of the given bits. -/
def integer? (bits : Nat) : Value → Option Int
  | .int i => some (i.bmod (Nat.pow 2 bits))
  | .float x => some ((truncate x).bmod (Nat.pow 2 bits))
  | .bool b => some (if b then 1 else 0)
  | .string s => (Integer.read bits (if s = "" then "0" else s)).toOption
  | _ => none

/-- A double without its fraction as a natural number of 64 bits, zero if it is too large. A
negative number wraps around. -/
def truncateNat (x : Binary64) : Int :=
  let n : Int := Binary64.units x.rank / Binary64.one
  if x.isNaN then 0
  else if x.negative ∨ n < Nat.pow 2 63 then truncate x
  else if x.isFinite ∧ n < Nat.pow 2 64 then n
  else 0

/-- A natural number of the given bits. -/
def natural? (bits : Nat) : Value → Option Nat
  | .int i => some (i % Nat.pow 2 bits).toNat
  | .float x => some (truncateNat x % Nat.pow 2 bits).toNat
  | .bool b => some (if b then 1 else 0)
  | .string s => (Integer.readNat bits (if s = "" then "0" else s)).toOption
  | _ => none

def text? : Value → Option String
  | .string s => some s
  | .bool b => some (if b then "1" else "0")
  | .int i => some (toString i)
  | .float x => some x.plainText
  | _ => none

/-- The spellings of a truth value; an empty text is false. -/
def truthText? (s : String) : Option Bool :=
  if s ∈ ["1", "t", "T", "TRUE", "true", "True"] then some true
  else if s ∈ ["", "0", "f", "F", "FALSE", "false", "False"] then some false
  else none

def truth? : Value → Option Bool
  | .bool b => some b
  | .int i => some (i ≠ 0)
  | .float x => some (!x.isZero)
  | .string s => truthText? s
  | _ => none

def double? : Value → Option Binary64
  | .float x => some x
  | .int i => some (Binary64.ofRank (i < 0) (Binary64.rankOf (i.natAbs * Binary64.one) 1))
  | .bool b => some (Binary64.ofInt64 (if b then 1 else 0))
  | .string s => Binary64.read? (if s = "" then "0" else s)
  | _ => none

/-- A span of time: a text with units, or a number of nanoseconds. -/
def duration? : Value → Option Int
  | .string s => Duration.read? s
  | v => integer? 64 v

/-- A text in a list; an empty entry is an empty text. -/
def item? : Value → Option String
  | .null => some ""
  | v => text? v

/-- A list of texts; a single text is divided by its commas. -/
def texts? : Value → Option (List String)
  | .string s => some (if s = "" then [] else Text.split ',' s)
  | .list vs => vs.mapM item?
  | .map [] => some []
  | v => (item? v).map ([·])

end SearchGateway.Config
