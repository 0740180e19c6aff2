import SearchGateway.Text.Blank
import SearchGateway.Number.Layout

/-!
# Literals

The values a field is compared with: null, truth values, integers, doubles, texts and lists of
literals. A literal has three texts: the one sent as a term, the one written in a filter, and the
loose one of a list that is sent as a term.
-/

namespace SearchGateway.Filter

inductive Literal
  | null
  | bool (b : Bool)
  | int (i : Int64)
  | float (x : Binary64)
  | string (s : String)
  | list (items : List Literal)
  deriving Inhabited

/-- A place given by its longitude and latitude. -/
structure Point where
  lon : Binary64
  lat : Binary64
  deriving DecidableEq

namespace Point

/-- The same place: both zeros are equal. -/
def eqv (p q : Point) : Bool := p.lon.eqv q.lon && p.lat.eqv q.lat

end Point

namespace Literal

def isNull : Literal → Bool
  | null => true
  | _ => false

/-- A single value that is not null. -/
def isScalar : Literal → Bool
  | bool _ | int _ | float _ | string _ => true
  | null | list _ => false

def number? : Literal → Option Binary64
  | int i => some (Binary64.ofInt64 i)
  | float x => some x
  | _ => none

/-- The elements of a list; any other literal has none. -/
def elements : Literal → List Literal
  | list items => items
  | _ => []

/-- A pair `[lon,lat]` of numbers. -/
def point? : Literal → Option Point
  | list [lon, lat] => do return ⟨← lon.number?, ← lat.number?⟩
  | _ => none

def points? : Literal → Option (List Point)
  | list items => items.mapM point?
  | _ => none

/-- The points of a literal that is a list of them, none otherwise. -/
def points (v : Literal) : List Point := v.points?.getD []

def boolChars (b : Bool) : List Char := if b then "true".toList else "false".toList

def intChars (i : Int64) : List Char :=
  if i.toInt < 0 then '-' :: Nat.toDigits 10 i.toInt.natAbs else Nat.toDigits 10 i.toInt.natAbs

mutual

/-- The text inside a list sent as a term: elements divided by spaces. -/
def looseChars : Literal → List Char
  | null => "<nil>".toList
  | bool b => boolChars b
  | int i => intChars i
  | float x => x.generalChars
  | string s => s.toList
  | list items => '[' :: (looseItems items ++ [']'])

def looseItems : List Literal → List Char
  | [] => []
  | [v] => looseChars v
  | v :: vs => looseChars v ++ ' ' :: looseItems vs

end

/-- The text sent to the backend as a term. -/
def termChars : Literal → List Char
  | null => "null".toList
  | bool b => boolChars b
  | int i => intChars i
  | float x => x.plainChars
  | string s => s.toList
  | list items => looseChars (list items)

def termText (v : Literal) : String := String.ofList v.termChars

/-- Quotes and backslashes are written with a backslash in front. -/
def escape : List Char → List Char
  | [] => []
  | c :: cs => if c = '"' ∨ c = '\\' then '\\' :: c :: escape cs else c :: escape cs

mutual

/-- The text of a literal in a filter. -/
def chars : Literal → List Char
  | null => "null".toList
  | bool b => boolChars b
  | int i => intChars i
  | float x => x.pointedChars
  | string s => '"' :: (escape s.toList ++ ['"'])
  | list items => '[' :: (itemsChars items ++ [']'])

def itemsChars : List Literal → List Char
  | [] => []
  | [v] => chars v
  | v :: vs => chars v ++ ',' :: itemsChars vs

end

end Literal

end SearchGateway.Filter
