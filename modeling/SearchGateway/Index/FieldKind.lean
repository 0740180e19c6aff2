import SearchGateway.Filter.Alias

/-!
# Kinds of fields

The compiler tells nested objects, places, keywords and analysed texts apart; every other mapping
type it knows counts as `other`. Type names are compared without regard to case.
-/

namespace SearchGateway.Index

open SearchGateway.Text

inductive FieldKind
  | unknown | nested | geoPoint | keyword | text | other
  deriving DecidableEq, Inhabited

namespace FieldKind

def number : FieldKind → Nat
  | unknown => 0
  | nested => 1
  | geoPoint => 2
  | keyword => 3
  | text => 4
  | other => 5

def name : FieldKind → String
  | unknown => "unknown"
  | nested => "nested"
  | geoPoint => "geo_point"
  | keyword => "keyword"
  | text => "text"
  | other => "other"

def all : List FieldKind := [unknown, nested, geoPoint, keyword, text, other]

def ofNumber (n : Int) : FieldKind := (all.find? fun k => (k.number : Int) == n).getD unknown

/-- The lower case of a letter, as far as it is an ASCII letter: besides `A` to `Z` these are the
dotted capital I and the Kelvin sign. Type names are ASCII, so no other letter matters. -/
def lower (c : Char) : Char :=
  if c = 'İ' then 'i' else if c = 'K' then 'k' else c.toLower

/-- The mapping types without a kind of their own. -/
def plainTypes : List String :=
  ["long", "integer", "short", "byte", "double", "float", "scaled_float", "date", "boolean",
    "object", "other"]

/-- The kind of a mapping type. -/
def ofMapping (mapping : String) : FieldKind :=
  let m := String.ofList (mapping.toList.map lower)
  if m = "nested" then nested
  else if m = "geo_point" then geoPoint
  else if m = "keyword" then keyword
  else if m = "text" ∨ m = "string" then text
  else if m ∈ plainTypes then other
  else unknown

end FieldKind

/-- A name: a letter or underscore, then letters, digits and underscores. -/
def isName : List Char → Bool
  | [] => false
  | c :: cs => Filter.isNameStart c && cs.all Filter.isNamePart

/-- A path of names with dots between them. -/
def isFieldName (s : String) : Bool := (splitChars '.' s.toList).all isName

/-- The part of a path before its first dot. -/
def firstSegment (path : String) : String :=
  String.ofList (path.toList.takeWhile (· ≠ '.'))

/-- The sub-field that holds the keyword form of a text field. -/
def rawSuffix : String := ".raw"

/-- The path without a `.raw` at its end, if it has one. -/
def rawBase? (path : String) : Option String :=
  if rawSuffix.toList.isSuffixOf path.toList then
    some (String.ofList (path.toList.take (path.toList.length - rawSuffix.toList.length)))
  else none

end SearchGateway.Index
