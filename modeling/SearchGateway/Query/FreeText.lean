import SearchGateway.Filter.Parser
import SearchGateway.Index.Metadata
import SearchGateway.Query.Clause

/-!
# Free text

A free text is searched in weighted fields. Each field may carry a boost after a colon; a text
field is searched by its keyword form. How many words have to match is a count of up to three
digits or a percentage.
-/

namespace SearchGateway.Query

open SearchGateway.Text
open SearchGateway.Filter (Field ParseError)
open SearchGateway.Index (Metadata)

namespace FreeText

inductive Fault
  | minimum (text : String)
  | percentage (text : String)
  | boost (entry : String)
  | field (text : String) (e : ParseError)
  | negated (entry : String)
  | unknownField (field index : String)
  deriving DecidableEq

def Fault.failure : Fault → Failure
  | minimum text => .invalid s!"invalid minimum should match '{text}'"
  | percentage text => .invalid s!"minimum should match '{text}' must be between -100% and 100%"
  | boost entry => .invalid s!"invalid boost in field '{entry}'"
  | field text e => e.failure text
  | negated entry => .malformed s!"negation is not allowed in search field '{entry}'"
  | unknownField name index => .notFound s!"search field '{name}' not found in index '{index}'"

/-- Up to three digits, a minus sign before them or not, a percent sign after them or not. -/
def checkMinimum (text : String) : Except Fault Unit :=
  let (_, body) := Numeral.splitSign text.toList
  let digits := body.takeWhile Char.isDigit
  let rest := body.dropWhile Char.isDigit
  if digits = [] ∨ 3 < digits.length ∨ (rest ≠ [] ∧ rest ≠ ['%']) then .error (.minimum text)
  else if rest = ['%'] ∧ 100 < digitsValue digits then .error (.percentage text)
  else .ok ()

/-- A boost is written with a fraction even when it is zero. -/
def boostText (x : Binary64) : String :=
  let cs := x.plainChars
  String.ofList (if cs.contains '.' then cs else cs ++ ['.', '0'])

/-- The parts before and after the last colon. -/
def splitBoost (entry : String) : String × Option String :=
  let cs := entry.toList.reverse
  if cs.contains ':' then
    (String.ofList ((cs.dropWhile (· ≠ ':')).drop 1).reverse,
      some (String.ofList (cs.takeWhile (· ≠ ':')).reverse))
  else (entry, none)

/-- The name a field is searched by. -/
def searchName (m : Metadata) (name : String) : String :=
  if m.isOfKind name .text && (Index.rawBase? name).isNone then name ++ Index.rawSuffix else name

/-- The name and boost of one entry `field[:boost]`. -/
def weighted (entry : String) : Except Fault (String × Binary64) :=
  match splitBoost entry with
  | (_, none) => .ok (entry, Binary64.ofInt64 1)
  | (name, some boost) =>
    match Binary64.read? (trim boost) with
    | some x => .ok (trim name, x)
    | none => .error (.boost entry)

/-- The backend's spelling of one entry. -/
def fieldEntry (m : Metadata) (entry : String) : Except Fault String := do
  let (text, boost) ← weighted entry
  let f ← (Field.parse text).mapError (.field text)
  if f.negated then .error (.negated entry)
  else if !m.hasField f.name then .error (.unknownField f.name m.name)
  else return searchName m f.name ++ "^" ++ boostText boost

/-- The fields to search in: those asked for, or the defaults of the index as they are. -/
def fields (m : Metadata) (entries : List String) : Except Fault (List String) :=
  if entries.isEmpty then .ok m.defaultFields else (items entries).mapM (fieldEntry m)

end FreeText

end SearchGateway.Query
