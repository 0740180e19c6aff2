import SearchGateway.Filter.Parser

/-!
# Orderings

A sort option is a list of clauses `field [ASC|DESC]` divided by commas; ascending is the default.
A field may be named once, and without a negation.
-/

namespace SearchGateway.Ordering

open SearchGateway.Text
open SearchGateway.Filter (Field ParseError)

structure Clause where
  field : Field
  ascending : Bool := true
  deriving DecidableEq

/-- The direction as the backend spells it. -/
def Clause.order (c : Clause) : String := if c.ascending then "asc" else "desc"

inductive Fault
  | emptyClause
  | invalidClause (text : String)
  | unknownOrder (word : String)
  | field (text : String) (e : ParseError)
  | negated (name : String)
  | repeated (name : String)
  deriving DecidableEq

def Fault.failure : Fault → Failure
  | emptyClause => .malformed "empty sort clause"
  | invalidClause text =>
    .malformed s!"invalid sort clause '{text}', expected 'field [ASC|DESC]'"
  | unknownOrder word =>
    .malformed s!"sort order can only be `ASC` or `DESC`, found '{word}'"
  | field text e => e.failure text
  | negated name => .malformed s!"sort field '{name}' can't be negated"
  | repeated name => .invalid s!"sort field '{name}' is repeated"

/-- The direction a word names. -/
def ascending? (word : String) : Option Bool :=
  if word = "ASC" then some true else if word = "DESC" then some false else none

/-- A clause of the named field. -/
def Clause.ofField (name : String) (ascending : Bool) : Except Fault Clause :=
  match Field.parse name with
  | .error e => .error (.field name e)
  | .ok f => if f.negated then .error (.negated f.name) else .ok ⟨f, ascending⟩

def Clause.parse (text : String) : Except Fault Clause :=
  match words text with
  | [] => .error .emptyClause
  | [name] => Clause.ofField name true
  | [name, word] =>
    match ascending? word with
    | some ascending => Clause.ofField name ascending
    | none => .error (.unknownOrder word)
  | _ => .error (.invalidClause (trim text))

/-- Reads clauses in turn; `seen` holds the paths read before. -/
def parseClauses (seen : List (List String)) : List String → Except Fault (List Clause)
  | [] => .ok []
  | text :: texts => do
    let c ← Clause.parse text
    if c.field.path ∈ seen then .error (.repeated c.field.name)
    else return c :: (← parseClauses (c.field.path :: seen) texts)

/-- Reads a sort option; a blank one has no clauses. -/
def parse (input : String) : Except Fault (List Clause) :=
  if isBlankText input then .ok [] else parseClauses [] (split ',' input)

end SearchGateway.Ordering
