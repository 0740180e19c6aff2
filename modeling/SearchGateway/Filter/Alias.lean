import SearchGateway.Text.Blank
import SearchGateway.Filter.Operator

/-!
# Spellings of operators

An alias is one spelling of an operator. A table keeps its aliases longest first, so the first
alias that matches at a position is the longest. An alias that ends in a name character is a word
and matches only where no further name character follows: `ORDER` does not start with `OR`.
-/

namespace SearchGateway.Filter

open SearchGateway.Text

/-- Characters a name may start with. -/
def isNameStart (c : Char) : Bool := c == '_' || ('a' ≤ c && c ≤ 'z') || ('A' ≤ c && c ≤ 'Z')

/-- Characters a name may go on with. -/
def isNamePart (c : Char) : Bool := isNameStart c || ('0' ≤ c && c ≤ '9')

structure Alias (ω : Type) where
  text : List Char
  operator : ω
  deriving DecidableEq

namespace Alias

variable {ω : Type}

/-- A word ends in a name character. -/
def isWord (a : Alias ω) : Bool := a.text.getLast?.any isNamePart

/-- What is left after the alias at the start of `s`, if it stands there. -/
def after? (a : Alias ω) (s : List Char) : Option (List Char) :=
  if a.text.isPrefixOf s then
    let rest := s.drop a.text.length
    if a.isWord && rest.head?.any isNamePart then none else some rest
  else none

/-- Longer aliases come first, aliases of one length in the order of their texts. -/
def precedes (a b : Alias ω) : Bool :=
  byteLength b.text < byteLength a.text ||
    (byteLength a.text == byteLength b.text && a.text < b.text)

/-- Puts an alias at its place in a table. -/
def insert (a : Alias ω) : List (Alias ω) → List (Alias ω)
  | [] => [a]
  | b :: t => if a.precedes b then a :: b :: t else b :: insert a t

/-- Why a set of spellings is no table. -/
inductive Fault (ω : Type)
  | empty (operator : ω)
  | repeated (text : List Char) (first second : ω)

/-- Adds the spellings of the operators in turn to a table. -/
def extend (t : List (Alias ω)) : List (ω × List Char) → Except (Fault ω) (List (Alias ω))
  | [] => .ok t
  | (op, text) :: more =>
    if text = [] then .error (.empty op)
    else
      match t.find? (·.text = text) with
      | some other => .error (.repeated text other.operator op)
      | none => extend (insert ⟨text, op⟩ t) more

/-- The table of the given spellings. -/
def table (spellings : List (ω × List String)) : Except (Fault ω) (List (Alias ω)) :=
  extend [] (spellings.flatMap fun (op, texts) => texts.map fun s => (op, s.toList))

/-- The first alias of the table at the start of `s`, with what follows it. -/
def first? : List (Alias ω) → List Char → Option (Alias ω × List Char)
  | [], _ => none
  | a :: t, s =>
    match a.after? s with
    | some rest => some (a, rest)
    | none => first? t s

namespace Fault

def message (number : ω → String) : Fault ω → String
  | empty op => "empty alias for operator " ++ number op
  | repeated text first second =>
    "alias '" ++ String.ofList text ++ "' is registered for operators " ++ number first ++
      " and " ++ number second

end Fault

end Alias

/-- The spellings of the connectives. -/
def connectiveTable : List (Alias Connective) :=
  (Alias.table (Connective.all.map fun c => (c, c.aliases))).toOption.getD []

/-- The spellings of the relations. -/
def relationTable : List (Alias Relation) :=
  (Alias.table (Relation.all.map fun r => (r, r.aliases))).toOption.getD []

end SearchGateway.Filter
