/-!
# Operators of the filter language

Connectives join conditions, relations compare a field with a value. Every operator has a
canonical name and further spellings; `unset` is the operator of a condition that was put
together without one.
-/

namespace SearchGateway.Filter

inductive Connective
  | unset | and | or | not
  deriving DecidableEq, Inhabited

namespace Connective

/-- The operators that can be written. -/
def all : List Connective := [and, or, not]

def number : Connective → Nat
  | unset => 0
  | and => 1
  | or => 2
  | not => 3

/-- The spellings, the canonical name first. -/
def aliases : Connective → List String
  | unset => []
  | and => ["AND", "&&"]
  | or => ["OR", "||"]
  | not => ["NOT", "!"]

def name : Connective → String
  | unset => ""
  | and => "AND"
  | or => "OR"
  | not => "NOT"

def ofName (s : String) : Connective := (all.find? (·.name == s)).getD unset

end Connective

inductive Relation
  | unset | equal | different | greater | greaterEqual | less | lessEqual | like | range | within
  | viewport | polygon
  deriving DecidableEq, Inhabited

namespace Relation

/-- The operators that can be written. -/
def all : List Relation :=
  [equal, different, greater, greaterEqual, less, lessEqual, like, range, within, viewport, polygon]

def number : Relation → Nat
  | unset => 0
  | equal => 1
  | different => 2
  | greater => 3
  | greaterEqual => 4
  | less => 5
  | lessEqual => 6
  | like => 7
  | range => 8
  | within => 9
  | viewport => 10
  | polygon => 11

/-- The spellings, the canonical name first. -/
def aliases : Relation → List String
  | unset => []
  | equal => ["EQUAL", "EQ", ":", "="]
  | different => ["DIFFERENT", "NE", "<>", "!="]
  | greater => ["GREATER", "GT", ">"]
  | greaterEqual => ["GREATER_EQUAL", "GTE", ">="]
  | less => ["LESS", "LT", "<"]
  | lessEqual => ["LESS_EQUAL", "LTE", "<="]
  | like => ["LIKE"]
  | range => ["RANGE"]
  | within => ["IN"]
  | viewport => ["VIEWPORT", "@"]
  | polygon => ["POLYGON"]

def name : Relation → String
  | unset => ""
  | equal => "EQUAL"
  | different => "DIFFERENT"
  | greater => "GREATER"
  | greaterEqual => "GREATER_EQUAL"
  | less => "LESS"
  | lessEqual => "LESS_EQUAL"
  | like => "LIKE"
  | range => "RANGE"
  | within => "IN"
  | viewport => "VIEWPORT"
  | polygon => "POLYGON"

def ofName (s : String) : Relation := (all.find? (·.name == s)).getD unset

end Relation

end SearchGateway.Filter
