import SearchGateway.Filter.Literal
import SearchGateway.Filter.Operator

/-!
# Filters

A filter is a comparison of a field with a literal, or a group of filters joined by a connective.
Both carry a negation of their own, so a filter is negated by setting it; negating twice keeps the
first negation visible in a group around it.
-/

namespace SearchGateway

namespace Filter

/-- A reference to a document field by its path. `negated` is the negation written in front of the
field itself. -/
structure Field where
  path : List String
  negated : Bool := false
  deriving DecidableEq, Inhabited

namespace Field

/-- The path with dots between its segments. -/
def name (f : Field) : String := Text.join "." f.path

/-- The first segment of the path. -/
def first (f : Field) : String := f.path.headD ""

def text (f : Field) : String := if f.negated then "NOT " ++ f.name else f.name

end Field

structure Comparison where
  field : Field
  relation : Relation
  value : Literal
  negated : Bool := false
  deriving Inhabited

end Filter

/-- A search filter. -/
inductive Filter
  | comparison (c : Filter.Comparison)
  | group (connective : Filter.Connective) (children : List Filter) (negated : Bool)
  deriving Inhabited

namespace Filter

def isNegated : Filter → Bool
  | comparison c => c.negated
  | group _ _ negated => negated

def setNegated : Filter → Filter
  | comparison c => comparison { c with negated := true }
  | group op children _ => group op children true

/-- Negates a filter. A filter that is negated already is put into a negated group. -/
def negate (n : Filter) : Filter :=
  if n.isNegated then group .and [n] true else n.setNegated

/-- A sequence of operands: one stands for itself, several become a group. -/
def collapse (op : Connective) : List Filter → Filter
  | [n] => n
  | ns => group op ns false

namespace Comparison

def chars (c : Comparison) : List Char :=
  (if c.negated then "NOT ".toList else []) ++ c.field.text.toList ++ ' ' ::
    (c.relation.name.toList ++ ' ' :: c.value.chars)

end Comparison

mutual

/-- The text of a filter. -/
def chars : Filter → List Char
  | comparison c => c.chars
  | group op children negated =>
    (if negated then "NOT ".toList else []) ++ '(' :: (childrenChars op children ++ [')'])

def childrenChars (op : Connective) : List Filter → List Char
  | [] => []
  | [n] => chars n
  | n :: ns => chars n ++ ' ' :: (op.name.toList ++ ' ' :: childrenChars op ns)

end

def text (n : Filter) : String := String.ofList n.chars

end Filter

end SearchGateway
