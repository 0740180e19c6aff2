import SearchGateway.Failure
import SearchGateway.Filter.Tree

/-!
# Fields and operands that fit

A field needs a path without empty segments. Each relation takes operands of one shape: a single
value, a pair, a list or points. `Relation.rejects` names the requirement an operand fails, if it
fails one.
-/

namespace SearchGateway.Filter

namespace Field

/-- Why a path is no field. -/
inductive Fault
  | emptyName
  | emptySegment (name : String)
  deriving DecidableEq

def Fault.failure : Fault → Failure
  | emptyName => .malformed "field name is empty"
  | emptySegment name => .malformed ("field '" ++ name ++ "' has an empty path segment")

/-- A field of the given segments, none of which may be empty. -/
def make (path : List String) : Except Fault Field :=
  if path = [] then .error .emptyName
  else if path.any (· == "") then .error (.emptySegment (Text.join "." path))
  else .ok ⟨path, false⟩

end Field

/-- What a relation asks of its operand. -/
inductive Requirement
  | single | nonNull | pair | nonEmpty | singles | twoPoints | threePoints | threeDistinct
  | knownOperator
  deriving DecidableEq

/-- The points that differ from all before them. -/
def distinctPoints : List Point → List Point
  | [] => []
  | p :: ps => p :: (distinctPoints ps).filter fun q => !p.eqv q

/-- The requirement of the relation that the operand fails. -/
def Relation.rejects (r : Relation) (v : Literal) : Option Requirement :=
  match r with
  | .unset => some .knownOperator
  | .equal | .different => if v.isNull || v.isScalar then none else some .single
  | .greater | .greaterEqual | .less | .lessEqual | .like =>
    if v.isScalar then none else some .nonNull
  | .range =>
    match v with
    | .list [lo, hi] => if lo.isScalar && hi.isScalar then none else some .pair
    | _ => some .pair
  | .within =>
    match v with
    | .list (e :: es) => if (e :: es).all Literal.isScalar then none else some .singles
    | _ => some .nonEmpty
  | .viewport =>
    match v.points? with
    | some [_, _] => none
    | _ => some .twoPoints
  | .polygon =>
    match v.points? with
    | some ps =>
      if ps.length < 3 then some .threePoints
      else if (distinctPoints ps).length < 3 then some .threeDistinct
      else none
    | none => some .threePoints

/-- The operand of a comparison has the wrong shape. -/
structure Misfit where
  relation : Relation
  field : String
  requirement : Requirement
  deriving DecidableEq

namespace Misfit

def failure (m : Misfit) : Failure :=
  let on := "operator " ++ m.relation.name ++ " on field '" ++ m.field ++ "' "
  .invalid <|
    match m.requirement with
    | .single => on ++ "requires a single value"
    | .nonNull => on ++ "requires a single non null value"
    | .pair => on ++ "requires exactly two values [from,to]"
    | .nonEmpty => on ++ "requires a non empty list of values"
    | .singles => on ++ "accepts only single values in its list"
    | .twoPoints => on ++ "requires exactly two [lon,lat] points"
    | .threePoints => on ++ "requires at least three [lon,lat] points"
    | .threeDistinct => on ++ "requires at least three distinct [lon,lat] points"
    | .knownOperator => "unknown operator on field '" ++ m.field ++ "'"

end Misfit

namespace Comparison

/-- The misfit of a comparison's operand, if any. -/
def misfit? (c : Comparison) : Option Misfit :=
  (c.relation.rejects c.value).map fun r => ⟨c.relation, c.field.name, r⟩

/-- A comparison of the given parts, unless the operand does not fit. -/
def make (field : Field) (relation : Relation) (value : Literal) : Except Misfit Comparison :=
  let c : Comparison := ⟨field, relation, value, false⟩
  match c.misfit? with
  | some m => .error m
  | none => .ok c

/-- Why a comparison put together by hand is refused. -/
inductive Fault
  | field (f : Field.Fault)
  | misfit (m : Misfit)
  deriving DecidableEq

def Fault.failure : Fault → Failure
  | .field f => f.failure
  | .misfit m => m.failure

/-- Checks a comparison: it needs a path, and an operand that fits. -/
def check (c : Comparison) : Except Fault Unit :=
  if c.field.path = [] then .error (.field .emptyName)
  else
    match c.misfit? with
    | some m => .error (.misfit m)
    | none => .ok ()

end Comparison

end SearchGateway.Filter
