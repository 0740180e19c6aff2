import SearchGateway.Filter.Shape
import SearchGateway.Index.Metadata
import SearchGateway.Query.Clause
import SearchGateway.Query.Wildcard

/-!
# Lowering filters

A filter becomes the boolean query that matches the same documents. A group of one condition is
skipped and its negation carried on to the condition. Under `AND` a negated condition goes to
`must_not`; under `OR` it stays an alternative, wrapped in a `must_not` of its own. Conditions of
one group on fields of the same nested object are gathered in one nested scope, at the place of the
first of them.
-/

namespace SearchGateway

namespace Query

open SearchGateway.Filter (Comparison Connective Literal Point)
open SearchGateway.Index (Metadata)

namespace Lowering

/-- Why a filter cannot be lowered for an index. -/
inductive Fault
  | emptyGroup
  | comparison (f : Comparison.Fault)
  | unknownField (field index : String)
  | notGeoPoint (field : String)
  deriving DecidableEq

def Fault.failure : Fault → Failure
  | emptyGroup => .invalid "filter group has no condition"
  | comparison f => f.failure
  | unknownField field index => .notFound s!"field '{field}' not found in index '{index}'"
  | notGeoPoint field => .invalid s!"field '{field}' is not a geo point"

/-- The box between a north-east and a south-west corner. -/
def box (field : String) (northEast southWest : Point) : Leaf :=
  .geoBox field ⟨southWest.lon, northEast.lat⟩ ⟨northEast.lon, southWest.lat⟩

/-- A ring ends where it starts. -/
def closeRing (points : List Point) : List Point :=
  match points, points.getLast? with
  | p :: _, some q => if p.eqv q then points else points ++ [p]
  | _, _ => points

/-- The clause of a list of values: the id field has a clause of its own. -/
def within (m : Metadata) (field : String) (values : List Literal) : Leaf :=
  if field = m.idField then .ids (some (values.map Literal.termText))
  else .terms field (some values)

/-- The clause of a comparison whose operand fits, and whether it is to be inverted: `DIFFERENT`,
and `EQUAL` to null, which asks for the field to be missing. -/
def leafOf (m : Metadata) (c : Comparison) : Except Fault (Leaf × Bool) :=
  let name := c.field.name
  let misfit (r : Filter.Requirement) : Except Fault (Leaf × Bool) :=
    .error (.comparison (.misfit ⟨c.relation, name, r⟩))
  let geo (l : Leaf) : Except Fault (Leaf × Bool) :=
    if m.isOfKind name .geoPoint then .ok (l, false) else .error (.notGeoPoint name)
  match c.relation with
  | .unset => misfit .knownOperator
  | .equal =>
    if c.value.isNull then .ok (.present name, true)
    else .ok (.matching name c.value "OR", false)
  | .different =>
    if c.value.isNull then .ok (.present name, false)
    else .ok (.matching name c.value "OR", true)
  | .greater => .ok (.range name c.value .null .null .null, false)
  | .greaterEqual => .ok (.range name .null c.value .null .null, false)
  | .less => .ok (.range name .null .null c.value .null, false)
  | .lessEqual => .ok (.range name .null .null .null c.value, false)
  | .range =>
    match c.value.elements with
    | [lo, hi] => .ok (.range name .null lo .null hi, false)
    | _ => misfit .pair
  | .within => .ok (within m name c.value.elements, false)
  | .like => .ok (.wildcard name (wildcardOf c.value.termText), false)
  | .viewport =>
    match c.value.points with
    | [northEast, southWest] => geo (box name northEast southWest)
    | _ => misfit .twoPoints
  | .polygon => geo (.geoPolygon name (some (closeRing c.value.points)))

/-- The clause of any comparison. -/
def comparison (m : Metadata) (c : Comparison) : Except Fault (Leaf × Bool) :=
  match c.check with
  | .error f => .error (.comparison f)
  | .ok () =>
    if m.hasField c.field.name then leafOf m c
    else .error (.unknownField c.field.name m.name)

/-- A clause and whether it is to be inverted. -/
abbrev Placed := Query × Bool

/-- A lowered condition, before the nested ones are gathered. -/
inductive Entry
  | clause (p : Placed)
  | inside (path : String) (p : Placed)
  | group (b : Body) (inverted : Bool)

/-- What takes one place in a group. -/
inductive Slot
  | single (p : Placed)
  | scope (path : String) (ps : List Placed)

namespace Slot

/-- The clauses in the scope of a path. -/
def contents (path : String) : List Slot → List Placed
  | [] => []
  | scope p ps :: more => if p = path then ps ++ contents path more else contents path more
  | single _ :: more => contents path more

def isScope (path : String) : Slot → Bool
  | scope p _ => p = path
  | single _ => false

/-- Adds an entry in front. A condition inside a nested object draws the scope of that object to
its place. -/
def absorb (e : Entry) (slots : List Slot) : List Slot :=
  match e with
  | .clause p => single p :: slots
  | .group b inverted => single (b.toQuery, inverted) :: slots
  | .inside path p =>
    scope path (p :: contents path slots) :: slots.filter fun s => !s.isScope path

def gather (es : List Entry) : List Slot := es.foldr absorb []

end Slot

/-- Clauses joined by a connective. -/
def assemble (op : Connective) (ps : List Placed) : Body :=
  if op = .and then
    { must := (ps.filter fun p => !p.2).map (·.1), mustNot := (ps.filter (·.2)).map (·.1) }
  else
    { should := ps.map fun p => if p.2 then .bool [] [p.1] [] "" else p.1
      minimum := if op = .or then "1" else "" }

/-- The clause of a slot in a group of the connective. -/
def Slot.placed (op : Connective) : Slot → Placed
  | .single p => p
  | .scope path ps => (.nested path (assemble op ps).toQuery, false)

/-- The body of a group. -/
def body (op : Connective) (es : List Entry) : Body :=
  assemble op ((Slot.gather es).map (Slot.placed op))

mutual

/-- Lowers a condition that is inverted by the groups skipped around it. -/
def entry (m : Metadata) (inverted : Bool) : Filter → Except Fault Entry
  | .comparison c => do
    let (l, base) ← comparison m c
    let p : Placed := (.leaf l, ((base ^^ c.negated) ^^ c.field.negated) ^^ inverted)
    return if m.isNested c.field.name then .inside c.field.first p else .clause p
  | .group _ [] _ => .error .emptyGroup
  | .group _ [n] negated => entry m (inverted ^^ negated) n
  | .group op (n :: n' :: ns) negated => do
    return .group (body op (← entries m (n :: n' :: ns))) (negated ^^ inverted)

def entries (m : Metadata) : List Filter → Except Fault (List Entry)
  | [] => .ok []
  | n :: ns => do return (← entry m false n) :: (← entries m ns)

end

end Lowering

/-- Lowers a whole filter to the query at the top. -/
def ofFilter (m : Metadata) (n : Filter) : Except Lowering.Fault Body := do
  match ← Lowering.entry m false n with
  | .group b inverted => return if inverted then { mustNot := [b.toQuery] } else b
  | e => return Lowering.body .and [e]

end Query

end SearchGateway
