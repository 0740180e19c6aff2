import SearchGateway.Query.Lowering
import SearchGateway.Proofs.Filter.Structure

/-!
# What queries and filters mean

A `Corpus` says which leaf clauses are true of a document and of the objects nested in it, and
which objects stand at a path. `Query.holds` is the rule of the backend: a boolean query holds when
all of `must` hold, none of `mustNot` does and, if `minimum` is `"1"`, one of `should` does; a
nested query holds when it holds of some object at its path.

`Filter.holds` is the meaning of a filter, said without the query it is lowered to. A comparison
is true in a scope: the document, or one object of a nested path. A container joins its plain
comparisons, its sub-groups and, for each nested path, the statement that one object of that path
satisfies its comparisons there together.
-/

namespace SearchGateway

open SearchGateway.Index (Metadata)

universe u

structure Corpus (σ : Type u) where
  truth : σ → Query.Leaf → Bool
  objects : σ → String → List σ

namespace Query

variable {σ : Type u}

mutual

def holds (w : Corpus σ) : Query → σ → Bool
  | leaf l, d => w.truth d l
  | bool must mustNot should minimum, d =>
    allHold w must d && !anyHolds w mustNot d && (minimum != "1" || anyHolds w should d)
  | nested path q, d => (w.objects d path).any fun o => holds w q o

def allHold (w : Corpus σ) : List Query → σ → Bool
  | [], _ => true
  | q :: qs, d => holds w q d && allHold w qs d

def anyHolds (w : Corpus σ) : List Query → σ → Bool
  | [], _ => false
  | q :: qs, d => holds w q d || anyHolds w qs d

end

theorem allHold_eq_all (w : Corpus σ) (qs : List Query) (d : σ) :
    allHold w qs d = qs.all (holds w · d) := by
  induction qs with
  | nil => rfl
  | cons q qs ih => rw [allHold, ih, List.all_cons]

theorem anyHolds_eq_any (w : Corpus σ) (qs : List Query) (d : σ) :
    anyHolds w qs d = qs.any (holds w · d) := by
  induction qs with
  | nil => rfl
  | cons q qs ih => rw [anyHolds, ih, List.any_cons]

theorem holds_bool (w : Corpus σ) (must mustNot should : List Query) (minimum : String) (d : σ) :
    (bool must mustNot should minimum).holds w d =
      (must.all (holds w · d) && !mustNot.any (holds w · d) &&
        (minimum != "1" || should.any (holds w · d))) := by
  rw [holds, allHold_eq_all, anyHolds_eq_any, anyHolds_eq_any]

theorem holds_nested (w : Corpus σ) (path : String) (q : Query) (d : σ) :
    (nested path q).holds w d = (w.objects d path).any (holds w q) := by
  rw [holds]

end Query

namespace Filter

/-- All of the truth values, or some of them. -/
def Connective.joins (op : Connective) (truths : List Bool) : Bool :=
  if op = .and then truths.all id else truths.any id

/-- No segment of the path holds a dot. -/
def Field.Dotless (f : Field) : Prop := ∀ s ∈ f.path, '.' ∉ s.toList

instance (f : Field) : Decidable f.Dotless :=
  inferInstanceAs (Decidable (∀ s ∈ f.path, '.' ∉ s.toList))

/-- A comparison that asks for its clause to fail: a difference from a value, or equality with
null. -/
def Comparison.inverts (c : Comparison) : Bool :=
  (c.relation == .different && !c.value.isNull) || (c.relation == .equal && c.value.isNull)

/-- The field lies inside a nested object, named by the first segment of its path. -/
def Comparison.isInside (m : Metadata) (c : Comparison) : Bool := m.isOfKind c.field.first .nested

/-- The comparisons among the children of a container, each with the parity of the negated groups
skipped around it. -/
def comparisons (children : List Filter) : List (Comparison × Bool) :=
  children.filterMap fun n =>
    match n.core with
    | (comparison c, flipped) => some (c, flipped)
    | _ => none

section meaning

variable {σ : Type u} (m : Metadata) (w : Corpus σ)

/-- The clause of the comparison is true of the object. -/
def Comparison.clauseHolds (o : σ) (c : Comparison) : Bool :=
  match Query.Lowering.comparison m c with
  | .ok (l, _) => w.truth o l
  | .error _ => false

def Comparison.holds (o : σ) (c : Comparison) (flipped : Bool) : Bool :=
  (((c.clauseHolds m w o ^^ c.inverts) ^^ c.negated) ^^ c.field.negated) ^^ flipped

/-- The comparisons on fields outside of nested objects, in the document. -/
def plainTruths (d : σ) (cs : List (Comparison × Bool)) : List Bool :=
  (cs.filter fun c => !c.1.isInside m).map fun c => c.1.holds m w d c.2

/-- The comparisons on fields inside objects at the path, in one of these objects. -/
def scopeTruths (path : String) (o : σ) (cs : List (Comparison × Bool)) : List Bool :=
  (cs.filter fun c => c.1.isInside m && c.1.field.first == path).map fun c => c.1.holds m w o c.2

/-- For each nested path: one object there satisfies the comparisons on it. -/
def nestedTruths (d : σ) (op : Connective) (cs : List (Comparison × Bool)) : List Bool :=
  (cs.filter fun c => c.1.isInside m).map fun c =>
    (w.objects d c.1.field.first).any fun o => op.joins (scopeTruths m w c.1.field.first o cs)

/-- A container of comparisons and of sub-groups whose truth is given. -/
def containerHolds (d : σ) (op : Connective) (cs : List (Comparison × Bool))
    (groups : List Bool) : Bool :=
  op.joins (plainTruths m w d cs ++ groups ++ nestedTruths m w d op cs)

mutual

/-- The truth of a child that is a group behind the single-child groups skipped around it. -/
def groupHolds? (d : σ) (flipped : Bool) : Filter → Option Bool
  | comparison _ => none
  | group _ [n] negated => groupHolds? d (flipped ^^ negated) n
  | group op children negated =>
    some ((containerHolds m w d op (comparisons children) (groupTruths d children) ^^ negated) ^^
      flipped)

def groupTruths (d : σ) : List Filter → List Bool
  | [] => []
  | n :: ns => (groupHolds? d false n).toList ++ groupTruths d ns

end

/-- The filter holds of a document. A comparison alone is a container of one condition. -/
def holds (d : σ) (n : Filter) : Bool :=
  (groupHolds? m w d false n).getD (containerHolds m w d .and (comparisons [n]) [])

end meaning

end Filter

end SearchGateway
