import SearchGateway.Proofs.Outcome
import SearchGateway.Query.Lowering

/-!
# The fault that lowering reports

`Filter.nodes` lists the nodes of a filter from left to right, a group before what is in it.
`nodeFault?` is what is wrong with one node by itself. Lowering fails exactly if there is something
wrong with a node of the filter, and it reports the first such node (`fault?_entry`, by induction
over the filter).

Lowering reads lists at fixed positions: the first segment of a path, the two bounds of a range, the
corners of a box, the ends of a ring. The shape of an operand that fits makes sure that all of these
are there, and the clause is made of what is read (`Readable`).
-/

namespace SearchGateway

open SearchGateway.Index (Metadata)

namespace Filter

mutual

/-- The nodes of a filter, depth first and from left to right. -/
def nodes : Filter → List Filter
  | comparison c => [comparison c]
  | group op children negated => group op children negated :: nodesIn children

def nodesIn : List Filter → List Filter
  | [] => []
  | n :: ns => nodes n ++ nodesIn ns

end

/-! ### Operands that fit -/

theorem exists_pair_of_rejects {v : Literal} (h : Relation.rejects .range v = none) :
    ∃ lo hi, v.elements = [lo, hi] := by
  unfold Relation.rejects at h
  dsimp only at h
  split at h
  · next lo hi => exact ⟨lo, hi, rfl⟩
  · cases h

theorem exists_corners_of_rejects {v : Literal} (h : Relation.rejects .viewport v = none) :
    ∃ northEast southWest, v.points = [northEast, southWest] := by
  unfold Relation.rejects at h
  dsimp only at h
  split at h
  · next northEast southWest hpoints =>
    exact ⟨northEast, southWest, by rw [Literal.points, hpoints, Option.getD_some]⟩
  · cases h

theorem three_le_of_rejects {v : Literal} (h : Relation.rejects .polygon v = none) :
    3 ≤ v.points.length := by
  unfold Relation.rejects at h
  dsimp only at h
  split at h
  · next ps hpoints =>
    rw [Literal.points, hpoints, Option.getD_some]
    split at h
    · cases h
    · omega
  · cases h

end Filter

namespace Query

open SearchGateway.Filter (Comparison Point)

namespace Lowering

/-- What is wrong with a comparison, in the order of the checks. -/
def comparisonFault? (m : Metadata) (c : Comparison) : Option Fault :=
  if c.field.path = [] then some (.comparison (.field .emptyName))
  else
    match c.relation.rejects c.value with
    | some r => some (.comparison (.misfit ⟨c.relation, c.field.name, r⟩))
    | none =>
      if m.hasField c.field.name = false then some (.unknownField c.field.name m.name)
      else if (c.relation = .viewport ∨ c.relation = .polygon) ∧
          m.isOfKind c.field.name .geoPoint = false then some (.notGeoPoint c.field.name)
      else none

/-- What is wrong with a node by itself; of a group only that it is empty. -/
def nodeFault? (m : Metadata) : Filter → Option Fault
  | .comparison c => comparisonFault? m c
  | .group _ [] _ => some .emptyGroup
  | .group _ (_ :: _) _ => none

variable {m : Metadata}

theorem fault?_leafOf {c : Comparison} (hfits : c.relation.rejects c.value = none) :
    fault? (leafOf m c) =
      if (c.relation = .viewport ∨ c.relation = .polygon) ∧
        m.isOfKind c.field.name .geoPoint = false
      then some (.notGeoPoint c.field.name) else none := by
  unfold leafOf
  cases hr : c.relation <;> rw [hr] at hfits
  case unset => cases hfits
  case equal => cases c.value.isNull <;> rfl
  case different => cases c.value.isNull <;> rfl
  case range =>
    obtain ⟨lo, hi, hvalues⟩ := Filter.exists_pair_of_rejects hfits
    simp only [hvalues]
    rfl
  case viewport =>
    obtain ⟨northEast, southWest, hpoints⟩ := Filter.exists_corners_of_rejects hfits
    simp only [hpoints]
    cases hgeo : m.isOfKind c.field.name .geoPoint <;> simp [fault?]
  case polygon =>
    dsimp only
    cases hgeo : m.isOfKind c.field.name .geoPoint <;> simp [fault?]
  all_goals rfl

theorem check_of_fits {c : Comparison} (hpath : c.field.path ≠ [])
    (hfits : c.relation.rejects c.value = none) : c.check = .ok () := by
  rw [Comparison.check, if_neg hpath, Comparison.misfit?, hfits]
  rfl

theorem fault?_comparison (c : Comparison) : fault? (comparison m c) = comparisonFault? m c := by
  unfold comparison comparisonFault?
  by_cases hpath : c.field.path = []
  · rw [Comparison.check, if_pos hpath, if_pos hpath]
    rfl
  · rw [if_neg hpath]
    cases hfits : c.relation.rejects c.value with
    | some r =>
      rw [Comparison.check, if_neg hpath, Comparison.misfit?, hfits]
      rfl
    | none =>
      rw [check_of_fits hpath hfits]
      dsimp only
      cases hfield : m.hasField c.field.name with
      | false => rfl
      | true => exact fault?_leafOf hfits

mutual

/-- The fault of a condition is that of its first node with one, whatever inverts the condition. -/
theorem fault?_entry : (n : Filter) → (inverted : Bool) →
    fault? (entry m inverted n) = n.nodes.findSome? (nodeFault? m)
  | .comparison c, inverted => by
    rw [entry, fault?_bind_of_ok fun _ => rfl, fault?_comparison, Filter.nodes]
    simp [nodeFault?]
  | .group op [] negated, inverted => by
    rw [entry, Filter.nodes]
    rfl
  | .group op [n] negated, inverted => by
    rw [entry, fault?_entry n, Filter.nodes, List.findSome?_cons_of_isNone rfl, Filter.nodesIn,
      Filter.nodesIn, List.append_nil]
  | .group op (n :: n' :: ns) negated, inverted => by
    rw [entry, fault?_bind_of_ok fun _ => rfl, fault?_entries (n :: n' :: ns), Filter.nodes,
      List.findSome?_cons_of_isNone rfl]

theorem fault?_entries : (ns : List Filter) →
    fault? (entries m ns) = (Filter.nodesIn ns).findSome? (nodeFault? m)
  | [] => by
    rw [entries, Filter.nodesIn]
    rfl
  | n :: ns => by
    rw [entries, Filter.nodesIn, List.findSome?_append, ← fault?_entry n false,
      ← fault?_entries ns]
    cases entry m false n with
    | error f => rfl
    | ok e => cases entries m ns <;> rfl

end

theorem fault?_ofFilter (n : Filter) :
    fault? (ofFilter m n) = n.nodes.findSome? (nodeFault? m) := by
  rw [← fault?_entry n false, ofFilter]
  cases entry m false n with
  | error f => rfl
  | ok e => cases e <;> rfl

/-! ### Reading by position -/

/-- The positions that lowering a comparison reads are there, and its clause has what they hold. -/
structure Readable (m : Metadata) (c : Comparison) : Prop where
  first : c.field.path[0]? = some c.field.first
  bounds : c.relation = .range → ∃ lo hi,
    c.value.elements[0]? = some lo ∧ c.value.elements[1]? = some hi ∧
      comparison m c = .ok (.range c.field.name .null lo .null hi, false)
  corners : c.relation = .viewport → ∃ northEast southWest,
    c.value.points[0]? = some northEast ∧ c.value.points[1]? = some southWest ∧
      comparison m c = .ok (box c.field.name northEast southWest, false)
  ring : c.relation = .polygon → ∃ first last,
    c.value.points[0]? = some first ∧ c.value.points[c.value.points.length - 1]? = some last ∧
      comparison m c = .ok (.geoPolygon c.field.name (some
        (if first.eqv last then c.value.points else c.value.points ++ [first])), false)

theorem closeRing_eq {points : List Point} (h : points ≠ []) : ∃ first last,
    points[0]? = some first ∧ points[points.length - 1]? = some last ∧
      closeRing points = if first.eqv last then points else points ++ [first] := by
  obtain ⟨first, more, rfl⟩ := List.exists_cons_of_ne_nil h
  refine ⟨first, (first :: more).getLast h, rfl, ?_, ?_⟩
  · rw [← List.getLast?_eq_getElem?, List.getLast?_eq_some_getLast h]
  · unfold closeRing
    rw [List.getLast?_eq_some_getLast h]

/-- A comparison with nothing wrong has a path, an operand that fits and a known field, and that
field holds places if the relation is about places. -/
theorem checks_of_comparisonFault? {c : Comparison} (h : comparisonFault? m c = none) :
    c.field.path ≠ [] ∧ c.relation.rejects c.value = none ∧ m.hasField c.field.name = true ∧
      (c.relation = .viewport ∨ c.relation = .polygon →
        m.isOfKind c.field.name .geoPoint = true) := by
  unfold comparisonFault? at h
  split at h
  · cases h
  · next hpath =>
    split at h
    · cases h
    · next hfits =>
      split at h
      · cases h
      · next hfield =>
        split at h
        · cases h
        · next hgeo =>
          rw [Bool.not_eq_false] at hfield
          refine ⟨hpath, hfits, hfield, fun hplace => ?_⟩
          cases hkind : m.isOfKind c.field.name .geoPoint with
          | true => rfl
          | false => exact absurd ⟨hplace, hkind⟩ hgeo

theorem readable_of_comparisonFault? {c : Comparison} (h : comparisonFault? m c = none) :
    Readable m c := by
  obtain ⟨hpath, hfits, hfield, hgeo⟩ := checks_of_comparisonFault? h
  have hleaf : comparison m c = leafOf m c := by
    rw [comparison, check_of_fits hpath hfits]
    exact if_pos hfield
  refine ⟨?_, fun hr => ?_, fun hr => ?_, fun hr => ?_⟩
  · obtain ⟨segment, more, hcons⟩ := List.exists_cons_of_ne_nil hpath
    rw [Filter.Field.first, hcons]
    rfl
  · rw [hr] at hfits
    obtain ⟨lo, hi, hvalues⟩ := Filter.exists_pair_of_rejects hfits
    rw [hleaf, leafOf, hr]
    simp [hvalues]
  · rw [hr] at hfits
    obtain ⟨northEast, southWest, hpoints⟩ := Filter.exists_corners_of_rejects hfits
    rw [hleaf, leafOf, hr]
    simp [hpoints, hgeo (.inl hr)]
  · rw [hr] at hfits
    have hlength := Filter.three_le_of_rejects hfits
    have hne : c.value.points ≠ [] := List.ne_nil_of_length_pos (by omega)
    obtain ⟨first, last, hfirst, hlast, hring⟩ := closeRing_eq hne
    refine ⟨first, last, hfirst, hlast, ?_⟩
    rw [hleaf, leafOf, hr]
    simp [hring, hgeo (.inr hr)]

end Lowering

open Lowering (nodeFault? Readable)

/-- A filter is lowered exactly if nothing is wrong with any of its nodes; otherwise the first node
with a fault decides. No list is read beyond its end while a filter is lowered. -/
theorem ofFilter_eq_error_iff (m : Metadata) (n : Filter) :
    (∀ f, ofFilter m n = .error f ↔ ∃ before k after, n.nodes = before ++ k :: after ∧
      nodeFault? m k = some f ∧ ∀ k' ∈ before, nodeFault? m k' = none) ∧
    ((∃ f, ofFilter m n = .error f) ↔ ∃ k ∈ n.nodes, (nodeFault? m k).isSome = true) ∧
    ∀ b, ofFilter m n = .ok b →
      ∀ c, .comparison c ∈ n.nodes → Readable m c := by
  have hfault := Lowering.fault?_ofFilter (m := m) n
  refine ⟨fun f => ?_, ?_, fun b hb c hc => ?_⟩
  · rw [← fault?_eq_some_iff, hfault, List.findSome?_eq_some_iff]
  · rw [← List.findSome?_isSome_iff, ← hfault, Option.isSome_iff_exists]
    exact exists_congr fun f => fault?_eq_some_iff.symm
  · rw [hb] at hfault
    have hnone := List.findSome?_eq_none_iff.1 hfault.symm _ hc
    exact Lowering.readable_of_comparisonFault? hnone

/-- An index of houses: a text, a place, and nested offers. -/
def housesIndex : Metadata where
  name := "houses"
  idField := "id"
  shards := 2
  defaultSize := 20
  maxSize := 200
  facetSize := 20
  minimumShouldMatch := "75%"
  defaultFields := []
  sourceIncludes := []
  sourceExcludes := []
  queryTimeout := 0
  fields := [("title", .text), ("place", .geoPoint), ("offer", .nested), ("offer.price", .other)]

/-- `offer.price RANGE [1,5]`, negated twice by groups. -/
def rangeSample : Filter :=
  .group .or [.group .and
    [.comparison ⟨⟨["offer", "price"], false⟩, .range, .list [.int 1, .int 5], false⟩] true] true

/-- A box on a field that holds no places, behind a sound condition and before an empty group. -/
def misplacedBox : Filter :=
  .group .and
    [rangeSample,
      .group .or
        [.comparison ⟨⟨["title"], false⟩, .viewport,
            .list [.list [.int 2, .int 2], .list [.int 1, .int 1]], false⟩,
          .group .and [] false] false] false

theorem ofFilter_eq_error_iff_houses :
    ofFilter housesIndex misplacedBox = .error (.notGeoPoint "title") ∧
      ∃ b, ofFilter housesIndex rangeSample = .ok b ∧
        ∀ c, .comparison c ∈ rangeSample.nodes → Readable housesIndex c := by
  refine ⟨?_, _, rfl, (ofFilter_eq_error_iff housesIndex rangeSample).2.2 _ rfl⟩
  exact ((ofFilter_eq_error_iff housesIndex misplacedBox).1 _).2
    ⟨misplacedBox.nodes.take 5, _, _, rfl, rfl, by decide⟩

end Query

end SearchGateway
