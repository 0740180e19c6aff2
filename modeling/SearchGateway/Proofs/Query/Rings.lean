import SearchGateway.Proofs.Query.Faults
import SearchGateway.Proofs.Query.Polarity

/-!
# Rings of lowered polygons

The operand of a polygon is a list of points, and only the number of different ones is checked. A
list whose ends differ is closed with its first point when it is lowered. In a list whose ends are
equal already one of these does not count as a further point, so three different points take four
places in either case (`Closes.isRing`).

The clauses of a lowered filter are those of its comparisons, whatever the shape of the filter
(`mem_leaves_ofFilter`), so this is said of every polygon in a query.
-/

namespace SearchGateway

open SearchGateway.Index (Metadata)

namespace Filter

/-! ### Points as they are written -/

/-- The literal is a list of pairs `[lon,lat]` of numbers, and these are the points. -/
def Literal.Writes (v : Literal) (ps : List Point) : Prop :=
  ∃ pairs : List (Literal × Literal), v = .list (pairs.map fun x => .list [x.1, x.2]) ∧
    List.Forall₂ (fun x p => x.1.number? = some p.lon ∧ x.2.number? = some p.lat) pairs ps

theorem point?_eq_some_iff {v : Literal} {p : Point} : v.point? = some p ↔
    ∃ lon lat, v = .list [lon, lat] ∧ lon.number? = some p.lon ∧ lat.number? = some p.lat := by
  unfold Literal.point?
  constructor
  · intro h
    split at h
    · next lon lat =>
      obtain ⟨x, hx, h⟩ := Option.bind_eq_some_iff.1 h
      obtain ⟨y, hy, h⟩ := Option.bind_eq_some_iff.1 h
      cases h
      exact ⟨lon, lat, rfl, hx, hy⟩
    · cases h
  · rintro ⟨lon, lat, rfl, hlon, hlat⟩
    simp [hlon, hlat]

theorem points?_eq_some_iff {v : Literal} {ps : List Point} :
    v.points? = some ps ↔ v.Writes ps := by
  unfold Literal.points?
  constructor
  · intro h
    split at h
    · next items =>
      rw [mapM_eq_some_iff] at h
      induction h with
      | nil => exact ⟨[], rfl, .nil⟩
      | cons hp _ ih =>
        obtain ⟨lon, lat, rfl, hlon, hlat⟩ := point?_eq_some_iff.1 hp
        obtain ⟨pairs, hpairs, hall⟩ := ih
        cases hpairs
        exact ⟨(lon, lat) :: pairs, rfl, .cons ⟨hlon, hlat⟩ hall⟩
    · cases h
  · rintro ⟨pairs, rfl, hall⟩
    dsimp only
    rw [mapM_eq_some_iff, List.forall₂_map_left_iff]
    exact hall.imp fun x p h => point?_eq_some_iff.2 ⟨x.1, x.2, rfl, h.1, h.2⟩

/-! ### Different points -/

abbrev Point.IsFinite (p : Point) : Prop := p.lon.isFinite = true ∧ p.lat.isFinite = true

theorem Point.eqv_self {p : Point} (h : p.IsFinite) : p.eqv p = true := by
  have hself {x : Binary64} (hx : x.isFinite = true) : x.eqv x = true := by
    rw [Binary64.isFinite, decide_eq_true_eq] at hx
    have hnan : x.isNaN = false := decide_eq_false (by omega)
    simp [Binary64.eqv, hnan]
  rw [Point.eqv, hself h.1, hself h.2]
  rfl

theorem mem_of_mem_distinctPoints {ps : List Point} {p : Point} (h : p ∈ distinctPoints ps) :
    p ∈ ps := by
  induction ps with
  | nil => exact h
  | cons q ps ih =>
    rcases List.mem_cons.1 h with rfl | h
    · exact List.mem_cons_self
    · exact List.mem_cons_of_mem _ (ih (List.mem_filter.1 h).1)

theorem pairwise_distinctPoints (ps : List Point) :
    (distinctPoints ps).Pairwise fun p q => p.eqv q = false := by
  induction ps with
  | nil => exact .nil
  | cons p ps ih =>
    refine List.pairwise_cons.2 ⟨fun q hq => ?_, ih.filter _⟩
    simpa using (List.mem_filter.1 hq).2

theorem length_distinctPoints_le (ps : List Point) : (distinctPoints ps).length ≤ ps.length := by
  induction ps with
  | nil => exact Nat.le_refl _
  | cons p ps ih =>
    have := List.length_filter_le (fun q => !p.eqv q) (distinctPoints ps)
    rw [distinctPoints, List.length_cons, List.length_cons]
    omega

theorem points_of_rejects {v : Literal} (h : Relation.rejects .polygon v = none) :
    ∃ ps, v.points? = some ps ∧ 3 ≤ (distinctPoints ps).length := by
  unfold Relation.rejects at h
  dsimp only at h
  split at h
  · next ps hpoints =>
    split at h
    · cases h
    · split at h
      · cases h
      · exact ⟨ps, hpoints, by omega⟩
  · cases h

/-! ### Comparisons as nodes -/

mutual

theorem mem_nodes_of_mem_conditions : (n : Filter) → {k : Condition} →
    k ∈ n.conditions → .comparison k.comparison ∈ n.nodes
  | .comparison c, _, h => by
    rw [conditions, List.mem_singleton] at h
    rw [h, nodes]
    exact List.mem_singleton.2 rfl
  | .group op ns negated, _, h => by
    rw [conditions] at h
    rw [nodes]
    exact List.mem_cons_of_mem _ (mem_nodesIn_of_mem_conditionsIn ns h)

theorem mem_nodesIn_of_mem_conditionsIn {negated : Bool} : (ns : List Filter) → {k : Condition} →
    k ∈ conditionsIn negated ns → .comparison k.comparison ∈ nodesIn ns
  | [], _, h => by cases h
  | n :: ns, _, h => by
    rw [conditionsIn] at h
    rw [nodesIn]
    rcases List.mem_append.1 h with h | h
    · obtain ⟨k, hk, rfl⟩ := List.mem_map.1 h
      have hnode := mem_nodes_of_mem_conditions n hk
      exact List.mem_append_left _ hnode
    · exact List.mem_append_right _ (mem_nodesIn_of_mem_conditionsIn ns h)

end

end Filter

namespace Query

open SearchGateway.Filter (Comparison Condition Connective Literal Point distinctPoints)

/-! ### Rings -/

/-- A closed line with at least three corners. -/
structure IsRing (ring : List Point) : Prop where
  closed : ∃ first last, ring.head? = some first ∧ ring.getLast? = some last ∧
    first.eqv last = true
  four_le : 4 ≤ ring.length
  corners : ∃ ps : List Point, ps.length = 3 ∧ (∀ p ∈ ps, p ∈ ring) ∧
    ps.Pairwise fun p q => p.eqv q = false

/-- A list of points and the ring it is sent as: itself if its ends are equal, and else with its
first point once more at the end. -/
inductive Closes (written : List Point) : List Point → Prop where
  | closed {first last : Point} : written.head? = some first → written.getLast? = some last →
      first.eqv last = true → Closes written written
  | opened {first last : Point} : written.head? = some first → written.getLast? = some last →
      first.eqv last = false → Closes written (written ++ [first])

theorem closes_closeRing {points : List Point} (h : points ≠ []) :
    Closes points (Lowering.closeRing points) := by
  obtain ⟨first, last, hfirst, hlast, hring⟩ := Lowering.closeRing_eq h
  rw [← List.head?_eq_getElem?] at hfirst
  rw [← List.getLast?_eq_getElem?] at hlast
  rw [hring]
  cases heqv : first.eqv last with
  | true => exact .closed hfirst hlast heqv
  | false => exact .opened hfirst hlast heqv

/-- Three points with equal ends are at most two different ones. -/
theorem four_le_of_closed {points : List Point} {first last : Point}
    (hfirst : points.head? = some first) (hlast : points.getLast? = some last)
    (heqv : first.eqv last = true) (h : 3 ≤ (distinctPoints points).length) :
    4 ≤ points.length := by
  have hlength := Filter.length_distinctPoints_le points
  by_contra hshort
  obtain ⟨p, q, r, rfl⟩ := List.length_eq_three.1 (by omega : points.length = 3)
  rw [List.head?_cons, Option.some.injEq] at hfirst
  rw [List.getLast?_cons_cons, List.getLast?_cons_cons, List.getLast?_singleton,
    Option.some.injEq] at hlast
  subst hfirst hlast
  cases hpq : p.eqv q <;> cases hqr : q.eqv r <;>
    simp [distinctPoints, heqv, hpq, hqr] at h

theorem corners_of_distinctPoints {points ring : List Point}
    (hring : ∀ p ∈ points, p ∈ ring) (h : 3 ≤ (distinctPoints points).length) :
    ∃ ps : List Point, ps.length = 3 ∧ (∀ p ∈ ps, p ∈ ring) ∧
      ps.Pairwise fun p q => p.eqv q = false := by
  refine ⟨(distinctPoints points).take 3, ?_, fun p hp => ?_, ?_⟩
  · rw [List.length_take, Nat.min_eq_left h]
  · exact hring p (Filter.mem_of_mem_distinctPoints (List.mem_of_mem_take hp))
  · exact (Filter.pairwise_distinctPoints points).sublist (List.take_sublist 3 _)

theorem Closes.isRing {written ring : List Point} (h : Closes written ring)
    (hfinite : ∀ p ∈ written, p.IsFinite) (hdistinct : 3 ≤ (distinctPoints written).length) :
    IsRing ring := by
  cases h with
  | @closed first last hfirst hlast heqv =>
    exact ⟨⟨first, last, hfirst, hlast, heqv⟩, four_le_of_closed hfirst hlast heqv hdistinct,
      corners_of_distinctPoints (fun _ hp => hp) hdistinct⟩
  | @opened first last hfirst hlast heqv =>
    have hlength := Filter.length_distinctPoints_le written
    have hself := Point.eqv_self (hfinite first (List.mem_of_head? hfirst))
    refine ⟨⟨first, first, ?_, ?_, hself⟩, ?_, ?_⟩
    · rw [List.head?_append, hfirst, Option.some_or]
    · rw [List.getLast?_concat]
    · rw [List.length_append, List.length_singleton]
      omega
    · exact corners_of_distinctPoints (fun _ => List.mem_append_left _) hdistinct

/-! ### The clauses of a filter -/

/-- The leaf clauses of a query. -/
def leaves (q : Query) : List Leaf := q.sites.map Site.leaf

theorem leaves_eq_map_traces (q : Query) : q.leaves = q.traces.map Trace.leaf := by
  rw [leaves, traces, List.map_map]
  rfl

namespace Lowering

variable {m : Metadata}

def Entry.leaves (e : Entry) : List Leaf := e.traces.map Trace.leaf

theorem leaves_placed (p : Placed) : p.traces.map Trace.leaf = p.1.leaves := by
  rw [Placed.traces, List.map_map, leaves_eq_map_traces]
  rfl

theorem Entry.leaves_group (b : Body) (inverted : Bool) :
    (Entry.group b inverted).leaves = b.toQuery.leaves :=
  leaves_placed (b.toQuery, inverted)

theorem mem_leaves_body {op : Connective} {es : List Entry} {l : Leaf} :
    l ∈ (body op es).toQuery.leaves ↔ ∃ e ∈ es, l ∈ e.leaves := by
  rw [leaves_eq_map_traces, ((traces_body op es).map Trace.leaf).mem_iff, List.map_flatMap,
    List.mem_flatMap]
  rfl

/-- A comparison of the filter becomes the clause. -/
def Yields (m : Metadata) (l : Leaf) (n : Filter) : Prop :=
  ∃ k ∈ n.conditions, ∃ base, comparison m k.comparison = .ok (l, base)

theorem yields_group {op : Connective} {ns : List Filter} {negated : Bool} {l : Leaf} :
    Yields m l (.group op ns negated) ↔ ∃ n ∈ ns, Yields m l n := by
  unfold Yields
  rw [Filter.conditions_group]
  constructor
  · rintro ⟨k, hk, hl⟩
    obtain ⟨k', hk', rfl⟩ := List.mem_map.1 hk
    obtain ⟨n, hn, hk'⟩ := List.mem_flatMap.1 hk'
    exact ⟨n, hn, k', hk', hl⟩
  · rintro ⟨n, hn, k, hk, hl⟩
    exact ⟨k.within negated, List.mem_map.2 ⟨k, List.mem_flatMap.2 ⟨n, hn, hk⟩, rfl⟩, hl⟩

theorem mem_leaves_comparison {c : Comparison} {inverted : Bool} {e : Entry}
    (h : entry m inverted (.comparison c) = .ok e) {l : Leaf} :
    l ∈ e.leaves ↔ Yields m l (.comparison c) := by
  rw [entry] at h
  obtain ⟨⟨l', base⟩, hl, h⟩ := bind_eq_ok_iff.1 h
  have hleaves : e.leaves = [l'] := by
    cases hnested : m.isNested c.field.name <;> simp only [hnested] at h <;> cases h <;>
      simp [Entry.leaves, Entry.traces, Placed.traces, traces_leaf, Trace.turn, Trace.enter]
  rw [hleaves, List.mem_singleton, Yields, Filter.conditions]
  simp only [List.mem_singleton, exists_eq_left, hl, Except.ok.injEq, Prod.mk.injEq,
    exists_and_left, exists_eq', and_true]
  exact eq_comm

mutual

/-- The clauses of a condition are those of its comparisons. -/
theorem mem_leaves_entry {l : Leaf} : (n : Filter) → {inverted : Bool} → {e : Entry} →
    entry m inverted n = .ok e → (l ∈ e.leaves ↔ Yields m l n)
  | .comparison c, _, _, h => mem_leaves_comparison h
  | .group op [] negated, _, _, h => by
    rw [entry] at h
    cases h
  | .group op [n] negated, _, _, h => by
    rw [entry] at h
    rw [mem_leaves_entry n h, yields_group]
    simp only [List.mem_singleton, exists_eq_left]
  | .group op (n :: n' :: ns) negated, _, _, h => by
    rw [entry] at h
    obtain ⟨es, hes, h⟩ := bind_eq_ok_iff.1 h
    cases h
    rw [Entry.leaves_group, mem_leaves_body, mem_leaves_entries (n :: n' :: ns) hes, yields_group]

theorem mem_leaves_entries {l : Leaf} : (ns : List Filter) → {es : List Entry} →
    entries m ns = .ok es → ((∃ e ∈ es, l ∈ e.leaves) ↔ ∃ n ∈ ns, Yields m l n)
  | [], _, h => by
    rw [entries] at h
    cases h
    simp
  | n :: ns, _, h => by
    rw [entries] at h
    obtain ⟨e, he, h⟩ := bind_eq_ok_iff.1 h
    obtain ⟨es, hes, h⟩ := bind_eq_ok_iff.1 h
    cases h
    rw [List.exists_mem_cons_iff, List.exists_mem_cons_iff, mem_leaves_entry n he,
      mem_leaves_entries ns hes]

end

theorem mem_leaves_ofFilter {n : Filter} {b : Body} (h : ofFilter m n = .ok b) {l : Leaf} :
    l ∈ b.toQuery.leaves ↔ Yields m l n := by
  rw [ofFilter] at h
  obtain ⟨e, he, h⟩ := bind_eq_ok_iff.1 h
  rw [← mem_leaves_entry n he]
  cases e with
  | clause p =>
    cases h
    simp only [mem_leaves_body, List.mem_singleton, exists_eq_left]
  | inside path p =>
    cases h
    simp only [mem_leaves_body, List.mem_singleton, exists_eq_left]
  | group b' inverted =>
    have hsame : b.toQuery.leaves = b'.toQuery.leaves := by
      rw [leaves_eq_map_traces, leaves_eq_map_traces]
      cases inverted <;> cases h <;>
        simp [Body.toQuery, traces_bool, Trace.turn, Function.comp_def]
    rw [hsame, Entry.leaves_group]

/-- Every comparison of a lowered filter has become a clause. -/
theorem exists_comparison_eq_ok {n : Filter} {b : Body} (h : ofFilter m n = .ok b)
    {k : Condition} (hk : k ∈ n.conditions) :
    ∃ l base, comparison m k.comparison = .ok (l, base) := by
  have hnodes := fault?_ofFilter (m := m) n
  rw [h] at hnodes
  have hnode := List.findSome?_eq_none_iff.1 hnodes.symm _ (Filter.mem_nodes_of_mem_conditions n hk)
  rw [nodeFault?, ← fault?_comparison] at hnode
  cases hc : comparison m k.comparison with
  | ok r => exact ⟨r.1, r.2, rfl⟩
  | error f => rw [hc] at hnode; cases hnode

/-! ### Polygons -/

theorem relation_of_geoPolygon {c : Comparison} {field : String} {points : Option (List Point)}
    {base : Bool} (h : comparison m c = .ok (.geoPolygon field points, base)) :
    c.relation = .polygon := by
  have hleaf := (comparison_eq_ok_iff.1 h).2.2
  unfold leafOf at hleaf
  cases hr : c.relation <;> simp only [hr] at hleaf
  case polygon => rfl
  case within =>
    unfold within at hleaf
    split at hleaf <;> cases hleaf
  all_goals
    repeat' split at hleaf
    all_goals cases hleaf

theorem comparison_polygon {c : Comparison} {l : Leaf} {base : Bool}
    (h : comparison m c = .ok (l, base)) (hr : c.relation = .polygon) :
    ∃ written, c.value.points? = some written ∧ 3 ≤ (distinctPoints written).length ∧
      l = .geoPolygon c.field.name (some (closeRing written)) := by
  have hfault : comparisonFault? m c = none := by rw [← fault?_comparison, h]; rfl
  have hfits := (checks_of_comparisonFault? hfault).2.1
  rw [hr] at hfits
  obtain ⟨written, hpoints, hdistinct⟩ := Filter.points_of_rejects hfits
  refine ⟨written, hpoints, hdistinct, ?_⟩
  have hleaf := (comparison_eq_ok_iff.1 h).2.2
  simp only [leafOf, hr, Filter.Literal.points, hpoints, Option.getD_some] at hleaf
  split at hleaf
  · cases hleaf
    rfl
  · cases hleaf

end Lowering

/-- The clause that a polygon becomes: the points written in it, closed to a ring and sent in this
order. -/
structure Draws (c : Comparison) (l : Leaf) (written ring : List Point) : Prop where
  reads : c.value.Writes written
  closes : Closes written ring
  clause : l = .geoPolygon c.field.name (some ring)
  sent : l.json = .object [("geo_polygon", .object [(c.field.name, .object [("points",
    .array (ring.map fun p => .object [("lat", .float p.lat), ("lon", .float p.lon)]))])])]
  isRing : (∀ p ∈ written, p.IsFinite) → IsRing ring

theorem draws_of_comparison {m : Metadata} {c : Comparison} {l : Leaf} {base : Bool}
    (h : Lowering.comparison m c = .ok (l, base)) (hr : c.relation = .polygon) :
    ∃ written ring, Draws c l written ring := by
  obtain ⟨written, hpoints, hdistinct, rfl⟩ := Lowering.comparison_polygon h hr
  have hlength := Filter.length_distinctPoints_le written
  have hcloses := closes_closeRing (List.ne_nil_of_length_pos (by omega : 0 < written.length))
  exact ⟨written, _, Filter.points?_eq_some_iff.1 hpoints, hcloses, rfl, rfl,
    fun hfinite => hcloses.isRing hfinite hdistinct⟩

/-- Every polygon of a filter is a ring in its query, and the query has no other polygons. -/
theorem polygons_closed {m : Metadata} {n : Filter} {b : Body} (h : ofFilter m n = .ok b) :
    (∀ k ∈ n.conditions, k.comparison.relation = .polygon →
      ∃ l ∈ b.toQuery.leaves, ∃ written ring, Draws k.comparison l written ring) ∧
    ∀ l ∈ b.toQuery.leaves, ∀ field points, l = .geoPolygon field points →
      ∃ k ∈ n.conditions, k.comparison.relation = .polygon ∧
        ∃ written ring, Draws k.comparison l written ring := by
  constructor
  · intro k hk hr
    obtain ⟨l, base, hl⟩ := Lowering.exists_comparison_eq_ok h hk
    exact ⟨l, (Lowering.mem_leaves_ofFilter h).2 ⟨k, hk, base, hl⟩, draws_of_comparison hl hr⟩
  · rintro l hl field points rfl
    obtain ⟨k, hk, base, hcomparison⟩ := (Lowering.mem_leaves_ofFilter h).1 hl
    have hr := Lowering.relation_of_geoPolygon hcomparison
    exact ⟨k, hk, hr, draws_of_comparison hcomparison hr⟩

/-- Two triangles below a negated group: an open one, and one whose ends are the two zeros. -/
def triangles : Filter :=
  let corner (lon lat : UInt64) : Literal := .list [.float ⟨lon⟩, .float ⟨lat⟩]
  let corners := [corner 0 0, corner 0x4010000000000000 0, corner 0 0x4008000000000000]
  .group .or
    [.comparison ⟨⟨["place"], false⟩, .polygon, .list corners, false⟩,
      .comparison ⟨⟨["place"], true⟩, .polygon,
        .list (corners ++ [corner 0x8000000000000000 0]), false⟩] true

theorem polygons_closed_triangles : ∃ b, ofFilter housesIndex triangles = .ok b ∧
    ∀ k ∈ triangles.conditions, k.comparison.relation = .polygon ∧
      ∃ l ∈ b.toQuery.leaves, ∃ written ring, Draws k.comparison l written ring ∧ IsRing ring := by
  obtain ⟨b, hb⟩ : ∃ b, ofFilter housesIndex triangles = .ok b := ⟨_, rfl⟩
  refine ⟨b, hb, fun k hk => ?_⟩
  have hpolygon : k.comparison.relation = .polygon := by
    rcases List.mem_pair.1 hk with rfl | rfl <;> rfl
  have hfinite : ∀ p ∈ k.comparison.value.points, p.IsFinite := by
    rcases List.mem_pair.1 hk with rfl | rfl <;> decide
  obtain ⟨l, hl, written, ring, hdraws⟩ := (polygons_closed hb).1 k hk hpolygon
  have hwritten := Filter.points?_eq_some_iff.2 hdraws.reads
  rw [Filter.Literal.points, hwritten, Option.getD_some] at hfinite
  exact ⟨hpolygon, l, hl, written, ring, hdraws, hdraws.isRing hfinite⟩

end Query

end SearchGateway
