import SearchGateway.Proofs.Query.Entries

/-!
# Lowering preserves meaning

`Means m w d n e` relates a condition to its entry by their truth in the document `d`. A group of
related children and entries has the same truth on both sides (`holds_body`): the slots of a body
come in another order than the conditions they stand for, but all and some of a list only depend
on its members. Every entry that lowering makes is related to its condition (`means_of_entry`, by
induction over the filter), which gives `holds_ofFilter`.
-/

namespace SearchGateway

open SearchGateway.Index (Metadata)
open SearchGateway.Filter (Comparison Connective Field comparisons groupHolds? groupTruths)

universe u

variable {σ : Type u}

namespace Filter

theorem Connective.joins_congr {op : Connective} {l l' : List Bool} (h : ∀ b, b ∈ l ↔ b ∈ l') :
    op.joins l = op.joins l' := by
  unfold joins
  split
  · rw [Bool.eq_iff_iff, List.all_eq_true, List.all_eq_true]
    exact forall_congr' fun b => by rw [h b]
  · rw [Bool.eq_iff_iff, List.any_eq_true, List.any_eq_true]
    exact exists_congr fun b => by rw [h b]

theorem comparisons_cons_comparison {n : Filter} {c : Comparison} {flipped : Bool}
    (h : n.core = (.comparison c, flipped)) (ns : List Filter) :
    comparisons (n :: ns) = (c, flipped) :: comparisons ns := by
  simp [comparisons, h]

theorem comparisons_cons_group {n : Filter} {op : Connective} {children : List Filter}
    {negated flipped : Bool} (h : n.core = (.group op children negated, flipped))
    (ns : List Filter) : comparisons (n :: ns) = comparisons ns := by
  simp [comparisons, h]

variable (m : Metadata) (w : Corpus σ) (d : σ)

theorem groupHolds?_comparison {n : Filter} {c : Comparison} {q : Bool}
    (h : n.core = (.comparison c, q)) (flipped : Bool) : groupHolds? m w d flipped n = none := by
  fun_induction core n generalizing flipped q with
  | case1 op n negated ih =>
    have hc : n.core = (.comparison c, n.core.2) := Prod.ext (Prod.mk.inj h).1 rfl
    rw [groupHolds?]
    exact ih hc _
  | case2 n _ => cases h; rw [groupHolds?]

end Filter

namespace Query.Lowering

/-- A placed clause is true in a scope. -/
def Placed.holds (w : Corpus σ) (o : σ) (p : Placed) : Bool := p.1.holds w o ^^ p.2

theorem holds_placedLeaf {m : Metadata} {c : Comparison} {l : Leaf}
    (h : comparison m c = .ok (l, c.inverts)) (w : Corpus σ) (o : σ) (flipped : Bool) :
    Placed.holds w o (placedLeaf c l flipped) = c.holds m w o flipped := by
  have hl : c.clauseHolds m w o = w.truth o l := by rw [Comparison.clauseHolds, h]
  simp only [Placed.holds, placedLeaf, Comparison.holds, Query.holds, hl, Bool.xor_assoc]

/-- Under `AND` the inverted clauses are the ones that must not hold, under `OR` each is wrapped. -/
theorem holds_assemble {op : Connective} (hop : op.IsJunction) (w : Corpus σ) (o : σ)
    (ps : List Placed) :
    (assemble op ps).toQuery.holds w o = op.joins (ps.map (Placed.holds w o)) := by
  rcases hop with rfl | rfl
  · rw [assemble, if_pos rfl, Body.toQuery, holds_bool]
    simp only [Connective.joins, ↓reduceIte, List.any_nil, Bool.or_false]
    induction ps with
    | nil => rfl
    | cons p ps ih =>
      obtain ⟨q, inverted⟩ := p
      cases inverted <;> simp_all [Placed.holds, Bool.and_assoc, Bool.and_left_comm]
  · rw [assemble, if_neg (by decide), Body.toQuery, holds_bool]
    have hwrap (p : Placed) :
        (if p.2 then Query.bool [] [p.1] [] "" else p.1).holds w o = Placed.holds w o p := by
      obtain ⟨q, inverted⟩ := p
      cases inverted <;> simp [Placed.holds, holds_bool]
    simp [Connective.joins, List.any_map, Function.comp_def, hwrap]

/-- The truth of what takes one place in a group. -/
def Slot.holds (w : Corpus σ) (d : σ) (op : Connective) : Slot → Bool
  | .single p => p.holds w d
  | .scope path ps => (w.objects d path).any fun o => op.joins (ps.map (Placed.holds w o))

theorem Slot.holds_placed {op : Connective} (hop : op.IsJunction) (w : Corpus σ) (d : σ)
    (s : Slot) : Placed.holds w d (s.placed op) = s.holds w d op := by
  cases s with
  | single p => rfl
  | scope path ps =>
    rw [Slot.placed, Placed.holds, Bool.xor_false, holds_nested, Slot.holds]
    exact congrArg _ (funext fun o => holds_assemble hop w o ps)

/-- The truth of a condition is that of its entry. -/
inductive Means (m : Metadata) (w : Corpus σ) (d : σ) (n : Filter) : Entry → Prop where
  | clause {c : Comparison} {flipped : Bool} {p : Placed} :
      n.core = (.comparison c, flipped) → c.isInside m = false →
      (∀ o, p.holds w o = c.holds m w o flipped) → Means m w d n (.clause p)
  | inside {c : Comparison} {flipped : Bool} {p : Placed} :
      n.core = (.comparison c, flipped) → c.isInside m = true →
      (∀ o, p.holds w o = c.holds m w o flipped) → Means m w d n (.inside c.field.first p)
  | group {op : Connective} {children : List Filter} {negated flipped inverted : Bool} {b : Body} :
      n.core = (.group op children negated, flipped) →
      groupHolds? m w d false n = some (b.toQuery.holds w d ^^ inverted) →
      Means m w d n (.group b inverted)

section children

variable {m : Metadata} {w : Corpus σ} {d : σ} {ns : List Filter} {es : List Entry}

/-- The nested paths of the entries are those of the comparisons. -/
theorem paths_eq (h : List.Forall₂ (Means m w d) ns es) : es.filterMap Entry.path? =
    ((comparisons ns).filter fun c => c.1.isInside m).map fun c => c.1.field.first := by
  induction h with
  | nil => rfl
  | cons hne _ ih =>
    cases hne with
    | clause hc hi _ =>
      rw [Filter.comparisons_cons_comparison hc, List.filterMap_cons_none rfl, ih]
      simp [hi]
    | inside hc hi _ =>
      rw [Filter.comparisons_cons_comparison hc,
        List.filterMap_cons_some (f := Entry.path?) rfl, ih]
      simp [hi]
    | group hc _ =>
      rw [Filter.comparisons_cons_group hc, List.filterMap_cons_none rfl, ih]

/-- The clauses gathered for a path have the truth of the comparisons on it. -/
theorem map_holds_at? (h : List.Forall₂ (Means m w d) ns es) (path : String) (o : σ) :
    (es.filterMap (Entry.at? path)).map (Placed.holds w o) =
      Filter.scopeTruths m w path o (comparisons ns) := by
  unfold Filter.scopeTruths
  induction h with
  | nil => rfl
  | cons hne _ ih =>
    cases hne with
    | clause hc hi _ =>
      rw [Filter.comparisons_cons_comparison hc, List.filterMap_cons_none rfl, ih]
      simp [hi]
    | @inside c flipped p hc hi hp =>
      rw [Filter.comparisons_cons_comparison hc]
      by_cases hpath : c.field.first = path
      · subst hpath
        rw [List.filterMap_cons_some (Entry.at?_inside_self _ p), List.map_cons, ih, hp]
        simp [hi]
      · rw [List.filterMap_cons_none (Entry.at?_inside_of_ne hpath p), ih]
        simp [hpath]
    | group hc _ =>
      rw [Filter.comparisons_cons_group hc, List.filterMap_cons_none rfl, ih]

/-- The clauses outside of nested objects are the plain comparisons and the sub-groups. -/
theorem mem_map_holds_single? (h : List.Forall₂ (Means m w d) ns es) (b : Bool) :
    b ∈ (es.filterMap Entry.single?).map (Placed.holds w d) ↔
      b ∈ Filter.plainTruths m w d (comparisons ns) ++ groupTruths m w d ns := by
  unfold Filter.plainTruths
  induction h with
  | nil => simp [comparisons, groupTruths]
  | cons hne _ ih =>
    rw [groupTruths]
    cases hne with
    | clause hc hi hp =>
      rw [Filter.comparisons_cons_comparison hc, Filter.groupHolds?_comparison m w d hc,
        List.filterMap_cons_some (f := Entry.single?) rfl, List.map_cons, List.mem_cons, ih, hp]
      simp [hi]
    | inside hc hi hp =>
      rw [Filter.comparisons_cons_comparison hc, Filter.groupHolds?_comparison m w d hc,
        List.filterMap_cons_none rfl, ih]
      simp [hi]
    | group hc hg =>
      rw [Filter.comparisons_cons_group hc, hg,
        List.filterMap_cons_some (f := Entry.single?) rfl, List.map_cons, List.mem_cons, ih,
        Placed.holds]
      simp only [Option.toList_some, List.mem_append, List.mem_singleton]
      exact or_left_comm

theorem holds_body {op : Connective} (hop : op.IsJunction)
    (h : List.Forall₂ (Means m w d) ns es) : (body op es).toQuery.holds w d =
      Filter.containerHolds m w d op (comparisons ns) (groupTruths m w d ns) := by
  rw [body, holds_assemble hop, List.map_map, Filter.containerHolds]
  refine Connective.joins_congr fun b => ?_
  have hslots : b ∈ (Slot.gather es).map (Placed.holds w d ∘ Slot.placed op) ↔
      b ∈ (es.filterMap Entry.single?).map (Placed.holds w d) ∨
      b ∈ (es.filterMap Entry.path?).map fun path => (w.objects d path).any fun o =>
        op.joins ((es.filterMap (Entry.at? path)).map (Placed.holds w o)) := by
    simp only [List.mem_map, Function.comp_def, Slot.holds_placed hop, Slot.mem_gather]
    constructor
    · rintro ⟨s, ⟨p, hp, rfl⟩ | ⟨path, hp, rfl⟩, rfl⟩
      · exact .inl ⟨p, hp, rfl⟩
      · exact .inr ⟨path, hp, rfl⟩
    · rintro (⟨p, hp, rfl⟩ | ⟨path, hp, rfl⟩)
      · exact ⟨.single p, .inl ⟨p, hp, rfl⟩, rfl⟩
      · exact ⟨.scope path _, .inr ⟨path, hp, rfl⟩, rfl⟩
  rw [hslots, List.mem_append, mem_map_holds_single? h, paths_eq h, List.map_map]
  simp only [map_holds_at? h, Filter.nestedTruths, Function.comp_def]

end children

variable {m : Metadata} {n : Filter}

/-- A filter whose groups join their children and whose fields are paths of plain segments. -/
abbrev Joined : Filter → Prop :=
  Filter.Every (fun c => c.field.Dotless) fun op _ _ => op.IsJunction

theorem means_of_entry (hn : Joined n) {w : Corpus σ} {d : σ}
    (hgroup : ∀ {b inverted}, entry m false n = .ok (.group b inverted) →
      groupHolds? m w d false n = some (b.toQuery.holds w d ^^ inverted))
    {e : Entry} (h : entry m false n = .ok e) : Means m w d n e := by
  cases lowers_of_entry hn h with
  | @clause c flipped l hc hl hi =>
    exact .clause hc hi fun o => by rw [holds_placedLeaf hl, Bool.xor_false]
  | @inside c flipped l hc hl hi =>
    exact .inside hc hi fun o => by rw [holds_placedLeaf hl, Bool.xor_false]
  | group hc _ _ => exact .group hc (hgroup h)

/-- The children of a group one by one, `hgroup` being the statement for those that are groups. -/
theorem means_of_entries {ns : List Filter} (hns : ∀ n ∈ ns, Joined n) {w : Corpus σ} {d : σ}
    (hgroup : ∀ n ∈ ns, ∀ {b inverted}, entry m false n = .ok (.group b inverted) →
      groupHolds? m w d false n = some (b.toQuery.holds w d ^^ inverted))
    {es : List Entry} (h : entries m ns = .ok es) : List.Forall₂ (Means m w d) ns es := by
  have hall := (List.forall₂_and_left ns es).2 ⟨fun n hn => hn, forall₂_entries h⟩
  exact hall.imp fun n e hne => means_of_entry (hns n hne.1) (hgroup n hne.1) hne.2

theorem groupHolds?_of_entry (hn : Joined n) (w : Corpus σ) (d : σ) {flipped inverted : Bool}
    {b : Body} (h : entry m flipped n = .ok (.group b inverted)) :
    groupHolds? m w d flipped n = some (b.toQuery.holds w d ^^ inverted) := by
  induction hn generalizing flipped inverted b with
  | @comparison c hc =>
    have hn : Joined (.comparison c) := .comparison hc
    cases lowers_of_entry hn h with
    | group hcore _ _ => rw [Filter.core_comparison] at hcore; cases hcore
  | @group op children negated hop hchildren ih =>
    match children, hchildren, ih with
    | [], _, _ => rw [entry] at h; cases h
    | [n], _, ih =>
      rw [entry] at h
      rw [groupHolds?]
      exact ih n (by simp) h
    | n :: n' :: ns, hchildren, ih =>
      rw [entry] at h
      cases hes : entries m (n :: n' :: ns) with
      | error f => rw [hes] at h; cases h
      | ok es =>
        rw [hes] at h
        cases h
        have hbody := holds_body hop (means_of_entries hchildren (fun k hk => ih k hk) hes)
        rw [groupHolds?, hbody, Bool.xor_assoc]
        simp

end Query.Lowering

open Query.Lowering in
/-- A filter and the query it is lowered to hold of the same documents. -/
theorem Query.holds_ofFilter {m : Metadata} {n : Filter} (hn : Joined n) {b : Query.Body}
    (h : Query.ofFilter m n = .ok b) (w : Corpus σ) (d : σ) :
    b.toQuery.holds w d = n.holds m w d := by
  have hgroup {b inverted} (he : entry m false n = .ok (.group b inverted)) :=
    groupHolds?_of_entry hn w d he
  rw [Query.ofFilter] at h
  cases he : entry m false n with
  | error f => rw [he] at h; cases h
  | ok e =>
    rw [he] at h
    have hmeans := means_of_entry hn hgroup he
    have hone := holds_body (.inl rfl) (.cons hmeans .nil)
    cases hmeans with
    | clause hc _ _ =>
      cases h
      rw [hone, Filter.holds, Filter.groupHolds?_comparison m w d hc, groupTruths,
        Filter.groupHolds?_comparison m w d hc]
      rfl
    | inside hc _ _ =>
      cases h
      rw [hone, Filter.holds, Filter.groupHolds?_comparison m w d hc, groupTruths,
        Filter.groupHolds?_comparison m w d hc]
      rfl
    | @group _ _ _ _ inverted b' _ hg =>
      rw [Filter.holds, hg]
      cases inverted <;> cases h <;> simp [Query.holds_bool, Query.Body.toQuery]

/-- An index with a plain field and a nested object. -/
def sampleIndex : Metadata where
  name := "shop"
  idField := "id"
  shards := 1
  defaultSize := 20
  maxSize := 200
  facetSize := 20
  minimumShouldMatch := "75%"
  defaultFields := []
  sourceIncludes := []
  sourceExcludes := []
  queryTimeout := 0
  fields := [("state", .keyword), ("offer", .nested), ("offer.kind", .keyword),
    ("offer.price", .other)]

/-- `NOT (state = null OR NOT (offer.kind != "used") OR offer.price < 5)`, the middle condition in
a group of its own and with a negated field. -/
def sampleFilter : Filter :=
  .group .or
    [.comparison ⟨⟨["state"], false⟩, .equal, .null, false⟩,
      .group .and [.comparison ⟨⟨["offer", "kind"], true⟩, .different, .string "used", false⟩] true,
      .comparison ⟨⟨["offer", "price"], false⟩, .less, .int 5, false⟩] true

theorem Query.holds_ofFilter_sample :
    Query.Lowering.Joined sampleFilter ∧
      ∃ b, Query.ofFilter sampleIndex sampleFilter = .ok b ∧
        ∀ (w : Corpus Nat) (d : Nat), b.toQuery.holds w d = sampleFilter.holds sampleIndex w d := by
  have hn : Query.Lowering.Joined sampleFilter := by
    refine .group (.inr rfl) fun n hn => ?_
    simp only [List.mem_cons, List.not_mem_nil, or_false] at hn
    rcases hn with rfl | rfl | rfl
    · exact .comparison (by decide)
    · refine .group (.inl rfl) fun n hn => ?_
      rw [List.mem_singleton.1 hn]
      exact .comparison (by decide)
    · exact .comparison (by decide)
  exact ⟨hn, _, rfl, fun w d => Query.holds_ofFilter hn rfl w d⟩

end SearchGateway
