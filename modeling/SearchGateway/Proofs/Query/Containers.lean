import SearchGateway.Proofs.Outcome
import SearchGateway.Proofs.Query.FreeText

/-!
# Boolean queries say what they ask for

The backend has a rule of its own for alternatives without a minimum. A filter is lowered to boolean
queries for which that rule does not matter (`explicit_ofFilter`): each of them has clauses of two
kinds only, those that must or must not hold, or alternatives with the minimum `"1"`. None of them
is empty, and no nested scope is inside another one.

`Lowered inScope q` says this by recursion over the query, `inScope` being whether a nested scope is
around it. Clauses that are put together keep it (`lowered_assemble`), and so does a group whose
conditions are gathered in scopes (`lowered_body`), since only clauses of comparisons get there.
-/

namespace SearchGateway

open SearchGateway.Index (Metadata)
open SearchGateway.Filter (Comparison Connective)

universe u

/-- A filter whose groups are joined by `AND` and `OR`. -/
abbrev Filter.AndOr : Filter → Prop := Filter.Every (fun _ => True) fun op _ _ => op.IsJunction

namespace Query

mutual

/-- The queries that occur in a query, itself among them. -/
def parts : Query → List Query
  | leaf l => [leaf l]
  | bool must mustNot should minimum =>
    bool must mustNot should minimum :: (partsIn must ++ partsIn mustNot ++ partsIn should)
  | nested path q => nested path q :: parts q

def partsIn : List Query → List Query
  | [] => []
  | q :: qs => parts q ++ partsIn qs

end

theorem mem_partsIn {q : Query} {qs : List Query} : q ∈ partsIn qs ↔ ∃ q' ∈ qs, q ∈ q'.parts := by
  induction qs with
  | nil => simp [partsIn]
  | cons q' qs ih => simp [partsIn, ih]

/-- A boolean query with a clause, for which no default of a minimum matters. -/
inductive Body.Explicit (b : Body) : Prop where
  | clauses : b.isEmpty = false → b.should = [] → b.minimum = "" → Explicit b
  | alternatives : b.must = [] → b.mustNot = [] → b.should ≠ [] → b.minimum = "1" → Explicit b

inductive Lowered : Bool → Query → Prop where
  | leaf {inScope : Bool} (l : Leaf) : Lowered inScope (.leaf l)
  | bool {inScope : Bool} {must mustNot should : List Query} {minimum : String} :
      Body.Explicit ⟨must, mustNot, should, minimum⟩ → (∀ q ∈ must, Lowered inScope q) →
      (∀ q ∈ mustNot, Lowered inScope q) → (∀ q ∈ should, Lowered inScope q) →
      Lowered inScope (.bool must mustNot should minimum)
  | nested (path : String) {q : Query} : Lowered true q → Lowered false (.nested path q)

namespace Lowered

/-- What occurs in a lowered query is lowered, and it is inside a scope if the query is. -/
theorem of_mem_parts {inScope : Bool} {q part : Query} (h : Lowered inScope q)
    (hpart : part ∈ q.parts) :
    ∃ inScope', (inScope = true → inScope' = true) ∧ Lowered inScope' part := by
  induction h with
  | leaf l =>
    rw [parts, List.mem_singleton] at hpart
    exact ⟨_, id, hpart ▸ .leaf l⟩
  | bool hexplicit hmust hmustNot hshould ihmust ihmustNot ihshould =>
    simp only [parts, List.mem_cons, List.mem_append, mem_partsIn] at hpart
    rcases hpart with rfl | (⟨q, hq, hpart⟩ | ⟨q, hq, hpart⟩) | ⟨q, hq, hpart⟩
    · exact ⟨_, id, .bool hexplicit hmust hmustNot hshould⟩
    · exact ihmust q hq hpart
    · exact ihmustNot q hq hpart
    · exact ihshould q hq hpart
  | nested path hq ih =>
    rw [parts, List.mem_cons] at hpart
    rcases hpart with rfl | hpart
    · exact ⟨false, id, .nested path hq⟩
    · obtain ⟨inScope', -, hlowered⟩ := ih hpart
      exact ⟨inScope', fun h => Bool.noConfusion h, hlowered⟩

theorem explicit {inScope : Bool} {q : Query} (h : Lowered inScope q) {b : Body}
    (hb : b.toQuery ∈ q.parts) : b.Explicit := by
  obtain ⟨_, -, hlowered⟩ := h.of_mem_parts hb
  cases hlowered with
  | bool hexplicit _ _ _ => exact hexplicit

theorem not_nested {q : Query} (h : Lowered true q) (path : String) (inner : Query) :
    .nested path inner ∉ q.parts := by
  intro hpart
  obtain ⟨inScope, hscope, hlowered⟩ := h.of_mem_parts hpart
  cases hlowered with
  | nested _ _ => exact Bool.noConfusion (hscope rfl)

theorem eachSelects_eq_map {σ : Type u} (w : Corpus σ) (qs : List Query) (d : σ) :
    eachSelects w qs d = qs.map (selects w · d) := by
  induction qs with
  | nil => rfl
  | cons q qs ih => rw [eachSelects, ih, List.map_cons]

/-- The rule for a missing minimum makes no difference. -/
theorem selects_eq_holds {σ : Type u} {inScope : Bool} {q : Query} (h : Lowered inScope q)
    (w : Corpus σ) (d : σ) : q.selects w d = q.holds w d := by
  induction h generalizing d with
  | leaf l => rw [selects, holds]
  | bool hexplicit _ _ _ hmust hmustNot hshould =>
    have hmap {qs : List Query} (h : ∀ q ∈ qs, ∀ d, q.selects w d = q.holds w d) :
        eachSelects w qs d = qs.map (holds w · d) := by
      rw [eachSelects_eq_map]
      exact List.map_congr_left fun q hq => h q hq d
    rw [selects_bool, holds_bool, hmap hmust, hmap hmustNot, hmap hshould]
    cases hexplicit with
    | clauses _ hnone hminimum =>
      cases hnone
      cases hminimum
      simp [asksAlternative]
    | alternatives _ _ _ hminimum =>
      cases hminimum
      simp [asksAlternative]
  | nested path _ ih =>
    rw [selects, holds]
    exact congrArg _ (funext ih)

end Lowered

/-! ### Lowering -/

namespace Lowering

/-- A clause is in `must` or in `mustNot`. -/
theorem isEmpty_assemble_and {ps : List Placed} (h : ps ≠ []) :
    (assemble .and ps).isEmpty = false := by
  obtain ⟨⟨q, inverted⟩, ps, rfl⟩ := List.exists_cons_of_ne_nil h
  cases inverted <;> simp [assemble, Body.isEmpty]

theorem lowered_assemble {op : Connective} (hop : op.IsJunction) {ps : List Placed} (hne : ps ≠ [])
    {inScope : Bool} (h : ∀ p ∈ ps, Lowered inScope p.1) :
    Lowered inScope (assemble op ps).toQuery := by
  have hkept {keep : Placed → Bool} : ∀ q ∈ (ps.filter keep).map (·.1), Lowered inScope q := by
    intro q hq
    obtain ⟨p, hp, rfl⟩ := List.mem_map.1 hq
    exact h p (List.mem_filter.1 hp).1
  rcases hop with rfl | rfl
  · exact .bool (.clauses (isEmpty_assemble_and hne) rfl rfl) hkept hkept (List.forall_mem_nil _)
  · refine .bool (.alternatives rfl rfl (mt List.map_eq_nil_iff.1 hne) rfl) (List.forall_mem_nil _)
      (List.forall_mem_nil _) fun q hq => ?_
    obtain ⟨p, hp, rfl⟩ := List.mem_map.1 hq
    split
    · exact .bool (.clauses rfl rfl rfl) (List.forall_mem_nil _)
        (List.forall_mem_singleton.2 (h p hp)) (List.forall_mem_nil _)
    · exact h p hp

/-- What an entry is made of: clauses of comparisons, and bodies of groups. -/
inductive Entry.Lowered : Entry → Prop where
  | clause {l : Leaf} {inverted : Bool} : Lowered (.clause (.leaf l, inverted))
  | inside {path : String} {l : Leaf} {inverted : Bool} : Lowered (.inside path (.leaf l, inverted))
  | group {b : Body} {inverted : Bool} : b.toQuery.Lowered false → Lowered (.group b inverted)

theorem lowered_body {op : Connective} (hop : op.IsJunction) {es : List Entry} (hne : es ≠ [])
    (h : ∀ e ∈ es, e.Lowered) : (body op es).toQuery.Lowered false := by
  have hslots : Slot.gather es ≠ [] := by
    obtain ⟨e, es, rfl⟩ := List.exists_cons_of_ne_nil hne
    cases e <;> exact List.cons_ne_nil _ _
  refine lowered_assemble hop (by simpa using hslots) (List.forall_mem_map.2 fun slot hslot => ?_)
  cases Slot.comesFrom_of_mem_gather hslot with
  | clause he =>
    cases h _ he with
    | clause => exact .leaf _
  | group he =>
    cases h _ he with
    | group hb => exact hb
  | @scope path ps hps hinside =>
    refine .nested path (lowered_assemble hop hps fun p hp => ?_)
    cases h _ (hinside p hp) with
    | inside => exact .leaf _

theorem lowered_entry {m : Metadata} {n : Filter} (hn : n.AndOr) {inverted : Bool} {e : Entry}
    (h : entry m inverted n = .ok e) : e.Lowered := by
  induction hn generalizing inverted e with
  | @comparison c _ =>
    rw [entry] at h
    obtain ⟨⟨l, base⟩, -, h⟩ := bind_eq_ok_iff.1 h
    cases h
    split
    · exact .inside
    · exact .clause
  | @group op children negated hop _ ih =>
    rcases children with _ | ⟨n, _ | ⟨n', ns⟩⟩
    · rw [entry] at h
      cases h
    · rw [entry] at h
      exact ih n List.mem_cons_self h
    · rw [entry] at h
      obtain ⟨es, hes, h⟩ := bind_eq_ok_iff.1 h
      cases h
      refine .group (lowered_body hop ?_ fun e he => ?_)
      · rintro rfl
        cases forall₂_entries hes
      · rw [entries_eq_mapM] at hes
        obtain ⟨k, hk, hentry⟩ := exists_ok_of_mem_mapM hes he
        exact ih k hk hentry

end Lowering

/-- Every boolean query in the query of a filter has clauses that must or must not hold and no
minimum, or alternatives of which one has to hold; no nested scope is inside another. What the
backend does where a minimum is missing therefore makes no difference. -/
theorem explicit_ofFilter {m : Metadata} {n : Filter} (hn : n.AndOr) {b : Body}
    (h : ofFilter m n = .ok b) :
    (∀ b' : Body, b'.toQuery ∈ b.toQuery.parts → b'.Explicit) ∧
    (∀ path q, .nested path q ∈ b.toQuery.parts →
      ∀ path' q', .nested path' q' ∉ q.parts) ∧
    ∀ (σ : Type u) (w : Corpus σ) (d : σ), b.toQuery.selects w d = b.toQuery.holds w d := by
  have hb : b.toQuery.Lowered false := by
    obtain ⟨e, he, h⟩ := bind_eq_ok_iff.1 h
    have hentry := Lowering.lowered_entry hn he
    have hsingle := Lowering.lowered_body (.inl rfl) (List.cons_ne_nil e [])
      (List.forall_mem_singleton.2 hentry)
    cases hentry with
    | clause => cases h; exact hsingle
    | inside => cases h; exact hsingle
    | @group b' inverted hb' =>
      cases inverted with
      | false => cases h; exact hb'
      | true =>
        cases h
        exact .bool (.clauses rfl rfl rfl) (List.forall_mem_nil _) (List.forall_mem_singleton.2 hb')
          (List.forall_mem_nil _)
  refine ⟨fun b' hb' => hb.explicit hb', fun path q hq => ?_, fun σ w d => hb.selects_eq_holds w d⟩
  obtain ⟨_, -, hnested⟩ := hb.of_mem_parts hq
  cases hnested with
  | nested _ hq' => exact hq'.not_nested

/-- What `sampleFilter` asks of one nested object. -/
def sampleScope : Query :=
  .bool [] []
    [.bool [] [.leaf (.matching "offer.kind" (.string "used") "OR")] [] "",
      .leaf (.range "offer.price" .null .null (.int 5) .null)] "1"

def sampleBody : Body where
  mustNot := [.bool [] []
    [.bool [] [.leaf (.present "state")] [] "", .nested "offer" sampleScope] "1"]

theorem explicit_ofFilter_sample :
    sampleFilter.AndOr ∧ ofFilter sampleIndex sampleFilter = .ok sampleBody ∧
      (∀ b' : Body, b'.toQuery ∈ sampleBody.toQuery.parts → b'.Explicit) ∧
      .nested "offer" sampleScope ∈ sampleBody.toQuery.parts ∧
      (∀ path' q', .nested path' q' ∉ sampleScope.parts) ∧
      ∀ (w : Corpus Nat) (d : Nat),
        sampleBody.toQuery.selects w d = sampleBody.toQuery.holds w d := by
  have hn : sampleFilter.AndOr := by
    refine .group (.inr rfl) fun n hn => ?_
    simp only [List.mem_cons, List.not_mem_nil, or_false] at hn
    rcases hn with rfl | rfl | rfl
    · exact .comparison trivial
    · exact .group (.inl rfl) (List.forall_mem_singleton.2 (.comparison trivial))
    · exact .comparison trivial
  have hlower : ofFilter sampleIndex sampleFilter = .ok sampleBody := by rfl
  have hscope : .nested "offer" sampleScope ∈ sampleBody.toQuery.parts := by
    simp [sampleBody, Body.toQuery, parts, partsIn]
  obtain ⟨hexplicit, hnested, hmeaning⟩ := explicit_ofFilter hn hlower
  exact ⟨hn, hlower, hexplicit, hscope, hnested _ _ hscope, hmeaning Nat⟩

end Query

end SearchGateway
