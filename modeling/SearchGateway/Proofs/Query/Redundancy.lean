import SearchGateway.Proofs.Filter.Parentheses
import SearchGateway.Proofs.Query.FreeText

/-!
# Negations and groups that change nothing

Lowering hands the inversion of a condition down to it, so a negation is that inversion turned
around, whether it is kept as a flag or as a group (`entry_negate`). What is put into a larger
filter counts there by its entries alone (`entry_plug_congr`). Two negations and a group of one
condition are therefore invisible in any place of any filter, and so are two negations written in
front of a filter.
-/

namespace SearchGateway

open SearchGateway.Index (Metadata Registry)
open SearchGateway.Filter (Comparison Connective)

namespace Filter

/-- A filter with a place left open in it. -/
inductive Context
  | hole
  | group (connective : Connective) (before : List Filter) (inner : Context) (after : List Filter)
      (negated : Bool)

/-- Puts a filter into the open place. -/
def Context.plug : Context → Filter → Filter
  | hole, n => n
  | group op before inner after negated, n =>
    .group op (before ++ inner.plug n :: after) negated

end Filter

namespace Query

namespace Lowering

variable {m : Metadata} {n n' : Filter}

theorem entry_single (op : Connective) (negated inverted : Bool) :
    entry m inverted (.group op [n] negated) = entry m (inverted ^^ negated) n := by
  rw [entry]

/-- The flag of a filter that is not negated inverts it. -/
theorem entry_setNegated (h : n.isNegated = false) (inverted : Bool) :
    entry m inverted n.setNegated = entry m (!inverted) n := by
  match n, h with
  | .comparison ⟨field, relation, value, false⟩, _ =>
    -- The clause of a comparison does not depend on its flag.
    have hclause : comparison m ⟨field, relation, value, true⟩ =
        comparison m ⟨field, relation, value, false⟩ := rfl
    rw [Filter.setNegated, entry, entry, hclause]
    cases comparison m ⟨field, relation, value, false⟩ with
    | error f => rfl
    | ok p => simp [bind, Except.bind]
  | .group op [] false, _ => rw [Filter.setNegated, entry, entry]
  | .group op [k] false, _ =>
    rw [Filter.setNegated, entry_single, entry_single, Bool.xor_true, Bool.xor_false]
  | .group op (k :: k' :: ks) false, _ =>
    rw [Filter.setNegated, entry, entry, Bool.true_xor, Bool.false_xor]

theorem entry_negate (inverted : Bool) : entry m inverted n.negate = entry m (!inverted) n := by
  unfold Filter.negate
  split
  · rw [entry_single, Bool.xor_true]
  · rename_i h
    exact entry_setNegated (Bool.eq_false_iff.2 h) inverted

/-! ## Contexts -/

theorem entries_congr (h : ∀ inverted, entry m inverted n = entry m inverted n')
    (before after : List Filter) :
    entries m (before ++ n :: after) = entries m (before ++ n' :: after) := by
  induction before with
  | nil => rw [List.nil_append, List.nil_append, entries, entries, h]
  | cons k before ih => rw [List.cons_append, List.cons_append, entries, entries, ih]

theorem entry_group_congr (h : ∀ inverted, entry m inverted n = entry m inverted n')
    (op : Connective) (before after : List Filter) (negated inverted : Bool) :
    entry m inverted (.group op (before ++ n :: after) negated) =
      entry m inverted (.group op (before ++ n' :: after) negated) := by
  have hentries := entries_congr h before after
  match before, after with
  | [], [] => rw [List.nil_append, List.nil_append, entry_single, entry_single, h]
  | [], k :: after =>
    simp only [List.nil_append] at hentries ⊢
    rw [entry, entry, hentries]
  | [k], after =>
    simp only [List.singleton_append] at hentries ⊢
    rw [entry, entry, hentries]
  | k :: k' :: before, after =>
    simp only [List.cons_append] at hentries ⊢
    rw [entry, entry, hentries]

/-- Filters of the same entries can be exchanged in any place. -/
theorem entry_plug_congr (h : ∀ inverted, entry m inverted n = entry m inverted n')
    (c : Filter.Context) :
    ∀ inverted, entry m inverted (c.plug n) = entry m inverted (c.plug n') := by
  induction c with
  | hole => exact h
  | group op before inner after negated ih =>
    intro inverted
    exact entry_group_congr ih op before after negated inverted

theorem ofFilter_plug_congr (h : ∀ inverted, entry m inverted n = entry m inverted n')
    (c : Filter.Context) : ofFilter m (c.plug n) = ofFilter m (c.plug n') := by
  unfold ofFilter
  rw [entry_plug_congr h c]

end Lowering

/-! ## Requests -/

/-- Filters that are lowered alike are compiled alike. -/
theorem compile_filter_congr (registry : Registry) {r : SearchRequest} {filter : String}
    {n n' : Filter} (hparse : Filter.parse r.filter = .ok n)
    (hparse' : Filter.parse filter = .ok n') (h : ∀ m, ofFilter m n' = ofFilter m n) :
    compile registry { r with filter } = compile registry r := by
  have hbody : ∀ m, Compile.filterBody m { r with filter } = Compile.filterBody m r := by
    intro m
    have hfilter : r.hasFilter = true := by
      rw [SearchRequest.hasFilter, (Filter.parse_eq_ok_iff_taken.1 hparse).1]
      rfl
    have hfilter' : { r with filter }.hasFilter = true := by
      rw [SearchRequest.hasFilter, (Filter.parse_eq_ok_iff_taken.1 hparse').1]
      rfl
    unfold Compile.filterBody
    rw [hfilter, hfilter', hparse, hparse', if_pos rfl, if_pos rfl]
    show (ofFilter m n').mapError _ = (ofFilter m n).mapError _
    rw [h]
  have hquery : ∀ m minimum,
      Compile.query m { r with filter } minimum = Compile.query m r minimum := by
    intro m minimum
    unfold Compile.query
    rw [hbody]
    rfl
  have hsearch : ∀ m, Compile.search m { r with filter } = Compile.search m r := by
    intro m
    unfold Compile.search
    simp only [hquery]
    rfl
  unfold compile
  simp only [hsearch]

/-- A filter negated twice and a group of it alone are lowered as the filter itself, wherever they
stand; two negations written in front of a filter change nothing of the request. -/
theorem ofFilter_plug_redundant :
    (∀ (m : Metadata) (c : Filter.Context) (n : Filter),
      ofFilter m (c.plug n.negate.negate) = ofFilter m (c.plug n) ∧
      ∀ op, ofFilter m (c.plug (.group op [n] false)) = ofFilter m (c.plug n)) ∧
    ∀ (registry : Registry) (r : SearchRequest) (n : Filter), Filter.parse r.filter = .ok n →
      compile registry { r with filter := "NOT NOT (" ++ r.filter ++ ")" } =
        compile registry r := by
  have htwice (m : Metadata) (n : Filter) (inverted : Bool) :
      Lowering.entry m inverted n.negate.negate = Lowering.entry m inverted n := by
    rw [Lowering.entry_negate, Lowering.entry_negate, Bool.not_not]
  have hgroup (m : Metadata) (n : Filter) (op : Connective) (inverted : Bool) :
      Lowering.entry m inverted (.group op [n] false) = Lowering.entry m inverted n := by
    rw [Lowering.entry_single, Bool.xor_false]
  refine ⟨fun m c n => ⟨?_, fun op => ?_⟩, fun registry r n hparse => ?_⟩
  · exact Lowering.ofFilter_plug_congr (htwice m n) c
  · exact Lowering.ofFilter_plug_congr (hgroup m n op) c
  · exact compile_filter_congr registry hparse (Filter.parse_negated_twice hparse) fun m =>
      Lowering.ofFilter_plug_congr (htwice m n) .hole

/-- The sample's filter under a disjunction, and the request that searches with it. -/
theorem ofFilter_plug_redundant_sample :
    (∃ b, ofFilter sampleIndex (.group .or [sampleFilter, disjunctionSample] true) = .ok b ∧
      ofFilter sampleIndex
        (.group .or [sampleFilter, disjunctionSample.negate.negate] true) = .ok b) ∧
    Filter.parse textSample.filter = .ok disjunctionSample ∧
    ∃ q, compile sampleRegistry textSample = .ok q ∧
      compile sampleRegistry
        { textSample with filter := "NOT NOT (" ++ textSample.filter ++ ")" } = .ok q := by
  obtain ⟨hplug, hcompile⟩ := ofFilter_plug_redundant
  obtain ⟨q, hq⟩ := exists_compile_textSample
  have htwice := (hplug sampleIndex (.group .or [sampleFilter] .hole [] true) disjunctionSample).1
  refine ⟨⟨_, rfl, htwice.trans rfl⟩, parse_textSample, q, hq, ?_⟩
  rw [hcompile sampleRegistry textSample _ parse_textSample, hq]

end Query

end SearchGateway
