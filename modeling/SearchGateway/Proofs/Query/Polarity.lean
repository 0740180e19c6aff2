import Mathlib.Algebra.Ring.Parity
import Mathlib.Data.List.Perm.Basic
import Mathlib.Logic.Equiv.Defs
import SearchGateway.Proofs.Query.Preservation

/-!
# Every condition is one clause

`Query.sites` lists the leaf clauses of a query with the edges that lead down to them,
`Filter.conditions` the comparisons of a filter with the negations of the groups around them.
Lowering matches the two lists one to one (`exists_equiv_sites`): a comparison becomes its own
clause, below an odd number of `mustNot` edges exactly if its negations ask for that, and below one
nested edge exactly if its field lies in a nested object.

The clauses come in another order than the comparisons, so the lists agree up to a permutation.
`Site.trace` is what the statement reads off a site. The traces of a body are those of its entries,
whatever the connective (`traces_body`), and the traces of an entry are those its conditions ask for
(`traces_entry`, by induction over the filter).
-/

namespace SearchGateway

open SearchGateway.Index (Metadata)
open SearchGateway.Filter (Comparison Connective)

namespace Query

/-- A step down into a query. -/
inductive Edge
  | must | mustNot | should
  | nested (path : String)
  deriving DecidableEq

def Edge.path? : Edge → Option String
  | nested path => some path
  | _ => none

/-- A leaf clause and the edges down to it, from the top of the query. -/
structure Site where
  route : List Edge
  leaf : Leaf

def Site.under (e : Edge) (s : Site) : Site := ⟨e :: s.route, s.leaf⟩

mutual

/-- The leaf clauses of a query. -/
def sites : Query → List Site
  | leaf l => [⟨[], l⟩]
  | bool must mustNot should _ =>
    sitesUnder .must must ++ sitesUnder .mustNot mustNot ++ sitesUnder .should should
  | nested path q => (sites q).map (Site.under (.nested path))

def sitesUnder (e : Edge) : List Query → List Site
  | [] => []
  | q :: qs => (sites q).map (Site.under e) ++ sitesUnder e qs

end

theorem sitesUnder_eq_flatMap (e : Edge) (qs : List Query) :
    sitesUnder e qs = qs.flatMap fun q => q.sites.map (Site.under e) := by
  induction qs with
  | nil => rfl
  | cons q qs ih => rw [sitesUnder, ih, List.flatMap_cons]

/-! ## Traces -/

/-- The parity of the `mustNot` edges above a leaf clause and the nested paths above it. -/
structure Trace where
  flipped : Bool
  scopes : List String
  leaf : Leaf

namespace Trace

def turn (inverted : Bool) (t : Trace) : Trace := { t with flipped := t.flipped ^^ inverted }

def enter (path : String) (t : Trace) : Trace := { t with scopes := path :: t.scopes }

theorem turn_false : turn false = id := by
  funext t
  rw [turn, Bool.xor_false, id]

theorem turn_turn (a b : Bool) (t : Trace) : (t.turn a).turn b = t.turn (a ^^ b) := by
  simp only [turn, Bool.xor_assoc]

end Trace

def Site.trace (s : Site) : Trace where
  flipped := decide (Odd (s.route.count .mustNot))
  scopes := s.route.filterMap Edge.path?
  leaf := s.leaf

/-- The trace of a site one edge further down. -/
def Edge.pass : Edge → Trace → Trace
  | must, t => t
  | mustNot, t => t.turn true
  | should, t => t
  | nested path, t => t.enter path

theorem Site.trace_under (e : Edge) (s : Site) : (s.under e).trace = e.pass s.trace := by
  cases e with
  | must => rfl
  | should => rfl
  | nested path => rfl
  | mustNot =>
    have hodd : decide (Odd ((Edge.mustNot :: s.route).count .mustNot)) =
        !decide (Odd (s.route.count .mustNot)) := by
      rw [List.count_cons_self, ← decide_not, decide_eq_decide, Nat.odd_add_one]
    rw [Site.trace, Edge.pass, Trace.turn, Bool.xor_true]
    exact congrArg (Trace.mk · _ _) hodd

def traces (q : Query) : List Trace := q.sites.map Site.trace

theorem traces_leaf (l : Leaf) : (leaf l).traces = [⟨false, [], l⟩] := by
  simp [traces, sites, Site.trace]

theorem map_trace_under (e : Edge) (ss : List Site) :
    (ss.map (Site.under e)).map Site.trace = (ss.map Site.trace).map e.pass := by
  simp only [List.map_map, Function.comp_def, Site.trace_under]

theorem map_trace_sitesUnder (e : Edge) (qs : List Query) :
    (sitesUnder e qs).map Site.trace = qs.flatMap fun q => q.traces.map e.pass := by
  rw [sitesUnder_eq_flatMap, List.map_flatMap]
  simp only [map_trace_under, traces]

theorem traces_bool (must mustNot should : List Query) (minimum : String) :
    (bool must mustNot should minimum).traces = must.flatMap traces ++
      (mustNot.flatMap fun q => q.traces.map (Trace.turn true)) ++ should.flatMap traces := by
  have hkeep (q : Query) (e : Edge) (he : e.pass = id) : q.traces.map e.pass = q.traces := by
    rw [he, List.map_id]
  rw [traces, sites, List.map_append, List.map_append, map_trace_sitesUnder, map_trace_sitesUnder,
    map_trace_sitesUnder]
  simp only [hkeep _ .must rfl, hkeep _ .should rfl]
  rfl

theorem traces_nested (path : String) (q : Query) :
    (nested path q).traces = q.traces.map (Trace.enter path) := by
  rw [traces, sites, map_trace_under]
  rfl

namespace Lowering

/-! ## The traces of a body -/

def Placed.traces (p : Placed) : List Trace := p.1.traces.map (Trace.turn p.2)

/-- Where a connective puts a clause does not change its traces. -/
theorem traces_assemble (op : Connective) (ps : List Placed) :
    (assemble op ps).toQuery.traces.Perm (ps.flatMap Placed.traces) := by
  unfold assemble
  split
  · rw [Body.toQuery, traces_bool, List.flatMap_nil, List.append_nil]
    induction ps with
    | nil => exact .nil
    | cons p ps ih =>
      obtain ⟨q, inverted⟩ := p
      cases inverted with
      | false =>
        simp only [Placed.traces, Trace.turn_false, List.map_id, List.filter_cons, Bool.not_false,
          ↓reduceIte, Bool.false_eq_true, List.map_cons, List.flatMap_cons, List.append_assoc]
          at ih ⊢
        exact ih.append_left _
      | true =>
        simp only [Placed.traces, List.filter_cons, Bool.not_true, ↓reduceIte, Bool.false_eq_true,
          List.map_cons, List.flatMap_cons] at ih ⊢
        -- The inverted clause comes after all the others.
        refine (List.perm_append_comm_assoc _ _ _).trans ?_
        exact ih.append_left _
  · rw [Body.toQuery, traces_bool, List.flatMap_map]
    have hwrap (p : Placed) :
        (if p.2 then Query.bool [] [p.1] [] "" else p.1).traces = p.traces := by
      obtain ⟨q, inverted⟩ := p
      cases inverted <;> simp [Placed.traces, traces_bool, Trace.turn_false]
    simp only [hwrap]
    exact .refl _

def Slot.traces : Slot → List Trace
  | .single p => p.traces
  | .scope path ps => (ps.flatMap Placed.traces).map (Trace.enter path)

theorem Slot.traces_placed (op : Connective) (s : Slot) :
    (s.placed op).traces.Perm s.traces := by
  cases s with
  | single p => exact .refl _
  | scope path ps =>
    rw [Slot.placed, Placed.traces, Trace.turn_false, List.map_id, traces_nested, Slot.traces]
    exact (traces_assemble op ps).map _

def Entry.traces : Entry → List Trace
  | .clause p => p.traces
  | .inside path p => p.traces.map (Trace.enter path)
  | .group b inverted => Placed.traces (b.toQuery, inverted)

/-- The scope of a path may be drawn out of the slots. -/
theorem Slot.traces_contents (path : String) (slots : List Slot) :
    (slots.flatMap Slot.traces).Perm
      (((contents path slots).flatMap Placed.traces).map (Trace.enter path) ++
        (slots.filter fun s => !s.isScope path).flatMap Slot.traces) := by
  induction slots with
  | nil => exact .nil
  | cons s slots ih =>
    cases s with
    | single p =>
      rw [contents, List.filter_cons_of_pos rfl, List.flatMap_cons, List.flatMap_cons]
      exact (ih.append_left _).trans (List.perm_append_comm_assoc _ _ _)
    | scope p ps =>
      by_cases hp : p = path
      · subst hp
        rw [contents, if_pos rfl, List.filter_cons_of_neg (by simp [isScope]), List.flatMap_cons,
          List.flatMap_append, List.map_append, List.append_assoc]
        exact ih.append_left _
      · rw [contents, if_neg hp, List.filter_cons_of_pos (by simp [isScope, hp]),
          List.flatMap_cons, List.flatMap_cons]
        exact (ih.append_left _).trans (List.perm_append_comm_assoc _ _ _)

theorem traces_gather (es : List Entry) :
    ((Slot.gather es).flatMap Slot.traces).Perm (es.flatMap Entry.traces) := by
  induction es with
  | nil => exact .nil
  | cons e es ih =>
    rw [Slot.gather_cons, List.flatMap_cons]
    cases e with
    | clause p => exact ih.append_left _
    | group b inverted => exact ih.append_left _
    | inside path p =>
      have hdrawn := (Slot.traces_contents path (Slot.gather es)).symm.trans ih
      rw [Slot.absorb, List.flatMap_cons, Slot.traces, List.flatMap_cons, List.map_append,
        List.append_assoc]
      exact hdrawn.append_left _

/-- A body has the traces of its entries: none is lost, none comes twice. -/
theorem traces_body (op : Connective) (es : List Entry) :
    (body op es).toQuery.traces.Perm (es.flatMap Entry.traces) := by
  refine (traces_assemble op _).trans (.trans ?_ (traces_gather es))
  rw [List.flatMap_map]
  exact .flatMap_left _ fun s _ => s.traces_placed op

end Lowering

end Query

/-! ## Conditions -/

namespace Filter

/-- A comparison of a filter and the negations of the groups around it, from the outermost. -/
structure Condition where
  around : List Bool
  comparison : Comparison

namespace Condition

def within (negated : Bool) (k : Condition) : Condition := ⟨negated :: k.around, k.comparison⟩

/-- The condition asks for its clause to fail. -/
def flipped (k : Condition) : Bool :=
  ((k.comparison.inverts ^^ k.comparison.negated) ^^ k.comparison.field.negated) ^^
    k.around.foldr xor false

theorem flipped_within (negated : Bool) (k : Condition) :
    (k.within negated).flipped = (k.flipped ^^ negated) := by
  simp only [flipped, within, List.foldr_cons, Bool.xor_assoc, Bool.xor_comm negated]

end Condition

mutual

/-- The comparisons of a filter in the order they are written. -/
def conditions : Filter → List Condition
  | comparison c => [⟨[], c⟩]
  | group _ children negated => conditionsIn negated children

def conditionsIn (negated : Bool) : List Filter → List Condition
  | [] => []
  | n :: ns => (conditions n).map (Condition.within negated) ++ conditionsIn negated ns

end

theorem conditionsIn_eq_flatMap (negated : Bool) (ns : List Filter) :
    conditionsIn negated ns = ns.flatMap fun n => n.conditions.map (Condition.within negated) := by
  induction ns with
  | nil => rfl
  | cons n ns ih => rw [conditionsIn, ih, List.flatMap_cons]

theorem conditions_group (op : Connective) (ns : List Filter) (negated : Bool) :
    (group op ns negated).conditions =
      (ns.flatMap conditions).map (Condition.within negated) := by
  rw [conditions, conditionsIn_eq_flatMap, List.map_flatMap]

/-- The nested paths a comparison is evaluated in. -/
def Comparison.scopes (m : Metadata) (c : Comparison) : List String :=
  if c.isInside m then [c.field.first] else []

end Filter

open SearchGateway.Filter (Condition)

namespace Query

/-- A leaf clause stands for a condition. -/
structure StandsFor (m : Metadata) (k : Condition) (s : Site) : Prop where
  built : Lowering.comparison m k.comparison = .ok (s.leaf, k.comparison.inverts)
  polarity : Odd (s.route.count .mustNot) ↔ k.flipped = true
  scope : s.route.filterMap Edge.path? = k.comparison.scopes m

namespace Lowering

/-- The trace a condition asks for. -/
def traceOf (m : Metadata) (k : Condition) : Option Trace :=
  match comparison m k.comparison with
  | .ok (l, _) => some ⟨k.flipped, k.comparison.scopes m, l⟩
  | .error _ => none

theorem traceOf_within (m : Metadata) (negated : Bool) (k : Condition) :
    traceOf m (k.within negated) = (traceOf m k).map (Trace.turn negated) := by
  have hflipped := Filter.Condition.flipped_within negated k
  cases hc : comparison m k.comparison with
  | error f =>
    have hc' : comparison m (k.within negated).comparison = .error f := hc
    rw [traceOf, traceOf, hc, hc']
    rfl
  | ok r =>
    have hc' : comparison m (k.within negated).comparison = .ok r := hc
    rw [traceOf, traceOf, hc, hc']
    simp only [hflipped, Option.map_some, Trace.turn]
    rfl

theorem standsFor_of_traceOf {m : Metadata} {k : Condition} {s : Site}
    (h : traceOf m k = some s.trace) : StandsFor m k s := by
  unfold traceOf at h
  cases hc : comparison m k.comparison with
  | error f => rw [hc] at h; cases h
  | ok r =>
    obtain ⟨l, base⟩ := r
    rw [hc] at h
    simp only [Option.some.injEq, Site.trace, Trace.mk.injEq] at h
    obtain ⟨hflipped, hscopes, hleaf⟩ := h
    refine ⟨?_, ?_, hscopes.symm⟩
    · rw [hc, hleaf, comparison_inverts hc]
    · rw [hflipped, decide_eq_true_iff]

theorem traceOf_alone {m : Metadata} {c : Comparison} {l : Leaf}
    (h : comparison m c = .ok (l, c.inverts)) :
    traceOf m ⟨[], c⟩ = some ⟨Filter.Condition.flipped ⟨[], c⟩, c.scopes m, l⟩ := by
  rw [traceOf, h]

theorem traces_placedLeaf (c : Comparison) (l : Leaf) (inverted : Bool) :
    (placedLeaf c l inverted).traces = [⟨Filter.Condition.flipped ⟨[], c⟩ ^^ inverted, [], l⟩] := by
  simp [placedLeaf, Placed.traces, traces_leaf, Trace.turn, Filter.Condition.flipped]

/-- The negation of a group is passed on to all conditions in it. -/
theorem map_traceOf_group (m : Metadata) (op : Connective) (ns : List Filter)
    (negated inverted : Bool) :
    ((Filter.group op ns negated).conditions.map fun k => (traceOf m k).map (Trace.turn inverted)) =
      (ns.flatMap Filter.conditions).map fun k =>
        (traceOf m k).map (Trace.turn (negated ^^ inverted)) := by
  rw [Filter.conditions_group, List.map_map]
  refine List.map_congr_left fun k _ => ?_
  rw [Function.comp_apply, traceOf_within, Option.map_map]
  exact congrArg (Option.map · _) (funext fun t => Trace.turn_turn negated inverted t)

/-- A filter of any shape whose fields are paths of plain segments. -/
abbrev Plain : Filter → Prop := Filter.Every (fun c => c.field.Dotless) fun _ _ _ => True

theorem traces_comparison {m : Metadata} {c : Comparison} (hc : c.field.Dotless) {inverted : Bool}
    {e : Entry} (h : entry m inverted (.comparison c) = .ok e) :
    e.traces.map some = [(traceOf m ⟨[], c⟩).map (Trace.turn inverted)] := by
  have hplain : Plain (.comparison c) := .comparison hc
  cases lowers_of_entry hplain h with
  | clause hcore hl hi =>
    rw [Filter.core_comparison] at hcore
    cases hcore
    rw [traceOf_alone hl, Entry.traces, traces_placedLeaf, Filter.Comparison.scopes, hi]
    simp [Trace.turn]
  | inside hcore hl hi =>
    rw [Filter.core_comparison] at hcore
    cases hcore
    rw [traceOf_alone hl, Entry.traces, traces_placedLeaf, Filter.Comparison.scopes, hi]
    simp [Trace.turn, Trace.enter]
  | group hcore _ _ =>
    rw [Filter.core_comparison] at hcore
    cases hcore

/-- The entries of the children of a group, if each has the traces its conditions ask for. -/
theorem traces_entries {m : Metadata} {ns : List Filter} {es : List Entry}
    (h : List.Forall₂ (fun n e => (e.traces.map some).Perm (n.conditions.map (traceOf m))) ns es) :
    ((es.flatMap Entry.traces).map some).Perm ((ns.flatMap Filter.conditions).map (traceOf m)) := by
  induction h with
  | nil => exact .nil
  | cons hne _ ih =>
    rw [List.flatMap_cons, List.flatMap_cons, List.map_append, List.map_append]
    exact hne.append ih

theorem traces_entry {m : Metadata} {n : Filter} (hn : Plain n) {inverted : Bool} {e : Entry}
    (h : entry m inverted n = .ok e) : (e.traces.map some).Perm
      (n.conditions.map fun k => (traceOf m k).map (Trace.turn inverted)) := by
  induction hn generalizing inverted e with
  | comparison hc =>
    rw [traces_comparison hc h, Filter.conditions, List.map_singleton]
  | @group op children negated _ _ ih =>
    rw [map_traceOf_group]
    match children, ih with
    | [], _ => rw [entry] at h; cases h
    | [n], ih =>
      rw [entry] at h
      rw [List.flatMap_singleton, Bool.xor_comm]
      exact ih n List.mem_cons_self h
    | n :: n' :: ns, ih =>
      rw [entry] at h
      cases hes : entries m (n :: n' :: ns) with
      | error f => rw [hes] at h; cases h
      | ok es =>
        rw [hes] at h
        cases h
        have hall := (List.forall₂_and_left _ es).2 ⟨fun k hk => hk, forall₂_entries hes⟩
        have hchildren := traces_entries (hall.imp fun k e hke => by
          have hone := ih k hke.1 hke.2
          rwa [Trace.turn_false, Option.map_id] at hone)
        have hbody := ((traces_body op es).map some).trans hchildren
        have hturned := hbody.map (Option.map (Trace.turn (negated ^^ inverted)))
        simpa only [Entry.traces, Placed.traces, List.map_map, Function.comp_def,
          Option.map_some] using hturned

/-- The traces of the whole query are those its conditions ask for. -/
theorem traces_ofFilter {m : Metadata} {n : Filter} (hn : Plain n) {b : Body}
    (h : ofFilter m n = .ok b) :
    (b.toQuery.traces.map some).Perm (n.conditions.map (traceOf m)) := by
  rw [ofFilter] at h
  cases he : entry m false n with
  | error f => rw [he] at h; cases h
  | ok e =>
    rw [he] at h
    have hentry := traces_entry hn he
    rw [Trace.turn_false] at hentry
    simp only [Option.map_id, id] at hentry
    have hone := traces_body .and [e]
    rw [List.flatMap_singleton] at hone
    cases e with
    | clause p => cases h; exact (hone.map some).trans hentry
    | inside path p => cases h; exact (hone.map some).trans hentry
    | group b' inverted =>
      have hsame : b.toQuery.traces = Entry.traces (.group b' inverted) := by
        cases inverted <;> cases h <;>
          simp [Entry.traces, Placed.traces, Trace.turn_false, Body.toQuery, traces_bool]
      rw [hsame]
      exact hentry

end Lowering

open Classical in
/-- Lists that agree up to order under two maps are matched one to one. -/
theorem exists_equiv_of_map_perm {α β γ : Type} {f : α → γ} {g : β → γ} {as : List α} {bs : List β}
    (h : (as.map f).Perm (bs.map g)) :
    ∃ e : Fin as.length ≃ Fin bs.length, ∀ i, f as[i] = g bs[e i] := by
  have ha : as.length = (as.map f).length := (List.length_map f).symm
  have hb : bs.length = (bs.map g).length := (List.length_map g).symm
  let e : Fin as.length ≃ Fin bs.length :=
    { toFun := fun i => (h.idxBij (i.cast ha)).cast hb.symm
      invFun := fun j => (h.symm.idxBij (j.cast hb)).cast ha.symm
      left_inv := fun i => by
        change (h.symm.idxBij (h.idxBij (i.cast ha))).cast ha.symm = i
        rw [h.idxBij_symm_idxBij]
        rfl
      right_inv := fun j => by
        change (h.idxBij (h.symm.idxBij (j.cast hb))).cast hb.symm = j
        rw [h.idxBij_idxBij_symm]
        rfl }
  refine ⟨e, fun i => ?_⟩
  have hi := h.getElem_idxBij_eq_getElem (i.cast ha)
  rw [List.getElem_map, List.getElem_map] at hi
  exact hi.symm

/-- The comparisons of a filter and the leaf clauses of its query are matched one to one. -/
theorem exists_equiv_sites {m : Metadata} {n : Filter} (hn : Lowering.Plain n) {b : Body}
    (h : ofFilter m n = .ok b) :
    ∃ e : Fin n.conditions.length ≃ Fin b.toQuery.sites.length,
      ∀ i, StandsFor m n.conditions[i] b.toQuery.sites[e i] := by
  have hperm := Lowering.traces_ofFilter hn h
  rw [traces, List.map_map] at hperm
  obtain ⟨e, he⟩ := exists_equiv_of_map_perm hperm.symm
  exact ⟨e, fun i => Lowering.standsFor_of_traceOf (he i)⟩

theorem exists_equiv_sites_sample :
    Lowering.Plain sampleFilter ∧
      ∃ b, ofFilter sampleIndex sampleFilter = .ok b ∧
        ∃ e : Fin sampleFilter.conditions.length ≃ Fin b.toQuery.sites.length,
          ∀ i, StandsFor sampleIndex sampleFilter.conditions[i] b.toQuery.sites[e i] := by
  have hn : Lowering.Plain sampleFilter := by
    refine .group trivial fun n hn => ?_
    simp only [List.mem_cons, List.not_mem_nil, or_false] at hn
    rcases hn with rfl | rfl | rfl
    · exact .comparison (by decide)
    · refine .group trivial fun n hn => ?_
      rw [List.mem_singleton.1 hn]
      exact .comparison (by decide)
    · exact .comparison (by decide)
  exact ⟨hn, _, rfl, exists_equiv_sites hn rfl⟩

end Query

end SearchGateway
