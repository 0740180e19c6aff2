import SearchGateway.Proofs.Backend.FacetCounts
import SearchGateway.Proofs.Query.Source

/-!
# What the aggregations of facets cover

`Covers` says what the aggregations of requested fields are: one for each first segment, in the
order of these, and in them one terms aggregation for each field. Entries that are accepted are
compiled to just that (`Acceptable.covers`). Whether they are accepted, and which names and fields
there are, depends on what is asked for and not on its order. Entries that ask for the same
therefore differ at most in the order inside a nested aggregation (`exists_facets_of_asked_eq`).
-/

namespace SearchGateway

open SearchGateway.Text
open SearchGateway.Filter (Field IsPath)
open SearchGateway.Index (Metadata)

namespace Aggregation

mutual

/-- The fields of the terms aggregations, at any depth. -/
def fields : Aggregation → List String
  | terms field _ _ => [field]
  | nested _ aggregations => fieldsIn aggregations

def fieldsIn : List (String × Aggregation) → List String
  | [] => []
  | (_, aggregation) :: more => aggregation.fields ++ fieldsIn more

end

theorem fieldsIn_eq_flatMap (as : List (String × Aggregation)) :
    fieldsIn as = as.flatMap fun a => a.2.fields := by
  induction as with
  | nil => rfl
  | cons a as ih => rw [fieldsIn, ih, List.flatMap_cons]

/-- The same but for the order of the aggregations inside a nested one. -/
inductive Reordered : Aggregation → Aggregation → Prop where
  | same (a : Aggregation) : Reordered a a
  | nested {path : String} {as bs : List (String × Aggregation)} :
      as.Perm bs → Reordered (.nested path as) (.nested path bs)

end Aggregation

namespace Query.Facets

variable {m : Metadata} {size : Int} {texts texts' entries entries' : List String}

/-! ### One aggregation for each field -/

theorem fieldsIn_aggregations {families : List Family} (h : Grouped m families) (size : Int) :
    Aggregation.fieldsIn (families.map (aggregation m size)) = allNames families := by
  rw [Aggregation.fieldsIn_eq_flatMap, List.flatMap_map, allNames]
  apply List.flatMap_congr
  intro family hfamily
  cases hnested : m.isNested family.1 with
  | true =>
    simp [aggregation, hnested, Aggregation.fields, Aggregation.fieldsIn_eq_flatMap,
      List.flatMap_map]
  | false =>
    obtain ⟨name, hname⟩ := h.single family hfamily hnested
    simp [aggregation, hnested, hname, Aggregation.fields]

/-- The aggregations of requested fields. Those inside a nested field are in the order in which the
fields were first asked for. -/
structure Covers (m : Metadata) (size : Int) (fs : List Field)
    (aggregations : List (String × Aggregation)) : Prop where
  ascending : (aggregations.map (·.1)).Pairwise (· < ·)
  names : ∀ name, name ∈ aggregations.map (·.1) ↔ ∃ f ∈ fs, f.first = name
  once : (Aggregation.fieldsIn aggregations).Nodup
  fields : ∀ name, name ∈ Aggregation.fieldsIn aggregations ↔ ∃ f ∈ fs, f.name = name
  direct : ∀ a ∈ aggregations, m.isNested a.1 = false →
    ∃ f ∈ fs, f.first = a.1 ∧ a.2 = .terms f.name size m.shards
  inside : ∀ a ∈ aggregations, m.isNested a.1 = true →
    a.2 = .nested a.1 ((namesUnder fs a.1).map fun name => (name, .terms name size m.shards))

theorem Acceptable.covers (h : Acceptable m texts) (size : Int) :
    Covers m size (fieldsOf texts)
      ((sortedFamilies (fieldsOf texts)).map (aggregation m size)) := by
  have hpaths : ∀ f ∈ fieldsOf texts, IsPath f.path f.name.toList :=
    fun _ hf => isPath_of_mem_fieldsOf hf
  have hnames : ((sortedFamilies (fieldsOf texts)).map (aggregation m size)).map (·.1) =
      (NameSet.ofList ((fieldsOf texts).map Field.first)).toList := by
    rw [map_fst_aggregations, map_fst_sortedFamilies]
  constructor
  case ascending =>
    rw [hnames]
    exact NameSet.ascending _
  case names =>
    intro name
    rw [hnames]
    exact NameSet.mem_ofList.trans List.mem_map
  case once =>
    rw [fieldsIn_aggregations h.grouped]
    exact h.grouped.nodup_allNames
  case fields =>
    intro name
    rw [fieldsIn_aggregations h.grouped, mem_allNames_sortedFamilies]
  case direct =>
    rw [List.forall_mem_map]
    intro family hfamily hnested
    rw [fst_aggregation] at hnested ⊢
    obtain ⟨⟨f, hf, hfirst⟩, hfamilyNames⟩ := mem_sortedFamilies.1 hfamily
    refine ⟨f, hf, hfirst, ?_⟩
    rw [← hfirst] at hnested hfamilyNames
    rw [namesUnder_eq_singleton hpaths h.separate hf hnested] at hfamilyNames
    simp [aggregation, ← hfirst, hnested, hfamilyNames]
  case inside =>
    rw [List.forall_mem_map]
    intro family hfamily hnested
    rw [fst_aggregation] at hnested ⊢
    simp [aggregation, hnested, (mem_sortedFamilies.1 hfamily).2]

/-! ### Another order -/

section

variable (h : ∀ text, text ∈ texts ↔ text ∈ texts')

include h

theorem mem_fieldsOf_congr (f : Field) : f ∈ fieldsOf texts ↔ f ∈ fieldsOf texts' := by
  rw [mem_fieldsOf, mem_fieldsOf]
  simp only [h]

theorem Acceptable.congr (haccept : Acceptable m texts) : Acceptable m texts' where
  known text htext := haccept.known text ((h text).2 htext)
  separate f hf g hg :=
    haccept.separate f ((mem_fieldsOf_congr h f).2 hf) g ((mem_fieldsOf_congr h g).2 hg)

theorem namesUnder_perm (parent : String) :
    (namesUnder (fieldsOf texts) parent).Perm (namesUnder (fieldsOf texts') parent) := by
  refine (List.perm_ext_iff_of_nodup (nodup_eraseDups _) (nodup_eraseDups _)).2 fun name => ?_
  rw [← namesUnder, ← namesUnder, mem_namesUnder, mem_namesUnder]
  simp only [mem_fieldsOf_congr h]

end

/-- One family with its fields in another order. -/
theorem reordered_aggregation {parent : String} {names names' : List String}
    (hperm : names.Perm names') (hsingle : m.isNested parent = false → ∃ name, names = [name]) :
    (aggregation m size (parent, names)).2.Reordered (aggregation m size (parent, names')).2 := by
  cases hnested : m.isNested parent with
  | true =>
    simp only [aggregation, hnested, if_true]
    exact .nested (hperm.map _)
  | false =>
    obtain ⟨name, rfl⟩ := hsingle hnested
    rw [← List.singleton_perm.1 hperm]
    exact .same _

theorem exists_facets_of_asked_eq {aggregations : List (String × Aggregation)}
    (h : facets m size entries = .ok aggregations) (hasked : asked entries = asked entries') :
    ∃ aggregations', facets m size entries' = .ok aggregations' ∧
      List.Forall₂ (fun a b => a.1 = b.1 ∧ a.2.Reordered b.2) aggregations aggregations' := by
  obtain ⟨haccept, rfl⟩ := facets_eq_ok_iff.1 h
  have hitems : ∀ text, text ∈ items entries ↔ text ∈ items entries' := by
    intro text
    rw [mem_items_iff, mem_items_iff, hasked]
  refine ⟨_, facets_eq_ok_iff.2 ⟨haccept.congr hitems, rfl⟩, ?_⟩
  have hparents : NameSet.ofList ((fieldsOf (items entries)).map Field.first) =
      NameSet.ofList ((fieldsOf (items entries')).map Field.first) := by
    apply NameSet.ext
    intro parent
    simp only [NameSet.mem_ofList, List.mem_map, mem_fieldsOf_congr hitems]
  have hsingle : ∀ parent ∈ (NameSet.ofList ((fieldsOf (items entries)).map Field.first)).toList,
      m.isNested parent = false →
        ∃ name, namesUnder (fieldsOf (items entries)) parent = [name] := by
    intro parent hparent hnested
    obtain ⟨f, hf, rfl⟩ := List.mem_map.1 (NameSet.mem_ofList.1 hparent)
    exact ⟨f.name, namesUnder_eq_singleton (fun _ hg => isPath_of_mem_fieldsOf hg)
      haccept.separate hf hnested⟩
  rw [sortedFamilies, sortedFamilies, ← hparents, List.map_map, List.map_map,
    List.forall₂_map_left_iff, List.forall₂_map_right_iff, List.forall₂_same]
  intro parent hparent
  rw [Function.comp_apply, Function.comp_apply]
  refine ⟨?_, reordered_aggregation (namesUnder_perm hitems parent) (hsingle parent hparent)⟩
  rw [fst_aggregation, fst_aggregation]

/-- Facets are compiled exactly if every entry names a known field, none a nested field as such, and
no two others share a first segment; every field is then counted once, in whatever order the entries
are. -/
theorem facets_cover (m : Metadata) (size : Int) (entries : List String) :
    ((∃ aggregations, facets m size entries = .ok aggregations) ↔ Acceptable m (items entries)) ∧
    ∀ aggregations, facets m size entries = .ok aggregations →
      Covers m (if size = 0 then m.facetSize else size) (fieldsOf (items entries)) aggregations ∧
      ∀ entries', entries.Perm entries' →
        ∃ aggregations', facets m size entries' = .ok aggregations' ∧
          List.Forall₂ (fun a b => a.1 = b.1 ∧ a.2.Reordered b.2) aggregations aggregations' := by
  refine ⟨?_, fun aggregations h => ⟨?_, fun entries' hperm => ?_⟩⟩
  · simp only [facets_eq_ok_iff, exists_and_left, exists_eq, and_true]
  · obtain ⟨haccept, rfl⟩ := facets_eq_ok_iff.1 h
    exact haccept.covers _
  · exact exists_facets_of_asked_eq h (asked_eq_of_repacked (.reorder hperm))

theorem facets_cover_shop :
    facets sampleIndex 0 ["state, offer.kind", "offer.price,state"] =
        .ok Backend.facetAggregations ∧
      Covers sampleIndex 20 (fieldsOf (items ["state, offer.kind", "offer.price,state"]))
        Backend.facetAggregations ∧
      ["state, offer.kind", "offer.price,state"].Perm ["offer.price,state", "state, offer.kind"] ∧
      ∃ aggregations, facets sampleIndex 0 ["offer.price,state", "state, offer.kind"] =
          .ok aggregations ∧
        List.Forall₂ (fun a b => a.1 = b.1 ∧ a.2.Reordered b.2) Backend.facetAggregations
          aggregations := by
  have h : facets sampleIndex 0 ["state, offer.kind", "offer.price,state"] =
      .ok Backend.facetAggregations := Backend.facets_facetRequest
  obtain ⟨hcovers, hreordered⟩ := (facets_cover sampleIndex 0 _).2 _ h
  have hswap : ["state, offer.kind", "offer.price,state"].Perm
      ["offer.price,state", "state, offer.kind"] := .swap _ _ _
  exact ⟨h, hcovers, hswap, hreordered _ hswap⟩

end Query.Facets

end SearchGateway
