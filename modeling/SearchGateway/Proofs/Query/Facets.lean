import Mathlib.Data.List.Induction
import Mathlib.Data.List.Nodup
import SearchGateway.Backend.FacetCounts
import SearchGateway.Proofs.Filter.Grammar
import SearchGateway.Proofs.Outcome
import SearchGateway.Proofs.Query.Entries
import SearchGateway.Proofs.Text.NameSet
import SearchGateway.Query.Facets

/-!
# The aggregations of facets

The requested fields are put into families by their first segment, one entry after the other.
`familiesOf` says which families a list of fields has. One more field is added to them exactly if it
fits (`join_of_fits`, `fits_of_join`), so the families of a list of entries are those of the fields
that the entries name (`families_eq_ok_iff`), and the aggregations are known from these fields alone
(`facets_eq_ok_iff`).

Every requested field is in exactly one family, and a family of a field that is not nested has no
other field (`Grouped`). The paths that are read off the aggregations (`facetPaths_eq`) therefore
name every requested field once (`Grouped.nodup_allNames`).
-/

namespace SearchGateway

open SearchGateway.Text
open SearchGateway.Filter (Field IsPath)
open SearchGateway.Index (Metadata)

/-! ### Fields -/

namespace Filter.Field

theorem isPath_of_parse {input : String} {f : Field} (h : Field.parse input = .ok f) :
    IsPath f.path f.name.toList := by
  unfold Field.parse at h
  dsimp only at h
  obtain ⟨field, hfield, h⟩ := bind_eq_ok_iff.1 h
  have htaken := (congrArg taken hfield).trans (taken_ok field)
  rw [taken_scanField] at htaken
  obtain ⟨text, -, hpath, -⟩ := isPath_of_taken htaken
  split at h
  · cases h
    show IsPath field.value (String.ofList (joinChars ['.'] (field.value.map String.toList))).toList
    rw [String.toList_ofList, ← hpath.2.2]
    exact hpath
  · cases h

theorem dotless_of_isPath {f : Field} (h : IsPath f.path f.name.toList) : f.Dotless := by
  intro s hs hdot
  exact absurd (isNamePart_of_isName (h.2.1 s hs) '.' hdot) (by decide)

end Filter.Field

namespace Query.Facets

variable {m : Metadata} {fs : List Field} {f : Field}

theorem isName_first {f : Field} (h : IsPath f.path f.name.toList) :
    Index.isName f.first.toList = true := by
  obtain ⟨p, ps, hpath⟩ := List.exists_cons_of_ne_nil h.1
  have hfirst : f.first = p := by rw [Field.first, hpath]; rfl
  rw [hfirst]
  exact h.2.1 p (hpath ▸ List.mem_cons_self)

theorem firstSegment_of_isName {s : String} (h : Index.isName s.toList = true) :
    Index.firstSegment s = s := by
  rw [Index.firstSegment, List.takeWhile_eq_self_iff.2, String.ofList_toList]
  intro c hc
  refine decide_eq_true fun hdot => ?_
  exact absurd (Filter.isNamePart_of_isName h c hc) (by rw [hdot]; decide)

theorem isNested_first {f : Field} (hf : IsPath f.path f.name.toList) :
    m.isNested f.first = m.isNested f.name := by
  rw [Metadata.isNested, Metadata.isNested, firstSegment_of_isName (isName_first hf),
    Field.firstSegment_name (Field.dotless_of_isPath hf)]

/-- An entry is accepted if it names a known field, and a field inside a nested object if any. -/
theorem facetField_eq_ok_iff {text : String} : facetField m text = .ok f ↔
    Field.parse text = .ok f ∧ m.hasField f.name = true ∧
      ¬ (m.isNested f.name = true ∧ f.path.length = 1) := by
  rw [facetField, bind_eq_ok_iff]
  simp only [mapError_eq_ok_iff]
  constructor
  · rintro ⟨g, hparse, h⟩
    split at h
    · cases h
    · next hknown =>
      split at h
      · cases h
      · next hbare =>
        cases h
        exact ⟨hparse, by simpa using hknown, by simpa using hbare⟩
  · rintro ⟨hparse, hknown, hbare⟩
    refine ⟨f, hparse, ?_⟩
    rw [if_neg (by simpa using hknown), if_neg (by simpa using hbare)]
    rfl

/-- The fields that entries name. -/
def fieldsOf (texts : List String) : List Field :=
  texts.filterMap fun text => (Field.parse text).toOption

theorem fieldsOf_cons {text : String} (h : Field.parse text = .ok f) (texts : List String) :
    fieldsOf (text :: texts) = f :: fieldsOf texts := by
  rw [fieldsOf, List.filterMap_cons_some (by rw [h]; rfl)]
  rfl

theorem mem_fieldsOf {texts : List String} :
    f ∈ fieldsOf texts ↔ ∃ text ∈ texts, Field.parse text = .ok f := by
  rw [fieldsOf, List.mem_filterMap]
  refine exists_congr fun text => and_congr_right fun _ => ?_
  cases Field.parse text <;> simp [Except.toOption]

theorem isPath_of_mem_fieldsOf {texts : List String} (h : f ∈ fieldsOf texts) :
    IsPath f.path f.name.toList := by
  obtain ⟨text, -, hparse⟩ := mem_fieldsOf.1 h
  exact Field.isPath_of_parse hparse

/-! ### Families of fields -/

/-- The names of the fields with a first segment, each once and in the order of their first
request. -/
def namesUnder (fs : List Field) (parent : String) : List String :=
  ((fs.filter (·.first = parent)).map Field.name).eraseDups

theorem mem_namesUnder {name parent : String} :
    name ∈ namesUnder fs parent ↔ ∃ f ∈ fs, f.first = parent ∧ f.name = name := by
  simp [namesUnder, and_assoc]

theorem namesUnder_concat_self : namesUnder (fs ++ [f]) f.first =
    if f.name ∈ namesUnder fs f.first then namesUnder fs f.first
    else namesUnder fs f.first ++ [f.name] := by
  have hsplit : (fs ++ [f]).filter (fun g => g.first = f.first) =
      fs.filter (fun g => g.first = f.first) ++ [f] := by simp
  rw [namesUnder, hsplit, List.map_append, List.map_singleton, eraseDups_concat]
  simp only [namesUnder, List.mem_eraseDups]

theorem namesUnder_concat_of_ne {parent : String} (h : f.first ≠ parent) :
    namesUnder (fs ++ [f]) parent = namesUnder fs parent := by
  simp [namesUnder, h]

/-- The families of fields that are added in turn. -/
def familiesOf (fs : List Field) : List Family :=
  (fs.map Field.first).eraseDups.map fun parent => (parent, namesUnder fs parent)

/-- What adding a field does to families by their names. -/
theorem join_map {names : String → List String} {parents : List String} (h : parents.Nodup) :
    join m f (parents.map fun parent => (parent, names parent)) =
      if f.first ∉ parents then
        .ok ((parents.map fun parent => (parent, names parent)) ++ [(f.first, [f.name])])
      else if f.name ∈ names f.first then
        .ok (parents.map fun parent => (parent, names parent))
      else if m.isNested f.name then
        .ok (parents.map fun parent =>
          (parent, if parent = f.first then names parent ++ [f.name] else names parent))
      else .error (.shared ((names f.first).headD "") f.name f.first) := by
  induction parents with
  | nil => rfl
  | cons parent parents ih =>
    obtain ⟨hnew, hnodup⟩ := List.nodup_cons.1 h
    rw [List.map_cons, join]
    by_cases hparent : parent = f.first
    · subst hparent
      have hrest : (parents.map fun p =>
          (p, if p = f.first then names p ++ [f.name] else names p)) =
            parents.map fun p => (p, names p) := by
        refine List.map_congr_left fun p hp => ?_
        rw [if_neg]
        rintro rfl
        exact hnew hp
      simp [hrest]
    · rw [if_neg hparent, ih hnodup]
      by_cases hfirst : f.first ∈ parents
      · by_cases hname : f.name ∈ names f.first
        · simp [hfirst, hname, bind, Except.bind, pure, Except.pure]
        · cases hnested : m.isNested f.name <;>
            simp [hfirst, hname, hparent, bind, Except.bind, pure, Except.pure]
      · simp [hfirst, Ne.symm hparent, bind, Except.bind, pure, Except.pure]

/-- A field that may be added to others: it is the first with its first segment, it is among them,
or it lies in a nested object. -/
def Fits (m : Metadata) (fs : List Field) (f : Field) : Prop :=
  f.first ∈ fs.map Field.first → f.name ∈ namesUnder fs f.first ∨ m.isNested f.name = true

theorem fits_of_join {families : List Family} (h : join m f (familiesOf fs) = .ok families) :
    Fits m fs f := by
  intro hfirst
  rw [familiesOf, join_map (nodup_eraseDups _)] at h
  simp only [List.mem_eraseDups, not_not.2 hfirst, if_false] at h
  split at h
  · next hname => exact .inl hname
  · split at h
    · next hnested => exact .inr hnested
    · cases h

theorem join_of_fits (h : Fits m fs f) :
    join m f (familiesOf fs) = .ok (familiesOf (fs ++ [f])) := by
  have hother {parent : String} (h : parent ≠ f.first) :
      namesUnder (fs ++ [f]) parent = namesUnder fs parent := namesUnder_concat_of_ne (Ne.symm h)
  rw [familiesOf, join_map (nodup_eraseDups _), familiesOf, List.map_append, List.map_singleton,
    eraseDups_concat]
  simp only [List.mem_eraseDups]
  by_cases hfirst : f.first ∈ fs.map Field.first
  · rw [if_neg (not_not.2 hfirst), if_pos hfirst]
    by_cases hname : f.name ∈ namesUnder fs f.first
    · have hsame : ∀ parent, namesUnder (fs ++ [f]) parent = namesUnder fs parent := by
        intro parent
        by_cases hparent : parent = f.first
        · rw [hparent, namesUnder_concat_self, if_pos hname]
        · exact hother hparent
      rw [if_pos hname]
      simp only [hsame]
    · have hmore : ∀ parent, namesUnder (fs ++ [f]) parent =
          if parent = f.first then namesUnder fs parent ++ [f.name] else namesUnder fs parent := by
        intro parent
        split
        · next hparent => rw [hparent, namesUnder_concat_self, if_neg hname]
        · next hparent => exact hother hparent
      rw [if_neg hname, if_pos ((h hfirst).resolve_left hname)]
      simp only [hmore]
  · have hnone : namesUnder fs f.first = [] := by
      rw [List.eq_nil_iff_forall_not_mem]
      intro name hname
      obtain ⟨g, hg, hgf, -⟩ := mem_namesUnder.1 hname
      exact hfirst (List.mem_map.2 ⟨g, hg, hgf⟩)
    have hold : ((fs.map Field.first).eraseDups.map fun p => (p, namesUnder (fs ++ [f]) p)) =
        (fs.map Field.first).eraseDups.map fun p => (p, namesUnder fs p) := by
      refine List.map_congr_left fun p hp => ?_
      rw [hother]
      rintro rfl
      exact hfirst (List.mem_eraseDups.1 hp)
    rw [if_pos hfirst, if_neg hfirst, List.map_append, hold, List.map_singleton,
      namesUnder_concat_self, hnone]
    rfl

/-- Different fields that are not nested have different first segments. -/
def Separate (m : Metadata) (fs : List Field) : Prop :=
  ∀ f ∈ fs, ∀ g ∈ fs, m.isNested f.name = false → m.isNested g.name = false →
    f.first = g.first → f.name = g.name

theorem separate_concat (hpaths : ∀ g ∈ fs ++ [f], IsPath g.path g.name.toList)
    (h : Separate m fs) : Separate m (fs ++ [f]) ↔ Fits m fs f := by
  have hlast : f ∈ fs ++ [f] := List.mem_append_right _ List.mem_cons_self
  constructor
  · intro hall hfirst
    obtain ⟨g, hg, hgf⟩ := List.mem_map.1 hfirst
    have hg' : g ∈ fs ++ [f] := List.mem_append_left _ hg
    cases hnested : m.isNested f.name with
    | true => exact .inr rfl
    | false =>
      -- Whether a field is nested is told by its first segment.
      have hnested' : m.isNested g.name = false := by
        rw [← isNested_first (hpaths g hg'), hgf, isNested_first (hpaths f hlast), hnested]
      exact .inl (mem_namesUnder.2 ⟨g, hg, hgf, hall g hg' f hlast hnested' hnested hgf⟩)
  · intro hfits
    have hnew : ∀ g ∈ fs, m.isNested f.name = false → m.isNested g.name = false →
        f.first = g.first → f.name = g.name := by
      intro g hg hnested hnested' hfg
      rcases hfits (List.mem_map.2 ⟨g, hg, hfg.symm⟩) with hname | hinside
      · obtain ⟨k, hk, hkf, hname⟩ := mem_namesUnder.1 hname
        rw [← hname] at hnested ⊢
        exact h k hk g hg hnested hnested' (hkf.trans hfg)
      · exact Bool.noConfusion (hnested.symm.trans hinside)
    intro a ha b hb hflat hflat' hfirst
    rcases List.mem_append.1 ha with ha | ha <;> rcases List.mem_append.1 hb with hb | hb
    · exact h a ha b hb hflat hflat' hfirst
    · cases List.mem_singleton.1 hb
      exact (hnew a ha hflat' hflat hfirst.symm).symm
    · cases List.mem_singleton.1 ha
      exact hnew b hb hflat hflat' hfirst
    · cases List.mem_singleton.1 ha
      cases List.mem_singleton.1 hb
      rfl

/-- The families of a list of entries, added to those of fields before. -/
theorem families_eq_ok_iff {texts : List String} {families : List Family}
    (hpaths : ∀ g ∈ fs, IsPath g.path g.name.toList) (h : Separate m fs) :
    Facets.families m (familiesOf fs) texts = .ok families ↔
      (∀ text ∈ texts, ∃ f, facetField m text = .ok f) ∧ Separate m (fs ++ fieldsOf texts) ∧
        families = familiesOf (fs ++ fieldsOf texts) := by
  induction texts generalizing fs with
  | nil =>
    rw [Facets.families, fieldsOf, List.filterMap_nil, List.append_nil]
    simp [h, eq_comm]
  | cons text texts ih =>
    rw [Facets.families]
    cases hfield : facetField m text with
    | error e => simp [hfield, bind, Except.bind]
    | ok f =>
      have hparse := (facetField_eq_ok_iff.1 hfield).1
      have hpaths' : ∀ g ∈ fs ++ [f], IsPath g.path g.name.toList :=
        List.forall_mem_append.2
          ⟨hpaths, List.forall_mem_singleton.2 (Field.isPath_of_parse hparse)⟩
      rw [fieldsOf_cons hparse, List.append_cons, List.forall_mem_cons]
      show (join m f (familiesOf fs) >>= fun joined => Facets.families m joined texts) = _ ↔ _
      by_cases hfits : Fits m fs f
      · rw [join_of_fits hfits]
        show Facets.families m (familiesOf (fs ++ [f])) texts = _ ↔ _
        rw [ih hpaths' ((separate_concat hpaths' h).2 hfits)]
        simp [hfield]
      · constructor
        · intro hrun
          obtain ⟨joined, hjoin, -⟩ := bind_eq_ok_iff.1 hrun
          exact absurd (fits_of_join hjoin) hfits
        · rintro ⟨-, hseparate, -⟩
          refine absurd ((separate_concat hpaths' h).1 fun a ha b hb => ?_) hfits
          exact hseparate a (List.mem_append_left _ ha) b (List.mem_append_left _ hb)


/-! ### The families that are sent -/

/-- The families of fields in the order of their names. -/
def sortedFamilies (fs : List Field) : List Family :=
  (NameSet.ofList (fs.map Field.first)).toList.map fun parent => (parent, namesUnder fs parent)

theorem map_fst_sortedFamilies (fs : List Field) :
    (sortedFamilies fs).map (·.1) = (NameSet.ofList (fs.map Field.first)).toList := by
  rw [sortedFamilies, List.map_map]
  exact List.map_id _

theorem mem_sortedFamilies {family : Family} : family ∈ sortedFamilies fs ↔
    (∃ f ∈ fs, f.first = family.1) ∧ family.2 = namesUnder fs family.1 := by
  have hparent : family.1 ∈ (NameSet.ofList (fs.map Field.first)).toList ↔
      ∃ f ∈ fs, f.first = family.1 := NameSet.mem_ofList.trans List.mem_map
  rw [sortedFamilies, List.mem_map, ← hparent]
  constructor
  · rintro ⟨parent, hmem, rfl⟩
    exact ⟨hmem, rfl⟩
  · rintro ⟨hmem, hnames⟩
    exact ⟨family.1, hmem, Prod.ext rfl hnames.symm⟩

/-- The families are sent in the order of their names. -/
theorem mergeSort_familiesOf (fs : List Field) :
    (familiesOf fs).mergeSort (fun a b => a.1 ≤ b.1) = sortedFamilies fs := by
  set parents := (fs.map Field.first).eraseDups with hparents
  have hmap := @List.map_mergeSort _ _ (fun a b : String => decide (a ≤ b))
    (fun a b : Family => decide (a.1 ≤ b.1)) (fun parent => (parent, namesUnder fs parent)) parents
    fun _ _ _ _ => rfl
  rw [familiesOf, ← hmap, sortedFamilies]
  congr 1
  have hsorted := @List.pairwise_mergeSort String (fun a b => decide (a ≤ b))
    (fun a b c hab hbc => by
      simp only [decide_eq_true_eq] at *
      exact String.le_trans hab hbc)
    (fun a b => by
      simp only [Bool.or_eq_true, decide_eq_true_eq]
      exact String.le_total a b) parents
  have hperm : (parents.mergeSort fun a b => decide (a ≤ b)).Perm
      (NameSet.ofList (fs.map Field.first)).toList := by
    refine (List.mergeSort_perm _ _).trans ?_
    refine (List.perm_ext_iff_of_nodup (nodup_eraseDups _) (NameSet.nodup_toList _)).2 fun p => ?_
    exact List.mem_eraseDups.trans NameSet.mem_ofList.symm
  refine hperm.eq_of_pairwise (fun a b _ _ hab hba => ?_) hsorted
    ((NameSet.ascending _).imp fun hlt => decide_eq_true (String.not_lt.1 (String.lt_asymm hlt)))
  exact String.le_antisymm (of_decide_eq_true hab) (of_decide_eq_true hba)

/-- Entries that are accepted: each names a known field, inside the object if that is nested, and
different fields that are not nested have different first segments. -/
structure Acceptable (m : Metadata) (texts : List String) : Prop where
  known : ∀ text ∈ texts, ∃ f, Field.parse text = .ok f ∧ m.hasField f.name = true ∧
    ¬ (m.isNested f.name = true ∧ f.path.length = 1)
  separate : Separate m (fieldsOf texts)

/-- The aggregations of facets are those of the families of the fields asked for. -/
theorem facets_eq_ok_iff {size : Int} {entries : List String}
    {aggregations : List (String × Aggregation)} :
    facets m size entries = .ok aggregations ↔
      Acceptable m (items entries) ∧ aggregations =
        (sortedFamilies (fieldsOf (items entries))).map
          (aggregation m (if size = 0 then m.facetSize else size)) := by
  have hrun (families : List Family) : Facets.families m [] (items entries) = .ok families ↔
      Acceptable m (items entries) ∧ families = familiesOf (fieldsOf (items entries)) := by
    have hfamilies := @families_eq_ok_iff m [] (items entries) families
      (List.forall_mem_nil _) (List.forall_mem_nil _)
    refine hfamilies.trans ?_
    simp only [facetField_eq_ok_iff]
    exact ⟨fun ⟨hknown, hseparate, h⟩ => ⟨⟨hknown, hseparate⟩, h⟩,
      fun ⟨⟨hknown, hseparate⟩, h⟩ => ⟨hknown, hseparate, h⟩⟩
  rw [facets, bind_eq_ok_iff]
  simp only [hrun]
  constructor
  · rintro ⟨families, ⟨haccept, rfl⟩, h⟩
    cases h
    rw [mergeSort_familiesOf]
    exact ⟨haccept, rfl⟩
  · rintro ⟨haccept, rfl⟩
    refine ⟨_, ⟨haccept, rfl⟩, ?_⟩
    rw [mergeSort_familiesOf]
    rfl

theorem Acceptable.hasField {texts : List String} (h : Acceptable m texts) :
    ∀ f ∈ fieldsOf texts, m.hasField f.name = true := by
  intro f hf
  obtain ⟨text, htext, hparse⟩ := mem_fieldsOf.1 hf
  obtain ⟨g, hg, hknown, -⟩ := h.known text htext
  cases hparse.symm.trans hg
  exact hknown

theorem fst_aggregation (m : Metadata) (size : Int) (family : Family) :
    (aggregation m size family).1 = family.1 := by
  unfold aggregation
  split <;> rfl

theorem map_fst_aggregations (m : Metadata) (size : Int) (families : List Family) :
    (families.map (aggregation m size)).map (·.1) = families.map (·.1) := by
  rw [List.map_map]
  exact List.map_congr_left fun family _ => fst_aggregation m size family

/-- Families of fields: a family holds fields of its first segment, each once, and only a nested
field makes a family of several. -/
structure Grouped (m : Metadata) (families : List Family) : Prop where
  nodup : (families.map (·.1)).Nodup
  named : ∀ family ∈ families, ∀ name ∈ family.2,
    ∃ f : Field, IsPath f.path f.name.toList ∧ f.name = name ∧ f.first = family.1
  distinct : ∀ family ∈ families, family.2.Nodup
  single : ∀ family ∈ families, m.isNested family.1 = false → ∃ name, family.2 = [name]

/-- The fields of all families. -/
def allNames (families : List Family) : List String := families.flatMap (·.2)

theorem mem_allNames {families : List Family} {name : String} :
    name ∈ allNames families ↔ ∃ family ∈ families, name ∈ family.2 := List.mem_flatMap

theorem mem_allNames_sortedFamilies {name : String} :
    name ∈ allNames (sortedFamilies fs) ↔ ∃ f ∈ fs, f.name = name := by
  simp only [mem_allNames, mem_sortedFamilies]
  constructor
  · rintro ⟨family, ⟨-, hnames⟩, hname⟩
    obtain ⟨f, hf, -, hfname⟩ := mem_namesUnder.1 (hnames ▸ hname)
    exact ⟨f, hf, hfname⟩
  · rintro ⟨f, hf, hname⟩
    exact ⟨(f.first, namesUnder fs f.first), ⟨⟨f, hf, rfl⟩, rfl⟩,
      mem_namesUnder.2 ⟨f, hf, rfl, hname⟩⟩

/-- Fields that are not nested have families of their own. -/
theorem namesUnder_eq_singleton (hpaths : ∀ g ∈ fs, IsPath g.path g.name.toList)
    (h : Separate m fs) (hf : f ∈ fs) (hnested : m.isNested f.first = false) :
    namesUnder fs f.first = [f.name] := by
  have hflat : ∀ g ∈ fs, g.first = f.first → m.isNested g.name = false := by
    intro g hg hfirst
    rw [← isNested_first (hpaths g hg), hfirst, hnested]
  refine List.perm_singleton.1 ((List.perm_ext_iff_of_nodup (nodup_eraseDups _)
    (List.nodup_singleton _)).2 fun name => ?_)
  rw [← namesUnder, mem_namesUnder, List.mem_singleton]
  constructor
  · rintro ⟨g, hg, hfirst, rfl⟩
    exact h g hg f hf (hflat g hg hfirst) (hflat f hf rfl) hfirst
  · rintro rfl
    exact ⟨f, hf, rfl, rfl⟩

theorem grouped_sortedFamilies (hpaths : ∀ g ∈ fs, IsPath g.path g.name.toList)
    (h : Separate m fs) : Grouped m (sortedFamilies fs) where
  nodup := by
    rw [map_fst_sortedFamilies]
    exact NameSet.nodup_toList _
  named := by
    intro family hfamily name hname
    rw [(mem_sortedFamilies.1 hfamily).2] at hname
    obtain ⟨f, hf, hfirst, hfname⟩ := mem_namesUnder.1 hname
    exact ⟨f, hpaths f hf, hfname, hfirst⟩
  distinct := by
    intro family hfamily
    rw [(mem_sortedFamilies.1 hfamily).2]
    exact nodup_eraseDups _
  single := by
    intro family hfamily hnested
    obtain ⟨⟨f, hf, hfirst⟩, hnames⟩ := mem_sortedFamilies.1 hfamily
    rw [← hfirst] at hnested hnames
    exact ⟨f.name, hnames.trans (namesUnder_eq_singleton hpaths h hf hnested)⟩

theorem Acceptable.grouped {texts : List String} (h : Acceptable m texts) :
    Grouped m (sortedFamilies (fieldsOf texts)) :=
  grouped_sortedFamilies (fun _ hf => isPath_of_mem_fieldsOf hf) h.separate

theorem isName_of_mem_sortedFamilies {texts : List String} {family : Family}
    (h : family ∈ sortedFamilies (fieldsOf texts)) : Index.isName family.1.toList = true := by
  obtain ⟨⟨f, hf, hfirst⟩, -⟩ := mem_sortedFamilies.1 h
  exact hfirst ▸ isName_first (isPath_of_mem_fieldsOf hf)

/-- The field that an entry names. -/
def fieldOf? (text : String) : Option String := (Field.parse text).toOption.map Field.name

/-- The compiled aggregations are those of grouped families of the fields asked for. -/
theorem exists_grouped_of_facets {size : Int} {entries : List String}
    {aggregations : List (String × Aggregation)}
    (h : facets m size entries = .ok aggregations) :
    ∃ families size', Grouped m families ∧
      (∀ name, name ∈ allNames families ↔ name ∈ (items entries).filterMap fieldOf?) ∧
      aggregations = families.map (aggregation m size') := by
  obtain ⟨haccept, rfl⟩ := facets_eq_ok_iff.1 h
  refine ⟨_, _, haccept.grouped, fun name => ?_, rfl⟩
  have hnames : (items entries).filterMap fieldOf? = (fieldsOf (items entries)).map Field.name :=
    List.map_filterMap.symm
  rw [hnames, mem_allNames_sortedFamilies, List.mem_map]

/-! ### Paths -/

/-- The names that lead to a field of a family. -/
def pathTo (m : Metadata) (family : Family) (name : String) : List String :=
  if m.isNested family.1 then [family.1, name] else [family.1]

theorem facetPaths_eq {families : List Family} (h : Grouped m families) (size : Int) :
    Backend.facetPaths (families.map (aggregation m size)) =
      families.flatMap fun family => family.2.map fun name => (name, pathTo m family name) := by
  rw [Backend.facetPaths, List.flatMap_map]
  apply List.flatMap_congr
  intro family hfamily
  cases hnested : m.isNested family.1 with
  | true => simp [aggregation, pathTo, hnested, List.filterMap_map]
  | false =>
    obtain ⟨name, hname⟩ := h.single family hfamily hnested
    simp [aggregation, pathTo, hnested, hname]

theorem map_fst_facetPaths {families : List Family} (h : Grouped m families) (size : Int) :
    (Backend.facetPaths (families.map (aggregation m size))).map (·.1) = allNames families := by
  rw [facetPaths_eq h, List.map_flatMap, allNames]
  simp [Function.comp_def]

/-- No field is in two families. -/
theorem Grouped.nodup_allNames {families : List Family} (h : Grouped m families) :
    (allNames families).Nodup := by
  rw [allNames, List.nodup_flatMap]
  refine ⟨h.distinct, ?_⟩
  have hpairwise := List.pairwise_map.1 h.nodup
  refine hpairwise.imp_of_mem fun {family family'} hfamily hfamily' hne name hname hname' => ?_
  obtain ⟨f, hf, rfl, hfirst⟩ := h.named family hfamily name hname
  obtain ⟨f', hf', hsame, hfirst'⟩ := h.named family' hfamily' _ hname'
  apply hne
  rw [← hfirst, ← hfirst', ← Field.firstSegment_name (Field.dotless_of_isPath hf),
    ← Field.firstSegment_name (Field.dotless_of_isPath hf'), hsame]

end Query.Facets

end SearchGateway
