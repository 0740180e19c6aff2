import SearchGateway.Proofs.Filter.Fields
import SearchGateway.Proofs.Filter.Printing
import SearchGateway.Proofs.Index.Validation
import SearchGateway.Proofs.Ordering
import SearchGateway.Proofs.Query.Grounding
import SearchGateway.Proofs.Query.Sendable

/-!
# Naming declared fields

What an index may declare and what a request may name are checked by two readers: `isFieldName`
looks at a whole name, `Field.parse` scans a field that may have a negation in front. They agree on
every text but those whose first segment is `NOT` (`exists_parse_name_iff`), and a field is read
back from its text with the same exception (`parse_text_iff`).

Filters and orderings keep the exception: a declared field can be named there exactly if its first
segment is not `NOT`. Facets do so only for entries without a negation. One with a negation is taken
for the field behind it, which may be any (`namedInFacets_negated_iff`).
-/

namespace SearchGateway

open SearchGateway.Text
open SearchGateway.Index (FieldKind Metadata Settings firstSegment isFieldName)

namespace Filter.Field

variable {f : Field}

theorem first_eq_firstSegment (h : IsPath f.path f.name.toList) : f.first = firstSegment f.name :=
  (firstSegment_name (dotless_of_isPath h)).symm

/-- A field name is the name of one path. -/
theorem exists_isPath_of_isFieldName {s : String} (h : isFieldName s = true) (negated : Bool) :
    ∃ f : Field, IsPath f.path f.name.toList ∧ f.name = s ∧ f.negated = negated := by
  obtain ⟨path, hpath⟩ := Index.isFieldName_iff.1 h
  have hname : Field.name ⟨path, negated⟩ = s := by
    rw [← String.toList_inj, toList_name]
    exact hpath.2.2.symm
  exact ⟨⟨path, negated⟩, by rwa [hname], hname, rfl⟩

theorem exists_plain_of_isFieldName {s : String} (h : isFieldName s = true)
    (hfirst : firstSegment s ≠ "NOT") : ∃ f : Field, f.Plain ∧ f.name = s := by
  obtain ⟨f, hpath, rfl, hneg⟩ := exists_isPath_of_isFieldName h false
  rw [← first_eq_firstSegment hpath] at hfirst
  exact ⟨f, ⟨hpath.1, hpath.2.1, hfirst, hneg⟩, rfl⟩

theorem Plain.firstSegment_ne (h : f.Plain) : firstSegment f.name ≠ "NOT" :=
  first_eq_firstSegment h.isPath ▸ h.first_ne

/-- A text is read as the field of that name exactly if it may be declared and does not begin with
`NOT`. -/
theorem exists_parse_name_iff (s : String) :
    (∃ f, Field.parse s = .ok f ∧ f.negated = false ∧ f.name = s) ↔
      isFieldName s = true ∧ firstSegment s ≠ "NOT" := by
  constructor
  · rintro ⟨f, h, hneg, rfl⟩
    have hplain := plain_of_parse h hneg
    exact ⟨Index.isFieldName_iff.2 ⟨f.path, hplain.isPath⟩, hplain.firstSegment_ne⟩
  · rintro ⟨h, hfirst⟩
    obtain ⟨f, hplain, rfl⟩ := exists_plain_of_isFieldName h hfirst
    exact ⟨f, hplain.parse_name, hplain.not_negated, rfl⟩

/-- A field with a path of identifiers is read back from its text unless that begins with `NOT` and
was not meant as a negation. -/
theorem parse_text_iff (h : ∀ p ∈ f.path, Index.isName p.toList = true) :
    Field.parse f.text = .ok f ↔ f.path ≠ [] ∧ (f.first = "NOT" → f.negated = true) := by
  cases hneg : f.negated with
  | false =>
    have htext : f.text = f.name := by rw [text, hneg, if_neg Bool.false_ne_true]
    rw [htext]
    constructor
    · intro hparse
      have hplain := plain_of_parse hparse hneg
      exact ⟨hplain.path_ne, fun hfirst => absurd hfirst hplain.first_ne⟩
    · rintro ⟨hne, hfirst⟩
      exact Plain.parse_name ⟨hne, h, fun he => Bool.false_ne_true (hfirst he), hneg⟩
  | true =>
    have htext : f.text.toList = "NOT".toList ++ ' ' :: f.name.toList := by
      rw [text, hneg, if_pos rfl, String.toList_append]
      rfl
    constructor
    · intro hparse
      exact ⟨(isPath_of_parse hparse).1, fun _ => rfl⟩
    · rintro ⟨hne, -⟩
      refine Spelled.parse ?_
      rw [htext]
      exact .word hneg (.refl _) (by decide) (.refl _)
        ⟨⟨hne, h, f.toList_name⟩, [], (List.append_nil _).symm, .refl _⟩

/-- A path has one segment if no dot divides it. -/
theorem length_eq_one_iff (h : IsPath f.path f.name.toList) :
    f.path.length = 1 ↔ '.' ∉ f.name.toList := by
  obtain ⟨p, hp, ⟨hpath, hname⟩ | ⟨path', text', hpath', hpath, hname⟩⟩ := h.cases
  · rw [hpath, hname]
    exact iff_of_true rfl fun hdot => absurd (isNamePart_of_isName hp '.' hdot) (by decide)
  · rw [hpath, hname]
    have hne := List.length_pos_iff.2 hpath'.1
    refine iff_of_false (fun hone => ?_) fun hdot => hdot (by simp)
    rw [List.length_cons] at hone
    omega

end Filter.Field

namespace Ordering

/-- Whatever is sorted by is named without a negation. -/
theorem plain_of_parse {input : String} {clauses : List Clause} (h : parse input = .ok clauses) :
    ∀ c ∈ clauses, c.field.Plain := by
  unfold parse at h
  split at h
  · cases h
    exact List.forall_mem_nil _
  · have hspells := (parseClauses_eq_ok_iff.1 h).1
    have hplain := hspells.flip.imp fun c _ hc => And.intro hc.1 hc
    exact ((List.forall₂_and_left _ _).1 hplain).1

theorem parse_name {f : Filter.Field} (h : f.Plain) : parse f.name = .ok [⟨f, true⟩] := by
  have hspells : Clause.Spells f.name ⟨f, true⟩ := by
    refine ⟨h, ?_⟩
    have hlayout : Clause.Layout ⟨f, true⟩ ([] ++ (f.name.toList ++ [])) :=
      .bare (List.forall_mem_nil _) (List.forall_mem_nil _) rfl
    rwa [List.nil_append, List.append_nil] at hlayout
  have hblank : isBlankText f.name = false := by
    obtain ⟨c, hc⟩ := List.exists_mem_of_ne_nil _ h.isWord_name.ne_nil
    rw [isBlankText, List.all_eq_false]
    exact ⟨c, hc, by simp [h.isWord_name.not_blank c hc]⟩
  rw [parse, hblank, if_neg Bool.false_ne_true, split_of_not_mem hspells.not_mem]
  exact parseClauses_eq_ok_iff.2 ⟨.cons hspells .nil, by simp, fun _ _ => List.not_mem_nil⟩

end Ordering

namespace Query

open SearchGateway.Filter (Comparison Field)

/-- A filter can be written that has a comparison on the field. -/
def NamedInFilter (field : String) : Prop :=
  ∃ input n, Filter.parse input = .ok n ∧ ∃ k ∈ n.conditions, k.comparison.field.name = field

/-- An ordering can be written that has a clause on the field. -/
def NamedInOrdering (field : String) : Prop :=
  ∃ input clauses, Ordering.parse input = .ok clauses ∧ ∃ c ∈ clauses, c.field.name = field

/-- A facet entry, with a negation or without, is accepted for the field. -/
def NamedInFacets (m : Metadata) (negated : Bool) (field : String) : Prop :=
  ∃ entry f, Facets.facetField m entry = .ok f ∧ f.negated = negated ∧ f.name = field

/-- A nested object itself, of which facets count only the fields inside. -/
def IsBareNested (m : Metadata) (field : String) : Prop :=
  m.isNested field = true ∧ '.' ∉ field.toList

section

variable {field : String} (hfield : isFieldName field = true)

include hfield

theorem namedInFilter_iff : NamedInFilter field ↔ firstSegment field ≠ "NOT" := by
  constructor
  · rintro ⟨input, n, hparse, k, hk, rfl⟩
    have hk := (Filter.parse_eq_ok_iff_derives.1 hparse).canonical.conditions k hk
    have hplain : k.comparison.field.Plain := ⟨hk.path_ne, hk.isName, hk.first_ne, hk.not_negated⟩
    exact hplain.firstSegment_ne
  · intro hfirst
    obtain ⟨f, hplain, rfl⟩ := Field.exists_plain_of_isFieldName hfield hfirst
    let c : Comparison := ⟨f, .equal, .null, false⟩
    have hc : Filter.Canonical (.comparison c) := .comparison ⟨hplain.path_ne, hplain.isName,
      hplain.first_ne, hplain.not_negated, List.mem_cons_self, rfl, .null⟩
    have hsentence := hc.sentence_chars
    rw [← String.toList_ofList (l := Filter.chars _)] at hsentence
    exact ⟨_, _, Filter.parse_eq_ok_iff_derives.2 hsentence, _, List.mem_singleton_self _, rfl⟩

theorem namedInOrdering_iff : NamedInOrdering field ↔ firstSegment field ≠ "NOT" := by
  constructor
  · rintro ⟨input, clauses, hparse, c, hc, rfl⟩
    exact (Ordering.plain_of_parse hparse c hc).firstSegment_ne
  · intro hfirst
    obtain ⟨f, hplain, rfl⟩ := Field.exists_plain_of_isFieldName hfield hfirst
    exact ⟨_, _, Ordering.parse_name hplain, _, List.mem_singleton_self _, rfl⟩

variable {m : Metadata} (hknown : m.hasField field = true)

omit hfield in
include hknown in
/-- A known field is accepted in facets unless it is a nested object itself. -/
theorem facetField_iff {entry : String} {f : Field} (hname : f.name = field) :
    Facets.facetField m entry = .ok f ↔ Field.parse entry = .ok f ∧ ¬ IsBareNested m field := by
  subst hname
  rw [Facets.facetField_eq_ok_iff, and_iff_right hknown]
  refine and_congr_right fun hparse => ?_
  rw [IsBareNested, Field.length_eq_one_iff (Field.isPath_of_parse hparse)]

include hknown in
theorem namedInFacets_plain_iff :
    NamedInFacets m false field ↔ firstSegment field ≠ "NOT" ∧ ¬ IsBareNested m field := by
  constructor
  · rintro ⟨entry, f, h, hneg, hname⟩
    obtain ⟨hparse, hbare⟩ := (facetField_iff hknown hname).1 h
    exact ⟨hname ▸ (Field.plain_of_parse hparse hneg).firstSegment_ne, hbare⟩
  · rintro ⟨hfirst, hbare⟩
    obtain ⟨f, hplain, hname⟩ := Field.exists_plain_of_isFieldName hfield hfirst
    exact ⟨_, f, (facetField_iff hknown hname).2 ⟨hplain.parse_name, hbare⟩, hplain.not_negated,
      hname⟩

include hknown in
/-- A negation in front of a facet is passed over. -/
theorem namedInFacets_negated_iff : NamedInFacets m true field ↔ ¬ IsBareNested m field := by
  constructor
  · rintro ⟨entry, f, h, -, hname⟩
    exact ((facetField_iff hknown hname).1 h).2
  · intro hbare
    obtain ⟨f, hpath, hname, hneg⟩ := Field.exists_isPath_of_isFieldName hfield true
    have hparse := (Field.parse_text_iff hpath.2.1).2 ⟨hpath.1, fun _ => hneg⟩
    exact ⟨_, f, (facetField_iff hknown hname).2 ⟨hparse, hbare⟩, hneg, hname⟩

end

/-- The reader of fields accepts what may be declared, unless its first segment is `NOT`, and reads
back what it has read. A declared field can therefore be named in filters and orderings exactly if
its first segment is not `NOT`, and so in facets as far as no negation stands in front. Facets pass
over a negation, which makes the other fields known to them too. -/
theorem names_agree {name : String} {settings : Settings} {m : Metadata}
    (hm : Metadata.make name settings = .ok m) :
    (∀ s, (∃ f, Field.parse s = .ok f ∧ f.negated = false ∧ f.name = s) ↔
      isFieldName s = true ∧ firstSegment s ≠ "NOT") ∧
    (∀ f : Field, (∀ p ∈ f.path, Index.isName p.toList = true) →
      (Field.parse f.text = .ok f ↔ f.path ≠ [] ∧ (f.first = "NOT" → f.negated = true))) ∧
    ∀ field kind, (field, kind) ∈ m.fields →
      (NamedInFilter field ↔ firstSegment field ≠ "NOT") ∧
      (NamedInOrdering field ↔ firstSegment field ≠ "NOT") ∧
      (NamedInFacets m false field ↔ firstSegment field ≠ "NOT" ∧ ¬ IsBareNested m field) ∧
      (NamedInFacets m true field ↔ ¬ IsBareNested m field) ∧
      ∀ input f, Field.parse input = .ok f → f.name = field → f.first = firstSegment field := by
  refine ⟨Field.exists_parse_name_iff, fun f hf => Field.parse_text_iff hf,
    fun field kind hmem => ?_⟩
  have hfield := Metadata.isFieldName_of_make hm hmem
  have hknown : m.hasField field = true := Metadata.hasField_of_lookup
    (Index.isSome_lookup_iff.2 (List.mem_map.2 ⟨_, hmem, rfl⟩))
  refine ⟨namedInFilter_iff hfield, namedInOrdering_iff hfield,
    namedInFacets_plain_iff hfield hknown, namedInFacets_negated_iff hfield hknown, ?_⟩
  rintro input f hparse rfl
  exact Field.first_eq_firstSegment (Field.isPath_of_parse hparse)

/-- One field whose name only begins like the operator, and one whose name begins with it. -/
def operatorNames : Settings where
  fields := [⟨"NOTE", "keyword"⟩, ⟨"NOT.a", "keyword"⟩]

def operatorIndex : Metadata where
  name := "shop"
  idField := "id"
  shards := 1
  defaultSize := 20
  maxSize := 200
  facetSize := 20
  minimumShouldMatch := "75%"
  defaultFields := []
  sourceIncludes := []
  sourceExcludes := []
  queryTimeout := 0
  fields := [("NOTE", .keyword), ("NOT.a", .keyword)]

theorem make_operatorNames : Metadata.make "shop" operatorNames = .ok operatorIndex := by
  decide +kernel

theorem names_agree_operatorNames :
    Metadata.make "shop" operatorNames = .ok operatorIndex ∧
      Field.parse "NOT NOT.a" = .ok ⟨["NOT", "a"], true⟩ ∧
      (NamedInFilter "NOTE" ∧ NamedInOrdering "NOTE" ∧ NamedInFacets operatorIndex false "NOTE") ∧
      ¬ NamedInFilter "NOT.a" ∧ ¬ NamedInOrdering "NOT.a" ∧
      ¬ NamedInFacets operatorIndex false "NOT.a" := by
  obtain ⟨-, htext, hdeclared⟩ := names_agree make_operatorNames
  obtain ⟨hfilter, hordering, hfacets, -⟩ := hdeclared "NOTE" .keyword (by decide)
  obtain ⟨hfilter', hordering', hfacets', -⟩ := hdeclared "NOT.a" .keyword (by decide)
  have hfirst : firstSegment "NOTE" ≠ "NOT" := by decide
  have hfirst' : ¬ firstSegment "NOT.a" ≠ "NOT" := by decide
  refine ⟨make_operatorNames, (htext ⟨["NOT", "a"], true⟩ (by decide)).2 (by decide),
    ⟨hfilter.2 hfirst, hordering.2 hfirst, hfacets.2 ⟨hfirst, fun hbare => ?_⟩⟩,
    fun h => hfirst' (hfilter'.1 h), fun h => hfirst' (hordering'.1 h),
    fun h => hfirst' (hfacets'.1 h).1⟩
  exact absurd hbare.1 (by decide)

/-- A facet entry with a negation counts a field that begins with `NOT`. -/
theorem facets_negated_name :
    Metadata.make "shop" operatorNames = .ok operatorIndex ∧
      ("NOT.a", FieldKind.keyword) ∈ operatorIndex.fields ∧ firstSegment "NOT.a" = "NOT" ∧
      facets operatorIndex 0 ["!NOT.a"] = .ok [("NOT", .terms "NOT.a" 20 1)] := by
  have hfamilies : Facets.families operatorIndex [] (items ["!NOT.a"]) =
      .ok [("NOT", ["NOT.a"])] := by decide +kernel
  refine ⟨make_operatorNames, by decide, by decide, ?_⟩
  rw [facets, hfamilies]
  show Except.ok (List.map (Facets.aggregation operatorIndex 20) _) = _
  rw [List.mergeSort_singleton]
  rfl

end Query

end SearchGateway
