import SearchGateway.Proofs.Query.Faults
import SearchGateway.Proofs.Query.Packaging
import SearchGateway.Proofs.Query.Parts
import SearchGateway.Proofs.Query.Source

/-!
# Compiled requests name known fields

Every part of a request is checked against the fields of its index before it is renamed or gathered.
The checks therefore have to carry over to the names that are sent: a text field is searched by its
keyword form, which is known because the text field is (`hasField_searchName`), and the path of a
nested scope is the first segment of a field, which is declared as nested because paths are read
apart at their dots. `compile_grounded` puts the parts together.
-/

namespace SearchGateway

open SearchGateway.Text
open SearchGateway.Filter (Comparison Field IsPath)
open SearchGateway.Index (Metadata Registry lookup rawBase? rawSuffix)

namespace Index.Metadata

variable {m : Metadata}

theorem hasField_of_lookup {path : String} (h : (lookup m.fields path).isSome = true) :
    m.hasField path = true := by
  obtain ⟨kind, hkind⟩ := Option.isSome_iff_exists.1 h
  rw [hasField, kindOf?, hkind]
  rfl

theorem hasField_idField (m : Metadata) : m.hasField m.idField = true := by
  cases hlookup : lookup m.fields m.idField with
  | some kind => exact hasField_of_lookup (by rw [hlookup]; rfl)
  | none =>
    rw [hasField, kindOf?, hlookup]
    dsimp only
    rw [if_pos rfl]
    split <;> rfl

theorem rawBase?_append (path : String) : rawBase? (path ++ rawSuffix) = some path := by
  unfold rawBase?
  rw [String.toList_append, if_pos (List.isSuffixOf_iff_suffix.2 (List.suffix_append ..)),
    List.length_append, Nat.add_sub_cancel, List.take_left, String.ofList_toList]

/-- The keyword form of a text field is known. -/
theorem hasField_raw {path : String} (h : m.isOfKind path .text = true) :
    m.hasField (path ++ rawSuffix) = true := by
  have htext := lookup_of_isOfKind h (by decide)
  cases hlookup : lookup m.fields (path ++ rawSuffix) with
  | some kind => exact hasField_of_lookup (by rw [hlookup]; rfl)
  | none =>
    rw [hasField, kindOf?, hlookup]
    dsimp only
    rw [rawBase?_append, Option.any_some, htext]
    rfl

end Index.Metadata

namespace Query

/-! ### Clauses of the filter -/

/-- The clause of a filter is on a known field, a clause about places on one that holds places. A
clause of ids is on the id field. -/
def Leaf.Known (m : Metadata) : Leaf → Prop
  | .matching field _ _ | .present field | .range field _ _ _ _ | .terms field _
  | .wildcard field _ => m.hasField field = true
  | .ids _ => m.hasField m.idField = true
  | .geoBox field _ _ | .geoPolygon field _ =>
    m.hasField field = true ∧ m.isOfKind field .geoPoint = true
  | .queryString _ _ _ _ => False

namespace Lowering

variable {m : Metadata}

theorem known_within {field : String} (h : m.hasField field = true)
    (values : List Filter.Literal) : (within m field values).Known m := by
  unfold within
  split
  · exact m.hasField_idField
  · exact h

theorem known_comparison {c : Comparison} {l : Leaf} {base : Bool}
    (h : comparison m c = .ok (l, base)) : l.Known m := by
  obtain ⟨hfield, hbuilds⟩ := builds_of_comparison h
  cases hbuilds with
  | matching => exact hfield
  | present => exact hfield
  | range _ => exact hfield
  | within => exact known_within hfield _
  | like => exact hfield
  | box _ _ hgeo => exact ⟨hfield, hgeo⟩
  | ring hgeo => exact ⟨hfield, hgeo⟩

end Lowering

theorem known_filterBody {m : Metadata} {r : SearchRequest} {b : Body}
    (h : Compile.filterBody m r = .ok b) : b.toQuery.Every (Leaf.Known m) m.DeclaresNested := by
  rcases Compile.filterBody_eq_ok_iff.1 h with ⟨-, rfl⟩ | ⟨-, n, hparse, hlower⟩
  · exact .bool nofun nofun nofun
  · have hn : n.Canonical := (Filter.parse_eq_ok_iff_derives.1 hparse).canonical
    exact Lowering.every_ofFilter Lowering.known_comparison
      Metadata.declaresNested_of_isOfKind hn.plain hlower

/-! ### Fields of a free text -/

namespace FreeText

/-- A field as the backend spells it, with its boost: the field is known. -/
def Weighs (m : Metadata) (entry : String) : Prop :=
  ∃ name boost, entry = name ++ "^" ++ boost ∧ '^' ∉ name.toList ∧ m.hasField name = true

variable {m : Metadata}

theorem hasField_searchName {name : String} (h : m.hasField name = true) :
    m.hasField (searchName m name) = true := by
  unfold searchName
  split
  · next htext =>
    rw [Bool.and_eq_true] at htext
    exact Metadata.hasField_raw htext.1
  · exact h

/-- No name of a field holds the sign of a boost, nor does its keyword form. -/
theorem not_mem_searchName {f : Field} (h : IsPath f.path f.name.toList) :
    '^' ∉ (searchName m f.name).toList := by
  have hname : '^' ∉ f.name.toList := fun hmem => absurd (h.isPathPart '^' hmem) (by decide)
  unfold searchName
  split
  · rw [String.toList_append, List.mem_append]
    exact not_or.2 ⟨hname, by decide⟩
  · exact hname

/-- An entry is accepted if it names a known field without a negation, and a boost if any. -/
theorem fieldEntry_eq_ok_iff {entry out : String} : fieldEntry m entry = .ok out ↔
    ∃ text boost f, weighted entry = .ok (text, boost) ∧ Field.parse text = .ok f ∧
      f.negated = false ∧ m.hasField f.name = true ∧
      out = searchName m f.name ++ "^" ++ boostText boost := by
  rw [fieldEntry, bind_eq_ok_iff]
  constructor
  · rintro ⟨⟨text, boost⟩, hweighted, h⟩
    obtain ⟨f, hf, h⟩ := bind_eq_ok_iff.1 h
    refine ⟨text, boost, f, hweighted, mapError_eq_ok_iff.1 hf, ?_⟩
    split at h
    · cases h
    · next hneg =>
      split at h
      · cases h
      · next hfield =>
        cases h
        exact ⟨by simpa using hneg, by simpa using hfield, rfl⟩
  · rintro ⟨text, boost, f, hweighted, hf, hneg, hfield, rfl⟩
    refine ⟨_, hweighted, bind_eq_ok_iff.2 ⟨f, mapError_eq_ok_iff.2 hf, ?_⟩⟩
    rw [if_neg (by simp [hneg]), if_neg (by simp [hfield])]
    rfl

theorem weighs_of_fieldEntry {entry out : String} (h : fieldEntry m entry = .ok out) :
    Weighs m out := by
  obtain ⟨text, boost, f, -, hf, -, hfield, rfl⟩ := fieldEntry_eq_ok_iff.1 h
  exact ⟨_, _, rfl, not_mem_searchName (Field.isPath_of_parse hf), hasField_searchName hfield⟩

theorem weighs_of_fields {entries fields : List String} (hne : entries ≠ [])
    (h : FreeText.fields m entries = .ok fields) : ∀ f ∈ fields, Weighs m f := by
  rw [FreeText.fields, List.isEmpty_eq_false_iff.2 hne] at h
  intro f hf
  obtain ⟨entry, -, hentry⟩ := exists_ok_of_mem_mapM h hf
  exact weighs_of_fieldEntry hentry

end FreeText

end Query

/-! ### Ordering and source -/

namespace Ordering

theorem Clause.isPath_of_ofField {name : String} {ascending : Bool} {c : Clause}
    (h : Clause.ofField name ascending = .ok c) : IsPath c.field.path c.field.name.toList := by
  unfold Clause.ofField at h
  split at h
  · cases h
  · next f hf =>
    split at h
    · cases h
    · cases h
      exact Field.isPath_of_parse hf

theorem Clause.isPath_of_parse {text : String} {c : Clause} (h : Clause.parse text = .ok c) :
    IsPath c.field.path c.field.name.toList := by
  unfold Clause.parse at h
  split at h
  · cases h
  · exact Clause.isPath_of_ofField h
  · split at h
    · exact Clause.isPath_of_ofField h
    · cases h
  · cases h

theorem isPath_of_parseClauses {seen : List (List String)} {texts : List String}
    {clauses : List Clause} (h : parseClauses seen texts = .ok clauses) :
    ∀ c ∈ clauses, IsPath c.field.path c.field.name.toList := by
  induction texts generalizing seen clauses with
  | nil =>
    cases h
    exact nofun
  | cons text texts ih =>
    rw [parseClauses_cons, bind_eq_ok_iff] at h
    obtain ⟨c, hc, h⟩ := h
    split at h
    · cases h
    · obtain ⟨more, hmore, h⟩ := bind_eq_ok_iff.1 h
      cases h
      exact List.forall_mem_cons.2 ⟨Clause.isPath_of_parse hc, ih hmore⟩

end Ordering

namespace Query

/-- The key of an ordering is a known field, and the path it is nested in is declared so. -/
def SortKnown (m : Metadata) (s : SortClause) : Prop :=
  m.hasField s.field = true ∧ (s.nestedPath ≠ "" → m.DeclaresNested s.nestedPath)

namespace Compile

variable {m : Metadata}

theorem sortKnown_of_sortClause {c : Ordering.Clause} (hc : IsPath c.field.path c.field.name.toList)
    {s : SortClause} (h : sortClause m c = .ok s) : SortKnown m s := by
  unfold sortClause at h
  dsimp only at h
  split at h
  · next hfield =>
    cases h
    refine ⟨hfield, fun hne => ?_⟩
    dsimp only at hne ⊢
    split at hne
    · next hnested =>
      rw [if_pos hnested]
      exact Metadata.declaresNested_first (Field.dotless_of_isPath hc) hnested
    · exact absurd rfl hne
  · cases h

theorem sortKnown_of_sort {r : SearchRequest} {clauses : List SortClause}
    (h : Compile.sort m r = .ok clauses) : ∀ s ∈ clauses, SortKnown m s := by
  obtain ⟨cs, hcs, hclauses⟩ := sort_eq_ok_iff.1 h
  intro s hs
  obtain ⟨c, hc, hclause⟩ := exists_ok_of_mem_mapM hclauses hs
  exact sortKnown_of_sortClause (Ordering.isPath_of_parseClauses hcs c hc) hclause

theorem hasField_of_source {includes excludes : List String} {s : SourceFilter}
    (h : source m includes excludes = .ok s) :
    ∀ f ∈ s.includes ++ s.excludes, m.hasField f = true := by
  obtain ⟨hknown, rfl⟩ := source_eq_ok_iff.1 h
  refine List.forall_mem_append.2 ⟨fun f hf => ?_, fun f hf => ?_⟩
  · exact hknown f (.inl (mem_includeSet.1 hf))
  · exact hknown f (.inr (mem_excludeSet.1 (NameSet.mem_eraseMany.1 hf).1))

end Compile

/-- A request that is compiled names known fields only. Its query consists of the filter's and of at
most one clause for a text; the fields of that clause are known if they were asked for. -/
theorem compile_grounded {registry : Registry} {r : SearchRequest} {q : Request}
    (h : compile registry r = .ok q) :
    ∃ (m : Metadata) (b : Body) (texts : List Query), registry.find r.index = .ok m ∧
      q.query = some { b with should := texts ++ b.should } ∧
      texts.length = (if r.hasText then 1 else 0) ∧
      b.toQuery.Every (Leaf.Known m) m.DeclaresNested ∧
      (∀ t ∈ texts, ∃ text fields operator minimum,
        t = .leaf (.queryString text fields operator minimum) ∧
        (r.hasFields = true → ∀ f ∈ fields, FreeText.Weighs m f)) ∧
      (∀ s ∈ q.sort, SortKnown m s) ∧
      (∀ a ∈ q.aggregations,
        a.2.Every (fun field _ _ => m.hasField field = true) m.DeclaresNested) ∧
      ∀ f ∈ q.source.includes ++ q.source.excludes, m.hasField f = true := by
  obtain ⟨m, hm, hsearch⟩ := compile_eq_ok_iff.1 h
  obtain ⟨size, -, minimum, -, body, hbody, sort, hsort, aggregations, hfacets, source, hsource,
    rfl⟩ := Compile.search_eq_ok_iff.1 hsearch
  obtain ⟨b, texts, hfilter, rfl, hlength, htexts⟩ := Compile.exists_parts_of_query hbody
  refine ⟨m, b, texts, hm, rfl, hlength, known_filterBody hfilter, fun t ht => ?_,
    Compile.sortKnown_of_sort hsort, fun a ha => ?_, Compile.hasField_of_source hsource⟩
  · obtain ⟨-, fields, hfields, rfl⟩ := htexts t ht
    refine ⟨_, _, _, _, rfl, fun hhas => FreeText.weighs_of_fields ?_ hfields⟩
    simpa [SearchRequest.hasFields] using hhas
  · exact (every_facets hfacets a ha).mono (fun _ _ _ hterms => hterms.1) fun _ hpath => hpath

/-- `(place VIEWPORT [[2,2],[1,1]] AND NOT offer.price LESS 5)` -/
def boxSample : Filter :=
  .group .and
    [.comparison ⟨⟨["place"], false⟩, .viewport,
        .list [.list [.int 2, .int 2], .list [.int 1, .int 1]], false⟩,
      .comparison ⟨⟨["offer", "price"], false⟩, .less, .int 5, true⟩] false

/-- A request with something of every kind, on plain and on nested fields. -/
def houseRequest : SearchRequest where
  index := "houses"
  filter := "(place VIEWPORT [[2,2],[1,1]] AND NOT offer.price LESS 5)"
  text := "garden"
  fields := ["title:2", "offer.price"]
  sort := ["offer.price DESC"]
  facets := ["offer.price", "title.raw"]
  includeFields := ["title"]
  excludeFields := ["id"]

theorem parse_houseRequest : Filter.parse houseRequest.filter = .ok boxSample := by
  have hpoint (i : Int64) : Filter.Literal.Finite (.list [.int i, .int i]) :=
    .list (by simpa using .int i)
  have hbox : Filter.Canonical (.comparison ⟨⟨["place"], false⟩, .viewport,
      .list [.list [.int 2, .int 2], .list [.int 1, .int 1]], false⟩) :=
    .comparison ⟨by decide, by decide, by decide, rfl, by decide, rfl,
      .list (by simpa using ⟨hpoint 2, hpoint 1⟩)⟩
  have hprice :
      Filter.Canonical (.comparison ⟨⟨["offer", "price"], false⟩, .less, .int 5, false⟩) :=
    .comparison ⟨by decide, by decide, by decide, rfl, by decide, rfl, .int _⟩
  have hall : Filter.Canonical boxSample := Filter.canonical_collapse (.inl rfl) (by simp)
    (List.forall_mem_cons.2 ⟨hbox, List.forall_mem_singleton.2 hprice.negate⟩)
  have hchars : houseRequest.filter.toList = boxSample.chars := by decide +kernel
  refine Filter.parse_eq_ok_iff_derives.2 ?_
  rw [hchars]
  exact hall.sentence_chars

theorem exists_compile_houseRequest :
    ∃ q, compile ⟨[("houses", housesIndex)]⟩ houseRequest = .ok q := by
  obtain ⟨b, hb⟩ : ∃ b, Compile.filterBody housesIndex houseRequest = .ok b :=
    ⟨_, Compile.filterBody_eq_ok_iff.2 (.inr ⟨by decide, _, parse_houseRequest, rfl⟩)⟩
  obtain ⟨clause, hclause⟩ := exists_eq_ok_of_isOk
    (show (Compile.textClause housesIndex houseRequest "75%").isOk = true by decide +kernel)
  have hquery := (Compile.query_eq_ok_iff (by decide)).2 ⟨b, hb, clause, hclause, rfl⟩
  obtain ⟨sort, hsort⟩ := exists_eq_ok_of_isOk
    (show (Compile.sort housesIndex houseRequest).isOk = true by decide +kernel)
  obtain ⟨aggregations, hfacets⟩ := exists_eq_ok_of_isOk
    (show (facets housesIndex houseRequest.facetSize houseRequest.facets).isOk = true by
      decide +kernel)
  obtain ⟨source, hsource⟩ := exists_eq_ok_of_isOk
    (show (Compile.source housesIndex houseRequest.includeFields
      houseRequest.excludeFields).isOk = true by decide +kernel)
  exact ⟨_, compile_eq_ok_iff.2 ⟨housesIndex, rfl, Compile.search_eq_ok_iff.2
    ⟨20, rfl, "75%", rfl, _, hquery, sort, hsort, aggregations, hfacets, source, hsource, rfl⟩⟩⟩

theorem compile_grounded_houses :
    ∃ q, compile ⟨[("houses", housesIndex)]⟩ houseRequest = .ok q ∧
      ∃ (b : Body) (texts : List Query),
        q.query = some { b with should := texts ++ b.should } ∧ texts.length = 1 ∧
        b.toQuery.Every (Leaf.Known housesIndex) housesIndex.DeclaresNested ∧
        (∀ t ∈ texts, ∃ text fields operator minimum,
          t = .leaf (.queryString text fields operator minimum) ∧
          ∀ f ∈ fields, FreeText.Weighs housesIndex f) ∧
        (∀ s ∈ q.sort, SortKnown housesIndex s) ∧
        (∀ a ∈ q.aggregations, a.2.Every (fun field _ _ => housesIndex.hasField field = true)
          housesIndex.DeclaresNested) ∧
        ∀ f ∈ q.source.includes ++ q.source.excludes, housesIndex.hasField f = true := by
  obtain ⟨q, hq⟩ := exists_compile_houseRequest
  obtain ⟨m, b, texts, hm, hquery, hlength, hfilter, htexts, hsort, haggregations, hsource⟩ :=
    compile_grounded hq
  cases hm
  refine ⟨q, hq, b, texts, hquery, hlength, hfilter, fun t ht => ?_, hsort, haggregations, hsource⟩
  obtain ⟨text, fields, operator, minimum, rfl, hfields⟩ := htexts t ht
  exact ⟨text, fields, operator, minimum, rfl, hfields rfl⟩

end Query

end SearchGateway
