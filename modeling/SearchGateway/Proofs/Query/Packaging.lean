import SearchGateway.Proofs.Query.Compiled
import SearchGateway.Proofs.Text.Items

/-!
# How list options are packaged

A list option may come as one text, as its items, or in between. `SearchRequest.itemized` is the
request with every list option taken apart. What a request is compiled to hardly depends on it
(`compile_itemized`): an ordering is read clause by clause whether its entries are joined before or
not (`Ordering.parse_join`), and the other options are taken apart in any case. The one exception is
a list of search fields that holds blanks only. It counts as given, so that no field is searched,
and once it is taken apart the fields of the index are.
-/

namespace SearchGateway

open SearchGateway.Text
open SearchGateway.Index (Metadata Registry)

/-- The request with each entry of a list option taken apart. -/
def SearchRequest.itemized (r : SearchRequest) : SearchRequest :=
  { r with
    includeFields := items r.includeFields
    excludeFields := items r.excludeFields
    fields := items r.fields
    sort := items r.sort
    facets := items r.facets }

/-! ## Orderings -/

namespace Ordering

theorem Clause.parse_trim (text : String) : Clause.parse (trim text) = Clause.parse text := by
  unfold Clause.parse
  rw [words_trim, trim_trim]

theorem Clause.not_blank_of_parse {text : String} {c : Clause} (h : Clause.parse text = .ok c) :
    isBlankText text = false := by
  rw [Bool.eq_false_iff]
  intro hblank
  rw [Clause.parse, words_of_isBlankText hblank] at h
  cases h

theorem parseClauses_cons (seen : List (List String)) (text : String) (texts : List String) :
    parseClauses seen (text :: texts) = do
      let c ← Clause.parse text
      if c.field.path ∈ seen then .error (.repeated c.field.name)
      else return c :: (← parseClauses (c.field.path :: seen) texts) := rfl

theorem parseClauses_map_trim (seen : List (List String)) (texts : List String) :
    parseClauses seen (texts.map trim) = parseClauses seen texts := by
  induction texts generalizing seen with
  | nil => rfl
  | cons text texts ih =>
    simp only [List.map_cons, parseClauses_cons, Clause.parse_trim, ih]

theorem not_blank_of_parseClauses {seen : List (List String)} {texts : List String}
    {clauses : List Clause} (h : parseClauses seen texts = .ok clauses) :
    ∀ text ∈ texts, isBlankText text = false := by
  induction texts generalizing seen clauses with
  | nil => exact fun text htext => nomatch htext
  | cons text texts ih =>
    rw [parseClauses_cons, bind_eq_ok_iff] at h
    obtain ⟨c, hc, h⟩ := h
    split at h
    · cases h
    · obtain ⟨more, hmore, -⟩ := bind_eq_ok_iff.1 h
      exact List.forall_mem_cons.2 ⟨Clause.not_blank_of_parse hc, ih hmore⟩

/-- Joined entries are read as the clauses of each of them. -/
theorem parse_join {entries : List String} (h : ∀ s ∈ entries, isBlankText s = false) :
    parse (join "," entries) = parseClauses [] (entries.flatMap (split ',')) := by
  cases entries with
  | nil => rfl
  | cons s entries =>
    have hblank : isBlankText (join "," (s :: entries)) = false := by
      have hs := h s List.mem_cons_self
      unfold isBlankText join at *
      cases entries with
      | nil => simpa [joinChars] using hs
      | cons t entries => simp [joinChars, hs]
    rw [parse, hblank, split_join (List.cons_ne_nil s entries)]
    rfl

end Ordering

namespace Query

/-! ## The options of a request -/

namespace Compile

theorem sort_eq_ok_iff {m : Metadata} {r : SearchRequest} {clauses : List SortClause} :
    sort m r = .ok clauses ↔
      ∃ cs, Ordering.parseClauses []
          ((r.sort.filter fun s => !isBlankText s).flatMap (split ',')) = .ok cs ∧
        cs.mapM (sortClause m) = .ok clauses := by
  have hfilter : ∀ s ∈ r.sort.filter fun s => !isBlankText s, isBlankText s = false := by
    intro s hs
    simpa using (List.mem_filter.1 hs).2
  simp only [sort, bind_eq_ok_iff, mapError_eq_ok_iff, Ordering.parse_join hfilter]

theorem sort_itemized {m : Metadata} {r : SearchRequest} {clauses : List SortClause}
    (h : sort m r = .ok clauses) : sort m r.itemized = .ok clauses := by
  obtain ⟨cs, hcs, hclauses⟩ := sort_eq_ok_iff.1 h
  refine sort_eq_ok_iff.2 ⟨cs, ?_, hclauses⟩
  have hblank := Ordering.not_blank_of_parseClauses hcs
  -- No clause is blank, so the items are the clauses as they are, without blanks around them.
  have hitems : items r.sort =
      ((r.sort.filter fun s => !isBlankText s).flatMap (split ',')).map trim := by
    rw [← items_filter_blank, items_eq, List.filter_eq_self]
    intro s hs
    obtain ⟨text, htext, rfl⟩ := List.mem_map.1 hs
    simpa [trim_eq_empty_iff] using hblank text htext
  have hitem : ∀ s ∈ items r.sort, IsItem s := fun s hs => isItem_of_mem_items hs
  have hkept : (items r.sort).filter (fun s => !isBlankText s) = items r.sort := by
    rw [List.filter_eq_self]
    intro s hs
    rw [(hitem s hs).not_blank]
    rfl
  show Ordering.parseClauses [] (((items r.sort).filter fun s => !isBlankText s).flatMap
    (split ',')) = .ok cs
  rw [hkept, flatMap_split_of_not_mem fun s hs => (hitem s hs).whole, hitems,
    Ordering.parseClauses_map_trim, hcs]

theorem facets_items (m : Metadata) (size : Int) (entries : List String) :
    facets m size (items entries) = facets m size entries := by
  unfold facets
  rw [items_items]

theorem source_items (m : Metadata) (includes excludes : List String) :
    source m (items includes) (items excludes) = source m includes excludes := by
  unfold source
  rw [items_items, items_items]

/-- Fields of blanks only are as good as none once they are taken apart. -/
theorem fields_items (m : Metadata) (entries : List String) :
    FreeText.fields m (items entries) =
      FreeText.fields m (if items entries = [] then [] else entries) := by
  by_cases h : items entries = []
  · rw [if_pos h, h]
  · have hne : entries ≠ [] := by
      rintro rfl
      exact h rfl
    simp only [FreeText.fields, if_neg h, List.isEmpty_eq_false_iff.2 h,
      List.isEmpty_eq_false_iff.2 hne, items_items]

theorem query_fields_congr {m : Metadata} {r r' : SearchRequest} (minimum : String)
    (hfilter : r'.filter = r.filter) (htext : r'.text = r.text)
    (hfields : FreeText.fields m r'.fields = FreeText.fields m r.fields) :
    query m r' minimum = query m r minimum := by
  have hbody : filterBody m r' = filterBody m r := by
    unfold filterBody SearchRequest.hasFilter
    rw [hfilter]
  have hclause : textClause m r' minimum = textClause m r minimum := by
    unfold textClause
    rw [hfields, htext]
  unfold query SearchRequest.hasText
  rw [hbody, hclause, htext]

/-- A request whose fields are taken for none when they are blank compiles as it does taken
apart. -/
theorem search_itemized {m : Metadata} {r : SearchRequest} {q : Request}
    (h : search m { r with fields := if items r.fields = [] then [] else r.fields } = .ok q) :
    search m r.itemized = .ok q := by
  obtain ⟨size, hsize, minimum, hminimum, body, hbody, sort, hsort, aggregations, haggregations,
    source, hsource, rfl⟩ := search_eq_ok_iff.1 h
  refine search_eq_ok_iff.2 ⟨size, hsize, minimum, hminimum, body, ?_, sort, sort_itemized hsort,
    aggregations, ?_, source, ?_, rfl⟩
  · rw [← hbody]
    exact query_fields_congr minimum rfl rfl (fields_items m r.fields)
  · rw [← haggregations]
    exact facets_items m r.facetSize r.facets
  · rw [← hsource]
    exact source_items m r.includeFields r.excludeFields

/-- Without a free text the fields do not count, and with one only by what they are read as. -/
theorem search_fields {m : Metadata} {r : SearchRequest} {q : Request} (h : search m r = .ok q)
    {fields fs fs' : List String} (hfs : FreeText.fields m r.fields = .ok fs)
    (hfs' : FreeText.fields m fields = .ok fs') :
    ∃ q', search m { r with fields } = .ok q' ∧ (q' = q ↔ r.hasText = true → fs' = fs) := by
  obtain ⟨size, hsize, minimum, hminimum, body, hbody, sort, hsort, aggregations, haggregations,
    source, hsource, rfl⟩ := search_eq_ok_iff.1 h
  suffices ∃ body', query m { r with fields } minimum = .ok body' ∧
      (body' = body ↔ r.hasText = true → fs' = fs) by
    obtain ⟨body', hbody', hiff⟩ := this
    refine ⟨_, search_eq_ok_iff.2 ⟨size, hsize, minimum, hminimum, body', hbody', sort, hsort,
      aggregations, haggregations, source, hsource, rfl⟩, ?_⟩
    rw [← hiff]
    simp
  cases htext : r.hasText with
  | false =>
    refine ⟨body, ?_, by simp⟩
    have htext' : { r with fields }.hasText = false := htext
    rw [query_of_no_text m minimum htext] at hbody
    rw [query_of_no_text m minimum htext', ← hbody]
    rfl
  | true =>
    obtain ⟨f, hf, clause, hclause, rfl⟩ := (query_eq_ok_iff htext).1 hbody
    have hclause' : clause = .leaf (.queryString (trim r.text) fs "OR" minimum) := by
      rw [textClause, hfs] at hclause
      exact (Except.ok.inj hclause).symm
    have hnew : textClause m { r with fields } minimum =
        .ok (.leaf (.queryString (trim r.text) fs' "OR" minimum)) := by
      rw [textClause, hfs']
      rfl
    have htext' : { r with fields }.hasText = true := htext
    refine ⟨_, (query_eq_ok_iff htext').2 ⟨f, hf, _, hnew, rfl⟩, ?_⟩
    rw [hclause']
    simp

end Compile

/-- A request that is compiled is compiled just as well with its list options taken apart, and then
as if blank fields had not been given. The two results differ exactly if a text was to be searched
in blank fields of an index that has fields of its own. -/
theorem compile_itemized {registry : Registry} {r : SearchRequest} {q : Request}
    (h : compile registry r = .ok q) :
    ∃ m q', registry.find r.index = .ok m ∧ compile registry r.itemized = .ok q' ∧
      compile registry { r with fields := if items r.fields = [] then [] else r.fields } = .ok q' ∧
      (q' ≠ q ↔ r.hasText = true ∧ r.fields ≠ [] ∧ items r.fields = [] ∧ m.defaultFields ≠ []) := by
  obtain ⟨m, hm, hsearch⟩ := compile_eq_ok_iff.1 h
  suffices ∃ q', Compile.search m
      { r with fields := if items r.fields = [] then [] else r.fields } = .ok q' ∧
      (q' ≠ q ↔ r.hasText = true ∧ r.fields ≠ [] ∧ items r.fields = [] ∧ m.defaultFields ≠ []) by
    obtain ⟨q', hq', hiff⟩ := this
    exact ⟨m, q', hm, compile_eq_ok_iff.2 ⟨m, hm, Compile.search_itemized hq'⟩,
      compile_eq_ok_iff.2 ⟨m, hm, hq'⟩, hiff⟩
  by_cases hitems : items r.fields = []
  · rw [if_pos hitems]
    by_cases hnil : r.fields = []
    · refine ⟨q, ?_, by simp [hnil]⟩
      rw [← hnil]
      exact hsearch
    · have hfs : FreeText.fields m r.fields = .ok [] := by
        rw [FreeText.fields, List.isEmpty_eq_false_iff.2 hnil, hitems]
        rfl
      obtain ⟨q', hq', hiff⟩ := Compile.search_fields hsearch hfs
        (show FreeText.fields m [] = .ok m.defaultFields from rfl)
      refine ⟨q', hq', ?_⟩
      rw [Ne, hiff]
      simp [hnil, hitems]
  · rw [if_neg hitems]
    exact ⟨q, hsearch, by simp [hitems]⟩

/-- An index with fields that a free text is searched in. -/
def listings : Metadata where
  name := "listings"
  idField := "id"
  shards := 1
  defaultSize := 20
  maxSize := 200
  facetSize := 20
  minimumShouldMatch := "75%"
  defaultFields := ["title^2.0", "description"]
  sourceIncludes := []
  sourceExcludes := []
  queryTimeout := 0
  fields := [("title", .text), ("description", .text), ("state", .keyword)]

/-- Lists in several forms: joined, with blanks around items, with empty items, with blank
entries. -/
def unevenLists : SearchRequest where
  index := "listings"
  text := "house"
  sort := [" ", "title DESC , state"]
  facets := ["state,,", "state"]
  includeFields := [" title,", "description"]
  excludeFields := [",state "]

theorem compile_itemized_uneven :
    ∃ q, compile ⟨[("listings", listings)]⟩ unevenLists = .ok q ∧
      compile ⟨[("listings", listings)]⟩ unevenLists.itemized = .ok q ∧
      unevenLists.itemized = { unevenLists with
        sort := ["title DESC", "state"]
        facets := ["state", "state"]
        includeFields := ["title", "description"]
        excludeFields := ["state"] } := by
  have hok : (compile ⟨[("listings", listings)]⟩ unevenLists).isOk = true := by decide +kernel
  obtain ⟨q, hq⟩ := exists_eq_ok_of_isOk hok
  obtain ⟨m, q', -, hitemized, -, hdiffers⟩ := compile_itemized hq
  have heq : q' = q := by
    by_contra hne
    exact (hdiffers.1 hne).2.1 rfl
  have hlists : unevenLists.itemized = { unevenLists with
      sort := ["title DESC", "state"]
      facets := ["state", "state"]
      includeFields := ["title", "description"]
      excludeFields := ["state"] } := by decide +kernel
  exact ⟨q, hq, heq ▸ hitemized, hlists⟩

/-- A text that is to be searched in one blank field. -/
def blankFields : SearchRequest where
  index := "listings"
  text := "house"
  fields := [" "]

theorem compile_itemized_blank :
    ∃ q q', compile ⟨[("listings", listings)]⟩ blankFields = .ok q ∧
      compile ⟨[("listings", listings)]⟩ blankFields.itemized = .ok q' ∧
      q.query = some { should := [.leaf (.queryString "house" [] "OR" "75%")] } ∧
      q'.query = some
        { should := [.leaf (.queryString "house" ["title^2.0", "description"] "OR" "75%")] } := by
  have hsize : Compile.pageSize listings { index := "listings", text := "house" } = .ok 20 := rfl
  have hminimum : Compile.minimum listings { index := "listings", text := "house" } = .ok "75%" :=
    rfl
  have hfacets : facets listings 0 [] = .ok [] := by cbv
  have hsource : Compile.source listings [] [] = .ok {} := by cbv
  have hall (fields : List String) {body : Body}
      (hbody : Compile.query listings { index := "listings", text := "house", fields } "75%" =
        .ok body) :
      compile ⟨[("listings", listings)]⟩ { index := "listings", text := "house", fields } =
        .ok { index := "listings", query := some body, size := 20 } :=
    compile_eq_ok_iff.2 ⟨listings, rfl, Compile.search_eq_ok_iff.2
      ⟨20, hsize, "75%", hminimum, body, hbody, [], rfl, [], hfacets, {}, hsource, rfl⟩⟩
  exact ⟨_, _, hall [" "] rfl, hall [] rfl, rfl, rfl⟩

end Query

end SearchGateway
