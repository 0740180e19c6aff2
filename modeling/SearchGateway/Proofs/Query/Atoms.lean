import SearchGateway.Proofs.Json.Faithful
import SearchGateway.Query.Request

/-!
# What queries show

The atoms of a query and of a request are its doubles and its texts. The documents of queries and
requests show exactly these (`shows_query`, `shows_request`): everything else in them is a key of
the `vocabulary`, an integer, a truth value or null.
-/

namespace SearchGateway

open SearchGateway.Json (Atom Selects Shows collectMember)
open SearchGateway.Text (IsUnicode)

/-! ### Atoms -/

namespace Filter

mutual

def Literal.atoms : Literal → List Atom
  | .float x => [.double x]
  | .string s => [.text s]
  | .list items => atomsAll items
  | .null | .bool _ | .int _ => []

def Literal.atomsAll : List Literal → List Atom
  | [] => []
  | v :: vs => atoms v ++ atomsAll vs

end

def Point.atoms (p : Point) : List Atom := [.double p.lat, .double p.lon]

end Filter

open SearchGateway.Filter (Literal Point)

def textsAtoms (texts : List String) : List Atom := texts.map .text

namespace Query

def Leaf.atoms : Leaf → List Atom
  | .matching field value operator => .text field :: (value.atoms ++ [.text operator])
  | .present field => [.text field]
  | .range field gt gte lt lte => .text field :: (gt.atoms ++ gte.atoms ++ lt.atoms ++ lte.atoms)
  | .terms field values => .text field :: values.elim [] Literal.atomsAll
  | .ids values => values.elim [] textsAtoms
  | .wildcard field pattern => [.text field, .text pattern]
  | .geoBox field topLeft bottomRight => .text field :: (topLeft.atoms ++ bottomRight.atoms)
  | .geoPolygon field points => .text field :: points.elim [] (List.flatMap Point.atoms)
  | .queryString query fields operator minimum =>
    .text query :: (textsAtoms fields ++ [.text operator, .text minimum])

mutual

/-- The doubles and the texts of a query. -/
def atoms : Query → List Atom
  | leaf l => l.atoms
  | bool must mustNot should minimum =>
    atomsAll must ++ atomsAll mustNot ++ atomsAll should ++ [.text minimum]
  | nested path query => .text path :: atoms query

def atomsAll : List Query → List Atom
  | [] => []
  | q :: qs => atoms q ++ atomsAll qs

end

end Query

namespace Aggregation

mutual

def atoms : Aggregation → List Atom
  | terms field _ _ => [.text field]
  | nested path aggregations => .text path :: membersAtoms aggregations

def membersAtoms : List (String × Aggregation) → List Atom
  | [] => []
  | (name, a) :: more => .text name :: (atoms a ++ membersAtoms more)

end

end Aggregation

def SortClause.atoms (s : SortClause) : List Atom :=
  [.text s.field, .text s.order, .text s.nestedPath]

def SourceFilter.atoms (s : SourceFilter) : List Atom :=
  textsAtoms s.includes ++ textsAtoms s.excludes

/-- The doubles and the texts of a request that go into its body. -/
def Request.atoms (r : Request) : List Atom :=
  r.query.elim [] (fun b => b.toQuery.atoms) ++ r.sort.flatMap SortClause.atoms ++
    Aggregation.membersAtoms r.aggregations ++ r.source.atoms

namespace Query

/-! ### What the documents show -/

/-- The keys of the documents, and the text that is left out. -/
def vocabulary : List String :=
  ["", "match", "query", "operator", "exists", "field", "range", "gt", "gte", "lt", "lte", "terms",
    "ids", "values", "wildcard", "value", "geo_bounding_box", "top_left", "bottom_right", "lat",
    "lon", "geo_polygon", "points", "query_string", "fields", "default_operator",
    "minimum_should_match", "bool", "must", "must_not", "should", "nested", "path", "size",
    "shard_size", "aggs", "order", "includes", "excludes", "from", "timeout", "sort", "_source"]

theorem isUnicode_vocabulary : ∀ k ∈ vocabulary, IsUnicode k := by
  have hall : (vocabulary.all fun k => k.toList.all fun c => !Text.isHeld c) = true := by
    decide +kernel
  intro k hk
  exact Text.isUnicode_iff.2 (Json.genuine_of_all (List.all_eq_true.1 hall k hk))

section Shows

variable {α : Type} {scalar : Json → List α} {key : String → List α}

theorem key_vocabulary (h : Selects scalar key) : ∀ k ∈ vocabulary, key k = [] :=
  fun k hk => h.unicode k (isUnicode_vocabulary k hk)

theorem collect_string (h : Selects scalar key) (s : String) :
    (Json.string s).collect scalar key = key s := h.string s

theorem collect_int (h : Selects scalar key) (i : Int) :
    (Json.int i).collect scalar key = [] := h.int i

mutual

theorem collect_literalJson (h : Selects scalar key) : (v : Literal) →
    (literalJson v).collect scalar key = v.atoms.flatMap (Atom.select scalar key)
  | .null => h.null
  | .bool b => h.bool b
  | .int i => h.int i.toInt
  | .float x => by simp [literalJson, Json.collect, Literal.atoms, Atom.select]
  | .string s => by simp [literalJson, Json.collect, Literal.atoms, Atom.select, h.string]
  | .list items => by
    rw [literalJson, Json.collect_array, Literal.atoms, collect_literalsJson h items]

theorem collect_literalsJson (h : Selects scalar key) : (vs : List Literal) →
    (literalsJson vs).flatMap (Json.collect scalar key) =
      (Literal.atomsAll vs).flatMap (Atom.select scalar key)
  | [] => rfl
  | v :: vs => by
    rw [literalsJson, Literal.atomsAll, List.flatMap_cons, List.flatMap_append,
      collect_literalJson h v, collect_literalsJson h vs]

end

theorem collect_pointJson (h : Selects scalar key) (p : Point) :
    (pointJson p).collect scalar key = p.atoms.flatMap (Atom.select scalar key) := by
  have hlat := key_vocabulary h "lat" (by decide)
  have hlon := key_vocabulary h "lon" (by decide)
  simp [pointJson, Json.collect_object, Json.collect, Point.atoms, Atom.select, hlat, hlon]

theorem collect_strings (h : Selects scalar key) (texts : List String) :
    (texts.map Json.string).flatMap (Json.collect scalar key) =
      (textsAtoms texts).flatMap (Atom.select scalar key) := by
  rw [textsAtoms, List.flatMap_map, List.flatMap_map]
  congr 1
  funext s
  exact h.string s

theorem collectMember_some {k : String} (hk : key k = []) (v : Json) :
    collectMember scalar key (k, some v) = v.collect scalar key := by
  simp [collectMember, hk]

theorem collectMember_bound? (h : Selects scalar key) {k : String} (hk : key k = []) (v : Literal) :
    collectMember scalar key (k, bound? v) = v.atoms.flatMap (Atom.select scalar key) := by
  rw [bound?]
  cases hv : v.isNull with
  | true =>
    cases v <;> cases hv
    rfl
  | false => rw [if_neg (by simp), collectMember_some hk, collect_literalJson h]

theorem collectMember_text? (h : Selects scalar key) {k : String} (hk : key k = []) (s : String) :
    collectMember scalar key (k, Json.text? s) = key s := by
  rw [Json.text?]
  by_cases hs : s = ""
  · rw [if_pos hs, hs, key_vocabulary h "" (by decide)]
    rfl
  · rw [if_neg hs, collectMember_some hk]
    exact h.string s

theorem collectMember_list? {k : String} (hk : key k = []) (items : List Json) :
    collectMember scalar key (k, Json.list? items) = items.flatMap (Json.collect scalar key) := by
  cases items with
  | nil => rfl
  | cons v vs => exact (collectMember_some hk _).trans (Json.collect_array ..)

theorem collect_listOrNull (h : Selects scalar key) (items : Option (List Json)) :
    (listOrNull items).collect scalar key =
      items.elim [] (List.flatMap (Json.collect scalar key)) := by
  cases items with
  | none => exact h.null
  | some vs => exact Json.collect_array ..

theorem collect_leaf (h : Selects scalar key) (l : Leaf) :
    l.json.collect scalar key = l.atoms.flatMap (Atom.select scalar key) := by
  have hwords := key_vocabulary h
  simp only [vocabulary, List.forall_mem_cons] at hwords
  cases l with
  | matching field value operator =>
    simp [Leaf.json, Leaf.atoms, Json.collect_object, hwords, Atom.select,
      collect_literalJson h, collect_string h]
  | present field =>
    simp [Leaf.json, Leaf.atoms, Json.collect_object, hwords, Atom.select, collect_string h]
  | range field gt gte lt lte =>
    simp [Leaf.json, Leaf.atoms, Json.collect_object, Json.collect_record, hwords,
      Atom.select, collectMember_bound? h]
  | terms field values =>
    cases values <;> simp [Leaf.json, Leaf.atoms, Json.collect_object, hwords,
      Atom.select, collect_listOrNull h, collect_literalsJson h]
  | ids values =>
    cases values <;> simp [Leaf.json, Leaf.atoms, Json.collect_object, hwords,
      collect_listOrNull h, collect_strings h]
  | wildcard field pattern =>
    simp [Leaf.json, Leaf.atoms, Json.collect_object, hwords, Atom.select, collect_string h]
  | geoBox field topLeft bottomRight =>
    simp [Leaf.json, Leaf.atoms, Json.collect_object, hwords, Atom.select,
      collect_pointJson h]
  | geoPolygon field points =>
    cases points <;> simp [Leaf.json, Leaf.atoms, Json.collect_object, hwords,
      Atom.select, collect_listOrNull h, List.flatMap_assoc, List.flatMap_map, collect_pointJson h]
  | queryString query fields operator minimum =>
    simp [Leaf.json, Leaf.atoms, Json.collect_object, Json.collect_record, hwords, Atom.select,
      collectMember_some, collectMember_list?, collectMember_text? h, collect_strings h,
      collect_string h]

mutual

theorem collect_query (h : Selects scalar key) : (q : Query) →
    q.json.collect scalar key = q.atoms.flatMap (Atom.select scalar key)
  | .leaf l => collect_leaf h l
  | .bool must mustNot should minimum => by
    have hwords := key_vocabulary h
    simp only [vocabulary, List.forall_mem_cons] at hwords
    simp [Query.json, Query.atoms, Json.collect_object, Json.collect_record, hwords, Atom.select,
      collectMember_list?, collectMember_text? h, collect_queries h must, collect_queries h mustNot,
      collect_queries h should]
  | .nested path query => by
    have hwords := key_vocabulary h
    simp only [vocabulary, List.forall_mem_cons] at hwords
    simp [Query.json, Query.atoms, Json.collect_object, hwords, Atom.select, collect_string h,
      collect_query h query]

theorem collect_queries (h : Selects scalar key) : (qs : List Query) →
    (jsons qs).flatMap (Json.collect scalar key) =
      (Query.atomsAll qs).flatMap (Atom.select scalar key)
  | [] => rfl
  | q :: qs => by
    rw [jsons, Query.atomsAll, List.flatMap_cons, List.flatMap_append, collect_query h q,
      collect_queries h qs]

end

mutual

theorem collect_aggregation (h : Selects scalar key) : (a : Aggregation) →
    a.json.collect scalar key = a.atoms.flatMap (Atom.select scalar key)
  | .terms field size shardSize => by
    have hwords := key_vocabulary h
    simp only [vocabulary, List.forall_mem_cons] at hwords
    simp [Aggregation.json, Aggregation.atoms, Json.collect_object, hwords, Atom.select,
      collect_string h, collect_int h]
  | .nested path aggregations => by
    have hwords := key_vocabulary h
    simp only [vocabulary, List.forall_mem_cons] at hwords
    simp [Aggregation.json, Aggregation.atoms, Json.collect_object, hwords, Atom.select,
      collect_string h, collect_aggregations h aggregations]

theorem collect_aggregations (h : Selects scalar key) : (as : List (String × Aggregation)) →
    (Aggregation.membersJson as).flatMap (fun m => key m.1 ++ m.2.collect scalar key) =
      (Aggregation.membersAtoms as).flatMap (Atom.select scalar key)
  | [] => rfl
  | (name, a) :: more => by
    rw [Aggregation.membersJson, Aggregation.membersAtoms, List.flatMap_cons, List.flatMap_cons,
      List.flatMap_append, List.append_assoc, collect_aggregation h a, collect_aggregations h more]
    rfl

end

theorem collect_sort (h : Selects scalar key) (s : SortClause) :
    s.json.collect scalar key = s.atoms.flatMap (Atom.select scalar key) := by
  have hwords := key_vocabulary h
  simp only [vocabulary, List.forall_mem_cons] at hwords
  have hnested : collectMember scalar key ("nested", (Json.text? s.nestedPath).map fun path =>
      .object [("path", path)]) = key s.nestedPath := by
    rw [← collectMember_text? h hwords.1]
    cases Json.text? s.nestedPath <;> simp [collectMember, Json.collect_object, hwords]
  simp [SortClause.json, SortClause.atoms, Json.collect_object, Json.collect_record, hwords,
    Atom.select, collectMember_some, collect_string h, hnested]

theorem collect_source (h : Selects scalar key) (s : SourceFilter) :
    s.json.collect scalar key = s.atoms.flatMap (Atom.select scalar key) := by
  have hwords := key_vocabulary h
  simp only [vocabulary, List.forall_mem_cons] at hwords
  simp [SourceFilter.json, SourceFilter.atoms, Json.collect_record, hwords, collectMember_list?,
    collect_strings h]

theorem toList_toString (i : Int) : (toString i).toList = Json.intChars i := by
  cases i with
  | ofNat n =>
    show (Nat.repr n).toList = _
    simp [Nat.repr, Json.intChars]
  | negSucc n =>
    show ("-" ++ Nat.repr (n + 1)).toList = _
    simp [Nat.repr, Json.intChars, String.toList_append]

theorem isUnicode_timeoutText (ns : Int) : IsUnicode (Request.timeoutText ns) := by
  rw [Text.isUnicode_iff, Request.timeoutText, String.toList_append, toList_toString]
  obtain ⟨n, htext, -⟩ := Json.exists_number_int (if ns / 1000000 = 0 then 1 else ns / 1000000)
  rw [← htext]
  exact (Json.genuine_number n).append (Json.genuine_of_all (by decide))

theorem collect_request (h : Selects scalar key) (r : Request) :
    r.json.collect scalar key = r.atoms.flatMap (Atom.select scalar key) := by
  have hwords := key_vocabulary h
  simp only [vocabulary, List.forall_mem_cons] at hwords
  have htimeout : collectMember scalar key ("timeout", if 0 < r.queryTimeout then
      some (.string (Request.timeoutText r.queryTimeout)) else none) = [] := by
    have htext := h.unicode _ (isUnicode_timeoutText r.queryTimeout)
    split <;> simp [collectMember, hwords, collect_string h, htext]
  have hquery : collectMember scalar key ("query", r.query.map fun b => b.toQuery.json) =
      (r.query.elim [] fun b => b.toQuery.atoms).flatMap (Atom.select scalar key) := by
    cases r.query <;> simp [collectMember, hwords, collect_query h]
  have haggs : collectMember scalar key ("aggs", if r.aggregations.isEmpty then none
      else some (.object (Aggregation.membersJson r.aggregations))) =
      (Aggregation.membersAtoms r.aggregations).flatMap (Atom.select scalar key) := by
    rw [← collect_aggregations h]
    cases r.aggregations <;>
      simp [collectMember, hwords, Aggregation.membersJson, Json.collect_object]
  have hsource : collectMember scalar key ("_source", if r.source.isEmpty then none
      else some r.source.json) = r.source.atoms.flatMap (Atom.select scalar key) := by
    rw [← collect_source h]
    obtain ⟨includes, excludes⟩ := r.source
    cases includes <;> cases excludes <;>
      simp [collectMember, hwords, SourceFilter.isEmpty, SourceFilter.json, Json.collect_record,
        Json.list?]
  have hsort : (r.sort.map SortClause.json).flatMap (Json.collect scalar key) =
      (r.sort.flatMap SortClause.atoms).flatMap (Atom.select scalar key) := by
    rw [List.flatMap_map, List.flatMap_assoc]
    simp only [collect_sort h]
  simp only [Request.json, Request.atoms, Json.collect_record, List.flatMap_cons, List.flatMap_nil,
    List.flatMap_append, List.append_nil, List.nil_append, List.append_assoc, hwords,
    collectMember_some, collect_int h, htimeout, hquery, collectMember_list?, hsort, haggs, hsource]

end Shows

theorem shows_query (q : Query) : Shows q.json q.atoms := fun _ _ _ h => collect_query h q

theorem shows_request (r : Request) : Shows r.json r.atoms := fun _ _ _ h => collect_request h r

end Query

end SearchGateway
