import SearchGateway.Proofs.Query.Atoms
import SearchGateway.Proofs.Query.Facets
import SearchGateway.Proofs.Query.FreeText
import SearchGateway.Proofs.Query.Polarity

/-!
# Compiled requests can be sent

What is compiled is written: the doubles of a compiled query come from the literals of its filter,
and those are finite (`writable_search`). In what is written no object has a key twice. An object
has one key, or keys of the `vocabulary`, or it lists aggregations; these are named by the fields
asked for, each of them once (`keyed_facets`).
-/

namespace SearchGateway

open SearchGateway.Filter (Comparison Condition Field IsPath Literal Point)
open SearchGateway.Index (Metadata Registry)
open SearchGateway.Json (Writable)
open SearchGateway.Text (IsUnicode)

/-! ### Doubles of literals -/

namespace Filter

theorem writable_atomsAll {items : List Literal} (h : ∀ v ∈ items, Writable v.atoms) :
    Writable (Literal.atomsAll items) := by
  induction items with
  | nil => exact nofun
  | cons v vs ih =>
    obtain ⟨hv, hvs⟩ := List.forall_mem_cons.1 h
    exact Json.writable_append.2 ⟨hv, ih hvs⟩

namespace Literal.Finite

variable {v : Literal}

theorem writable (h : v.Finite) : Writable v.atoms := by
  induction h with
  | null => exact nofun
  | bool b => exact nofun
  | int i => exact nofun
  | float hx => exact Json.writable_double.2 ⟨hx, nofun⟩
  | string s => exact Json.writable_text.2 nofun
  | list _ ih => exact writable_atomsAll ih

theorem elements (h : v.Finite) : ∀ w ∈ v.elements, w.Finite := by
  cases h with
  | list hitems => exact hitems
  | _ => exact nofun

theorem number (h : v.Finite) {x : Binary64} (hx : v.number? = some x) : x.isFinite = true := by
  cases h with
  | int i =>
    cases hx
    exact Binary64.isFinite_ofInt64 i
  | float hfinite =>
    cases hx
    exact hfinite
  | _ => cases hx

theorem point (h : v.Finite) {p : Point} (hp : v.point? = some p) : Writable p.atoms := by
  unfold Literal.point? at hp
  split at hp
  · next lon lat =>
    have hitems := h.elements
    obtain ⟨x, hx, hp⟩ := Option.bind_eq_some_iff.1 hp
    obtain ⟨y, hy, hp⟩ := Option.bind_eq_some_iff.1 hp
    cases hp
    have hlon := (hitems lon (by simp [Literal.elements])).number hx
    have hlat := (hitems lat (by simp [Literal.elements])).number hy
    exact Json.writable_double.2 ⟨hlat, Json.writable_double.2 ⟨hlon, nofun⟩⟩
  · cases hp

theorem points (h : v.Finite) : ∀ p ∈ v.points, Writable p.atoms := by
  intro p hp
  cases h with
  | @list items hitems =>
    cases hpoints : items.mapM Literal.point? with
    | none => simp [Literal.points, Literal.points?, hpoints] at hp
    | some ps =>
      have hmem : p ∈ ps := by simpa [Literal.points, Literal.points?, hpoints] using hp
      obtain ⟨w, hw, hpoint⟩ := exists_some_of_mem_mapM hpoints hmem
      exact (hitems w hw).point hpoint
  | _ => cases hp

end Literal.Finite

end Filter

/-! ### Doubles of queries -/

namespace Query

theorem mem_of_mem_closeRing {points : List Point} {p : Point}
    (h : p ∈ Lowering.closeRing points) : p ∈ points := by
  unfold Lowering.closeRing at h
  split at h
  · split at h
    · exact h
    · rcases List.mem_append.1 h with h | h
      · exact h
      · rw [List.mem_singleton.1 h]
        exact List.mem_cons_self
  · exact h

theorem writable_points {points : List Point} (h : ∀ p ∈ points, Writable p.atoms) :
    Writable (points.flatMap Point.atoms) := by
  intro x hx
  obtain ⟨p, hp, hx⟩ := List.mem_flatMap.1 hx
  exact h p hp x hx

theorem writable_textsAtoms (texts : List String) : Writable (textsAtoms texts) := by
  intro x hx
  obtain ⟨s, -, hs⟩ := List.mem_map.1 hx
  cases hs

theorem writable_within (m : Metadata) (field : String) {values : List Literal}
    (h : ∀ v ∈ values, v.Finite) : Writable (Lowering.within m field values).atoms := by
  unfold Lowering.within
  split
  · exact writable_textsAtoms _
  · exact Json.writable_text.2 (Filter.writable_atomsAll fun v hv => (h v hv).writable)

/-- The clause of a range with finite bounds. -/
theorem writable_range (field : String) {gt gte lt lte : Literal} (hgt : gt.Finite)
    (hgte : gte.Finite) (hlt : lt.Finite) (hlte : lte.Finite) :
    Writable (Leaf.range field gt gte lt lte).atoms := by
  simp only [Leaf.atoms, Json.writable_text, Json.writable_append]
  exact ⟨⟨⟨hgt.writable, hgte.writable⟩, hlt.writable⟩, hlte.writable⟩

theorem writable_matching (field : String) {v : Literal} (h : v.Finite) (operator : String) :
    Writable (Leaf.matching field v operator).atoms := by
  simp only [Leaf.atoms, Json.writable_text, Json.writable_append]
  exact ⟨h.writable, fun x hx => absurd hx List.not_mem_nil⟩

theorem writable_box (field : String) {p q : Point} (hp : Writable p.atoms)
    (hq : Writable q.atoms) : Writable (Lowering.box field p q).atoms := by
  simp only [Point.atoms, Json.writable_double] at hp hq
  simp only [Lowering.box, Leaf.atoms, Point.atoms, Json.writable_text, Json.writable_append,
    Json.writable_double]
  exact ⟨⟨hp.1, hq.2⟩, hq.1, hp.2⟩

/-- The clause of a comparison with a finite operand. -/
theorem writable_comparison {m : Metadata} {c : Comparison} {l : Leaf} {base : Bool}
    (hfinite : c.value.Finite) (h : Lowering.comparison m c = .ok (l, base)) :
    Writable l.atoms := by
  have hpoints := hfinite.points
  cases (Lowering.builds_of_comparison h).2 with
  | matching => exact writable_matching _ hfinite _
  | present => exact Json.writable_text.2 nofun
  | @range gt gte lt lte hbounds =>
    have hall : ∀ b ∈ [gt, gte, lt, lte], b.Finite := by
      intro b hb
      rcases hbounds b hb with rfl | rfl | helement
      · exact .null
      · exact hfinite
      · exact hfinite.elements b helement
    exact writable_range _ (hall gt (by simp)) (hall gte (by simp)) (hall lt (by simp))
      (hall lte (by simp))
  | within => exact writable_within m _ hfinite.elements
  | like => exact Json.writable_text.2 (Json.writable_text.2 nofun)
  | box hne hsw _ => exact writable_box _ (hpoints _ hne) (hpoints _ hsw)
  | ring _ =>
    exact Json.writable_text.2 (writable_points fun p hp => hpoints p (mem_of_mem_closeRing hp))

mutual

/-- The doubles of a query are those of its leaf clauses. -/
theorem writable_of_sites : (q : Query) → (∀ s ∈ q.sites, Writable s.leaf.atoms) →
    Writable q.atoms
  | .leaf l, h => h ⟨[], l⟩ (List.mem_singleton_self _)
  | .bool must mustNot should minimum, h => by
    rw [sites, List.forall_mem_append, List.forall_mem_append] at h
    simp only [atoms, Json.writable_append]
    exact ⟨⟨⟨writable_of_sitesUnder _ must h.1.1, writable_of_sitesUnder _ mustNot h.1.2⟩,
      writable_of_sitesUnder _ should h.2⟩, Json.writable_text.2 nofun⟩
  | .nested path q, h => by
    rw [sites, List.forall_mem_map] at h
    exact Json.writable_text.2 (writable_of_sites q h)

theorem writable_of_sitesUnder (e : Edge) : (qs : List Query) →
    (∀ s ∈ sitesUnder e qs, Writable s.leaf.atoms) → Writable (atomsAll qs)
  | [], _ => nofun
  | q :: qs, h => by
    rw [sitesUnder, List.forall_mem_append, List.forall_mem_map] at h
    exact Json.writable_append.2 ⟨writable_of_sites q h.1, writable_of_sitesUnder e qs h.2⟩

end

end Query

/-- The comparisons of a canonical filter. -/
theorem Filter.Canonical.conditions {n : Filter} (h : n.Canonical) :
    ∀ k ∈ n.conditions, k.comparison.Canonical := by
  induction h with
  | comparison hc =>
    intro k hk
    rw [List.mem_singleton.1 hk]
    exact hc
  | group _ _ ih =>
    intro k hk
    rw [Filter.conditions_group] at hk
    obtain ⟨k', hk', rfl⟩ := List.mem_map.1 hk
    obtain ⟨child, hchild, hk'⟩ := List.mem_flatMap.1 hk'
    exact ih child hchild k' hk'

theorem Filter.Canonical.plain {n : Filter} (h : n.Canonical) : Query.Lowering.Plain n := by
  induction h with
  | comparison hc => exact .comparison hc.dotless
  | group _ _ ih => exact .group trivial ih

namespace Query

theorem writable_ofFilter {m : Metadata} {n : Filter} (hn : n.Canonical) {b : Body}
    (h : ofFilter m n = .ok b) : Writable b.toQuery.atoms := by
  refine writable_of_sites _ fun s hs => ?_
  have htrace : some s.trace ∈ b.toQuery.traces.map some :=
    List.mem_map_of_mem (List.mem_map_of_mem hs)
  rw [(Lowering.traces_ofFilter hn.plain h).mem_iff] at htrace
  obtain ⟨k, hk, hsome⟩ := List.mem_map.1 htrace
  exact writable_comparison (hn.conditions k hk).finite (Lowering.standsFor_of_traceOf hsome).built

theorem writable_query {m : Metadata} {r : SearchRequest} {minimum : String} {b : Body}
    (h : Compile.query m r minimum = .ok b) : Writable b.toQuery.atoms := by
  have hfilter {f : Body} (hf : Compile.filterBody m r = .ok f) : Writable f.toQuery.atoms := by
    rcases Compile.filterBody_eq_ok_iff.1 hf with ⟨-, rfl⟩ | ⟨-, n, hparse, hlower⟩
    · exact Json.writable_text.2 nofun
    · exact writable_ofFilter (Filter.parse_eq_ok_iff_derives.1 hparse).canonical hlower
  cases htext : r.hasText with
  | false =>
    rw [Compile.query_of_no_text m minimum htext] at h
    exact hfilter h
  | true =>
    obtain ⟨f, hf, clause, hclause, rfl⟩ := (Compile.query_eq_ok_iff htext).1 h
    obtain ⟨fields, -, hclause⟩ := bind_eq_ok_iff.1 hclause
    cases hclause
    have hbody := hfilter hf
    simp only [Body.toQuery, atoms, atomsAll, Leaf.atoms, Json.writable_append, Json.writable_text]
      at hbody ⊢
    obtain ⟨⟨⟨hmust, hmustNot⟩, hshould⟩, hminimum⟩ := hbody
    exact ⟨⟨⟨hmust, hmustNot⟩, ⟨writable_textsAtoms fields, nofun⟩, hshould⟩, hminimum⟩

mutual

theorem writable_aggregation : (a : Aggregation) → Writable a.atoms
  | .terms _ _ _ => Json.writable_text.2 nofun
  | .nested _ aggregations => Json.writable_text.2 (writable_aggregations aggregations)

theorem writable_aggregations : (as : List (String × Aggregation)) →
    Writable (Aggregation.membersAtoms as)
  | [] => nofun
  | (_, a) :: more => Json.writable_text.2
    (Json.writable_append.2 ⟨writable_aggregation a, writable_aggregations more⟩)

end

theorem writable_sorts (sort : List SortClause) : Writable (sort.flatMap SortClause.atoms) := by
  intro x hx
  obtain ⟨s, -, hs⟩ := List.mem_flatMap.1 hx
  simp [SortClause.atoms] at hs

/-- Every double of a compiled request is finite. -/
theorem writable_search {m : Metadata} {r : SearchRequest} {q : Request}
    (h : Compile.search m r = .ok q) : Writable q.atoms := by
  obtain ⟨size, -, minimum, -, body, hbody, sort, -, aggregations, -, source, -, rfl⟩ :=
    Compile.search_eq_ok_iff.1 h
  simp only [Request.atoms, SourceFilter.atoms, Json.writable_append]
  exact ⟨⟨⟨writable_query hbody, writable_sorts sort⟩, writable_aggregations aggregations⟩,
    writable_textsAtoms _, writable_textsAtoms _⟩

/-! ### Keys -/

open SearchGateway.Json (written)

/-- No object of what a value says has a key twice. -/
def Keyed (v : Json) : Prop := (v.said (written true) (written false)).Distinct

theorem keyed_array {items : List Json} (h : ∀ v ∈ items, Keyed v) : Keyed (.array items) := by
  rw [Keyed, Json.said_array, Json.distinct_array]
  intro v hv
  obtain ⟨w, hw, rfl⟩ := List.mem_map.1 hv
  exact h w hw

theorem keyed_single (k : String) {v : Json} (h : Keyed v) : Keyed (.object [(k, v)]) := by
  rw [Keyed, Json.said_object, Json.distinct_object]
  exact ⟨List.nodup_singleton _, List.forall_mem_singleton.2 h⟩

/-- An object whose keys are different texts of Unicode characters. -/
theorem keyed_object {members : List (String × Json)} (hnodup : (members.map (·.1)).Nodup)
    (hunicode : ∀ m ∈ members, IsUnicode m.1) (h : ∀ m ∈ members, Keyed m.2) :
    Keyed (.object members) := by
  have hkeys : (members.map fun m =>
      (written false m.1, m.2.said (written true) (written false))).map (·.1) =
        members.map (·.1) := by
    rw [List.map_map]
    exact List.map_congr_left fun m hm => Json.written_of_isUnicode (hunicode m hm) false
  rw [Keyed, Json.said_object, Json.distinct_object, hkeys]
  refine ⟨hnodup, fun m hm => ?_⟩
  obtain ⟨m', hm', rfl⟩ := List.mem_map.1 hm
  exact h m' hm'

theorem keyed_words {members : List (String × Json)} (hnodup : (members.map (·.1)).Nodup)
    (hwords : ∀ m ∈ members, m.1 ∈ vocabulary) (h : ∀ m ∈ members, Keyed m.2) :
    Keyed (.object members) :=
  keyed_object hnodup (fun m hm => isUnicode_vocabulary _ (hwords m hm)) h

/-- A record over different keys of the vocabulary. -/
theorem keyed_record {members : List (String × Option Json)} (hnodup : (members.map (·.1)).Nodup)
    (hwords : ∀ m ∈ members, m.1 ∈ vocabulary) (h : ∀ m ∈ members, ∀ v ∈ m.2, Keyed v) :
    Keyed (.record members) := by
  have hgiven {m : String × Json}
      (hm : m ∈ members.filterMap fun m => m.2.map fun v => (m.1, v)) :
      ∃ p ∈ members, p.1 = m.1 ∧ m.2 ∈ p.2 := by
    obtain ⟨p, hp, hm⟩ := List.mem_filterMap.1 hm
    obtain ⟨v, hv, rfl⟩ := Option.map_eq_some_iff.1 hm
    exact ⟨p, hp, rfl, hv⟩
  refine keyed_object (hnodup.sublist (Json.sublist_keys members)) (fun m hm => ?_) fun m hm => ?_
  · obtain ⟨p, hp, hkey, -⟩ := hgiven hm
    exact hkey ▸ isUnicode_vocabulary _ (hwords p hp)
  · obtain ⟨p, hp, -, hv⟩ := hgiven hm
    exact h p hp _ hv

mutual

theorem keyed_literal : (v : Literal) → Keyed (literalJson v)
  | .null | .bool _ | .int _ | .float _ | .string _ => trivial
  | .list items => keyed_array (keyed_literals items)

theorem keyed_literals : (vs : List Literal) → ∀ w ∈ literalsJson vs, Keyed w
  | [] => nofun
  | v :: vs => List.forall_mem_cons.2 ⟨keyed_literal v, keyed_literals vs⟩

end

theorem keyed_strings (ss : List String) : ∀ v ∈ ss.map Json.string, Keyed v := by
  intro v hv
  obtain ⟨s, -, rfl⟩ := List.mem_map.1 hv
  trivial

theorem keyed_some {w : Json} (h : Keyed w) : ∀ v ∈ some w, Keyed v := by
  intro v hv
  cases hv
  exact h

theorem keyed_bound? (u : Literal) : ∀ v ∈ bound? u, Keyed v := by
  unfold bound?
  split
  · exact nofun
  · exact keyed_some (keyed_literal u)

theorem keyed_text? (s : String) : ∀ v ∈ Json.text? s, Keyed v := by
  unfold Json.text?
  split
  · exact nofun
  · exact keyed_some trivial

theorem keyed_list? {items : List Json} (h : ∀ v ∈ items, Keyed v) :
    ∀ v ∈ Json.list? items, Keyed v := by
  unfold Json.list?
  split
  · exact nofun
  · exact keyed_some (keyed_array h)

theorem keyed_listOrNull {items : Option (List Json)} (h : ∀ vs ∈ items, ∀ v ∈ vs, Keyed v) :
    Keyed (listOrNull items) := by
  cases items with
  | none => trivial
  | some vs => exact keyed_array (h vs rfl)

theorem keyed_point (p : Point) : Keyed (pointJson p) :=
  keyed_words (by simp) (by simp [vocabulary]) (by
    simp only [List.forall_mem_cons]
    exact ⟨trivial, trivial, List.forall_mem_nil _⟩)

theorem keyed_leaf (l : Leaf) : Keyed l.json := by
  cases l with
  | matching field value operator =>
    refine keyed_single _ (keyed_single _ (keyed_words (by simp) (by simp [vocabulary]) ?_))
    simp only [List.forall_mem_cons]
    exact ⟨keyed_literal value, trivial, List.forall_mem_nil _⟩
  | present field => exact keyed_single _ (keyed_single _ trivial)
  | range field gt gte lt lte =>
    refine keyed_single _ (keyed_single _ (keyed_record (by simp) (by simp [vocabulary]) ?_))
    simp only [List.forall_mem_cons]
    exact ⟨keyed_bound? gt, keyed_bound? gte, keyed_bound? lt, keyed_bound? lte,
      List.forall_mem_nil _⟩
  | terms field values =>
    refine keyed_single _ (keyed_single _ (keyed_listOrNull fun vs hvs => ?_))
    obtain ⟨ws, -, rfl⟩ := Option.map_eq_some_iff.1 hvs
    exact keyed_literals ws
  | ids values =>
    refine keyed_single _ (keyed_single _ (keyed_listOrNull fun vs hvs => ?_))
    obtain ⟨ss, -, rfl⟩ := Option.map_eq_some_iff.1 hvs
    exact keyed_strings ss
  | wildcard field pattern => exact keyed_single _ (keyed_single _ (keyed_single _ trivial))
  | geoBox field topLeft bottomRight =>
    refine keyed_single _ (keyed_single _ (keyed_words (by simp) (by simp [vocabulary]) ?_))
    simp only [List.forall_mem_cons]
    exact ⟨keyed_point topLeft, keyed_point bottomRight, List.forall_mem_nil _⟩
  | geoPolygon field points =>
    refine keyed_single _ (keyed_single _ (keyed_single _ (keyed_listOrNull fun vs hvs => ?_)))
    obtain ⟨ps, -, rfl⟩ := Option.map_eq_some_iff.1 hvs
    exact List.forall_mem_map.2 fun p _ => keyed_point p
  | queryString query fields operator minimum =>
    refine keyed_single _ (keyed_record (by simp) (by simp [vocabulary]) ?_)
    simp only [List.forall_mem_cons]
    exact ⟨keyed_some trivial, keyed_list? (keyed_strings fields), keyed_some trivial,
      keyed_text? minimum, List.forall_mem_nil _⟩

mutual

theorem keyed_query : (q : Query) → Keyed q.json
  | .leaf l => keyed_leaf l
  | .bool must mustNot should minimum => by
    rw [json]
    refine keyed_single _ (keyed_record (by simp) (by simp [vocabulary]) ?_)
    simp only [List.forall_mem_cons]
    exact ⟨keyed_list? (keyed_queries must), keyed_list? (keyed_queries mustNot),
      keyed_list? (keyed_queries should), keyed_text? minimum, nofun⟩
  | .nested path query => by
    rw [json]
    refine keyed_single _ (keyed_words (by simp) (by simp [vocabulary]) ?_)
    simp only [List.forall_mem_cons]
    exact ⟨trivial, keyed_query query, nofun⟩

theorem keyed_queries : (qs : List Query) → ∀ v ∈ jsons qs, Keyed v
  | [] => nofun
  | q :: qs => List.forall_mem_cons.2 ⟨keyed_query q, keyed_queries qs⟩

end

theorem keyed_sort (s : SortClause) : Keyed s.json := by
  refine keyed_single _ (keyed_record (by simp) (by simp [vocabulary]) ?_)
  simp only [List.forall_mem_cons]
  refine ⟨keyed_some trivial, fun v hv => ?_, nofun⟩
  obtain ⟨path, hpath, rfl⟩ := Option.map_eq_some_iff.1 hv
  exact keyed_single _ (keyed_text? s.nestedPath path hpath)

theorem keyed_source (s : SourceFilter) : Keyed s.json := by
  refine keyed_record (by simp) (by simp [vocabulary]) ?_
  simp only [List.forall_mem_cons]
  exact ⟨keyed_list? (keyed_strings _), keyed_list? (keyed_strings _), nofun⟩

/-! ### Names of aggregations -/

theorem not_isHeld_of_isPathPart {c : Char} (h : Filter.isPathPart c = true) :
    Text.isHeld c = false := by
  have hle : c.toNat ≤ 122 := by
    simp only [Filter.isPathPart, Filter.isNamePart, Filter.isNameStart, Bool.or_eq_true,
      Bool.and_eq_true, decide_eq_true_eq, beq_iff_eq] at h
    rcases h with (((rfl | h) | h) | h) | rfl
    · decide
    · exact h.2
    · have hupper : c.toNat ≤ 90 := h.2
      omega
    · have hdigit : c.toNat ≤ 57 := h.2
      omega
    · decide
  rw [Text.isHeld, decide_eq_false_iff_not, Text.firstHeld]
  omega

theorem isUnicode_of_isPath {path : List String} {s : String} (h : IsPath path s.toList) :
    IsUnicode s :=
  Text.isUnicode_iff.2
    (Text.genuine_of_not_isHeld fun c hc => not_isHeld_of_isPathPart (h.isPathPart c hc))

theorem isUnicode_of_isName {s : String} (h : Index.isName s.toList = true) : IsUnicode s :=
  isUnicode_of_isPath (Filter.isPath_singleton h)

namespace Facets

theorem membersJson_eq (as : List (String × Aggregation)) :
    Aggregation.membersJson as = as.map fun a => (a.1, a.2.json) := by
  induction as with
  | nil => rfl
  | cons a as ih => rw [Aggregation.membersJson, ih, List.map_cons]

theorem keyed_terms (name : String) (size shards : Int) :
    Keyed (Aggregation.terms name size shards).json := by
  rw [Aggregation.json]
  refine keyed_single _ (keyed_words (by simp) (by simp [vocabulary]) ?_)
  simp only [List.forall_mem_cons]
  exact ⟨trivial, trivial, trivial, nofun⟩

/-- The aggregation of a family: its fields are different. -/
theorem keyed_aggregation {m : Metadata} {families : List Family} (h : Grouped m families)
    (size : Int) {family : Family} (hfamily : family ∈ families) :
    Keyed (aggregation m size family).2.json := by
  unfold aggregation
  split
  · have hkeys : (Aggregation.membersJson (family.2.map fun name =>
        (name, Aggregation.terms name size m.shards))).map (·.1) = family.2 := by
      rw [membersJson_eq, List.map_map, List.map_map]
      exact List.map_id _
    have hinner : Keyed (.object (Aggregation.membersJson (family.2.map fun name =>
        (name, Aggregation.terms name size m.shards)))) := by
      refine keyed_object ?_ (fun p hp => ?_) fun p hp => ?_
      · rw [hkeys]
        exact h.distinct family hfamily
      · have hname : p.1 ∈ family.2 := hkeys ▸ List.mem_map_of_mem hp
        obtain ⟨f, hf, hfname, -⟩ := h.named family hfamily p.1 hname
        exact hfname ▸ isUnicode_of_isPath hf
      · rw [membersJson_eq, List.map_map] at hp
        obtain ⟨name, -, rfl⟩ := List.mem_map.1 hp
        exact keyed_terms name size m.shards
    rw [Aggregation.json]
    refine keyed_words (by simp) (by simp [vocabulary]) ?_
    simp only [List.forall_mem_cons]
    exact ⟨keyed_single _ trivial, hinner, nofun⟩
  · exact keyed_terms _ _ _

end Facets

/-- The compiled aggregations have different names. -/
theorem keyed_facets {m : Metadata} {size : Int} {entries : List String}
    {aggregations : List (String × Aggregation)} (h : facets m size entries = .ok aggregations) :
    Keyed (.object (Aggregation.membersJson aggregations)) := by
  obtain ⟨haccept, rfl⟩ := Facets.facets_eq_ok_iff.1 h
  have hkeys (as : List (String × Aggregation)) :
      (Aggregation.membersJson as).map (·.1) = as.map (·.1) := by
    rw [Facets.membersJson_eq, List.map_map]
    rfl
  refine keyed_object ?_ ?_ ?_
  · rw [hkeys, Facets.map_fst_aggregations]
    exact haccept.grouped.nodup
  · rw [Facets.membersJson_eq, List.map_map, List.forall_mem_map]
    intro family hfamily
    show IsUnicode (Facets.aggregation m _ family).1
    rw [Facets.fst_aggregation]
    exact isUnicode_of_isName (Facets.isName_of_mem_sortedFamilies hfamily)
  · rw [Facets.membersJson_eq, List.map_map, List.forall_mem_map]
    exact fun family hfamily => Facets.keyed_aggregation haccept.grouped _ hfamily

theorem keyed_search {m : Metadata} {r : SearchRequest} {q : Request}
    (h : Compile.search m r = .ok q) : Keyed q.json := by
  obtain ⟨size, -, minimum, -, body, hbody, sort, -, aggregations, hfacets, source, -, rfl⟩ :=
    Compile.search_eq_ok_iff.1 h
  have htimeout : ∀ v ∈ (if 0 < m.queryTimeout then
      some (Json.string (Request.timeoutText m.queryTimeout)) else none), Keyed v := by
    split
    · exact keyed_some trivial
    · exact nofun
  have haggs : ∀ v ∈ (if aggregations.isEmpty then none
      else some (Json.object (Aggregation.membersJson aggregations))), Keyed v := by
    split
    · exact nofun
    · exact keyed_some (keyed_facets hfacets)
  have hsource : ∀ v ∈ (if source.isEmpty then none else some source.json), Keyed v := by
    split
    · exact nofun
    · exact keyed_some (keyed_source source)
  refine keyed_record (by simp) (by simp [vocabulary]) ?_
  simp only [List.forall_mem_cons]
  exact ⟨keyed_some trivial, keyed_some trivial, htimeout, keyed_some (keyed_query _),
    keyed_list? (List.forall_mem_map.2 fun s _ => keyed_sort s), haggs, hsource, nofun⟩

/-- A free text, a filter on a nested field, and facets inside and outside of it. -/
def facetedSample : SearchRequest :=
  { textSample with facets := ["state, offer.kind", "offer.price"] }

theorem exists_compile_facetedSample : ∃ q, compile sampleRegistry facetedSample = .ok q := by
  obtain ⟨b, hb⟩ : ∃ b, Compile.filterBody sampleIndex facetedSample = .ok b :=
    ⟨_, Compile.filterBody_eq_ok_iff.2 (.inr ⟨by decide, _, parse_textSample, rfl⟩)⟩
  obtain ⟨body, hquery⟩ : ∃ body, Compile.query sampleIndex facetedSample "75%" = .ok body :=
    ⟨_, (Compile.query_eq_ok_iff (by decide)).2 ⟨b, hb, _, rfl, rfl⟩⟩
  have hfamilies : Facets.families sampleIndex [] (Text.items facetedSample.facets) =
      .ok [("state", ["state"]), ("offer", ["offer.kind", "offer.price"])] := by decide +kernel
  obtain ⟨aggregations, hfacets⟩ : ∃ aggregations,
      facets sampleIndex facetedSample.facetSize facetedSample.facets = .ok aggregations := by
    rw [facets, hfamilies]
    exact ⟨_, rfl⟩
  have hsource : Compile.source sampleIndex facetedSample.includeFields
      facetedSample.excludeFields = .ok {} := by cbv
  exact ⟨_, compile_eq_ok_iff.2 ⟨sampleIndex, rfl, Compile.search_eq_ok_iff.2
    ⟨20, rfl, "75%", rfl, body, hquery, [], rfl, aggregations, hfacets, _, hsource, rfl⟩⟩⟩

/-- What is compiled can be sent: its body is a document in which no object has a key twice. -/
theorem compile_sendable {registry : Registry} {r : SearchRequest} {q : Request}
    (h : compile registry r = .ok q) :
    ∃ text, q.body = .ok text ∧ (∃ d : Json.Document, d.text = text.toList) ∧
      ∀ d : Json.Document, d.text = text.toList → d.Distinct := by
  obtain ⟨m, -, hsearch⟩ := compile_eq_ok_iff.1 h
  have hshows := shows_request q
  have hfinite : ∀ x ∈ q.json.doubles, x.isFinite = true := fun x hx =>
    writable_search hsearch x (hshows.mem_doubles.1 hx)
  obtain ⟨d, hd, -⟩ := Json.exists_isPrinted false q.json hshows.copies_eq_nil hfinite
  refine ⟨String.ofList (q.json.print false), ?_, ?_, ?_⟩
  · exact Json.write_eq_ok_iff.2 ⟨hfinite, String.toList_ofList⟩
  · exact ⟨d, by rw [hd, String.toList_ofList]⟩
  · intro e he
    rw [String.toList_ofList] at he
    rw [← Json.Document.distinct_content_iff,
      Json.content_of_text_eq_print hshows.copies_eq_nil hfinite he]
    exact keyed_search hsearch

theorem compile_sendable_faceted :
    ∃ q, compile sampleRegistry facetedSample = .ok q ∧ ∃ text, q.body = .ok text ∧
      (∃ d : Json.Document, d.text = text.toList) ∧
      ∀ d : Json.Document, d.text = text.toList → d.Distinct := by
  obtain ⟨q, hq⟩ := exists_compile_facetedSample
  exact ⟨q, hq, compile_sendable hq⟩

end Query

end SearchGateway
