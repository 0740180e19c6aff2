import SearchGateway.Proofs.Query.Sendable

/-!
# The parts of compiled requests

`Query.Every p s` says that all leaf clauses of a query satisfy `p` and all its nested paths satisfy
`s`, and `Aggregation.Every p s` says the same of the terms aggregations and nested paths of an
aggregation. A filter is lowered to a query of such parts if the clause of each comparison is one
and each nested field is (`every_ofFilter`, by induction over the filter; gathering conditions into
nested scopes adds no part of another kind). The aggregations of facets ask for known fields, with
the size and the shards given, inside nested fields (`every_facets`).
-/

namespace SearchGateway

open SearchGateway.Text
open SearchGateway.Filter (Comparison Connective Field IsPath)
open SearchGateway.Index (FieldKind Metadata lookup)

namespace Index.Metadata

/-- The field is declared with type `nested`. -/
def DeclaresNested (m : Metadata) (field : String) : Prop := lookup m.fields field = some .nested

variable {m : Metadata}

/-- Whatever is no keyword is declared as what it is. -/
theorem lookup_of_isOfKind {path : String} {kind : FieldKind} (h : m.isOfKind path kind = true)
    (hkind : kind ≠ .keyword) : lookup m.fields path = some kind := by
  rw [isOfKind, beq_iff_eq, kindOf?] at h
  cases hlookup : lookup m.fields path with
  | some declared =>
    rw [hlookup] at h
    exact h
  | none =>
    rw [hlookup] at h
    dsimp only at h
    split at h
    · exact absurd (Option.some.inj h).symm hkind
    · split at h
      · exact absurd (Option.some.inj h).symm hkind
      · cases h

theorem declaresNested_of_isOfKind {path : String} (h : m.isOfKind path .nested = true) :
    m.DeclaresNested path :=
  lookup_of_isOfKind h (by decide)

/-- The nested field that a field lies in is declared. -/
theorem declaresNested_first {f : Field} (hf : f.Dotless) (h : m.isNested f.name = true) :
    m.DeclaresNested f.first := by
  rw [isNested, Field.firstSegment_name hf] at h
  exact declaresNested_of_isOfKind h

end Index.Metadata

namespace Query

inductive Every (p : Leaf → Prop) (s : String → Prop) : Query → Prop where
  | leaf {l : Leaf} : p l → Every p s (.leaf l)
  | bool {must mustNot should : List Query} {minimum : String} :
      (∀ q ∈ must, Every p s q) → (∀ q ∈ mustNot, Every p s q) → (∀ q ∈ should, Every p s q) →
      Every p s (.bool must mustNot should minimum)
  | nested {path : String} {q : Query} : s path → Every p s q → Every p s (.nested path q)

theorem Every.mono {p p' : Leaf → Prop} {s s' : String → Prop} {q : Query} (h : q.Every p s)
    (hp : ∀ l, p l → p' l) (hs : ∀ path, s path → s' path) : q.Every p' s' := by
  induction h with
  | leaf hl => exact .leaf (hp _ hl)
  | bool _ _ _ hmust hmustNot hshould => exact .bool hmust hmustNot hshould
  | nested hpath _ ih => exact .nested (hs _ hpath) ih

namespace Lowering

variable {p : Leaf → Prop} {s : String → Prop}

theorem every_assemble (op : Connective) {ps : List Placed} (h : ∀ x ∈ ps, x.1.Every p s) :
    (assemble op ps).toQuery.Every p s := by
  have hkept {keep : Placed → Bool} : ∀ q ∈ (ps.filter keep).map (·.1), q.Every p s := by
    intro q hq
    obtain ⟨x, hx, rfl⟩ := List.mem_map.1 hq
    exact h x (List.mem_filter.1 hx).1
  unfold assemble
  split
  · exact .bool hkept hkept nofun
  · refine .bool nofun nofun fun q hq => ?_
    obtain ⟨x, hx, rfl⟩ := List.mem_map.1 hq
    split
    · exact .bool nofun (List.forall_mem_singleton.2 (h x hx)) nofun
    · exact h x hx

/-- All parts of an entry are of the kind. -/
def Entry.Every (p : Leaf → Prop) (s : String → Prop) : Entry → Prop
  | clause x => x.1.Every p s
  | inside path x => s path ∧ x.1.Every p s
  | group b _ => b.toQuery.Every p s

theorem every_body (op : Connective) {es : List Entry} (h : ∀ e ∈ es, e.Every p s) :
    (body op es).toQuery.Every p s := by
  apply every_assemble
  rw [List.forall_mem_map]
  intro slot hslot
  cases Slot.comesFrom_of_mem_gather hslot with
  | clause he => exact h _ he
  | group he => exact h _ he
  | @scope path xs hne hinside =>
    obtain ⟨x, hx⟩ := List.exists_mem_of_ne_nil xs hne
    exact .nested (h _ (hinside x hx)).1 (every_assemble op fun y hy => (h _ (hinside y hy)).2)

section

variable {m : Metadata} (hleaf : ∀ {c l base}, comparison m c = .ok (l, base) → p l)
  (hscope : ∀ {path}, m.isOfKind path .nested = true → s path)

include hleaf hscope

theorem every_entry {n : Filter} (hn : Plain n) {inverted : Bool} {e : Entry}
    (h : entry m inverted n = .ok e) : e.Every p s := by
  induction hn generalizing inverted e with
  | @comparison c hc =>
    have hplain : Plain (.comparison c) := .comparison hc
    cases lowers_of_entry hplain h with
    | clause hcore hl _ => exact .leaf (hleaf hl)
    | inside hcore hl hi => exact ⟨hscope hi, .leaf (hleaf hl)⟩
    | group hcore _ _ => rw [Filter.core_comparison] at hcore; cases hcore
  | @group op children negated _ _ ih =>
    match children, ih with
    | [], _ => rw [entry] at h; cases h
    | [n], ih =>
      rw [entry] at h
      exact ih n List.mem_cons_self h
    | n :: n' :: ns, ih =>
      rw [entry] at h
      obtain ⟨es, hes, h⟩ := bind_eq_ok_iff.1 h
      cases h
      refine every_body op fun e he => ?_
      rw [entries_eq_mapM] at hes
      obtain ⟨k, hk, hentry⟩ := exists_ok_of_mem_mapM hes he
      exact ih k hk hentry

theorem every_ofFilter {n : Filter} (hn : Plain n) {b : Body} (h : ofFilter m n = .ok b) :
    b.toQuery.Every p s := by
  obtain ⟨e, he, h⟩ := bind_eq_ok_iff.1 h
  have hparts := every_entry hleaf hscope hn he
  cases e with
  | clause x => cases h; exact every_body .and (List.forall_mem_singleton.2 hparts)
  | inside path x => cases h; exact every_body .and (List.forall_mem_singleton.2 hparts)
  | group b' inverted =>
    cases inverted with
    | false => cases h; exact hparts
    | true => cases h; exact .bool nofun (List.forall_mem_singleton.2 hparts) nofun

end

end Lowering

/-! ### Facets -/

end Query

inductive Aggregation.Every (p : String → Int → Int → Prop) (s : String → Prop) :
    Aggregation → Prop where
  | terms {field : String} {size shardSize : Int} :
      p field size shardSize → Every p s (.terms field size shardSize)
  | nested {path : String} {aggregations : List (String × Aggregation)} :
      s path → (∀ a ∈ aggregations, Every p s a.2) → Every p s (.nested path aggregations)

theorem Aggregation.Every.mono {p p' : String → Int → Int → Prop} {s s' : String → Prop}
    {a : Aggregation} (h : a.Every p s)
    (hp : ∀ field size shardSize, p field size shardSize → p' field size shardSize)
    (hs : ∀ path, s path → s' path) : a.Every p' s' := by
  induction h with
  | terms hterms => exact .terms (hp _ _ _ hterms)
  | nested hpath _ ih => exact .nested (hs _ hpath) ih

namespace Query

/-- The aggregations of facets: on known fields, of the size asked for or the index's own, and
inside nested fields. -/
theorem every_facets {m : Metadata} {size : Int} {entries : List String}
    {aggregations : List (String × Aggregation)} (h : facets m size entries = .ok aggregations) :
    ∀ a ∈ aggregations, a.2.Every
      (fun field size' shardSize => m.hasField field = true ∧
        size' = (if size = 0 then m.facetSize else size) ∧ shardSize = m.shards)
      m.DeclaresNested := by
  obtain ⟨haccept, rfl⟩ := Facets.facets_eq_ok_iff.1 h
  have hknown : ∀ family ∈ Facets.sortedFamilies (Facets.fieldsOf (items entries)),
      ∀ name ∈ family.2, m.hasField name = true := by
    intro family hfamily name hname
    obtain ⟨f, hf, rfl⟩ := Facets.mem_allNames_sortedFamilies.1
      (Facets.mem_allNames.2 ⟨family, hfamily, hname⟩)
    exact haccept.hasField f hf
  rw [List.forall_mem_map]
  intro family hfamily
  unfold Facets.aggregation
  cases hnested : m.isNested family.1 with
  | true =>
    rw [Metadata.isNested,
      Facets.firstSegment_of_isName (Facets.isName_of_mem_sortedFamilies hfamily)] at hnested
    refine .nested (Metadata.declaresNested_of_isOfKind hnested) ?_
    rw [List.forall_mem_map]
    exact fun name hname => .terms ⟨hknown family hfamily name hname, rfl, rfl⟩
  | false =>
    obtain ⟨name, hname⟩ := haccept.grouped.single family hfamily hnested
    refine .terms ⟨?_, rfl, rfl⟩
    rw [hname]
    exact hknown family hfamily name (hname ▸ List.mem_cons_self)

/-! ### The text beside the filter -/

namespace Compile

/-- The query of a request is that of its filter, with the clause of the text in front of the
alternatives if there is a text. -/
theorem exists_parts_of_query {m : Metadata} {r : SearchRequest} {minimum : String} {body : Body}
    (h : query m r minimum = .ok body) :
    ∃ b texts, filterBody m r = .ok b ∧ body = { b with should := texts ++ b.should } ∧
      texts.length = (if r.hasText then 1 else 0) ∧
      ∀ t ∈ texts, r.hasText = true ∧ ∃ fields, FreeText.fields m r.fields = .ok fields ∧
        t = .leaf (.queryString (trim r.text) fields "OR" minimum) := by
  cases htext : r.hasText with
  | false =>
    rw [query_of_no_text m minimum htext] at h
    exact ⟨body, [], h, rfl, rfl, nofun⟩
  | true =>
    obtain ⟨b, hb, clause, hclause, rfl⟩ := (query_eq_ok_iff htext).1 h
    obtain ⟨fields, hfields, hclause⟩ := bind_eq_ok_iff.1 hclause
    cases hclause
    refine ⟨b, _, hb, rfl, rfl, List.forall_mem_singleton.2 ⟨rfl, fields, ?_, rfl⟩⟩
    exact mapError_eq_ok_iff.1 hfields

end Compile

end Query

end SearchGateway
