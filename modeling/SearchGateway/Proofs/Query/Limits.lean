import SearchGateway.Proofs.Index.Validation
import SearchGateway.Proofs.Query.Grounding

/-!
# Compiled requests keep within the limits of their index

No single check makes sure of the limits. Zero in the settings stands for a default that is
positive, negative settings are refused, and so is a largest page smaller than the default one
(`Metadata.Bounded`). Zero in a request stands for the setting of the index, and negative numbers in
a request are refused (`check_eq_ok_iff`). Together they leave sizes that are positive and pages
that are not too large (`pageSize_bounds`), and the only pages that are refused are those that ask
for it (`exists_pageSize_iff`).
-/

namespace SearchGateway

open SearchGateway.Text
open SearchGateway.Index (Metadata Registry Settings)

/-- An object has the members that are given. -/
theorem Json.mem_given_iff {members : List (String × Option Json)} {name : String} {v : Json} :
    (name, v) ∈ members.filterMap (fun m => m.2.map fun v => (m.1, v)) ↔
      (name, some v) ∈ members := by
  rw [List.mem_filterMap]
  constructor
  · rintro ⟨⟨name', given⟩, hmem, hgiven⟩
    obtain ⟨v', rfl, heq⟩ := Option.map_eq_some_iff.1 hgiven
    cases heq
    exact hmem
  · intro hmem
    exact ⟨_, hmem, rfl⟩

theorem SearchRequest.check_eq_ok_iff {r : SearchRequest} : r.check = .ok () ↔
    isBlankText r.index = false ∧ 0 ≤ r.start ∧ 0 ≤ r.size ∧ 0 ≤ r.facetSize := by
  have hreject {f : RequestFault} {p : Prop} (hp : ¬ p) :
      (Except.error f : Except RequestFault Unit) = .ok () ↔ p :=
    iff_of_false (by simp) hp
  unfold check
  by_cases hindex : isBlankText r.index = true
  · rw [if_pos hindex]
    exact hreject fun h => absurd h.1 (by simp [hindex])
  · rw [if_neg hindex]
    by_cases hstart : r.start < 0
    · rw [if_pos hstart]
      exact hreject (by omega)
    · rw [if_neg hstart]
      by_cases hsize : r.size < 0
      · rw [if_pos hsize]
        exact hreject (by omega)
      · rw [if_neg hsize]
        by_cases hfacet : r.facetSize < 0
        · rw [if_pos hfacet]
          exact hreject (by omega)
        · rw [if_neg hfacet]
          exact iff_of_true rfl ⟨Bool.eq_false_iff.2 hindex, by omega, by omega, by omega⟩

namespace Query

namespace Compile

variable {m : Metadata} {r : SearchRequest}

theorem pageSize_eq_ok_iff {size : Int} : pageSize m r = .ok size ↔
    r.check = .ok () ∧ size = (if r.size = 0 then m.defaultSize else r.size) ∧
      size ≤ m.maxSize := by
  simp only [pageSize, bind_eq_ok_iff, mapError_eq_ok_iff]
  constructor
  · rintro ⟨⟨⟩, hcheck, h⟩
    by_cases hlt : m.maxSize < (if r.size = 0 then m.defaultSize else r.size)
    · rw [if_pos hlt] at h
      cases h
    · rw [if_neg hlt] at h
      cases h
      exact ⟨hcheck, rfl, Int.not_lt.1 hlt⟩
  · rintro ⟨hcheck, rfl, hle⟩
    exact ⟨(), hcheck, if_neg (Int.not_lt.2 hle)⟩

theorem pageSize_bounds (hm : m.Bounded) {size : Int} (h : pageSize m r = .ok size) :
    0 ≤ r.start ∧ 1 ≤ size ∧ size ≤ m.maxSize ∧ 0 ≤ r.facetSize := by
  obtain ⟨hcheck, rfl, hle⟩ := pageSize_eq_ok_iff.1 h
  obtain ⟨-, hstart, hsize, hfacet⟩ := SearchRequest.check_eq_ok_iff.1 hcheck
  have hpos := hm.defaultSize_pos
  refine ⟨hstart, ?_, hle, hfacet⟩
  split <;> omega

/-- The default page is never too large, so a page is refused for what the request says. -/
theorem exists_pageSize_iff (hm : m.Bounded) : (∃ size, pageSize m r = .ok size) ↔
    isBlankText r.index = false ∧ 0 ≤ r.start ∧ 0 ≤ r.size ∧ 0 ≤ r.facetSize ∧
      r.size ≤ m.maxSize := by
  have hpos := hm.defaultSize_pos
  have hle := hm.defaultSize_le
  simp only [pageSize_eq_ok_iff, SearchRequest.check_eq_ok_iff]
  constructor
  · rintro ⟨size, ⟨hindex, hstart, hsize, hfacet⟩, rfl, hmax⟩
    refine ⟨hindex, hstart, hsize, hfacet, ?_⟩
    split at hmax <;> omega
  · rintro ⟨hindex, hstart, hsize, hfacet, hmax⟩
    refine ⟨_, ⟨hindex, hstart, hsize, hfacet⟩, rfl, ?_⟩
    split <;> omega

theorem checkMinimum_of_minimum (htext : r.hasText = true) {minimum : String}
    (h : Compile.minimum m r = .ok minimum) : FreeText.checkMinimum minimum = .ok () := by
  unfold Compile.minimum at h
  dsimp only at h
  rw [htext, if_neg (by simp)] at h
  obtain ⟨⟨⟩, hcheck, h⟩ := bind_eq_ok_iff.1 h
  cases h
  exact mapError_eq_ok_iff.1 hcheck

end Compile

/-- The clause of a text has a minimum that is one. -/
def Leaf.MinimumChecked (l : Leaf) : Prop :=
  ∀ text fields operator minimum, l = .queryString text fields operator minimum →
    FreeText.checkMinimum minimum = .ok ()

theorem Leaf.Known.minimumChecked {m : Metadata} {l : Leaf} (h : l.Known m) : l.MinimumChecked := by
  rintro text fields operator minimum rfl
  exact h.elim

theorem minimumChecked_query {m : Metadata} {r : SearchRequest} {minimum : String} {body : Body}
    (hminimum : Compile.minimum m r = .ok minimum) (h : Compile.query m r minimum = .ok body) :
    body.toQuery.Every Leaf.MinimumChecked fun _ => True := by
  obtain ⟨b, texts, hfilter, rfl, -, htexts⟩ := Compile.exists_parts_of_query h
  have hb := (known_filterBody hfilter).mono (fun _ hl => hl.minimumChecked) fun _ _ => trivial
  cases hb with
  | bool hmust hmustNot hshould =>
    refine .bool hmust hmustNot (List.forall_mem_append.2 ⟨fun t ht => ?_, hshould⟩)
    obtain ⟨htext, fields, -, rfl⟩ := htexts t ht
    refine .leaf ?_
    rintro text fields operator minimum ⟨⟩
    exact Compile.checkMinimum_of_minimum htext hminimum

/-- A time limit is sent in whole milliseconds, and at least one. -/
theorem timeoutText_of_pos {ns : Int} (h : 0 < ns) :
    Request.timeoutText ns = toString (max 1 (ns / 1000000)) ++ "ms" := by
  have hms : (if ns / 1000000 = 0 then 1 else ns / 1000000) = max 1 (ns / 1000000) := by
    split <;> omega
  rw [Request.timeoutText, hms]

theorem mem_timeout_iff (q : Request) : ∃ members, q.json = .object members ∧
    ∀ v, ("timeout", v) ∈ members ↔ 0 < q.queryTimeout ∧
      v = .string (toString (max 1 (q.queryTimeout / 1000000)) ++ "ms") := by
  refine ⟨_, rfl, fun v => ?_⟩
  rw [Json.mem_given_iff]
  by_cases hpos : 0 < q.queryTimeout
  · rw [if_pos hpos, timeoutText_of_pos hpos]
    simp [hpos]
  · simp [hpos]

/-- What the limits of an index mean for a request. -/
structure Within (m : Metadata) (q : Request) : Prop where
  start_nonneg : 0 ≤ q.start
  size_pos : 1 ≤ q.size
  size_le : q.size ≤ m.maxSize
  shards_pos : 1 ≤ m.shards
  terms : ∀ a ∈ q.aggregations,
    a.2.Every (fun _ size shardSize => 1 ≤ size ∧ shardSize = m.shards) fun _ => True
  minimum : ∃ b, q.query = some b ∧ b.toQuery.Every Leaf.MinimumChecked fun _ => True
  queryTimeout_nonneg : 0 ≤ q.queryTimeout

theorem within_of_search {m : Metadata} (hm : m.Bounded) {r : SearchRequest} {q : Request}
    (h : Compile.search m r = .ok q) : Within m q := by
  obtain ⟨size, hsize, minimum, hminimum, body, hbody, sort, -, aggregations, haggregations,
    source, -, rfl⟩ := Compile.search_eq_ok_iff.1 h
  obtain ⟨hstart, hpos, hle, hfacet⟩ := Compile.pageSize_bounds hm hsize
  have hfacetSize : 1 ≤ (if r.facetSize = 0 then m.facetSize else r.facetSize) := by
    have hdefault := hm.facetSize_pos
    split <;> omega
  exact {
    start_nonneg := hstart
    size_pos := hpos
    size_le := hle
    shards_pos := hm.shards_pos
    terms := fun a ha => (every_facets haggregations a ha).mono
      (fun _ _ _ ⟨_, hterms, hshards⟩ => ⟨hterms ▸ hfacetSize, hshards⟩) fun _ _ => trivial
    minimum := ⟨body, rfl, minimumChecked_query hminimum hbody⟩
    queryTimeout_nonneg := hm.queryTimeout_nonneg }

/-- In a registry that was accepted a compiled request keeps within the limits of its index and
sends its time limit, if it has one. A page is refused exactly for a negative number and for a size
over the largest. -/
theorem compile_limits {entries : List (String × Settings)} {registry : Registry}
    (hmake : Registry.make entries = .ok registry) (r : SearchRequest) :
    (∀ q, compile registry r = .ok q → ∃ m, registry.find r.index = .ok m ∧ Within m q ∧
      ∃ members, q.json = .object members ∧
        ∀ v, ("timeout", v) ∈ members ↔ 0 < q.queryTimeout ∧
          v = .string (toString (max 1 (q.queryTimeout / 1000000)) ++ "ms")) ∧
    ∀ m, registry.find r.index = .ok m → isBlankText r.index = false →
      ((∃ f, Compile.pageSize m r = .error f) ↔
        r.start < 0 ∨ r.size < 0 ∨ r.facetSize < 0 ∨ m.maxSize < r.size) := by
  have hbounded {m : Metadata} (hfind : registry.find r.index = .ok m) : m.Bounded := by
    obtain ⟨settings, -, hm⟩ := Registry.exists_make_of_find hmake hfind
    exact Metadata.bounded_of_make hm
  constructor
  · intro q h
    obtain ⟨m, hfind, hsearch⟩ := compile_eq_ok_iff.1 h
    exact ⟨m, hfind, within_of_search (hbounded hfind) hsearch, mem_timeout_iff q⟩
  · intro m hfind hindex
    rw [exists_error_iff, Compile.exists_pageSize_iff (hbounded hfind), and_iff_right hindex]
    omega

/-- A shop with three shards and a time limit of less than a millisecond. -/
def shop : List (String × Settings) := [
  ("shop", {
    shards := 3
    queryTimeout := 250000
    fields := [⟨"title", "text"⟩, ⟨"offer", "nested"⟩, ⟨"offer.seller", "keyword"⟩] })]

def shopRequest : SearchRequest where
  index := "shop"
  text := "lamp"
  facets := ["offer.seller", "title.raw"]

theorem compile_limits_shop :
    ∃ registry q m, Registry.make shop = .ok registry ∧ compile registry shopRequest = .ok q ∧
      registry.find "shop" = .ok m ∧ Within m q ∧
      (∃ members, q.json = .object members ∧ ("timeout", .string "1ms") ∈ members) ∧
      ∃ f, Compile.pageSize m { shopRequest with size := 201 } = .error f := by
  have hmake : Registry.make shop = .ok ⟨shop.filterMap Index.metadataOf?⟩ :=
    Registry.make_eq_ok_iff.2 ⟨by decide +kernel, rfl⟩
  have htimeout : (compile ⟨shop.filterMap Index.metadataOf?⟩ shopRequest).toOption.map
      Request.queryTimeout = some 250000 := by
    decide +kernel
  cases hq : compile ⟨shop.filterMap Index.metadataOf?⟩ shopRequest with
  | error f =>
    rw [hq] at htimeout
    cases htimeout
  | ok q =>
    rw [hq] at htimeout
    have hns : q.queryTimeout = 250000 := Option.some.inj htimeout
    obtain ⟨m, hfind, hwithin, members, hjson, hmember⟩ := (compile_limits hmake shopRequest).1 q hq
    refine ⟨_, q, m, hmake, hq, hfind, hwithin, ⟨members, hjson, ?_⟩, ?_⟩
    · rw [hmember, hns]
      exact ⟨by decide, congrArg Json.string (by decide)⟩
    · refine ((compile_limits hmake { shopRequest with size := 201 }).2 m hfind (by decide)).2 ?_
      cases hfind
      decide +kernel

end Query

end SearchGateway
