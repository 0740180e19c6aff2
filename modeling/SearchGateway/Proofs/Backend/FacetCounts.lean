import SearchGateway.Backend.Hit
import SearchGateway.Proofs.Json.Integers
import SearchGateway.Proofs.Json.Lookup
import SearchGateway.Proofs.Query.Facets
import SearchGateway.Proofs.Query.FreeText
import SearchGateway.Proofs.Text.NameSet

/-!
# Facets as they were asked for

A response to a compiled request answers its aggregations by a tree of the same shape: under the
name of a terms aggregation an object with buckets, under the name of a nested aggregation an object
with the answers to its parts (`Mirrors`). What such a response reports on a field is said by going
through the aggregations and the response together (`reported`), without the paths by which facets
are read. `facets_compile` says that reading by paths comes to the same: there is a facet for each
field that was asked for and for no other, and it holds the counts of the buckets of that field. A
count has 64 bits, so this is about the buckets that a facet can hold (`FacetCount.Readable`);
`facets_unreadable` shows others.
-/

namespace SearchGateway

open SearchGateway.Json

/-! ### Buckets -/

namespace Json.Document

def integer? : Document → Option Int
  | number n => n.integer?
  | _ => none

/-- A value as it is shown: a string by its characters and any other value but null by its text. -/
def shown? : Document → Option String
  | null => none
  | string s => s.string?
  | d => some (String.ofList d.text)

theorem at?_append (path more : List String) (d : Document) :
    d.at? (path ++ more) = (d.at? path).bind (at? more) := by
  induction path generalizing d with
  | nil => rfl
  | cons name path ih =>
    rw [List.cons_append, at?, at?, Option.bind_assoc]
    exact congrArg _ (funext fun e => ih e)

theorem distinct_of_at? {d e : Document} (hd : d.Distinct) {path : List String}
    (h : d.at? path = some e) : e.Distinct := by
  induction path generalizing d with
  | nil => cases h; exact hd
  | cons name path ih =>
    obtain ⟨next, hnext, h⟩ := Option.bind_eq_some_iff.1 h
    exact ih (distinct_of_member? hd hnext) h

theorem distinct_of_mem_items {blank : Blank} {items : List (Blank × Document × Blank)}
    (h : (array blank items).Distinct) : ∀ item ∈ items, item.2.1.Distinct := by
  rw [Distinct] at h
  induction items with
  | nil => nofun
  | cons item items ih =>
    rw [ItemsDistinct] at h
    intro item' hmem
    rcases List.mem_cons.1 hmem with rfl | hmem
    · exact h.1
    · exact ih h.2 item' hmem

end Json.Document

namespace Backend

/-- The count that a bucket reports. -/
def FacetCount.ofDocument? (bucket : Document) : Option FacetCount := do
  let count ← (bucket.member? "doc_count").bind Document.integer?
  let value ← ((bucket.member? "key_as_string").bind Document.string?).or
    ((bucket.member? "key").bind Document.shown?)
  return ⟨value, Int64.ofInt count⟩

/-- A facet can hold what the bucket reports: its count fits in 64 bits, and the strings that name
it stand for characters. -/
def FacetCount.Readable (bucket : Document) : Prop :=
  (∀ i ∈ (bucket.member? "doc_count").bind Document.integer?, -2 ^ 63 ≤ i ∧ i < 2 ^ 63) ∧
    ∀ key ∈ ["key_as_string", "key"], ∀ d ∈ bucket.member? key, d.isResolved = true

instance : DecidablePred FacetCount.Readable := fun bucket =>
  inferInstanceAs (Decidable
    ((∀ i ∈ (bucket.member? "doc_count").bind Document.integer?, -2 ^ 63 ≤ i ∧ i < 2 ^ 63) ∧
      ∀ key ∈ ["key_as_string", "key"], ∀ d ∈ bucket.member? key, d.isResolved = true))

theorem get_member {d : Document} (hd : d.Distinct) {name : String}
    (hname : name.toList.head? ≠ some '[') : get d.raw.text [name] = found (d.member? name) := by
  rw [get_raw (by simpa [Plain] using hname) (by simp) hd, Document.at?_singleton]

theorem getInt_member {d : Document} (hd : d.Distinct) {name : String}
    (hname : name.toList.head? ≠ some '[')
    (hfits : ∀ i ∈ (d.member? name).bind Document.integer?, -2 ^ 63 ≤ i ∧ i < 2 ^ 63) :
    (getInt d.raw.text [name]).toOption =
      ((d.member? name).bind Document.integer?).map Int64.ofInt := by
  rw [getInt, get_member hd hname]
  cases hmember : d.member? name with
  | none => rfl
  | some v =>
    rw [hmember] at hfits
    cases v with
    | number n => exact Number.int64_text hfits
    | _ => rfl

theorem valueOf?_raw {d : Document} (hd : d.Distinct) (hreadable : FacetCount.Readable d) :
    FacetCount.valueOf? d.raw.text = ((d.member? "key_as_string").bind Document.string?).or
      ((d.member? "key").bind Document.shown?) := by
  have hstring := toOption_getString (get_member hd (by decide))
    (hreadable.2 "key_as_string" (by simp))
  rw [FacetCount.valueOf?, ← hstring, get_member hd (by decide)]
  cases getString d.raw.text ["key_as_string"] with
  | ok s => rfl
  | error e =>
    cases hkey : d.member? "key" with
    | none => rfl
    | some v =>
      cases v with
      | string s =>
        have hs : s.string?.isSome = true := hreadable.2 "key" (by simp) _ hkey
        rw [Option.bind_some, Document.shown?, ← map_unescape_text hs]
        show some (String.ofList ((unescape s.text).getD s.text)) = _
        rw [← map_unescape_text hs, Option.isSome_map] at hs
        obtain ⟨cs, hcs⟩ := Option.isSome_iff_exists.1 hs
        rw [hcs]
        rfl
      | _ => rfl

/-- A bucket that can be read is read as what it reports. -/
theorem ofBucket?_raw {d : Document} (hd : d.Distinct) (hreadable : FacetCount.Readable d) :
    FacetCount.ofBucket? d.raw.text = FacetCount.ofDocument? d := by
  rw [FacetCount.ofBucket?, FacetCount.ofDocument?, getInt_member hd (by decide) hreadable.1,
    valueOf?_raw hd hreadable]
  cases (d.member? "doc_count").bind Document.integer? <;> rfl

/-! ### Responses -/

mutual

/-- The answer to an aggregation has its shape. -/
def Mirrors : Aggregation → Document → Prop
  | .terms _ _ _, d => ∃ blank items, d.member? "buckets" = some (.array blank items)
  | .nested _ aggregations, d => MirrorsAll aggregations d

/-- The answers to aggregations stand under their names. -/
def MirrorsAll : List (String × Aggregation) → Document → Prop
  | [], _ => True
  | (name, a) :: more, d => (∃ e, d.member? name = some e ∧ Mirrors a e) ∧ MirrorsAll more d

end

/-- The buckets in the answer to a terms aggregation. -/
def bucketsOf (d : Document) : List (List Document) :=
  match d.member? "buckets" with
  | some (.array _ items) => [items.map (·.2.1)]
  | _ => []

mutual

/-- The buckets that the answer to an aggregation reports for each terms aggregation on a field. -/
def reported (field : String) : Aggregation → Document → List (List Document)
  | .terms f _ _, d => if f = field then bucketsOf d else []
  | .nested _ aggregations, d => reportedAll field aggregations d

def reportedAll (field : String) : List (String × Aggregation) → Document → List (List Document)
  | [], _ => []
  | (name, a) :: more, d =>
    (d.member? name).elim [] (reported field a) ++ reportedAll field more d

end

/-! ### Reading by paths -/

/-- A nested aggregation has no other nested in it. -/
def Shallow (aggregations : List (String × Aggregation)) : Prop :=
  ∀ name path parts, (name, Aggregation.nested path parts) ∈ aggregations →
    ∀ part ∈ parts, ∃ field size shardSize, part.2 = .terms field size shardSize

/-- What stands at a path, if it is the path of the field. -/
def picked (field : String) (d : Document) (entry : String × List String) : List (List Document) :=
  if entry.1 = field then (d.at? entry.2).elim [] bucketsOf else []

theorem facetPaths_cons (entry : String × Aggregation) (more : List (String × Aggregation)) :
    facetPaths (entry :: more) = facetPaths [entry] ++ facetPaths more := by
  rw [facetPaths, facetPaths, facetPaths, List.flatMap_cons, List.flatMap_singleton]

theorem facetPaths_inv {aggregations : List (String × Aggregation)} {field : String}
    {path : List String} (h : (field, path) ∈ facetPaths aggregations) :
    (∃ name size shardSize, (name, .terms field size shardSize) ∈ aggregations ∧ path = [name]) ∨
    ∃ name nestedPath parts part size shardSize, (name, .nested nestedPath parts) ∈ aggregations ∧
      (part, .terms field size shardSize) ∈ parts ∧ path = [name, part] := by
  obtain ⟨⟨name, a⟩, hmem, hpath⟩ := List.mem_flatMap.1 h
  cases a with
  | terms f size shardSize =>
    cases List.mem_singleton.1 hpath
    exact .inl ⟨name, size, shardSize, hmem, rfl⟩
  | nested nestedPath parts =>
    obtain ⟨⟨part, b⟩, hpart, hsome⟩ := List.mem_filterMap.1 hpath
    cases b with
    | terms f size shardSize =>
      cases hsome
      exact .inr ⟨name, nestedPath, parts, part, size, shardSize, hmem, hpart, rfl⟩
    | nested => cases hsome

theorem elim_reported_terms (field f : String) (size shardSize : Int) (d : Option Document) :
    d.elim [] (reported field (.terms f size shardSize)) =
      if f = field then d.elim [] bucketsOf else [] := by
  cases d with
  | none => simp
  | some d => rw [Option.elim_some, Option.elim_some, reported]

/-- The parts of a nested aggregation are found behind its name. -/
theorem reported_parts {field name path : String} {d e : Document}
    (he : d.member? name = some e) {parts : List (String × Aggregation)}
    (hparts : ∀ part ∈ parts, ∃ f size shardSize, part.2 = .terms f size shardSize) :
    reportedAll field parts e =
      (facetPaths [(name, .nested path parts)]).flatMap (picked field d) := by
  induction parts with
  | nil => rfl
  | cons part parts ih =>
    obtain ⟨part, a⟩ := part
    obtain ⟨f, size, shardSize, rfl⟩ := hparts _ List.mem_cons_self
    have hpaths : facetPaths [(name, .nested path ((part, .terms f size shardSize) :: parts))] =
        (f, [name, part]) :: facetPaths [(name, .nested path parts)] := by
      simp [facetPaths]
    have hat : d.at? [name, part] = e.member? part := by
      rw [Document.at?, he, Option.bind_some, Document.at?_singleton]
    rw [reportedAll, elim_reported_terms, hpaths, List.flatMap_cons, picked, hat,
      ih fun part hpart => hparts part (List.mem_cons_of_mem _ hpart)]

/-- Going through the aggregations comes to the same as reading by their paths. -/
theorem reportedAll_eq {field : String} {aggregations : List (String × Aggregation)} {d : Document}
    (hshallow : Shallow aggregations) :
    reportedAll field aggregations d = (facetPaths aggregations).flatMap (picked field d) := by
  induction aggregations with
  | nil => rfl
  | cons entry more ih =>
    obtain ⟨name, a⟩ := entry
    have hfirst : (d.member? name).elim [] (reported field a) =
        (facetPaths [(name, a)]).flatMap (picked field d) := by
      cases a with
      | terms f size shardSize =>
        have hpaths : facetPaths [(name, .terms f size shardSize)] = [(f, [name])] := rfl
        rw [elim_reported_terms, hpaths, List.flatMap_singleton, picked, Document.at?_singleton]
      | nested path parts =>
        cases he : d.member? name with
        | some e =>
          rw [← reported_parts he (hshallow name path parts List.mem_cons_self), Option.elim_some,
            reported]
        | none =>
          symm
          rw [Option.elim_none, List.flatMap_eq_nil_iff]
          rintro ⟨f, names⟩ hentry
          have hat : d.at? names = none := by
            rcases facetPaths_inv hentry with ⟨_, _, _, hmem, rfl⟩ |
              ⟨_, _, _, part, _, _, hmem, -, rfl⟩
            · cases List.mem_singleton.1 hmem
            · cases List.mem_singleton.1 hmem
              rw [Document.at?, he, Option.bind_none]
          rw [picked, hat, Option.elim_none, ite_self]
    rw [reportedAll, hfirst, facetPaths_cons (name, a) more, List.flatMap_append,
      ih fun name path parts hmem => hshallow name path parts (List.mem_cons_of_mem _ hmem)]

theorem MirrorsAll.exists_of_mem {aggregations : List (String × Aggregation)} {d : Document}
    (h : MirrorsAll aggregations d) {name : String} {a : Aggregation}
    (hmem : (name, a) ∈ aggregations) : ∃ e, d.member? name = some e ∧ Mirrors a e := by
  induction aggregations with
  | nil => cases hmem
  | cons entry more ih =>
    obtain ⟨name', a'⟩ := entry
    rw [MirrorsAll] at h
    rcases List.mem_cons.1 hmem with heq | hmem
    · cases heq
      exact h.1
    · exact ih h.2 hmem

/-- In a response of the right shape every path leads to buckets. -/
theorem MirrorsAll.exists_buckets {aggregations : List (String × Aggregation)} {d : Document}
    (h : MirrorsAll aggregations d) {field : String} {path : List String}
    (hpath : (field, path) ∈ facetPaths aggregations) :
    ∃ e blank items, d.at? path = some e ∧ e.member? "buckets" = some (.array blank items) := by
  rcases facetPaths_inv hpath with ⟨name, size, shardSize, hmem, rfl⟩ |
    ⟨name, nestedPath, parts, part, size, shardSize, hmem, hpart, rfl⟩
  · obtain ⟨e, he, hmirrors⟩ := h.exists_of_mem hmem
    rw [Mirrors] at hmirrors
    obtain ⟨blank, items, hbuckets⟩ := hmirrors
    exact ⟨e, blank, items, (Document.at?_singleton name d).trans he, hbuckets⟩
  · obtain ⟨e, he, hmirrors⟩ := h.exists_of_mem hmem
    rw [Mirrors] at hmirrors
    obtain ⟨e', he', hmirrors'⟩ := hmirrors.exists_of_mem hpart
    rw [Mirrors] at hmirrors'
    obtain ⟨blank, items, hbuckets⟩ := hmirrors'
    refine ⟨e', blank, items, ?_, hbuckets⟩
    rw [Document.at?, he, Option.bind_some, Document.at?_singleton, he']

/-! ### Facets of a compiled request -/

section paths

variable {paths : List (String × List String)} {field : String} {path : List String}

/-- The one path of a field. -/
theorem exists_split_of_nodup (hnodup : (paths.map (·.1)).Nodup) (hmem : (field, path) ∈ paths) :
    ∃ first last, paths = first ++ (field, path) :: last ∧
      (∀ entry ∈ first, entry.1 ≠ field) ∧ ∀ entry ∈ last, entry.1 ≠ field := by
  obtain ⟨first, last, rfl⟩ := List.append_of_mem hmem
  rw [List.map_append, List.map_cons, List.nodup_middle, List.nodup_cons, List.mem_append,
    not_or] at hnodup
  refine ⟨first, last, rfl, fun entry hentry heq => ?_, fun entry hentry heq => ?_⟩
  · exact hnodup.1.1 (List.mem_map.2 ⟨entry, hentry, heq⟩)
  · exact hnodup.1.2 (List.mem_map.2 ⟨entry, hentry, heq⟩)

theorem facetPath?_eq (hnodup : (paths.map (·.1)).Nodup) (hmem : (field, path) ∈ paths) :
    facetPath? paths field = some path := by
  obtain ⟨first, last, rfl, -, hlast⟩ := exists_split_of_nodup hnodup hmem
  rw [facetPath?, List.lookup_eq_some_iff]
  refine ⟨last.reverse, first.reverse, by simp, fun entry hentry => ?_⟩
  rw [bne_iff_ne]
  exact (hlast entry (List.mem_reverse.1 hentry)).symm

theorem flatMap_picked (hnodup : (paths.map (·.1)).Nodup) (hmem : (field, path) ∈ paths)
    (d : Document) : paths.flatMap (picked field d) = (d.at? path).elim [] bucketsOf := by
  have hnone : ∀ {entries : List (String × List String)}, (∀ entry ∈ entries, entry.1 ≠ field) →
      entries.flatMap (picked field d) = [] := by
    intro entries hentries
    rw [List.flatMap_eq_nil_iff]
    intro entry hentry
    rw [picked, if_neg (hentries entry hentry)]
  obtain ⟨first, last, rfl, hfirst, hlast⟩ := exists_split_of_nodup hnodup hmem
  rw [List.flatMap_append, List.flatMap_cons, hnone hfirst, hnone hlast, picked, if_pos rfl,
    List.nil_append, List.append_nil]

end paths

/-- The counts at a path that leads to buckets. -/
theorem facetCounts_text {d : Document} (hd : d.Distinct) {path : List String}
    (hplain : Plain path) {e : Document} (he : d.at? path = some e) {blank : Blank}
    {items : List (Blank × Document × Blank)}
    (hbuckets : e.member? "buckets" = some (.array blank items)) :
    facetCounts d.text path =
      (items.map (·.2.1)).filterMap (fun bucket => FacetCount.ofBucket? bucket.raw.text) := by
  have hat : d.at? (path ++ ["buckets"]) = some (.array blank items) := by
    rw [Document.at?_append, he, Option.bind_some, Document.at?_singleton, hbuckets]
  have hplain' : Plain (path ++ ["buckets"]) := by
    intro key hkey
    rcases List.mem_append.1 hkey with hkey | hkey
    · exact hplain key hkey
    · cases List.mem_singleton.1 hkey
      decide
  have harray := getArray_text hplain' (by simp) hd noBlank noBlank hat
  rw [noBlank, List.nil_append, List.append_nil] at harray
  have hne : d.text ≠ [] := by
    obtain ⟨c, cs, htext, -⟩ := d.exists_text_eq
    simp [htext]
  rw [facetCounts, if_neg hne, harray, List.filterMap_map, List.filterMap_map]
  rfl

theorem shallow_aggregations (m : Index.Metadata) (families : List Query.Facets.Family)
    (size : Int) : Shallow (families.map (Query.Facets.aggregation m size)) := by
  intro name path parts hmem part hpart
  obtain ⟨family, -, hfamily⟩ := List.mem_map.1 hmem
  unfold Query.Facets.aggregation at hfamily
  dsimp only at hfamily
  split at hfamily
  · cases hfamily
    obtain ⟨field, -, rfl⟩ := List.mem_map.1 hpart
    exact ⟨field, size, m.shards, rfl⟩
  · cases hfamily

/-- The names of a path are names of fields, and these never start with a bracket. -/
theorem plain_of_mem_facetPaths {m : Index.Metadata} {families : List Query.Facets.Family}
    (h : Query.Facets.Grouped m families) {size : Int} {field : String} {path : List String}
    (hmem : (field, path) ∈ facetPaths (families.map (Query.Facets.aggregation m size))) :
    Plain path := by
  rw [Query.Facets.facetPaths_eq h] at hmem
  obtain ⟨family, hfamily, hmem⟩ := List.mem_flatMap.1 hmem
  obtain ⟨name, hname, hentry⟩ := List.mem_map.1 hmem
  cases hentry
  obtain ⟨f, hf, rfl, hfirst⟩ := h.named family hfamily field hname
  have hhead : ∀ {s : List Char}, (∀ c ∈ s, Filter.isPathPart c = true) → s.head? ≠ some '[' := by
    intro s hs hhead
    have := hs '[' (List.mem_of_mem_head? hhead)
    revert this
    decide
  have hnamePlain : f.name.toList.head? ≠ some '[' := hhead hf.isPathPart
  have hfirstPlain : family.1.toList.head? ≠ some '[' := by
    obtain ⟨p, ps, hpath⟩ := List.exists_cons_of_ne_nil hf.1
    have hp : family.1 = p := by rw [← hfirst, Filter.Field.first, hpath]; rfl
    rw [hp]
    apply hhead
    intro c hc
    have hpart := Filter.isNamePart_of_isName (hf.2.1 p (hpath ▸ List.mem_cons_self)) c hc
    simp [Filter.isPathPart, hpart]
  intro key hkey
  rw [Query.Facets.pathTo] at hkey
  split at hkey
  · rcases List.mem_cons.1 hkey with rfl | hkey
    · exact hfirstPlain
    · cases List.mem_singleton.1 hkey
      exact hnamePlain
  · cases List.mem_singleton.1 hkey
    exact hfirstPlain

/-- The facets of a response agree with those asked for: one for each field that an entry names, and
in it the counts of the buckets reported by the one terms aggregation on the field. A bucket is read
by itself, and one that is readable as what it reports. -/
theorem facets_compile {registry : Index.Registry} {r : SearchRequest} {out : Request}
    (hcompile : Query.compile registry r = .ok out) {response : Document}
    (hdistinct : response.Distinct) {blank : Blank} {members : List (Key × Document × Blank)}
    (hmember : response.member? "aggregations" = some (.object blank members))
    (hmirrors : MirrorsAll out.aggregations (.object blank members)) (before after : Blank) :
    ∃ text, objectAt? (before.1 ++ (response.text ++ after.1)) ["aggregations"] = some text ∧
      (facets out.aggregations text).map (·.1) =
        (NameSet.ofList ((Text.items r.facets).filterMap Query.Facets.fieldOf?)).toList ∧
      ∀ field counts, (field, counts) ∈ facets out.aggregations text →
        ∃ buckets read, reportedAll field out.aggregations (.object blank members) = [buckets] ∧
          counts = buckets.filterMap read ∧
          ∀ bucket ∈ buckets, FacetCount.Readable bucket →
            read bucket = FacetCount.ofDocument? bucket := by
  have hd := Document.distinct_of_member? hdistinct hmember
  have htext : objectAt? (before.1 ++ (response.text ++ after.1)) ["aggregations"] =
      some (Document.object blank members).text := by
    have hplain : Plain ["aggregations"] := by simp [Plain]
    rw [objectAt?, get_text hplain (by simp) hdistinct, Document.at?_singleton, hmember]
    rfl
  obtain ⟨m, -, hsearch⟩ := Query.compile_eq_ok_iff.1 hcompile
  obtain ⟨_, -, _, -, _, -, _, -, aggregations, hfacets, _, -, rfl⟩ :=
    Query.Compile.search_eq_ok_iff.1 hsearch
  obtain ⟨families, size, hgrouped, hnames, rfl⟩ :=
    Query.Facets.exists_grouped_of_facets hfacets
  have hkeys := Query.Facets.map_fst_facetPaths hgrouped size
  have hnodup : ((facetPaths (families.map (Query.Facets.aggregation m size))).map (·.1)).Nodup :=
    hkeys ▸ hgrouped.nodup_allNames
  refine ⟨_, htext, ?_, fun field counts hentry => ?_⟩
  · have hset : NameSet.ofList (Query.Facets.allNames families) =
        NameSet.ofList ((Text.items r.facets).filterMap Query.Facets.fieldOf?) := by
      apply NameSet.ext
      intro name
      rw [NameSet.mem_ofList, NameSet.mem_ofList, hnames]
    rw [facets, List.map_map, hkeys, hset]
    exact List.map_id' _
  · obtain ⟨name, hname, hentry⟩ := List.mem_map.1 hentry
    obtain ⟨rfl, rfl⟩ := Prod.mk.inj hentry
    obtain ⟨⟨field, path⟩, hpath, rfl⟩ := List.mem_map.1 (NameSet.mem_ofList.1 hname)
    obtain ⟨e, blank', items, hat, hbuckets⟩ := hmirrors.exists_buckets hpath
    refine ⟨items.map (·.2.1), fun bucket => FacetCount.ofBucket? bucket.raw.text, ?_, ?_,
      fun bucket hbucket hreadable => ?_⟩
    · rw [reportedAll_eq (shallow_aggregations m families size), flatMap_picked hnodup hpath, hat,
        Option.elim_some, bucketsOf, hbuckets]
    · rw [facetPath?_eq hnodup hpath, Option.getD_some]
      exact facetCounts_text hd (plain_of_mem_facetPaths hgrouped hpath) hat hbuckets
    · obtain ⟨item, hitem, rfl⟩ := List.mem_map.1 hbucket
      have harray := Document.distinct_of_member? (Document.distinct_of_at? hd hat) hbuckets
      exact ofBucket?_raw (Document.distinct_of_mem_items harray item hitem) hreadable

/-! ### A sample -/

def facetRequest : SearchRequest where
  index := "shop"
  facets := ["state, offer.kind", "offer.price,state"]

def facetAggregations : List (String × Aggregation) :=
  [("offer", .nested "offer" [("offer.kind", .terms "offer.kind" 20 1),
      ("offer.price", .terms "offer.price" 20 1)]),
    ("state", .terms "state" 20 1)]

theorem facets_facetRequest : Query.facets sampleIndex facetRequest.facetSize facetRequest.facets =
    .ok facetAggregations := by
  have hfamilies : Query.Facets.families sampleIndex [] (Text.items facetRequest.facets) =
      .ok [("state", ["state"]), ("offer", ["offer.kind", "offer.price"])] := by decide +kernel
  have hsorted : ([("state", ["state"]), ("offer", ["offer.kind", "offer.price"])] :
      List Query.Facets.Family).mergeSort (fun a b => a.1 ≤ b.1) =
      [("offer", ["offer.kind", "offer.price"]), ("state", ["state"])] := by
    simp [List.mergeSort, List.MergeSort.Internal.splitInTwo]
  rw [Query.facets, hfamilies]
  show Except.ok (List.map (Query.Facets.aggregation sampleIndex 20) _) = _
  rw [hsorted]
  rfl

/-- Characters as they are, those left out that would have to be escaped. -/
def plainLiteral (s : String) : Literal :=
  s.toList.filterMap fun c => if h : c ≠ '"' ∧ c ≠ '\\' then some (.plain c h) else none

theorem isLone_plainLiteral (s : String) : (plainLiteral s).any Symbol.isLone = false := by
  rw [List.any_eq_false]
  intro c hc
  obtain ⟨c, -, hsome⟩ := List.mem_filterMap.1 hc
  split at hsome
  · cases hsome
    exact Bool.false_ne_true
  · cases hsome

def spaced : Blank := ⟨[' ', '\n'], List.all_eq_true.1 rfl⟩

def sampleMember (name : String) (d : Document) : Key × Document × Blank :=
  (⟨spaced, plainLiteral name, isLone_plainLiteral name, noBlank, spaced⟩, d, noBlank)

def sampleObject (members : List (String × Document)) : Document :=
  .object spaced (members.map fun (name, d) => sampleMember name d)

def sampleBuckets (buckets : List Document) : Document :=
  sampleObject [("buckets", .array spaced (buckets.map (noBlank, ·, spaced)))]

def sampleCount : Document :=
  .number ⟨false, ⟨['4'], by simp, List.all_eq_true.1 rfl⟩, none, none, by decide⟩

/-- Answers with the given buckets under `offer.kind` and under `state`. -/
def sampleAnswers (kinds states : List Document) : List (Key × Document × Blank) :=
  [sampleMember "offer" (sampleObject
      [("doc_count", sampleCount), ("offer.kind", sampleBuckets kinds),
        ("offer.price", sampleBuckets [])]),
    sampleMember "state" (sampleBuckets states)]

def sampleResponse (kinds states : List Document) : Document :=
  sampleObject [("took", sampleCount),
    ("aggregations", .object spaced (sampleAnswers kinds states))]

theorem mirrorsAll_sampleAnswers (kinds states : List Document) :
    MirrorsAll facetAggregations (.object spaced (sampleAnswers kinds states)) := by
  simp only [facetAggregations, MirrorsAll, Mirrors]
  exact ⟨⟨_, rfl, ⟨_, rfl, _, _, rfl⟩, ⟨_, rfl, _, _, rfl⟩, trivial⟩, ⟨_, rfl, _, _, rfl⟩, trivial⟩

theorem exists_compile_facetRequest : ∃ out,
    Query.compile Query.sampleRegistry facetRequest = .ok out ∧
      out.aggregations = facetAggregations := by
  have hsource : Query.Compile.source sampleIndex facetRequest.includeFields
      facetRequest.excludeFields = .ok {} := by cbv
  exact ⟨_, Query.compile_eq_ok_iff.2 ⟨sampleIndex, rfl, Query.Compile.search_eq_ok_iff.2
    ⟨20, rfl, "", rfl, {}, rfl, [], rfl, _, facets_facetRequest, _, hsource, rfl⟩⟩, rfl⟩

/-- The first is without a key. -/
def kindBuckets : List Document :=
  [sampleObject [("key", .null), ("doc_count", sampleCount)],
    sampleObject [("key", .string (.escape .tab :: plainLiteral "b")), ("doc_count", sampleCount)]]

/-- The key comes in a readable form too. -/
def stateBuckets : List Document :=
  [sampleObject [("doc_count", sampleCount), ("key", sampleCount),
    ("key_as_string", .string (plainLiteral "new"))]]

theorem distinct_sampleResponse : (sampleResponse kindBuckets stateBuckets).Distinct := by
  simp only [sampleResponse, sampleAnswers, kindBuckets, stateBuckets, sampleBuckets, sampleObject,
    sampleCount, sampleMember, List.map_cons, List.map_nil, Document.Distinct,
    Document.MembersDistinct, Document.ItemsDistinct]
  decide

theorem eq_map_of_forall {α β : Type} {entries : List (α × β)} {f : α → β}
    (h : ∀ a b, (a, b) ∈ entries → b = f a) :
    entries = (entries.map (·.1)).map fun a => (a, f a) := by
  rw [List.map_map]
  conv_lhs => rw [← List.map_id entries]
  apply List.map_congr_left
  rintro ⟨a, b⟩ hmem
  cases h a b hmem
  rfl

/-- The sample asks for three fields in four entries. -/
theorem facets_compile_sample :
    ∃ out text, Query.compile Query.sampleRegistry facetRequest = .ok out ∧
      (sampleResponse kindBuckets stateBuckets).Distinct ∧
      MirrorsAll out.aggregations (.object spaced (sampleAnswers kindBuckets stateBuckets)) ∧
      objectAt? (spaced.1 ++ ((sampleResponse kindBuckets stateBuckets).text ++ noBlank.1))
        ["aggregations"] = some text ∧
      facets out.aggregations text =
        [("offer.kind", [⟨"\tb", 4⟩]), ("offer.price", []), ("state", [⟨"new", 4⟩])] := by
  obtain ⟨out, hout, haggregations⟩ := exists_compile_facetRequest
  have hmirrors := haggregations ▸ mirrorsAll_sampleAnswers kindBuckets stateBuckets
  obtain ⟨text, htext, hkeys, hcounts⟩ :=
    facets_compile hout distinct_sampleResponse rfl hmirrors spaced noBlank
  have hnames : (NameSet.ofList ((Text.items facetRequest.facets).filterMap
      Query.Facets.fieldOf?)).toList = ["offer.kind", "offer.price", "state"] := by decide +kernel
  have hreadable : ∀ field ∈ ["offer.kind", "offer.price", "state"],
      ∀ bucket ∈ (reportedAll field facetAggregations (.object spaced
        (sampleAnswers kindBuckets stateBuckets))).flatten, FacetCount.Readable bucket := by
    simp only [List.forall_mem_cons, reportedAll, reported, facetAggregations]
    decide +kernel
  have hall : facets out.aggregations text = ((facets out.aggregations text).map (·.1)).map
      fun field => (field, (reportedAll field facetAggregations (.object spaced
        (sampleAnswers kindBuckets stateBuckets))).flatten.filterMap FacetCount.ofDocument?) := by
    apply eq_map_of_forall
    intro field counts hmem
    obtain ⟨buckets, read, hbuckets, rfl, hread⟩ := hcounts field counts hmem
    have hfield : field ∈ ["offer.kind", "offer.price", "state"] :=
      hnames ▸ hkeys ▸ List.mem_map_of_mem (f := Prod.fst) hmem
    have hfieldReadable := hreadable field hfield
    rw [← haggregations, hbuckets, List.flatten_singleton] at hfieldReadable ⊢
    exact List.filterMap_congr fun bucket hbucket =>
      hread bucket hbucket (hfieldReadable bucket hbucket)
  rw [hkeys, hnames] at hall
  refine ⟨out, text, hout, distinct_sampleResponse, hmirrors, htext, hall.trans ?_⟩
  simp only [List.map_cons, List.map_nil, reportedAll, reported, facetAggregations]
  decide +kernel

/-- Two buckets with counts beyond 64 bits, and one that is named by half of a pair. -/
def unreadableBuckets : List Document :=
  [sampleObject [("key", .string (plainLiteral "new")), ("doc_count", .number
      ⟨false, ⟨"25000000000000000000".toList, by decide, List.all_eq_true.1 rfl⟩, none, none,
        by decide⟩)],
    sampleObject [("key", .string (plainLiteral "old")), ("doc_count", .number
      ⟨false, ⟨"9223372036854775808".toList, by decide, List.all_eq_true.1 rfl⟩, none, none,
        by decide⟩)],
    sampleObject [("key", .null), ("doc_count", sampleCount), ("key_as_string", .string
      [.lone ⟨"d800".toList, rfl, List.all_eq_true.1 rfl⟩ (by decide)])]]

/-- What a facet cannot hold is lost: each of the buckets has an integer count and a string that
names it, but two are left out, and the other is there with what is left of its count. -/
theorem facets_unreadable :
    ∃ out text, Query.compile Query.sampleRegistry facetRequest = .ok out ∧
      (sampleResponse [] unreadableBuckets).Distinct ∧
      MirrorsAll out.aggregations (.object spaced (sampleAnswers [] unreadableBuckets)) ∧
      objectAt? (sampleResponse [] unreadableBuckets).text ["aggregations"] = some text ∧
      reportedAll "state" out.aggregations (.object spaced (sampleAnswers [] unreadableBuckets)) =
        [unreadableBuckets] ∧
      unreadableBuckets.map (fun bucket => ((bucket.member? "doc_count").bind Document.integer?,
          ((bucket.member? "key_as_string").or (bucket.member? "key")).map Document.kind)) =
        [(some 25000000000000000000, some .string), (some 9223372036854775808, some .string),
          (some 4, some .string)] ∧
      facets out.aggregations text = [("offer.kind", []), ("offer.price", []),
        ("state", [⟨"new", 6553255926290448384⟩])] := by
  obtain ⟨out, hout, haggregations⟩ := exists_compile_facetRequest
  refine ⟨out, (Document.object spaced (sampleAnswers [] unreadableBuckets)).text, hout, ?_,
    haggregations ▸ mirrorsAll_sampleAnswers [] unreadableBuckets, by decide +kernel, ?_, ?_, ?_⟩
  · simp only [sampleResponse, sampleAnswers, unreadableBuckets, sampleBuckets, sampleObject,
      sampleCount, sampleMember, List.map_cons, List.map_nil, Document.Distinct,
      Document.MembersDistinct, Document.ItemsDistinct]
    decide
  · rw [haggregations]
    rfl
  · decide +kernel
  · rw [haggregations]
    decide +kernel

end Backend

end SearchGateway
