import Mathlib.Data.Set.Basic
import SearchGateway.Proofs.Outcome
import SearchGateway.Proofs.Text.Items
import SearchGateway.Proofs.Text.NameSet
import SearchGateway.Query.Compile

/-!
# Selecting source fields

The source fields of a request are two sets: what is wanted, by the index or by the request, and
what either of them does not want. What is wanted takes precedence. Both are kept as ascending
lists, so a selection is known by the members of the two sets (`source_eq_ok_iff`), and how the
lists of the request are written does not matter (`asked_eq_of_repacked`). Of several unknown fields
the smallest by its bytes is reported, one that is wanted before any other (`smallest_of_source`).
-/

namespace SearchGateway

open SearchGateway.Index (Metadata)

/-! ### Names asked for -/

namespace Text

/-- The names that a list option asks for, between its commas and without the blanks around them. -/
def asked (entries : List String) : Set String :=
  {f | ∃ e ∈ entries, ∃ part ∈ split ',' e, isBlankText part = false ∧ trim part = f}

theorem mem_items_iff {entries : List String} {f : String} :
    f ∈ items entries ↔ f ∈ asked entries := by
  simp only [items_eq, asked, List.mem_filter, List.mem_map, List.mem_flatMap, decide_eq_true_eq,
    Set.mem_ofPred_eq]
  constructor
  · rintro ⟨⟨part, ⟨e, he, hpart⟩, rfl⟩, hne⟩
    exact ⟨e, he, part, hpart, Bool.eq_false_iff.2 (mt trim_eq_empty_iff.2 hne), rfl⟩
  · rintro ⟨e, he, part, hpart, hblank, rfl⟩
    exact ⟨⟨part, ⟨e, he, hpart⟩, rfl⟩, mt trim_eq_empty_iff.1 (Bool.eq_false_iff.1 hblank)⟩

/-- Two ways to write a list option: in another order, with entries repeated, or with several
entries packed into one. -/
inductive Repacked : List String → List String → Prop where
  | reorder {l l' : List String} : l.Perm l' → Repacked l l'
  | again {e : String} {l : List String} : e ∈ l → Repacked l (e :: l)
  | pack {es : List String} (l : List String) : es ≠ [] → Repacked (es ++ l) (join "," es :: l)
  | symm {l l' : List String} : Repacked l l' → Repacked l' l
  | trans {l l' l'' : List String} : Repacked l l' → Repacked l' l'' → Repacked l l''

theorem mem_asked_cons {e f : String} {l : List String} :
    f ∈ asked (e :: l) ↔ f ∈ asked [e] ∨ f ∈ asked l := by
  simp [asked]

theorem asked_eq_of_repacked {l l' : List String} (h : Repacked l l') : asked l = asked l' := by
  induction h with
  | reorder hperm =>
    ext f
    simp only [asked, Set.mem_ofPred_eq, hperm.mem_iff]
  | @again e l he =>
    ext f
    rw [mem_asked_cons, or_iff_right_of_imp]
    rintro ⟨e', he', hpart⟩
    rw [List.mem_singleton.1 he'] at hpart
    exact ⟨e, he, hpart⟩
  | @pack es l hne =>
    ext f
    rw [← mem_items_iff, ← mem_items_iff, items_eq, items_eq, List.flatMap_append,
      List.flatMap_cons, split_join hne]
  | symm _ ih => exact ih.symm
  | trans _ _ ih ih' => exact ih.trans ih'

theorem byteOrder_trans {a b c : String} (hab : le a b = true) (hbc : le b c = true) :
    le a c = true :=
  decide_eq_true (List.le_trans (of_decide_eq_true hab) (of_decide_eq_true hbc))

theorem byteOrder_total (a b : String) : (le a b || le b a) = true := by
  simpa [le] using List.le_total (bytes a.toList) (bytes b.toList)

/-- A member that comes before all others by its bytes. -/
def Smallest (s : Set String) (f : String) : Prop := f ∈ s ∧ ∀ g ∈ s, le f g = true

theorem smallest_head? {l : List String} {f : String} (h : (l.mergeSort le).head? = some f) :
    Smallest {g | g ∈ l} f := by
  have hsorted :=
    @List.pairwise_mergeSort String le (fun _ _ _ => byteOrder_trans) byteOrder_total l
  have hperm := List.mergeSort_perm l le
  obtain ⟨more, hcons⟩ := List.head?_eq_some_iff.1 h
  rw [hcons] at hsorted hperm
  refine ⟨hperm.mem_iff.1 List.mem_cons_self, fun g hg => ?_⟩
  rcases List.mem_cons.1 (hperm.mem_iff.2 hg) with rfl | hg
  · simpa using byteOrder_total g g
  · exact (List.pairwise_cons.1 hsorted).1 g hg

end Text

open SearchGateway.Text

namespace Query.Compile

variable (m : Metadata) (includes excludes : List String)

/-- The fields that the index or the request includes. -/
def wanted : Set String := {f | f ∈ m.sourceIncludes} ∪ asked includes

/-- The fields that the request or the index excludes. -/
def unwanted : Set String := asked excludes ∪ {f | f ∈ m.sourceExcludes}

/-- The members of a set that are no fields of the index. -/
def unknownIn (s : Set String) : Set String := {f | f ∈ s ∧ m.hasField f = false}

def includeSet : NameSet := (NameSet.ofList m.sourceIncludes).insertMany (items includes)

def excludeSet : NameSet := (NameSet.ofList (items excludes)).insertMany m.sourceExcludes

variable {m includes excludes}

theorem mem_includeSet {f : String} : f ∈ includeSet m includes ↔ f ∈ wanted m includes := by
  rw [includeSet, NameSet.mem_insertMany, NameSet.mem_ofList, mem_items_iff]
  rfl

theorem mem_excludeSet {f : String} : f ∈ excludeSet m excludes ↔ f ∈ unwanted m excludes := by
  rw [excludeSet, NameSet.mem_insertMany, NameSet.mem_ofList, mem_items_iff]
  rfl

variable (m) in
/-- The unknown names of a set, the smallest first. -/
def unknownNames (s : NameSet) : List String :=
  (s.toList.filter fun f => !m.hasField f).mergeSort Text.le

theorem mem_unknownNames {s : NameSet} {f : String} :
    f ∈ unknownNames m s ↔ f ∈ s ∧ m.hasField f = false := by
  rw [unknownNames, List.mem_mergeSort, List.mem_filter, Bool.not_eq_true']
  rfl

theorem unknownNames_eq_nil_iff {s : NameSet} :
    unknownNames m s = [] ↔ ∀ f ∈ s, m.hasField f = true := by
  simp [List.eq_nil_iff_forall_not_mem, mem_unknownNames]

theorem smallest_of_head? {s : NameSet} {t : Set String} (hst : ∀ f, f ∈ s ↔ f ∈ t) {f : String}
    (h : (unknownNames m s).head? = some f) : Smallest (unknownIn m t) f := by
  have hmem (g : String) : g ∈ s.toList.filter (fun f => !m.hasField f) ↔ g ∈ unknownIn m t := by
    rw [← List.mem_mergeSort, ← unknownNames, mem_unknownNames, hst]
    rfl
  obtain ⟨hf, hleast⟩ := smallest_head? h
  exact ⟨(hmem f).1 hf, fun g hg => hleast g ((hmem g).2 hg)⟩

/-- The unknown names of both sets, in the order in which they are looked at. -/
theorem source_eq (m : Metadata) (includes excludes : List String) :
    source m includes excludes =
      ((unknownNames m (includeSet m includes) ++
        unknownNames m (excludeSet m excludes)).head?).elim
        (.ok ⟨(includeSet m includes).toList,
          ((excludeSet m excludes).eraseMany (includeSet m includes).toList).toList⟩)
        fun f => .error (.sourceField f m.name) := by
  rw [source]
  dsimp only
  rw [← includeSet, ← excludeSet, ← unknownNames, ← unknownNames]
  cases List.head? _ <;> rfl

/-- A selection is made if all fields are known, and consists of the two sets. -/
theorem source_eq_ok_iff {s : SourceFilter} :
    source m includes excludes = .ok s ↔
      (∀ f ∈ wanted m includes ∪ unwanted m excludes, m.hasField f = true) ∧
      s = ⟨(includeSet m includes).toList,
        ((excludeSet m excludes).eraseMany (includeSet m includes).toList).toList⟩ := by
  have hknown : (∀ f ∈ wanted m includes ∪ unwanted m excludes, m.hasField f = true) ↔
      (unknownNames m (includeSet m includes) ++
        unknownNames m (excludeSet m excludes)).head? = none := by
    rw [List.head?_eq_none_iff, List.append_eq_nil_iff, unknownNames_eq_nil_iff,
      unknownNames_eq_nil_iff]
    simp only [mem_includeSet, mem_excludeSet, Set.mem_union, or_imp, forall_and]
  rw [hknown, source_eq]
  cases List.head? _ with
  | some f => simp
  | none => simp [eq_comm]

/-- The smallest unknown field is reported, and one that is not wanted only if no other is. -/
theorem smallest_of_source {e : Fault} (h : source m includes excludes = .error e) :
    ∃ f, e = .sourceField f m.name ∧
      (Smallest (unknownIn m (wanted m includes)) f ∨
        unknownIn m (wanted m includes) = ∅ ∧ Smallest (unknownIn m (unwanted m excludes)) f) := by
  rw [source_eq] at h
  cases hhead : (unknownNames m (includeSet m includes) ++
      unknownNames m (excludeSet m excludes)).head? with
  | none =>
    rw [hhead] at h
    cases h
  | some f =>
    rw [hhead] at h
    cases h
    refine ⟨f, rfl, ?_⟩
    cases hinc : unknownNames m (includeSet m includes) with
    | cons g more =>
      rw [hinc] at hhead
      cases hhead
      exact .inl (smallest_of_head? (fun _ => mem_includeSet) (by rw [hinc]; rfl))
    | nil =>
      rw [hinc, List.nil_append] at hhead
      refine .inr ⟨Set.eq_empty_of_forall_notMem fun g hg => ?_,
        smallest_of_head? (fun _ => mem_excludeSet) hhead⟩
      have hknown := unknownNames_eq_nil_iff.1 hinc g (mem_includeSet.2 hg.1)
      exact Bool.noConfusion (hknown.symm.trans hg.2)

/-- The lists of a request count by the names they ask for. -/
theorem source_congr {includes' excludes' : List String}
    (hincludes : asked includes = asked includes') (hexcludes : asked excludes = asked excludes') :
    source m includes excludes = source m includes' excludes' := by
  have hinc : includeSet m includes = includeSet m includes' :=
    NameSet.ext fun f => by rw [mem_includeSet, mem_includeSet, wanted, wanted, hincludes]
  have hexc : excludeSet m excludes = excludeSet m excludes' :=
    NameSet.ext fun f => by rw [mem_excludeSet, mem_excludeSet, unwanted, unwanted, hexcludes]
  rw [source_eq, source_eq, hinc, hexc]

/-- The selection of source fields, by the sets of what is wanted and what is not. -/
theorem source_set_algebra (m : Metadata) (includes excludes : List String) :
    ((∃ e, source m includes excludes = .error e) ↔
      ∃ f ∈ wanted m includes ∪ unwanted m excludes, m.hasField f = false) ∧
    (∀ e, source m includes excludes = .error e → ∃ f, e = .sourceField f m.name ∧
      (Smallest (unknownIn m (wanted m includes)) f ∨
        unknownIn m (wanted m includes) = ∅ ∧ Smallest (unknownIn m (unwanted m excludes)) f)) ∧
    (∀ s, source m includes excludes = .ok s →
      s.includes.Pairwise (· < ·) ∧ s.excludes.Pairwise (· < ·) ∧
      {f | f ∈ s.includes} = wanted m includes ∧
      {f | f ∈ s.excludes} = unwanted m excludes \ wanted m includes ∧
      s.includes.Disjoint s.excludes) ∧
    ∀ includes' excludes', Repacked includes includes' → Repacked excludes excludes' →
      source m includes' excludes' = source m includes excludes := by
  refine ⟨?_, fun e => smallest_of_source, fun s hs => ?_, fun includes' excludes' hinc hexc => ?_⟩
  · rw [exists_error_iff]
    simp [source_eq_ok_iff]
  · obtain ⟨-, rfl⟩ := source_eq_ok_iff.1 hs
    have hexcludes (f : String) : f ∈ ((excludeSet m excludes).eraseMany
        (includeSet m includes).toList) ↔ f ∈ unwanted m excludes ∧ f ∉ wanted m includes := by
      rw [NameSet.mem_eraseMany, mem_excludeSet]
      exact and_congr_right fun _ => not_congr mem_includeSet
    refine ⟨NameSet.ascending _, NameSet.ascending _, ?_, ?_, ?_⟩
    · exact Set.ext fun f => mem_includeSet
    · exact Set.ext hexcludes
    · exact fun f hf hf' => ((hexcludes f).1 hf').2 (mem_includeSet.1 hf)
  · exact source_congr (asked_eq_of_repacked hinc).symm (asked_eq_of_repacked hexc).symm

/-- An index of books, which shows their titles and not their notes. -/
def booksIndex : Metadata where
  name := "books"
  idField := "id"
  shards := 1
  defaultSize := 20
  maxSize := 200
  facetSize := 20
  minimumShouldMatch := "75%"
  defaultFields := []
  sourceIncludes := ["title"]
  sourceExcludes := ["notes"]
  queryTimeout := 0
  fields := [("title", .text), ("notes", .text), ("price", .other)]

/-- Lists that overlap with each other and with those of the index, in two ways, and fields that are
not known in both lists. -/
theorem source_set_algebra_books :
    let s : SourceFilter := ⟨["notes", "price", "title"], ["id"]⟩
    (source booksIndex ["price , notes"] ["title", "id,price"] = .ok s ∧
      source booksIndex [" notes", "price "] ["title", "id,price"] = .ok s ∧
      {f | f ∈ s.includes} = wanted booksIndex ["price , notes"] ∧
      {f | f ∈ s.excludes} =
        unwanted booksIndex ["title", "id,price"] \ wanted booksIndex ["price , notes"]) ∧
    source booksIndex ["price", "zone,area"] ["aisle"] = .error (.sourceField "area" "books") ∧
      Smallest (unknownIn booksIndex (wanted booksIndex ["price", "zone,area"])) "area" := by
  intro s
  refine ⟨?_, ?_⟩
  · have hknown : (unknownNames booksIndex (includeSet booksIndex ["price , notes"]) ++
        unknownNames booksIndex (excludeSet booksIndex ["title", "id,price"])).head? = none := by
      decide +kernel
    have hlists : (⟨(includeSet booksIndex ["price , notes"]).toList,
        ((excludeSet booksIndex ["title", "id,price"]).eraseMany
          (includeSet booksIndex ["price , notes"]).toList).toList⟩ : SourceFilter) = s := by
      decide +kernel
    have hs : source booksIndex ["price , notes"] ["title", "id,price"] = .ok s := by
      rw [source_eq, hknown, hlists]
      rfl
    obtain ⟨-, -, hok, hrepacked⟩ :=
      source_set_algebra booksIndex ["price , notes"] ["title", "id,price"]
    obtain ⟨-, -, hincludes, hexcludes, -⟩ := hok s hs
    have hpacked : Repacked ["price , notes"] [" notes", "price "] :=
      .symm (.trans (.reorder (.swap ..)) (.pack [] (List.cons_ne_nil "price " [" notes"])))
    have hsame := hrepacked _ _ hpacked (.reorder (.refl _))
    exact ⟨hs, hsame.trans hs, hincludes, hexcludes⟩
  · have hitems : items ["price", "zone,area"] = ["price", "zone", "area"] := by decide +kernel
    have harea : "area" ∈ unknownIn booksIndex (wanted booksIndex ["price", "zone,area"]) :=
      ⟨.inr (mem_items_iff.1 (by rw [hitems]; decide)), by decide +kernel⟩
    obtain ⟨hfails, herror, -, -⟩ := source_set_algebra booksIndex ["price", "zone,area"] ["aisle"]
    obtain ⟨e, he⟩ := hfails.2 ⟨"area", .inl harea.1, harea.2⟩
    obtain ⟨f, rfl, hsmallest | ⟨hnone, -⟩⟩ := herror e he
    · -- Of the two that are not known, the other one comes after it.
      have hf : f = "area" := by
        have hknown : ∀ g ∈ ["title", "price", "zone", "area"], booksIndex.hasField g = false →
            le g "area" = true → g = "area" := by decide +kernel
        refine hknown f ?_ hsmallest.1.2 (hsmallest.2 "area" harea)
        rcases hsmallest.1.1 with hindex | hasked
        · exact List.mem_cons.2 (.inl (List.mem_singleton.1 hindex))
        · exact List.mem_cons_of_mem _ (hitems ▸ mem_items_iff.2 hasked)
      subst hf
      exact ⟨he, hsmallest⟩
    · exact absurd harea (hnone ▸ Set.notMem_empty _)

end Query.Compile

end SearchGateway
