import SearchGateway.Index.Registry
import SearchGateway.Proofs.Text.NameSet

/-!
# What a registry is made of

Each index of a configuration gives its metadata or its flaws, and a registry is made exactly if
there are no flaws (`make_eq_ok_iff`). Metadata without a flaw carries the settings with their
defaults and can be relied on in what the checks of the settings say (`Metadata.Sound`); every name
of a registry leads to such metadata (`exists_sound_of_mem_names`). A registry is looked at by the
names of its indexes alone: where each index is named once, the order of the indexes makes no
difference to any lookup (`find_eq_of_perm`, `names_eq_of_perm`).
-/

namespace SearchGateway.Index

/-- Settings that are refused have a flaw. -/
theorem Metadata.ne_nil_of_make {name : String} {settings : Settings} {flaws : List Flaw}
    (h : Metadata.make name settings = .error flaws) : flaws ≠ [] := by
  unfold Metadata.make at h
  dsimp only at h
  split at h
  · cases h
  · next hne => cases h; exact hne

/-- Metadata of the given settings, with what the checks of the settings make sure of. -/
structure Metadata.Sound (name : String) (settings : Settings) (m : Metadata) : Prop where
  name_ne : name ≠ ""
  name_eq : m.name = name
  defaultSize_eq : m.defaultSize = settings.withDefaults.defaultSize
  minimumShouldMatch_eq : m.minimumShouldMatch = settings.withDefaults.minimumShouldMatch
  defaultFields_eq : m.defaultFields = settings.defaultFields
  sourceIncludes_eq : m.sourceIncludes = settings.sourceIncludes
  sourceExcludes_eq : m.sourceExcludes = settings.sourceExcludes
  queryTimeout_eq : m.queryTimeout = settings.queryTimeout
  defaultSize_le : m.defaultSize ≤ m.maxSize
  hasField_source : ∀ f ∈ settings.sourceIncludes ++ settings.sourceExcludes, m.hasField f = true

theorem scalarFlaws_eq_nil {name : String} {s : Settings} (h : scalarFlaws name s = []) :
    name ≠ "" ∧ s.defaultSize ≤ s.maxSize := by
  simp only [scalarFlaws, List.append_eq_nil_iff, ite_eq_right_iff, reduceCtorEq, imp_false] at h
  exact ⟨h.1.1.1.1.1, Int.not_lt.1 h.2⟩

/-- A source field without a flaw is declared or the id. -/
theorem hasField_of_sourceFlaws {name : String} {s : Settings} {m : Metadata}
    (h : sourceFlaws name s m.fields = []) (hid : m.idField = s.idField) {f : String}
    (hf : f ∈ s.sourceIncludes ++ s.sourceExcludes) : m.hasField f = true := by
  rw [sourceFlaws, List.map_eq_nil_iff, List.filter_eq_nil_iff] at h
  have hknown := h f hf
  rw [Metadata.hasField, Metadata.kindOf?]
  cases hlookup : lookup m.fields f with
  | some kind => rfl
  | none =>
    have hf : f = m.idField := by simpa [hlookup, hid] using hknown
    dsimp only
    rw [if_pos hf]
    split <;> rfl

theorem Metadata.sound_of_make {name : String} {settings : Settings} {m : Metadata}
    (h : Metadata.make name settings = .ok m) : Metadata.Sound name settings m := by
  unfold Metadata.make at h
  dsimp only at h
  split at h
  · next hflaws =>
    rw [List.append_eq_nil_iff, List.append_eq_nil_iff] at hflaws
    obtain ⟨hne, hsize⟩ := scalarFlaws_eq_nil hflaws.1.1
    cases h
    exact ⟨hne, rfl, rfl, rfl, rfl, rfl, rfl, rfl, hsize,
      fun f hf => hasField_of_sourceFlaws (s := settings.withDefaults) hflaws.2 rfl hf⟩
  · cases h

/-- The metadata of a configured index, if its settings have no flaw. -/
def metadataOf? (entry : String × Settings) : Option (String × Metadata) :=
  match Metadata.make entry.1 entry.2 with
  | .ok m => some (entry.1, m)
  | .error _ => none

/-- The flaws in the settings of a configured index. -/
def flawsOf (entry : String × Settings) : List Flaw :=
  match Metadata.make entry.1 entry.2 with
  | .ok _ => []
  | .error flaws => flaws

namespace Registry

theorem build_eq (entries : List (String × Settings)) :
    build entries = (entries.filterMap metadataOf?, entries.flatMap flawsOf) := by
  induction entries with
  | nil => rfl
  | cons entry entries ih =>
    obtain ⟨name, settings⟩ := entry
    rw [build, ih]
    cases hmake : Metadata.make name settings with
    | ok m => simp [metadataOf?, flawsOf, hmake]
    | error flaws => simp [metadataOf?, flawsOf, hmake]

theorem make_eq_ok_iff {entries : List (String × Settings)} {registry : Registry} :
    make entries = .ok registry ↔
      entries.flatMap flawsOf = [] ∧ registry = ⟨entries.filterMap metadataOf?⟩ := by
  rw [make, build_eq]
  cases entries.flatMap flawsOf with
  | nil => simp [eq_comm]
  | cons flaw flaws => simp

/-- A registry names the indexes of its configuration, in their order. -/
theorem map_fst_of_make {entries : List (String × Settings)} {registry : Registry}
    (h : make entries = .ok registry) : registry.indexes.map (·.1) = entries.map (·.1) := by
  obtain ⟨hflaws, rfl⟩ := make_eq_ok_iff.1 h
  clear h
  induction entries with
  | nil => rfl
  | cons entry entries ih =>
    rw [List.flatMap_cons, List.append_eq_nil_iff] at hflaws
    have hmade : ∃ m, metadataOf? entry = some (entry.1, m) := by
      cases hmake : Metadata.make entry.1 entry.2 with
      | ok m => exact ⟨m, by rw [metadataOf?, hmake]⟩
      | error flaws =>
        rw [flawsOf, hmake] at hflaws
        exact absurd hflaws.1 (Metadata.ne_nil_of_make hmake)
    obtain ⟨m, hm⟩ := hmade
    rw [List.filterMap_cons, hm, List.map_cons, List.map_cons, ih hflaws.2]

/-- Whatever is held under a name was made from settings of that name. -/
theorem exists_make_of_find? {entries : List (String × Settings)} {registry : Registry}
    (h : make entries = .ok registry) {name : String} {found : String × Metadata}
    (hfound : registry.indexes.find? (·.1 = name) = some found) :
    found.1 = name ∧
      ∃ settings, (name, settings) ∈ entries ∧ Metadata.make name settings = .ok found.2 := by
  obtain ⟨-, rfl⟩ := make_eq_ok_iff.1 h
  have hfst : found.1 = name := by simpa using List.find?_some hfound
  obtain ⟨⟨key, settings⟩, hin, hmade⟩ := List.mem_filterMap.1 (List.mem_of_find?_eq_some hfound)
  rw [metadataOf?] at hmade
  cases hmake : Metadata.make key settings with
  | error flaws => rw [hmake] at hmade; cases hmade
  | ok m =>
    rw [hmake] at hmade
    cases hmade
    exact ⟨hfst, settings, hfst ▸ hin, hfst ▸ hmake⟩

theorem exists_make_of_find {entries : List (String × Settings)} {registry : Registry}
    (h : make entries = .ok registry) {name : String} {m : Metadata}
    (hfind : registry.find name = .ok m) :
    ∃ settings, (name, settings) ∈ entries ∧ Metadata.make name settings = .ok m := by
  unfold find at hfind
  split at hfind
  · cases hfind
  · split at hfind
    · next key m' hfound =>
      cases hfind
      exact (exists_make_of_find? h hfound).2
    · cases hfind

/-- Every name of a registry leads to the metadata of settings it was made from. -/
theorem exists_sound_of_mem_names {entries : List (String × Settings)} {registry : Registry}
    (h : make entries = .ok registry) {name : String} (hname : name ∈ registry.names) :
    ∃ settings m, (name, settings) ∈ entries ∧ registry.find name = .ok m ∧
      Metadata.Sound name settings m := by
  have hkey : name ∈ registry.indexes.map (·.1) := NameSet.mem_ofList.1 hname
  obtain ⟨entry, hmem, hentry⟩ := List.mem_map.1 hkey
  have hsome : (registry.indexes.find? (·.1 = name)).isSome = true := by
    rw [List.find?_isSome]
    exact ⟨entry, hmem, by simpa using hentry⟩
  obtain ⟨found, hfound⟩ := Option.isSome_iff_exists.1 hsome
  obtain ⟨-, settings, hin, hmake⟩ := exists_make_of_find? h hfound
  have hsound := Metadata.sound_of_make hmake
  refine ⟨settings, found.2, hin, ?_, hsound⟩
  rw [find, if_neg hsound.name_ne, hfound]

section order

variable {registry registry' : Registry}

theorem find?_eq_some_iff {indexes : List (String × Metadata)}
    (hnodup : (indexes.map (·.1)).Nodup) {name : String} {entry : String × Metadata} :
    indexes.find? (·.1 = name) = some entry ↔ entry ∈ indexes ∧ entry.1 = name := by
  induction indexes with
  | nil => simp
  | cons first indexes ih =>
    obtain ⟨hnot, hnodup⟩ := List.nodup_cons.1 hnodup
    by_cases hname : first.1 = name
    · rw [List.find?_cons_of_pos (by simpa using hname)]
      constructor
      · rintro ⟨⟩
        exact ⟨List.mem_cons_self, hname⟩
      · rintro ⟨hmem, hentry⟩
        rcases List.mem_cons.1 hmem with rfl | hmem
        · rfl
        · exact absurd (List.mem_map.2 ⟨entry, hmem, hentry.trans hname.symm⟩) hnot
    · rw [List.find?_cons_of_neg (by simpa using hname), ih hnodup, List.mem_cons]
      constructor
      · rintro ⟨hmem, hentry⟩
        exact ⟨.inr hmem, hentry⟩
      · rintro ⟨rfl | hmem, hentry⟩
        · exact absurd hentry hname
        · exact ⟨hmem, hentry⟩

theorem find_eq_of_perm (hperm : registry.indexes.Perm registry'.indexes)
    (hnodup : (registry'.indexes.map (·.1)).Nodup) (name : String) :
    registry.find name = registry'.find name := by
  have hnodup' := (hperm.map (·.1)).nodup_iff.2 hnodup
  have hsame : registry.indexes.find? (·.1 = name) = registry'.indexes.find? (·.1 = name) := by
    apply Option.ext
    intro entry
    rw [find?_eq_some_iff hnodup', find?_eq_some_iff hnodup, hperm.mem_iff]
  rw [find, find, hsame]

theorem names_eq_of_perm (hperm : registry.indexes.Perm registry'.indexes) :
    registry.names = registry'.names := by
  rw [names, names, NameSet.ofList_eq_of_perm (hperm.map (·.1))]

end order

end Registry

end SearchGateway.Index
