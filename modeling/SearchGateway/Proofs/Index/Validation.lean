import Mathlib.Data.List.Nodup
import SearchGateway.Proofs.Filter.Tokens
import SearchGateway.Proofs.Index.Registry
import SearchGateway.Proofs.Outcome
import SearchGateway.Proofs.Text.Items

/-!
# The flaws of index settings

`expectedFlaws` says which flaws settings have, setting by setting: a table of checks for the single
settings, one verdict for each field entry after the entries before it (`entryFlaw?`), and the
source fields that no accepted entry declares. It knows nothing of the table of fields that is
filled while the entries are read.

What reading one entry does is said once (`declare_cons`): an entry with a flaw adds that flaw and
leaves the table alone, any other entry is added to the table. From it follows by induction what a
list of entries comes to (`declare_spec`), and with it that metadata is made exactly if no flaw is
expected (`exists_make_iff`), and that all expected flaws are reported otherwise
(`make_eq_error_iff`).
-/

namespace SearchGateway.Index

open SearchGateway.Text

/-- Identifiers with dots between them. -/
def IsFieldPath (s : String) : Prop := ∃ path, Filter.IsPath path s.toList

theorem isFieldName_iff {s : String} : isFieldName s = true ↔ IsFieldPath s := by
  unfold isFieldName
  rw [List.all_eq_true]
  constructor
  · intro h
    refine ⟨(splitChars '.' s.toList).map String.ofList, ?_, ?_, ?_⟩
    · simpa using splitChars_ne_nil '.' s.toList
    · rw [List.forall_mem_map]
      intro part hpart
      rw [String.toList_ofList]
      exact h part hpart
    · have hid : String.toList ∘ String.ofList = id := funext fun _ => String.toList_ofList
      rw [List.map_map, hid, List.map_id, joinChars_splitChars]
  · rintro ⟨path, hne, hnames, htext⟩
    have hwhole : ∀ part ∈ path.map String.toList, splitChars '.' part = [part] := by
      intro part hpart
      obtain ⟨p, hp, rfl⟩ := List.mem_map.1 hpart
      refine splitChars_of_not_mem fun hdot => ?_
      exact absurd (Filter.isNamePart_of_isName (hnames p hp) '.' hdot) (by decide)
    rw [htext, splitChars_joinChars '.' (by simpa using hne), List.flatMap_congr hwhole,
      List.flatMap_singleton']
    exact List.forall_mem_map.2 hnames

instance (s : String) : Decidable (IsFieldPath s) := decidable_of_iff _ isFieldName_iff

/-- The checks of the single settings, in order, each with the flaw of settings that fail it. -/
def scalarChecks (name : String) (s : Settings) : List (Bool × Flaw) :=
  [(name = "", .emptyName),
    (s.shards < 0, .shards name s.shards),
    (s.defaultSize < 0, .defaultSize name s.defaultSize),
    (s.facetSize < 0, .facetSize name s.facetSize),
    (s.queryTimeout < 0, .queryTimeout name s.queryTimeout),
    (s.maxSize < s.defaultSize, .maxSize name s.maxSize s.defaultSize)]

/-- The flaw of a field entry that comes after the given ones. An entry without a flaw is accepted;
a name may be used again as long as no entry of that name was accepted. -/
def entryFlaw? (name : String) (earlier : List FieldSetting) (f : FieldSetting) : Option Flaw :=
  if ¬ IsFieldPath f.name then some (.fieldName name f.name)
  else if ∃ i : Fin earlier.length, earlier[i].name = f.name ∧
      entryFlaw? name (earlier.take i) earlier[i] = none then some (.duplicateField name f.name)
  else if FieldKind.ofMapping f.mapping = .unknown then
    some (.unsupportedType name f.mapping f.name)
  else none
termination_by earlier.length

/-- An accepted entry has the name. -/
def IsDeclared (name : String) (entries : List FieldSetting) (field : String) : Prop :=
  ∃ i : Fin entries.length, entries[i].name = field ∧
    entryFlaw? name (entries.take i) entries[i] = none

instance (name : String) (entries : List FieldSetting) (field : String) :
    Decidable (IsDeclared name entries field) :=
  inferInstanceAs (Decidable (∃ i : Fin entries.length, entries[i].name = field ∧
    entryFlaw? name (entries.take i) entries[i] = none))

/-- All flaws of settings with their defaults. -/
def expectedFlaws (name : String) (s : Settings) : List Flaw :=
  ((scalarChecks name s).filter (·.1)).map (·.2) ++
  (s.fields.zipIdx.filterMap fun e => entryFlaw? name (s.fields.take e.2) e.1) ++
  ((s.sourceIncludes ++ s.sourceExcludes).filter fun f =>
    ¬ IsDeclared name s.fields f ∧ f ≠ s.idField).map (.undeclaredSource name)

/-! ### Field entries -/

theorem entryFlaw?_eq (name : String) (earlier : List FieldSetting) (f : FieldSetting) :
    entryFlaw? name earlier f =
      if ¬ IsFieldPath f.name then some (.fieldName name f.name)
      else if IsDeclared name earlier f.name then some (.duplicateField name f.name)
      else if FieldKind.ofMapping f.mapping = .unknown then
        some (.unsupportedType name f.mapping f.name)
      else none := by
  rw [entryFlaw?]
  rfl

theorem isDeclared_iff {name : String} {entries : List FieldSetting} {field : String} :
    IsDeclared name entries field ↔ ∃ before f after, entries = before ++ f :: after ∧
      f.name = field ∧ entryFlaw? name before f = none := by
  constructor
  · rintro ⟨i, hname, hflaw⟩
    refine ⟨entries.take i, entries[i], entries.drop (i + 1), ?_, hname, hflaw⟩
    rw [Fin.getElem_fin, List.getElem_cons_drop, List.take_append_drop]
  · rintro ⟨before, f, after, rfl, hname, hflaw⟩
    refine ⟨⟨before.length, by simp⟩, ?_⟩
    simpa using ⟨hname, hflaw⟩

theorem isDeclared_concat {name : String} {entries : List FieldSetting} {f : FieldSetting}
    {field : String} : IsDeclared name (entries ++ [f]) field ↔
      IsDeclared name entries field ∨ f.name = field ∧ entryFlaw? name entries f = none := by
  rw [isDeclared_iff, isDeclared_iff]
  constructor
  · rintro ⟨before, g, after, heq, hname, hflaw⟩
    rcases List.eq_nil_or_concat after with rfl | ⟨after, last, rfl⟩
    · obtain ⟨rfl, hg⟩ := List.append_inj' heq rfl
      cases hg
      exact .inr ⟨hname, hflaw⟩
    · rw [List.concat_eq_append, ← List.cons_append, ← List.append_assoc] at heq
      exact .inl ⟨before, g, after, (List.append_inj' heq rfl).1, hname, hflaw⟩
  · rintro (⟨before, g, after, rfl, hname, hflaw⟩ | ⟨hname, hflaw⟩)
    · exact ⟨before, g, after ++ [f], by simp, hname, hflaw⟩
    · exact ⟨entries, f, [], rfl, hname, hflaw⟩

theorem entryFlaw?_eq_none_iff {name : String} {earlier : List FieldSetting} {f : FieldSetting} :
    entryFlaw? name earlier f = none ↔ IsFieldPath f.name ∧ ¬ IsDeclared name earlier f.name ∧
      FieldKind.ofMapping f.mapping ≠ .unknown := by
  rw [entryFlaw?_eq]
  by_cases hpath : IsFieldPath f.name <;> by_cases hdeclared : IsDeclared name earlier f.name <;>
    by_cases hkind : FieldKind.ofMapping f.mapping = .unknown <;> simp [hpath, hdeclared, hkind]

/-- The table of fields holds the accepted entries. -/
def Holds (name : String) (known : List (String × FieldKind)) (entries : List FieldSetting) :
    Prop :=
  ∀ field, (lookup known field).isSome = true ↔ IsDeclared name entries field

theorem isSome_lookup_iff {known : List (String × FieldKind)} {field : String} :
    (lookup known field).isSome = true ↔ field ∈ known.map (·.1) := by
  rw [lookup, Option.isSome_map, List.find?_isSome, List.mem_map]
  simp

theorem holds_nil (name : String) : Holds name [] [] := by
  intro field
  rw [isDeclared_iff]
  simp [lookup]

section declare

variable {name : String} {known : List (String × FieldKind)} {earlier : List FieldSetting}

/-- An entry with a flaw leaves the table as it is. -/
theorem Holds.skip (h : Holds name known earlier) {f : FieldSetting}
    (hflaw : entryFlaw? name earlier f ≠ none) : Holds name known (earlier ++ [f]) := by
  intro field
  rw [h field, isDeclared_concat, or_iff_left fun hf => hflaw hf.2]

theorem Holds.concat (h : Holds name known earlier) {f : FieldSetting} (kind : FieldKind)
    (hflaw : entryFlaw? name earlier f = none) :
    Holds name (known ++ [(f.name, kind)]) (earlier ++ [f]) := by
  intro field
  rw [isDeclared_concat, ← h field, and_iff_left hflaw, isSome_lookup_iff, isSome_lookup_iff]
  simp [eq_comm]

/-- What reading one entry does. -/
theorem declare_cons (h : Holds name known earlier) (f : FieldSetting) (fs : List FieldSetting) :
    declare name known (f :: fs) =
      match entryFlaw? name earlier f with
      | some flaw => ((declare name known fs).1, flaw :: (declare name known fs).2)
      | none => declare name (known ++ [(f.name, FieldKind.ofMapping f.mapping)]) fs := by
  rw [declare, entryFlaw?_eq]
  by_cases hpath : IsFieldPath f.name
  · have hname := isFieldName_iff.2 hpath
    by_cases hdeclared : IsDeclared name earlier f.name
    · have hknown := (h f.name).2 hdeclared
      simp [hpath, hname, hdeclared, hknown]
    · have hknown := (not_congr (h f.name)).2 hdeclared
      cases hkind : FieldKind.ofMapping f.mapping <;> simp [hpath, hname, hdeclared, hknown]
  · have hname := (not_congr isFieldName_iff).2 hpath
    simp [hpath, hname]

/-- Reading entries reports the flaw of each after those before it, and leaves a table of those that
are accepted. -/
theorem declare_spec (h : Holds name known earlier) (fs : List FieldSetting) :
    (declare name known fs).2 = ((fs.zipIdx earlier.length).filterMap fun e =>
        entryFlaw? name ((earlier ++ fs).take e.2) e.1) ∧
      Holds name (declare name known fs).1 (earlier ++ fs) := by
  induction fs generalizing known earlier with
  | nil =>
    rw [List.append_nil]
    exact ⟨rfl, h⟩
  | cons f fs ih =>
    have hsplit : earlier ++ f :: fs = (earlier ++ [f]) ++ fs := by simp
    have hlength : earlier.length + 1 = (earlier ++ [f]).length := by simp
    have hhead : (earlier ++ f :: fs).take earlier.length = earlier := List.take_left
    rw [declare_cons h, List.zipIdx_cons, List.filterMap_cons, hhead, hlength, hsplit]
    cases hflaw : entryFlaw? name earlier f with
    | some flaw =>
      have hskip : entryFlaw? name earlier f ≠ none := by simp [hflaw]
      obtain ⟨hflaws, hholds⟩ := ih (h.skip hskip)
      exact ⟨congrArg (flaw :: ·) hflaws, hholds⟩
    | none => exact ih (h.concat _ hflaw)

/-- Entries without a flaw are all added to the table, each under a name of its own. -/
theorem declare_of_no_flaws (h : Holds name known earlier) (hnodup : (known.map (·.1)).Nodup)
    {fs : List FieldSetting} (hfs : (declare name known fs).2 = []) :
    (declare name known fs).1 =
        known ++ fs.map (fun f => (f.name, FieldKind.ofMapping f.mapping)) ∧
      ((declare name known fs).1.map (·.1)).Nodup ∧
      ∀ f ∈ fs, FieldKind.ofMapping f.mapping ≠ .unknown := by
  induction fs generalizing known earlier with
  | nil =>
    rw [List.map_nil, List.append_nil]
    exact ⟨rfl, hnodup, nofun⟩
  | cons f fs ih =>
    rw [declare_cons h] at hfs ⊢
    cases hflaw : entryFlaw? name earlier f with
    | some flaw => rw [hflaw] at hfs; cases hfs
    | none =>
      obtain ⟨-, hnew, hkind⟩ := entryFlaw?_eq_none_iff.1 hflaw
      rw [← h f.name, isSome_lookup_iff] at hnew
      have hnodup' : ((known ++ [(f.name, FieldKind.ofMapping f.mapping)]).map (·.1)).Nodup := by
        rw [List.map_append, List.map_singleton, ← List.concat_eq_append]
        exact hnodup.concat hnew
      rw [hflaw] at hfs
      obtain ⟨hfields, hdistinct, hkinds⟩ := ih (h.concat _ hflaw) hnodup' hfs
      refine ⟨?_, hdistinct, List.forall_mem_cons.2 ⟨hkind, hkinds⟩⟩
      dsimp only
      rw [hfields, List.map_cons, List.append_assoc, List.singleton_append]

end declare

/-! ### All settings -/

theorem scalarFlaws_eq (name : String) (s : Settings) :
    scalarFlaws name s = ((scalarChecks name s).filter (·.1)).map (·.2) := by
  have hone (p : Bool) (flaw : Flaw) (cs : List (Bool × Flaw)) :
      (((p, flaw) :: cs).filter (·.1)).map (·.2) =
        (if p = true then [flaw] else []) ++ (cs.filter (·.1)).map (·.2) := by
    cases p <;> rfl
  simp only [scalarChecks, hone, decide_eq_true_eq, scalarFlaws, List.append_assoc, List.filter_nil,
    List.map_nil, List.append_nil]

/-- The flaws that are found are those expected. -/
theorem flaws_eq (name : String) (s : Settings) :
    scalarFlaws name s ++ (declare name [] s.fields).2 ++
      sourceFlaws name s (declare name [] s.fields).1 = expectedFlaws name s := by
  obtain ⟨hflaws, hholds⟩ := declare_spec (holds_nil name) s.fields
  have hsource : sourceFlaws name s (declare name [] s.fields).1 =
      ((s.sourceIncludes ++ s.sourceExcludes).filter fun f =>
        ¬ IsDeclared name s.fields f ∧ f ≠ s.idField).map (.undeclaredSource name) := by
    rw [sourceFlaws]
    congr 1
    apply List.filter_congr
    intro f _
    have hf := hholds f
    rw [List.nil_append] at hf
    rw [Bool.eq_iff_iff, Bool.and_eq_true, decide_eq_true_iff, decide_eq_true_iff, ← hf]
    simp
  rw [scalarFlaws_eq, hflaws, hsource]
  rfl

namespace Metadata

/-- The limits of an index as a request may rely on them. -/
structure Bounded (m : Metadata) : Prop where
  shards_pos : 1 ≤ m.shards
  defaultSize_pos : 1 ≤ m.defaultSize
  defaultSize_le : m.defaultSize ≤ m.maxSize
  facetSize_pos : 1 ≤ m.facetSize
  queryTimeout_nonneg : 0 ≤ m.queryTimeout

theorem make_of_no_flaws {name : String} {settings : Settings}
    (h : expectedFlaws name settings.withDefaults = []) : ∃ m, make name settings = .ok m := by
  unfold make
  dsimp only
  rw [flaws_eq, h]
  exact ⟨_, rfl⟩

theorem make_of_flaws {name : String} {settings : Settings}
    (h : expectedFlaws name settings.withDefaults ≠ []) :
    make name settings = .error (expectedFlaws name settings.withDefaults) := by
  unfold make
  dsimp only
  rw [flaws_eq]
  split
  · next hnil => exact absurd hnil h
  · rfl

/-- Settings are refused with all the flaws they are expected to have. -/
theorem make_eq_error_iff {name : String} {settings : Settings} {flaws : List Flaw} :
    make name settings = .error flaws ↔
      flaws = expectedFlaws name settings.withDefaults ∧ flaws ≠ [] := by
  by_cases h : expectedFlaws name settings.withDefaults = []
  · obtain ⟨m, hm⟩ := make_of_no_flaws h
    rw [hm, h]
    simp
  · rw [make_of_flaws h, Except.error.injEq, eq_comm]
    exact (and_iff_left_of_imp fun heq => heq ▸ h).symm

theorem exists_make_iff {name : String} {settings : Settings} :
    (∃ m, make name settings = .ok m) ↔ expectedFlaws name settings.withDefaults = [] := by
  refine ⟨fun ⟨m, hm⟩ => ?_, make_of_no_flaws⟩
  by_contra h
  rw [make_of_flaws h] at hm
  cases hm

/-- No setting that is checked is zero once the defaults are applied. -/
theorem bounded_of_make {name : String} {settings : Settings} {m : Metadata}
    (h : make name settings = .ok m) : m.Bounded := by
  have hdefault {n d : Int} (hd : d ≠ 0) : (if n = 0 then d else n) ≠ 0 := by
    split <;> omega
  have hshards : settings.withDefaults.shards ≠ 0 := hdefault (by decide)
  have hsize : settings.withDefaults.defaultSize ≠ 0 := hdefault (by decide)
  have hfacets : settings.withDefaults.facetSize ≠ 0 := hdefault (by decide)
  unfold make at h
  dsimp only at h
  split at h
  · next hflaws =>
    cases h
    simp only [List.append_eq_nil_iff, scalarFlaws, ite_eq_right_iff, reduceCtorEq, imp_false,
      Int.not_lt] at hflaws
    obtain ⟨⟨⟨⟨⟨⟨-, hs⟩, hd⟩, hf⟩, ht⟩, hle⟩, -⟩ := hflaws.1
    constructor <;> dsimp only <;> omega
  · cases h

/-- The table of fields is that of the settings. -/
theorem fields_of_make {name : String} {settings : Settings} {m : Metadata}
    (h : make name settings = .ok m) :
    m.fields = settings.fields.map (fun f => (f.name, FieldKind.ofMapping f.mapping)) ∧
      (m.fields.map (·.1)).Nodup ∧
      ∀ f ∈ settings.fields, FieldKind.ofMapping f.mapping ≠ .unknown := by
  unfold make at h
  dsimp only at h
  split at h
  · next hflaws =>
    cases h
    rw [List.append_eq_nil_iff, List.append_eq_nil_iff] at hflaws
    exact declare_of_no_flaws (holds_nil name) List.nodup_nil hflaws.1.2
  · cases h

/-- Every declared field has a path of identifiers for its name. -/
theorem isFieldName_of_make {name : String} {settings : Settings} {m : Metadata}
    (h : make name settings = .ok m) {field : String} {kind : FieldKind}
    (hfield : (field, kind) ∈ m.fields) : isFieldName field = true := by
  have hfields : m.fields = (declare name [] settings.withDefaults.fields).1 := by
    unfold make at h
    dsimp only at h
    split at h
    · cases h; rfl
    · cases h
  have hmem : field ∈ m.fields.map (·.1) := List.mem_map.2 ⟨_, hfield, rfl⟩
  rw [← isSome_lookup_iff, hfields, (declare_spec (holds_nil name) _).2 field,
    isDeclared_iff] at hmem
  obtain ⟨before, f, after, -, rfl, hflaw⟩ := hmem
  exact isFieldName_iff.2 (entryFlaw?_eq_none_iff.1 hflaw).1

/-- Settings are refused exactly if they have flaws, and then with all of them in order. Metadata
that is made keeps within its limits, declares the fields of the settings with their kinds, and
knows all fields of its source lists. -/
theorem make_eq_error_iff_expected (name : String) (settings : Settings) :
    (∀ flaws, make name settings = .error flaws ↔
      flaws = expectedFlaws name settings.withDefaults ∧ flaws ≠ []) ∧
    ((∃ m, make name settings = .ok m) ↔ expectedFlaws name settings.withDefaults = []) ∧
    ∀ m, make name settings = .ok m →
      1 ≤ m.shards ∧ 1 ≤ m.defaultSize ∧ m.defaultSize ≤ m.maxSize ∧ 1 ≤ m.facetSize ∧
      0 ≤ m.queryTimeout ∧
      m.fields = settings.fields.map (fun f => (f.name, FieldKind.ofMapping f.mapping)) ∧
      (m.fields.map (·.1)).Nodup ∧
      (∀ f ∈ settings.fields, FieldKind.ofMapping f.mapping ≠ .unknown) ∧
      ∀ f ∈ m.sourceIncludes ++ m.sourceExcludes, m.hasField f = true := by
  refine ⟨fun flaws => make_eq_error_iff, exists_make_iff, fun m hm => ?_⟩
  have hbounded := bounded_of_make hm
  have hsound := sound_of_make hm
  obtain ⟨hfields, hnodup, hkinds⟩ := fields_of_make hm
  refine ⟨hbounded.shards_pos, hbounded.defaultSize_pos, hbounded.defaultSize_le,
    hbounded.facetSize_pos, hbounded.queryTimeout_nonneg, hfields, hnodup, hkinds, ?_⟩
  rw [hsound.sourceIncludes_eq, hsound.sourceExcludes_eq]
  exact hsound.hasField_source

/-- Settings in which a misspelled name, an unknown kind and a repeated name stand side by side. The
name with the unknown kind is not taken by it, so the next field may have it. -/
def flawedShop : Settings where
  facetSize := -1
  fields := [⟨"a.b", "string"⟩, ⟨"2x", "text"⟩, ⟨"c", "blob"⟩, ⟨"c", "KEYWORD"⟩, ⟨"a.b", "text"⟩]
  sourceIncludes := ["id", "c", "d"]

def tidyShop : Settings where
  fields := [⟨"a.b", "string"⟩, ⟨"c", "KEYWORD"⟩]
  sourceExcludes := ["id", "c"]

theorem make_eq_error_iff_expected_shops :
    expectedFlaws "shop" flawedShop.withDefaults =
      [.facetSize "shop" (-1), .fieldName "shop" "2x", .unsupportedType "shop" "blob" "c",
        .duplicateField "shop" "a.b", .undeclaredSource "shop" "d"] ∧
    ∃ m, make "shop" tidyShop = .ok m ∧ 1 ≤ m.shards ∧
      m.fields = [("a.b", .text), ("c", .keyword)] := by
  obtain ⟨herror, -, -⟩ := make_eq_error_iff_expected "shop" flawedShop
  obtain ⟨-, -, hok⟩ := make_eq_error_iff_expected "shop" tidyShop
  obtain ⟨m, hm⟩ := exists_eq_ok_of_isOk
    (show (make "shop" tidyShop).isOk = true by decide +kernel)
  obtain ⟨hshards, -, -, -, -, hfields, -⟩ := hok m hm
  refine ⟨((herror _).1 ?_).1.symm, m, hm, hshards, hfields.trans (by decide +kernel)⟩
  decide +kernel

end Metadata

end SearchGateway.Index
