import SearchGateway.Proofs.Query.Naming

/-!
# The fields a free text is searched in

Each item of the fields option names a field, and the field is searched by its keyword form if it
is a text. The names that are sent are names of fields themselves, so they can be asked for in turn.
The answer is then the same (`resolve_emitted`): a keyword form ends in `.raw` and is left alone,
whatever the index declares under that name.
-/

namespace SearchGateway

open SearchGateway.Text
open SearchGateway.Filter (Field takeWhile_append_stop)
open SearchGateway.Index (FieldKind Metadata firstSegment isFieldName rawBase? rawSuffix)

namespace Index

theorem isFieldName_raw (path : String) : isFieldName (path ++ rawSuffix) = isFieldName path := by
  have hraw : (splitChars '.' "raw".toList).all isName = true := by decide
  have hsplit : (path ++ rawSuffix).toList = path.toList ++ '.' :: "raw".toList :=
    String.toList_append
  rw [isFieldName, hsplit, splitChars_append_sep, List.all_append, hraw, Bool.and_true, isFieldName]

theorem firstSegment_raw (path : String) :
    firstSegment (path ++ rawSuffix) = firstSegment path := by
  have hstop : rawSuffix.toList.takeWhile (· ≠ '.') = [] := by decide
  rw [firstSegment, String.toList_append, List.takeWhile_append, hstop, firstSegment]
  split
  · next hlen =>
    have hall := (List.takeWhile_prefix (· ≠ '.')).eq_of_length hlen
    rw [hall, List.append_nil]
  · rfl

theorem suffix_of_rawBase? {path : String} (h : (rawBase? path).isSome = true) :
    rawSuffix.toList <:+ path.toList := by
  unfold rawBase? at h
  split at h
  · next hsuffix => exact List.isSuffixOf_iff_suffix.1 hsuffix
  · cases h

end Index

namespace Query.FreeText

variable {m : Metadata}

/-- The name in an entry that is sent, which goes as far as the boost. -/
def nameOf (emitted : String) : String := String.ofList (emitted.toList.takeWhile (· ≠ '^'))

theorem nameOf_append {name : String} (h : '^' ∉ name.toList) (boost : String) :
    nameOf (name ++ "^" ++ boost) = name := by
  have hstop : Filter.Stops (· ≠ '^') ("^".toList ++ boost.toList) := by
    rintro c ⟨⟩
    rfl
  rw [nameOf, String.toList_append, String.toList_append, List.append_assoc,
    takeWhile_append_stop (fun c hc => decide_eq_true (ne_of_mem_of_not_mem hc h)) hstop,
    String.ofList_toList]

/-! ### Names to search by -/

/-- What is sent in place of a text is its keyword form. -/
theorem raw_of_isOfKind_searchName {name : String}
    (h : m.isOfKind (searchName m name) .text = true) :
    (rawBase? (searchName m name)).isSome = true := by
  cases hraw : rawBase? (searchName m name) with
  | some base => rfl
  | none =>
    unfold searchName at h hraw
    split at h
    · next hcond =>
      rw [if_pos hcond, Metadata.rawBase?_append] at hraw
      cases hraw
    · next hcond =>
      rw [if_neg hcond] at hraw
      simp [h, hraw] at hcond

theorem searchName_eq_self {name : String}
    (h : m.isOfKind name .text = true → (rawBase? name).isSome = true) :
    searchName m name = name := by
  refine if_neg fun hcond => ?_
  rw [Bool.and_eq_true] at hcond
  rw [← Option.not_isSome, h hcond.1] at hcond
  exact Bool.false_ne_true hcond.2

theorem searchName_searchName (m : Metadata) (name : String) :
    searchName m (searchName m name) = searchName m name :=
  searchName_eq_self raw_of_isOfKind_searchName

/-- The name a field is searched by is the name of a field. -/
theorem exists_plain_searchName {f : Field} (h : f.Plain) (m : Metadata) :
    ∃ g : Field, g.Plain ∧ g.name = searchName m f.name := by
  unfold searchName
  split
  · refine Field.exists_plain_of_isFieldName ?_ ?_
    · rw [Index.isFieldName_raw]
      exact Index.isFieldName_iff.2 ⟨f.path, h.isPath⟩
    · rw [Index.firstSegment_raw]
      exact h.firstSegment_ne
  · exact ⟨f, h, rfl⟩

theorem weighted_of_not_mem {entry : String} (h : ':' ∉ entry.toList) :
    weighted entry = .ok (entry, Binary64.ofInt64 1) := by
  have hsplit : splitBoost entry = (entry, none) := by
    rw [splitBoost]
    exact if_neg (by simpa using h)
  rw [weighted, hsplit]

/-- The name of a known field is an entry of its own. -/
theorem fieldEntry_name {f : Field} (h : f.Plain) (hfield : m.hasField f.name = true) :
    fieldEntry m f.name =
      .ok (searchName m f.name ++ "^" ++ boostText (Binary64.ofInt64 1)) := by
  have hcolon : ':' ∉ f.name.toList := fun hc => absurd (h.isPath.isPathPart _ hc) (by decide)
  exact fieldEntry_eq_ok_iff.2
    ⟨_, _, f, weighted_of_not_mem hcolon, h.parse_name, h.not_negated, hfield, rfl⟩

theorem isItem_name {f : Field} (h : f.Plain) : IsItem f.name :=
  h.isWord_name.isItem fun hc => absurd (h.isPath.isPathPart _ hc) (by decide)

/-! ### Asking again -/

/-- The entry asks for the field of that name. -/
def AsksFor (entry name : String) : Prop :=
  ∃ text boost f, weighted entry = .ok (text, boost) ∧ Field.parse text = .ok f ∧ f.name = name

/-- What is sent for an entry has a name that is an entry itself, and the same is sent for it. -/
theorem resolve_fieldEntry {entry emitted : String} (h : fieldEntry m entry = .ok emitted) :
    ∃ name, AsksFor entry name ∧ nameOf emitted = searchName m name ∧ IsItem (nameOf emitted) ∧
      ∃ again, fieldEntry m (nameOf emitted) = .ok again ∧ nameOf again = nameOf emitted := by
  obtain ⟨text, boost, f, hweighted, hparse, hneg, hfield, rfl⟩ := fieldEntry_eq_ok_iff.1 h
  have hplain := Field.plain_of_parse hparse hneg
  obtain ⟨g, hg, hname⟩ := exists_plain_searchName hplain m
  have hagain := fieldEntry_name hg (hname ▸ hasField_searchName hfield)
  rw [hname, searchName_searchName] at hagain
  have hnameOf : ∀ boost, nameOf (searchName m f.name ++ "^" ++ boost) = searchName m f.name :=
    nameOf_append (not_mem_searchName hplain.isPath)
  rw [hnameOf]
  exact ⟨f.name, ⟨text, boost, f, hweighted, hparse, rfl⟩, rfl, hname ▸ isItem_name hg, _, hagain,
    hnameOf _⟩

theorem fields_eq_ok_iff {entries emitted : List String} (hne : entries ≠ []) :
    fields m entries = .ok emitted ↔
      List.Forall₂ (fun entry out => fieldEntry m entry = .ok out) (items entries) emitted := by
  rw [fields, List.isEmpty_eq_false_iff.2 hne, if_neg Bool.false_ne_true, mapM_eq_ok_iff]

theorem exists_resolve_again {entries emitted : List String}
    (h : List.Forall₂ (fun entry out => fieldEntry m entry = .ok out) entries emitted) :
    ∃ again,
      List.Forall₂ (fun entry out => fieldEntry m entry = .ok out) (emitted.map nameOf) again ∧
      again.map nameOf = emitted.map nameOf := by
  induction h with
  | nil => exact ⟨[], .nil, rfl⟩
  | cons hentry _ ih =>
    obtain ⟨-, -, -, -, out, hout, hname⟩ := resolve_fieldEntry hentry
    obtain ⟨again, hagain, hnames⟩ := ih
    exact ⟨out :: again, .cons hout hagain, congrArg₂ List.cons hname hnames⟩

/-- The fields that are sent for a list of entries, asked for by name, are sent again: one for each
item, in the order of the items. Of the texts among the names only those ending in `.raw` are
searched by their own name. -/
theorem resolve_emitted {entries emitted : List String} (hitems : items entries ≠ [])
    (h : fields m entries = .ok emitted) :
    List.Forall₂ (fun entry out => ∃ name, AsksFor entry name ∧ nameOf out = searchName m name)
      (items entries) emitted ∧
    (∃ again, fields m (emitted.map nameOf) = .ok again ∧
      again.map nameOf = emitted.map nameOf) ∧
    ∀ name ∈ emitted.map nameOf, m.isOfKind name .text = true →
      rawSuffix.toList <:+ name.toList := by
  have hne : entries ≠ [] := by
    rintro rfl
    exact hitems rfl
  have hentries := (fields_eq_ok_iff hne).1 h
  have hfrom : ∀ out ∈ emitted, ∃ entry, fieldEntry m entry = .ok out := by
    intro out hout
    obtain ⟨entry, -, hentry⟩ := exists_ok_of_mem_mapM (mapM_eq_ok_iff.2 hentries) hout
    exact ⟨entry, hentry⟩
  have hnames : emitted.map nameOf ≠ [] := by
    rw [Ne, List.map_eq_nil_iff, ← List.length_eq_zero_iff, ← hentries.length_eq,
      List.length_eq_zero_iff]
    exact hitems
  obtain ⟨again, hagain, hsame⟩ := exists_resolve_again hentries
  refine ⟨hentries.imp fun _ _ hentry => ?_, ⟨again, (fields_eq_ok_iff hnames).2 ?_, hsame⟩, ?_⟩
  · obtain ⟨name, hasks, hname, -⟩ := resolve_fieldEntry hentry
    exact ⟨name, hasks, hname⟩
  · rw [items_of_isItem]
    · exact hagain
    · refine List.forall_mem_map.2 fun out hout => ?_
      obtain ⟨entry, hentry⟩ := hfrom out hout
      obtain ⟨-, -, -, hitem, -⟩ := resolve_fieldEntry hentry
      exact hitem
  · refine List.forall_mem_map.2 fun out hout htext => ?_
    obtain ⟨entry, hentry⟩ := hfrom out hout
    obtain ⟨name, -, hname, -⟩ := resolve_fieldEntry hentry
    rw [hname] at htext ⊢
    exact Index.suffix_of_rawBase? (raw_of_isOfKind_searchName htext)

/-- An index in which the keyword form of one text is declared, as a text again, and that of the
other is not. -/
def rawTexts : Metadata where
  name := "books"
  idField := "id"
  shards := 1
  defaultSize := 20
  maxSize := 200
  facetSize := 20
  minimumShouldMatch := "75%"
  defaultFields := []
  sourceIncludes := []
  sourceExcludes := []
  queryTimeout := 0
  fields := [("title", .text), ("title.raw", .text), ("note", .text)]

theorem resolve_emitted_rawTexts :
    fields rawTexts ["title : 2.5, id", " ", "note"] =
        .ok ["title.raw^2.5", "id^1.0", "note.raw^1.0"] ∧
      (∃ again, fields rawTexts ["title.raw", "id", "note.raw"] = .ok again ∧
        again.map nameOf = ["title.raw", "id", "note.raw"]) ∧
      rawTexts.isOfKind "title.raw" .text = true ∧ rawSuffix.toList <:+ "title.raw".toList := by
  have h : fields rawTexts ["title : 2.5, id", " ", "note"] =
      .ok ["title.raw^2.5", "id^1.0", "note.raw^1.0"] := by decide +kernel
  have hnames : ["title.raw^2.5", "id^1.0", "note.raw^1.0"].map nameOf =
      ["title.raw", "id", "note.raw"] := by decide
  have htext : rawTexts.isOfKind "title.raw" .text = true := by decide
  obtain ⟨-, hagain, hraw⟩ := resolve_emitted (by decide) h
  rw [hnames] at hagain hraw
  exact ⟨h, hagain, htext, hraw _ List.mem_cons_self htext⟩

end Query.FreeText

end SearchGateway
