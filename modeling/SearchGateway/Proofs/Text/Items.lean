import Mathlib.Data.List.DropRight
import SearchGateway.Text.Blank

/-!
# Items of list options

Splitting undoes joining (`split_join`), and trimming changes neither the words of a text nor a text
that was trimmed before. An item of a list option is therefore its own only item: taking the items a
second time changes nothing (`items_items`).
-/

namespace SearchGateway.Text

/-! ## Splitting and joining -/

theorem splitChars_ne_nil (sep : Char) (s : List Char) : splitChars sep s ≠ [] := by
  cases s with
  | nil => simp [splitChars]
  | cons c s =>
    unfold splitChars
    by_cases hc : c = sep
    · simp [hc]
    · rw [if_neg hc]
      split <;> simp

theorem splitChars_cons {sep c : Char} (hc : c ≠ sep) {s part : List Char}
    {parts : List (List Char)} (h : splitChars sep s = part :: parts) :
    splitChars sep (c :: s) = (c :: part) :: parts := by
  rw [splitChars, if_neg hc, h]

theorem splitChars_append_sep (sep : Char) (s t : List Char) :
    splitChars sep (s ++ sep :: t) = splitChars sep s ++ splitChars sep t := by
  induction s with
  | nil => simp [splitChars]
  | cons c s ih =>
    by_cases hc : c = sep
    · subst hc
      simp [splitChars, ih]
    · obtain ⟨part, parts, hs⟩ := List.exists_cons_of_ne_nil (splitChars_ne_nil sep s)
      rw [hs, List.cons_append] at ih
      rw [List.cons_append, splitChars_cons hc ih, splitChars_cons hc hs, List.cons_append]

theorem splitChars_of_not_mem {sep : Char} {s : List Char} (h : sep ∉ s) :
    splitChars sep s = [s] := by
  induction s with
  | nil => rfl
  | cons c s ih =>
    rw [List.mem_cons, not_or] at h
    exact splitChars_cons (Ne.symm h.1) (ih h.2)

theorem not_mem_of_mem_splitChars {sep : Char} {s part : List Char}
    (h : part ∈ splitChars sep s) : sep ∉ part := by
  induction s generalizing part with
  | nil =>
    rw [List.mem_singleton.1 h]
    exact List.not_mem_nil
  | cons c s ih =>
    by_cases hc : c = sep
    · rw [splitChars, if_pos hc] at h
      rcases List.mem_cons.1 h with rfl | h
      · exact List.not_mem_nil
      · exact ih h
    · obtain ⟨first, parts, hs⟩ := List.exists_cons_of_ne_nil (splitChars_ne_nil sep s)
      rw [splitChars_cons hc hs] at h
      rcases List.mem_cons.1 h with rfl | h
      · rw [List.mem_cons, not_or]
        exact ⟨Ne.symm hc, ih (hs ▸ List.mem_cons_self)⟩
      · exact ih (hs ▸ List.mem_cons_of_mem _ h)

theorem joinChars_cons_cons (sep part part' : List Char) (parts : List (List Char)) :
    joinChars sep (part :: part' :: parts) = part ++ (sep ++ joinChars sep (part' :: parts)) :=
  List.append_assoc ..

theorem splitChars_joinChars (sep : Char) {parts : List (List Char)} (h : parts ≠ []) :
    splitChars sep (joinChars [sep] parts) = parts.flatMap (splitChars sep) := by
  match parts, h with
  | [part], _ => simp [joinChars]
  | part :: part' :: more, _ =>
    have ih := splitChars_joinChars sep (List.cons_ne_nil part' more)
    rw [joinChars_cons_cons, List.singleton_append, splitChars_append_sep, ih]
    exact List.flatMap_cons.symm

/-- Joining undoes splitting. -/
theorem joinChars_splitChars (sep : Char) (s : List Char) :
    joinChars [sep] (splitChars sep s) = s := by
  induction s with
  | nil => rfl
  | cons c s ih =>
    obtain ⟨part, parts, hs⟩ := List.exists_cons_of_ne_nil (splitChars_ne_nil sep s)
    rw [hs] at ih
    by_cases hc : c = sep
    · rw [splitChars, if_pos hc, hs, joinChars_cons_cons, ih, hc]
      rfl
    · rw [splitChars_cons hc hs]
      cases parts with
      | nil => rw [← ih]; rfl
      | cons part' parts =>
        rw [joinChars_cons_cons] at ih ⊢
        rw [← ih]
        rfl

theorem split_join {entries : List String} (h : entries ≠ []) :
    split ',' (join "," entries) = entries.flatMap (split ',') := by
  unfold split join
  have hsep : ",".toList = [','] := by decide
  rw [String.toList_ofList, hsep, splitChars_joinChars ',' (by simpa using h), List.map_flatMap,
    List.flatMap_map]

theorem split_of_not_mem {s : String} (h : ',' ∉ s.toList) : split ',' s = [s] := by
  rw [split, splitChars_of_not_mem h, List.map_singleton, String.ofList_toList]

theorem flatMap_split_of_not_mem {entries : List String} (h : ∀ s ∈ entries, ',' ∉ s.toList) :
    entries.flatMap (split ',') = entries := by
  rw [List.flatMap_congr fun s hs => split_of_not_mem (h s hs), List.flatMap_singleton']

theorem not_mem_of_mem_split {s part : String} (h : part ∈ split ',' s) : ',' ∉ part.toList := by
  obtain ⟨cs, hcs, rfl⟩ := List.mem_map.1 h
  rw [String.toList_ofList]
  exact not_mem_of_mem_splitChars hcs

/-! ## Trimming -/

theorem trimChars_eq (cs : List Char) :
    trimChars cs = (cs.dropWhile isBlank).rdropWhile isBlank := rfl

/-- Only blanks are cut off. -/
theorem exists_trimChars (cs : List Char) : ∃ front back, (∀ c ∈ front, isBlank c = true) ∧
    (∀ c ∈ back, isBlank c = true) ∧ cs = front ++ (trimChars cs ++ back) := by
  refine ⟨cs.takeWhile isBlank, (cs.dropWhile isBlank).rtakeWhile isBlank, ?_, ?_, ?_⟩
  · intro c hc
    exact List.mem_takeWhile_imp hc
  · intro c hc
    exact List.mem_rtakeWhile_imp hc
  · rw [trimChars_eq, List.rdropWhile_append_rtakeWhile, List.takeWhile_append_dropWhile]

theorem trimChars_eq_nil_iff {cs : List Char} :
    trimChars cs = [] ↔ cs.all isBlank = true := by
  rw [List.all_eq_true]
  constructor
  · intro h c hc
    obtain ⟨front, back, hfront, hback, hcs⟩ := exists_trimChars cs
    rw [h, List.nil_append] at hcs
    rw [hcs, List.mem_append] at hc
    exact hc.elim (hfront c) (hback c)
  · intro h
    rw [trimChars_eq, List.dropWhile_eq_nil_iff.2 h]
    rfl

theorem trimChars_trimChars (cs : List Char) : trimChars (trimChars cs) = trimChars cs := by
  -- What is left in front of the blanks at the end still starts with no blank.
  have hfront : (trimChars cs).dropWhile isBlank = trimChars cs := by
    rw [List.dropWhile_eq_self_iff]
    intro hlen
    have hpre : trimChars cs <+: cs.dropWhile isBlank := List.rdropWhile_prefix ..
    rw [hpre.getElem hlen]
    exact List.dropWhile_get_zero_not isBlank cs (hlen.trans_le hpre.length_le)
  rw [trimChars_eq (trimChars cs), hfront, trimChars_eq, List.rdropWhile_idempotent]

theorem trim_trim (s : String) : trim (trim s) = trim s := by
  rw [trim, trim, String.toList_ofList, trimChars_trimChars]

theorem trim_eq_empty_iff {s : String} : trim s = "" ↔ isBlankText s = true := by
  rw [trim, isBlankText, ← trimChars_eq_nil_iff, ← String.toList_inj, String.toList_ofList]
  rfl

theorem mem_of_mem_trim {s : String} {c : Char} (h : c ∈ (trim s).toList) : c ∈ s.toList := by
  rw [trim, String.toList_ofList] at h
  obtain ⟨front, back, -, -, hs⟩ := exists_trimChars s.toList
  rw [hs]
  exact List.mem_append_right _ (List.mem_append_left _ h)

theorem wordsChars_cons_blank {c : Char} (hc : isBlank c = true) (s : List Char) :
    wordsChars (c :: s) = wordsChars s := by
  rw [wordsChars.eq_def]
  exact if_pos hc

theorem wordsChars_append_left {front : List Char} (h : ∀ c ∈ front, isBlank c = true)
    (s : List Char) : wordsChars (front ++ s) = wordsChars s := by
  induction front with
  | nil => rfl
  | cons c front ih =>
    obtain ⟨hc, hfront⟩ := List.forall_mem_cons.1 h
    rw [List.cons_append, wordsChars_cons_blank hc, ih hfront]

theorem wordsChars_append_right {back : List Char} (h : ∀ c ∈ back, isBlank c = true)
    (s : List Char) : wordsChars (s ++ back) = wordsChars s := by
  have hback : wordsChars back = [] := by
    have := wordsChars_append_left h []
    rwa [List.append_nil] at this
  induction s with
  | nil => exact hback
  | cons c s ih =>
    by_cases hc : isBlank c = true
    · rw [List.cons_append, wordsChars_cons_blank hc, wordsChars_cons_blank hc, ih]
    · rw [List.cons_append, wordsChars.eq_def (c :: s), wordsChars.eq_def (c :: (s ++ back))]
      simp only [hc, ih]
      cases s with
      | nil =>
        cases back with
        | nil => rfl
        | cons d back =>
          have hd := h d List.mem_cons_self
          rw [List.nil_append]
          simp only [hd]
          rfl
      | cons d s => rfl

theorem words_trim (s : String) : words (trim s) = words s := by
  obtain ⟨front, back, hfront, hback, hs⟩ := exists_trimChars s.toList
  have hwords : wordsChars s.toList = wordsChars (trimChars s.toList) := by
    conv_lhs => rw [hs]
    rw [wordsChars_append_left hfront, wordsChars_append_right hback]
  rw [words, words, trim, String.toList_ofList, hwords]

theorem words_of_isBlankText {s : String} (h : isBlankText s = true) : words s = [] := by
  rw [← words_trim, trim_eq_empty_iff.2 h]
  rfl

/-! ## Items -/

/-- What an entry of a list option is once it is taken apart. -/
structure IsItem (s : String) : Prop where
  whole : ',' ∉ s.toList
  trimmed : trim s = s
  not_blank : isBlankText s = false

theorem items_eq (entries : List String) :
    items entries = ((entries.flatMap (split ',')).map trim).filter (· ≠ "") := by
  rw [items, List.map_flatMap]

theorem isItem_of_mem_items {entries : List String} {s : String} (h : s ∈ items entries) :
    IsItem s := by
  rw [items_eq, List.mem_filter] at h
  obtain ⟨hs, hne⟩ := h
  obtain ⟨part, hpart, rfl⟩ := List.mem_map.1 hs
  obtain ⟨e, -, hsplit⟩ := List.mem_flatMap.1 hpart
  refine ⟨fun hc => not_mem_of_mem_split hsplit (mem_of_mem_trim hc), trim_trim part, ?_⟩
  rw [Bool.eq_false_iff, Ne, ← trim_eq_empty_iff, trim_trim]
  simpa using hne

/-- Items are left as they are when they are taken apart again. -/
theorem items_of_isItem {entries : List String} (h : ∀ s ∈ entries, IsItem s) :
    items entries = entries := by
  have htrim : entries.map trim = entries := by
    conv_rhs => rw [← List.map_id entries]
    exact List.map_congr_left fun s hs => (h s hs).trimmed
  rw [items_eq, flatMap_split_of_not_mem fun s hs => (h s hs).whole, htrim, List.filter_eq_self]
  intro s hs
  have hblank := (h s hs).not_blank
  rw [Bool.eq_false_iff, Ne, ← trim_eq_empty_iff, (h s hs).trimmed] at hblank
  simpa using hblank

theorem items_items (entries : List String) : items (items entries) = items entries :=
  items_of_isItem fun _ hs => isItem_of_mem_items hs

theorem items_cons (s : String) (entries : List String) :
    items (s :: entries) = ((split ',' s).map trim).filter (· ≠ "") ++ items entries := by
  rw [items, List.flatMap_cons, List.filter_append]
  rfl

/-- Entries of blanks only have no items. -/
theorem items_filter_blank (entries : List String) :
    items (entries.filter fun s => !isBlankText s) = items entries := by
  induction entries with
  | nil => rfl
  | cons s entries ih =>
    cases hs : isBlankText s with
    | false => rw [List.filter_cons_of_pos (by simp [hs]), items_cons, items_cons, ih]
    | true =>
      have hcomma : ',' ∉ s.toList := by
        intro hc
        rw [isBlankText, List.all_eq_true] at hs
        exact absurd (hs _ hc) (by decide)
      rw [List.filter_cons_of_neg (by simp [hs]), items_cons, ih, split_of_not_mem hcomma,
        List.map_singleton, trim_eq_empty_iff.2 hs]
      rfl

end SearchGateway.Text
