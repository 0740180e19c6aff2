import SearchGateway.Proofs.Text.Items

/-!
# Words of a text

A word is a run of characters that are not blank, with blanks or an end on both sides of it. The
first word of a text is found behind its leading blanks (`wordsChars_eq_cons_iff`), so the words of
a text and the blanks between them are all there is to it.
-/

namespace SearchGateway.Text

/-- Blanks only, or nothing. -/
def Blanks (s : List Char) : Prop := ∀ c ∈ s, isBlank c = true

structure IsWord (w : List Char) : Prop where
  ne_nil : w ≠ []
  not_blank : ∀ c ∈ w, isBlank c = false

/-- No word goes on into the text. -/
def Breaks (s : List Char) : Prop := ∀ c ∈ s.head?, isBlank c = true

theorem Blanks.breaks_append {s : List Char} (hs : Blanks s) (hne : s ≠ []) (t : List Char) :
    Breaks (s ++ t) := by
  intro c hc
  rw [List.head?_append_of_ne_nil _ hne] at hc
  exact hs c (List.mem_of_mem_head? hc)

theorem Blanks.breaks {s : List Char} (hs : Blanks s) : Breaks s :=
  fun c hc => hs c (List.mem_of_mem_head? hc)

theorem IsWord.not_breaks_append {w : List Char} (hw : IsWord w) (t : List Char) :
    ¬ Breaks (w ++ t) := by
  intro h
  obtain ⟨c, w, rfl⟩ := List.exists_cons_of_ne_nil hw.ne_nil
  have hc := hw.not_blank c List.mem_cons_self
  rw [h c rfl] at hc
  cases hc

theorem wordsChars_of_blanks {s : List Char} (h : Blanks s) : wordsChars s = [] := by
  have := wordsChars_append_left h []
  rwa [List.append_nil] at this

theorem wordsChars_append_of_isWord {w rest : List Char} (hw : IsWord w) (hrest : Breaks rest) :
    wordsChars (w ++ rest) = w :: wordsChars rest := by
  obtain ⟨hne, hblank⟩ := hw
  induction w with
  | nil => exact absurd rfl hne
  | cons c w ih =>
    obtain ⟨hc, hw⟩ := List.forall_mem_cons.1 hblank
    rw [List.cons_append, wordsChars.eq_def]
    simp only [hc, Bool.false_eq_true, if_false]
    cases w with
    | nil =>
      cases rest with
      | nil => rfl
      | cons d rest =>
        have hd := hrest d rfl
        simp only [List.nil_append, hd, if_true]
    | cons d w =>
      have hd := hw d List.mem_cons_self
      have hmore := ih (List.cons_ne_nil d w) hw
      rw [List.cons_append] at hmore ⊢
      simp only [hd, Bool.false_eq_true, if_false, hmore]

/-- A text without a word is blank, any other has a first word behind its leading blanks. -/
theorem blanks_or_exists_isWord (s : List Char) : Blanks s ∨ ∃ front w rest, Blanks front ∧
    IsWord w ∧ Breaks rest ∧ s = front ++ (w ++ rest) := by
  obtain h | ⟨c, t, h⟩ : s.dropWhile isBlank = [] ∨ ∃ c t, s.dropWhile isBlank = c :: t := by
    cases s.dropWhile isBlank with
    | nil => exact .inl rfl
    | cons c t => exact .inr ⟨c, t, rfl⟩
  · exact .inl (List.dropWhile_eq_nil_iff.1 h)
  · have hc : isBlank c = false := by
      have := List.head_dropWhile_not isBlank (l := s) (by simp [h])
      simpa [h] using this
    refine .inr ⟨s.takeWhile isBlank, c :: t.takeWhile (!isBlank ·), t.dropWhile (!isBlank ·),
      fun d hd => List.mem_takeWhile_imp hd, ⟨List.cons_ne_nil _ _, ?_⟩, fun d hd => ?_, ?_⟩
    · refine List.forall_mem_cons.2 ⟨hc, fun d hd => ?_⟩
      simpa using List.mem_takeWhile_imp hd
    · have hnext := List.head?_dropWhile_not (!isBlank ·) t
      rw [Option.mem_def.1 hd] at hnext
      simpa using hnext
    · rw [List.cons_append, List.takeWhile_append_dropWhile, ← h, List.takeWhile_append_dropWhile]

theorem wordsChars_eq_nil_iff {s : List Char} : wordsChars s = [] ↔ Blanks s := by
  refine ⟨fun h => ?_, wordsChars_of_blanks⟩
  rcases blanks_or_exists_isWord s with hs | ⟨front, w, rest, hfront, hw, hrest, rfl⟩
  · exact hs
  · rw [wordsChars_append_left hfront, wordsChars_append_of_isWord hw hrest] at h
    cases h

theorem wordsChars_eq_cons_iff {s w : List Char} {ws : List (List Char)} :
    wordsChars s = w :: ws ↔ ∃ front rest, Blanks front ∧ IsWord w ∧ Breaks rest ∧
      s = front ++ (w ++ rest) ∧ wordsChars rest = ws := by
  constructor
  · intro h
    rcases blanks_or_exists_isWord s with hs | ⟨front, v, rest, hfront, hv, hrest, rfl⟩
    · rw [wordsChars_of_blanks hs] at h
      cases h
    · rw [wordsChars_append_left hfront, wordsChars_append_of_isWord hv hrest] at h
      cases h
      exact ⟨front, rest, hfront, hv, hrest, rfl, rfl⟩
  · rintro ⟨front, rest, hfront, hw, hrest, rfl, rfl⟩
    rw [wordsChars_append_left hfront, wordsChars_append_of_isWord hw hrest]

theorem IsWord.isItem {w : String} (hw : IsWord w.toList) (hcomma : ',' ∉ w.toList) : IsItem w := by
  obtain ⟨front, back, hfront, hback, hs⟩ := exists_trimChars w.toList
  have hnil : ∀ {s : List Char}, Blanks s → (∀ c ∈ s, c ∈ w.toList) → s = [] := by
    intro s hs hmem
    refine List.eq_nil_iff_forall_not_mem.2 fun c hc => ?_
    exact Bool.false_ne_true ((hw.not_blank c (hmem c hc)).symm.trans (hs c hc))
  have hfront := hnil hfront fun c hc => hs ▸ List.mem_append_left _ hc
  have hback := hnil hback fun c hc => hs ▸ List.mem_append_right _ (List.mem_append_right _ hc)
  rw [hfront, hback, List.nil_append, List.append_nil] at hs
  refine ⟨hcomma, by rw [trim, ← hs, String.ofList_toList], ?_⟩
  rw [Bool.eq_false_iff, isBlankText, Ne, ← trimChars_eq_nil_iff, ← hs]
  exact hw.ne_nil

end SearchGateway.Text
