import SearchGateway.Proofs.Filter.Canonical
import SearchGateway.Proofs.Outcome
import SearchGateway.Proofs.Text.Words

/-!
# Written fields

A field is written as the names of its path with dots between them, or as a negation in front of
these, with layout around and between. `Field.Spelled` lists the ways, and a text is read as a field
exactly if it is one of them (`Field.parse_eq_ok_iff`). Only one kind of path cannot stand alone:
one that begins with `NOT`, which would be read as the negation of what follows.
-/

namespace SearchGateway.Filter

open SearchGateway.Text

/-! ### Layout -/

theorem isBlank_of_isLayout {c : Char} (h : isLayout c = true) : isBlank c = true := by
  simp only [isLayout, Bool.or_eq_true, beq_iff_eq] at h
  rcases h with ((rfl | rfl) | rfl) | rfl <;> decide

theorem skipLayout_of_not_blank {s : List Char} (h : ∀ c ∈ s, isBlank c = false) :
    skipLayout s = s := by
  refine List.dropWhile_eq_self_iff.2 fun hlen hlayout => ?_
  have hblank := isBlank_of_isLayout hlayout
  rw [h _ (List.getElem_mem hlen)] at hblank
  cases hblank

theorem isBlank_of_isPathPart {c : Char} (h : isPathPart c = true) : isBlank c = false := by
  simp only [isPathPart, isNamePart, Bool.or_eq_true, Bool.and_eq_true, beq_iff_eq,
    decide_eq_true_eq, Char.le_def, UInt32.le_iff_toNat_le] at h
  rcases h with (h | ⟨hlow, hhigh⟩) | rfl
  · exact isBlank_of_isNameStart h
  · have hlow : 48 ≤ c.toNat := hlow
    have hhigh : c.toNat ≤ 57 := hhigh
    simp only [isBlank, Bool.or_eq_false_iff, Bool.and_eq_false_iff, beq_eq_false_iff_ne,
      decide_eq_false_iff_not]
    omega
  · decide

theorem not_isPathPart_of_isLayout {c : Char} (h : isLayout c = true) : isPathPart c = false := by
  rw [Bool.eq_false_iff]
  intro hpart
  have hblank := isBlank_of_isLayout h
  rw [isBlank_of_isPathPart hpart] at hblank
  cases hblank

theorem Skips.stops {s : List Char} (h : Skips s []) : Stops isPathPart s := by
  obtain ⟨blanks, hblanks, rfl⟩ := h
  rw [List.append_nil]
  intro c hc
  exact not_isPathPart_of_isLayout (isLayout_iff.2 (hblanks (List.mem_of_mem_head? hc)))

/-! ### Fields -/

namespace Field

variable {f : Field}

/-- A field that is written by its name alone. A path that begins with `NOT` would be read as the
negation of the rest. -/
structure Plain (f : Field) : Prop where
  path_ne : f.path ≠ []
  isName : ∀ p ∈ f.path, Index.isName p.toList = true
  first_ne : f.first ≠ "NOT"
  not_negated : f.negated = false

theorem toList_name (f : Field) : f.name.toList = joinChars ['.'] (f.path.map String.toList) :=
  String.toList_ofList

theorem Plain.isPath {f : Field} (h : f.Plain) : IsPath f.path f.name.toList :=
  ⟨h.path_ne, h.isName, f.toList_name⟩

theorem Plain.isWord_name {f : Field} (h : f.Plain) : IsWord f.name.toList := by
  refine ⟨fun hnil => ?_, fun c hc => isBlank_of_isPathPart (h.isPath.isPathPart c hc)⟩
  have hstops : Stops Filter.isPathPart [] := fun c hc => by cases hc
  obtain ⟨hfirst, u, he, -⟩ := h.isPath.first hstops
  obtain ⟨c, t, hc, -⟩ := isName_iff.1 hfirst
  rw [hnil, hc] at he
  cases he

/-- A path and layout after it are read to their end. -/
theorem read_eq_ok_iff {s : List Char} {negated : Bool} {f : Field} :
    (do
      let field ← scanField s
      match skipLayout field.rest with
      | [] => return ⟨field.value, negated⟩
      | rest => .error (.located .unexpectedAfterField rest) : Except ParseError Field) = .ok f ↔
    f.negated = negated ∧ ∃ text rest, s = text ++ rest ∧ IsPath f.path text ∧
      Stops Filter.isPathPart rest ∧ skipLayout rest = [] := by
  rw [bind_eq_ok_iff]
  constructor
  · rintro ⟨field, hfield, h⟩
    have htaken := (congrArg taken hfield).trans (taken_ok field)
    rw [taken_scanField, taken_scanPath] at htaken
    obtain ⟨text, he, hpath, hstops⟩ := htaken
    split at h
    · next hrest =>
      cases h
      exact ⟨rfl, text, field.rest, he, hpath, hstops, hrest⟩
    · cases h
  · rintro ⟨rfl, text, rest, he, hpath, hstops, hrest⟩
    have htaken := taken_scanPath.2 ⟨text, he, hpath, hstops⟩
    rw [← taken_scanField] at htaken
    cases hfield : scanField s with
    | error e =>
      rw [hfield] at htaken
      cases htaken
    | ok field =>
      rw [hfield, taken_ok] at htaken
      obtain ⟨hvalue, rfl⟩ := Prod.mk.inj (Option.some.inj htaken)
      refine ⟨field, rfl, ?_⟩
      rw [hrest, hvalue]
      rfl

/-- The text is the path of the field and layout after it. -/
def Fills (f : Field) (s : List Char) : Prop :=
  IsPath f.path f.name.toList ∧ ∃ back, s = f.name.toList ++ back ∧ Skips back []

theorem Fills.head {s : List Char} (h : f.Fills s) : ∃ c t, s = c :: t ∧ isNameStart c = true := by
  obtain ⟨hpath, back, rfl, hback⟩ := h
  obtain ⟨hname, u, he, -⟩ := hpath.first hback.stops
  obtain ⟨c, t, hc, hstart, -⟩ := isName_iff.1 hname
  exact ⟨c, t ++ u, by rw [he, hc, List.cons_append], hstart⟩

theorem Fills.skipLayout_eq {s t : List Char} (h : f.Fills t) (hs : Skips s t) :
    skipLayout s = t := by
  obtain ⟨c, u, rfl, hc⟩ := h.head
  exact hs.skipLayout_cons (isLayout_of_isNameStart hc)

/-- A path that begins with `NOT` starts with the operator. -/
theorem Fills.exists_scanConnective?_iff {s t : List Char} (h : f.Fills t) (hs : Skips s t) :
    (∃ r, scanConnective? .not s = some r) ↔ f.first = "NOT" := by
  have hskip := h.skipLayout_eq hs
  obtain ⟨hpath, back, rfl, hback⟩ := h
  simp only [scanConnective?_eq_some_iff, hskip]
  exact hpath.exists_readsOperator_not_iff hback.stops

theorem fills_iff {s : List Char} : f.Fills s ↔ ∃ text back, s = text ++ back ∧
    IsPath f.path text ∧ Stops Filter.isPathPart back ∧ skipLayout back = [] := by
  constructor
  · rintro ⟨hpath, back, he, hback⟩
    exact ⟨_, back, he, hpath, hback.stops, skips_nil_iff.1 hback⟩
  · rintro ⟨text, back, he, hpath, -, hback⟩
    have htext : text = f.name.toList := hpath.2.2.trans f.toList_name.symm
    subst htext
    exact ⟨hpath, back, he, skips_nil_iff.2 hback⟩

theorem parse_of_negation {input : String} {r : List Char}
    (h : scanConnective? .not input.toList = some r) :
    Field.parse input = .ok f ↔ f.negated = true ∧ f.Fills (skipLayout r) := by
  have hscan : scanConnective? .not (skipLayout input.toList) = some r := by
    rw [scanConnective?, skipLayout_skipLayout]
    exact h
  unfold Field.parse
  dsimp only
  rw [hscan]
  exact read_eq_ok_iff.trans (and_congr_right fun _ => fills_iff.symm)

theorem parse_of_no_negation {input : String} (h : scanConnective? .not input.toList = none) :
    Field.parse input = .ok f ↔ f.negated = false ∧ f.Fills (skipLayout input.toList) := by
  have hscan : scanConnective? .not (skipLayout input.toList) = none := by
    rw [scanConnective?, skipLayout_skipLayout]
    exact h
  unfold Field.parse
  dsimp only
  rw [hscan]
  exact read_eq_ok_iff.trans (and_congr_right fun _ => fills_iff.symm)

/-- The ways to write a field, with layout around and between the parts. A path that begins with
`NOT` is only written behind a negation. -/
inductive Spelled (f : Field) (s : List Char) : Prop where
  | plain {t : List Char} : f.negated = false → f.first ≠ "NOT" → Skips s t → f.Fills t →
      Spelled f s
  | sign {t u : List Char} : f.negated = true → Skips s ('!' :: t) → Skips t u → f.Fills u →
      Spelled f s
  | word {t u : List Char} {c : Char} : f.negated = true → Skips s ("NOT".toList ++ c :: t) →
      isLayout c = true → Skips t u → f.Fills u → Spelled f s

theorem spelled_of_parse {input : String} (h : Field.parse input = .ok f) :
    f.Spelled input.toList := by
  have hskips := skips_skipLayout input.toList
  cases hscan : scanConnective? .not input.toList with
  | none =>
    obtain ⟨hneg, hfills⟩ := (parse_of_no_negation hscan).1 h
    refine .plain hneg (fun hfirst => ?_) hskips hfills
    obtain ⟨r, hr⟩ := (hfills.exists_scanConnective?_iff hskips).2 hfirst
    rw [hscan] at hr
    cases hr
  | some r =>
    obtain ⟨hneg, hfills⟩ := (parse_of_negation hscan).1 h
    rcases readsOperator_not_iff.1 (scanConnective?_eq_some_iff.1 hscan) with he | ⟨he, hstop⟩
    · exact .sign hneg (he ▸ hskips) (skips_skipLayout r) hfills
    · -- The path does not follow the word at once, or it would go on with it.
      obtain ⟨d, v, hd, hstart⟩ := hfills.head
      cases r with
      | nil => cases hd
      | cons c t =>
        cases hc : isLayout c with
        | true =>
          have ht : skipLayout (c :: t) = skipLayout t := List.dropWhile_cons_of_pos hc
          exact .word hneg (he ▸ hskips) hc (skips_skipLayout t) (ht ▸ hfills)
        | false =>
          rw [skipLayout_cons hc] at hd
          cases hd
          have hpart := hstop d rfl
          rw [isNamePart, hstart] at hpart
          cases hpart

theorem Spelled.parse {input : String} (h : f.Spelled input.toList) :
    Field.parse input = .ok f := by
  cases h with
  | plain hneg hfirst hs hfills =>
    have hscan : scanConnective? .not input.toList = none := by
      rw [Option.eq_none_iff_forall_ne_some]
      exact fun r hr => hfirst ((hfills.exists_scanConnective?_iff hs).1 ⟨r, hr⟩)
    rw [parse_of_no_negation hscan, hfills.skipLayout_eq hs]
    exact ⟨hneg, hfills⟩
  | @sign t u hneg hs ht hfills =>
    have hscan : scanConnective? .not input.toList = some t := by
      rw [scanConnective?_eq_some_iff, hs.skipLayout_cons (by decide)]
      exact readsOperator_not_iff.2 (.inl rfl)
    rw [parse_of_negation hscan, hfills.skipLayout_eq ht]
    exact ⟨hneg, hfills⟩
  | @word t u c hneg hs hc ht hfills =>
    have hscan : scanConnective? .not input.toList = some (c :: t) := by
      have hstop : Stops isNamePart (c :: t) := by
        have hstop : Stops Filter.isPathPart (c :: t) := by
          intro d hd
          cases hd
          exact not_isPathPart_of_isLayout hc
        exact hstop.isNamePart
      rw [scanConnective?_eq_some_iff]
      have hskip : skipLayout input.toList = "NOT".toList ++ c :: t :=
        hs.skipLayout_cons (by decide)
      rw [hskip]
      exact readsOperator_not_iff.2 (.inr ⟨rfl, hstop⟩)
    have hskip : skipLayout (c :: t) = u :=
      (List.dropWhile_cons_of_pos hc).trans (hfills.skipLayout_eq ht)
    rw [parse_of_negation hscan, hskip]
    exact ⟨hneg, hfills⟩

/-- A text is read as a field exactly if it is a way to write it. -/
theorem parse_eq_ok_iff {input : String} : Field.parse input = .ok f ↔ f.Spelled input.toList :=
  ⟨spelled_of_parse, Spelled.parse⟩

theorem fills_of_parse {input : String} (h : Field.parse input = .ok f)
    (hneg : f.negated = false) : f.first ≠ "NOT" ∧ f.Fills (skipLayout input.toList) := by
  cases parse_eq_ok_iff.1 h with
  | plain _ hfirst hs hfills => exact ⟨hfirst, (hfills.skipLayout_eq hs).symm ▸ hfills⟩
  | sign htrue | word htrue =>
    rw [hneg] at htrue
    cases htrue

theorem plain_of_parse {input : String} (h : Field.parse input = .ok f)
    (hneg : f.negated = false) : f.Plain := by
  obtain ⟨hfirst, hpath, -⟩ := fills_of_parse h hneg
  exact ⟨hpath.1, hpath.2.1, hfirst, hneg⟩

theorem Plain.parse_name (h : f.Plain) : Field.parse f.name = .ok f :=
  parse_eq_ok_iff.2 (.plain h.not_negated h.first_ne (.refl _)
    ⟨h.isPath, [], (List.append_nil _).symm, .refl _⟩)

/-- A word is a field without a negation exactly if it is the name of a plain field. -/
theorem parse_of_isWord {w : String} (hw : IsWord w.toList) :
    Field.parse w = .ok f ∧ f.negated = false ↔ f.Plain ∧ f.name = w := by
  constructor
  · rintro ⟨h, hneg⟩
    refine ⟨plain_of_parse h hneg, ?_⟩
    -- A word has no room for layout, so the name is all of it.
    obtain ⟨-, -, back, he, hback⟩ := fills_of_parse h hneg
    rw [skipLayout_of_not_blank hw.not_blank] at he
    rw [skips_nil_iff, skipLayout_of_not_blank fun c hc =>
      hw.not_blank c (he ▸ List.mem_append_right _ hc)] at hback
    rw [← String.toList_inj, he, hback, List.append_nil]
  · rintro ⟨hplain, rfl⟩
    exact ⟨hplain.parse_name, hplain.not_negated⟩

end Field

end SearchGateway.Filter
