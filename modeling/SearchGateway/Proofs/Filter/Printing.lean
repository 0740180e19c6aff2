import SearchGateway.Proofs.Filter.Canonical

/-!
# The text of a filter derives it

Every part of a canonical filter is derived from its text: literals (`readsLiterals_chars`),
comparisons, groups, and so whole filters (`Canonical.derives_chars`, `Canonical.sentence_chars`).
The statements are about a text in front of anything that ends a bare word, since that is what
follows a part inside of a larger one.
-/

namespace SearchGateway.Filter

open SearchGateway.Text

/-! ## Bare words -/

/-- The characters that cannot end a word. -/
def isWordPart (c : Char) : Bool := !isDelimiter c && c != '&' && c != '|'

theorem atDelimiter_eq_false {c : Char} (h : isWordPart c = true) (s : List Char) :
    atDelimiter (c :: s) = false := by
  simp only [isWordPart, Bool.and_eq_true, Bool.not_eq_true', bne_iff_ne, ne_eq] at h
  unfold atDelimiter
  split
  · rename_i he; cases he
  · rename_i he; cases he; exact absurd rfl h.1.2
  · rename_i he; cases he; exact absurd rfl h.2
  · rename_i he; cases he; exact h.1.1

theorem readsWord_append {word rest : List Char} (hne : word ≠ [])
    (hword : ∀ c ∈ word, isWordPart c = true) (hrest : atDelimiter rest = true) :
    ReadsWord (word ++ rest) word rest := by
  refine readsWord_iff.2 ⟨hne, rfl, hrest, fun u v he hv => ?_⟩
  obtain ⟨c, v, rfl⟩ := List.exists_cons_of_ne_nil hv
  exact atDelimiter_eq_false (hword c (by rw [he]; simp)) _

theorem isWordPart_of_isDigit {c : Char} (h : c.isDigit = true) : isWordPart c = true := by
  simp only [isWordPart, isDelimiter, isLayout, Bool.and_eq_true, Bool.not_eq_true',
    Bool.or_eq_false_iff, beq_eq_false_iff_ne, bne_iff_ne]
  and_intros <;> exact ne_of_isDigit h rfl

theorem isWordPart_withSign (negative : Bool) {cs : List Char}
    (h : ∀ c ∈ cs, isWordPart c = true) :
    ∀ c ∈ Numeral.withSign negative cs, isWordPart c = true := by
  rw [Numeral.withSign]
  split
  · exact List.forall_mem_cons.2 ⟨by decide, h⟩
  · exact h

/-! ## Literals -/

theorem readsLiterals_int (i : Int64) {rest : List Char} (hrest : atDelimiter rest = true) :
    ReadsLiterals .single (Literal.intChars i ++ rest) [.int i] rest := by
  have hread := read?_intChars i
  refine .word (readsWord_append ?_ ?_ hrest) (not_isConnective_of_read? hread)
    (classify_intChars i)
  · intro he
    rw [he] at hread
    cases hread
  · rw [intChars_eq]
    exact isWordPart_withSign _ fun c hc =>
      isWordPart_of_isDigit (Nat.isDigit_of_mem_toDigits (by decide) (by decide) hc)

theorem readsLiterals_float {x : Binary64} (hx : x.isFinite = true) {rest : List Char}
    (hrest : atDelimiter rest = true) :
    ReadsLiterals .single (x.pointedChars ++ rest) [.float x] rest := by
  obtain ⟨n, hread, -⟩ := read?_pointedChars hx
  refine .word (readsWord_append ?_ ?_ hrest) (not_isConnective_of_read? hread)
    (classify_pointedChars hx)
  · intro he
    rw [he] at hread
    cases hread
  · obtain ⟨whole, fraction, h, hchars⟩ := Binary64.pointedChars_eq hx
    rw [hchars]
    refine isWordPart_withSign _ (List.forall_mem_append.2 ⟨fun c hc => ?_, ?_⟩)
    · exact isWordPart_of_isDigit (h.isDigit c (List.mem_append_left _ hc))
    · refine List.forall_mem_cons.2 ⟨by decide, fun c hc => ?_⟩
      exact isWordPart_of_isDigit (h.isDigit c (List.mem_append_right _ hc))

/-- Between quotes, an escaped text stands for the text. -/
theorem quoted_escape (text : List Char) : Quoted (Literal.escape text) text := by
  induction text with
  | nil => exact .nil
  | cons c cs ih =>
    rw [Literal.escape]
    split
    · rename_i hc
      exact .escaped hc ih
    · rename_i hc
      rw [not_or] at hc
      exact .plain hc.1 (fun he => absurd he hc.2) ih

theorem readsLiterals_string (s : String) (rest : List Char) :
    ReadsLiterals .single (Literal.chars (.string s) ++ rest) [.string s] rest := by
  have hquoted : ReadsLiterals .single ('"' :: (Literal.escape s.toList ++ '"' :: rest))
      [.string (String.ofList s.toList)] rest := .quoted (quoted_escape s.toList)
  rw [String.ofList_toList] at hquoted
  rw [Literal.chars]
  simpa using hquoted

theorem readsLiterals_items {items : List Literal} (hne : items ≠ [])
    (h : ∀ v ∈ items, ∀ rest, atDelimiter rest = true →
      ReadsLiterals .single (v.chars ++ rest) [v] rest) (rest : List Char) :
    ReadsLiterals .items (Literal.itemsChars items ++ ']' :: rest) items rest := by
  induction items with
  | nil => exact absurd rfl hne
  | cons v vs ih =>
    have hv := h v List.mem_cons_self
    cases vs with
    | nil =>
      rw [Literal.itemsChars]
      exact .last (.refl _) (hv _ (atDelimiter_cons (by decide) rest)) (.refl _)
    | cons w ws =>
      have hmore := ih (by simp) fun u hu => h u (List.mem_cons_of_mem v hu)
      rw [Literal.itemsChars, List.append_assoc, List.cons_append]
      · exact .cons (.refl _) (hv _ (atDelimiter_cons (by decide) _)) (.refl _) hmore
      · simp

/-- A literal is read back from its text. -/
theorem readsLiterals_chars {v : Literal} (h : v.Finite) :
    ∀ rest, atDelimiter rest = true → ReadsLiterals .single (v.chars ++ rest) [v] rest := by
  have hname {word rest : List Char} {v : Literal} (hne : word ≠ [])
      (hword : word.all isWordPart = true) (hop : isConnectiveWord word = false)
      (hclass : classify word = .ok v) (hrest : atDelimiter rest = true) :
      ReadsLiterals .single (word ++ rest) [v] rest := by
    refine .word (readsWord_append hne (List.all_eq_true.1 hword) hrest) ?_ hclass
    rw [← isConnectiveWord_iff, hop]
    decide
  induction h with
  | null =>
    intro rest hrest
    rw [Literal.chars]
    exact hname (by decide) (by decide) (by decide) rfl hrest
  | bool b =>
    intro rest hrest
    rw [Literal.chars]
    cases b <;> exact hname (by decide) (by decide) (by decide) rfl hrest
  | int i =>
    intro rest hrest
    rw [Literal.chars]
    exact readsLiterals_int i hrest
  | float hx =>
    intro rest hrest
    rw [Literal.chars]
    exact readsLiterals_float hx hrest
  | string s =>
    intro rest _
    exact readsLiterals_string s rest
  | @list items _ ih =>
    intro rest _
    rw [Literal.chars, List.cons_append, List.append_assoc, List.singleton_append]
    by_cases hne : items = []
    · subst hne
      exact .empty (.refl _)
    · exact .list (readsLiterals_items hne ih rest)

/-! ## Operators -/

/-- In front of a space a spelling is the longest one, since no spelling holds a space. -/
theorem readsOperator_space {ω : Type} {spellings : ω → List String} {a : Alias ω}
    (ha : a.IsSpelling spellings) (hspace : ∀ b : Alias ω, b.IsSpelling spellings → ' ' ∉ b.text)
    (rest : List Char) :
    ReadsOperator spellings (a.text ++ ' ' :: rest) a.operator (' ' :: rest) := by
  refine ⟨a, rfl, ha, ⟨rfl, fun _ c hc => by cases hc; decide⟩, fun b hb r hstands => ?_⟩
  refine Nat.le_of_not_lt fun hlt => hspace b hb ?_
  have hlong : b.text <+: a.text ++ ' ' :: rest := ⟨r, hstands.1.symm⟩
  have hshort : a.text ++ [' '] <+: a.text ++ ' ' :: rest := ⟨rest, by simp⟩
  have hinside := List.prefix_of_prefix_length_le hshort hlong
    (by simpa using Nat.succ_le_of_lt hlt)
  exact hinside.subset (by simp)

theorem readsOperator_connective {op : Connective} (hop : op ≠ .unset) (rest : List Char) :
    ReadsOperator Connective.aliases (op.name.toList ++ ' ' :: rest) op (' ' :: rest) := by
  have hspelling : Alias.IsSpelling Connective.aliases ⟨op.name.toList, op⟩ := by
    refine ⟨op.name, ?_, rfl⟩
    cases op with
    | unset => exact absurd rfl hop
    | _ => decide
  refine readsOperator_space hspelling (fun b hb => ?_) rest
  have hspace : ∀ b ∈ connectiveTable, ' ' ∉ b.text := by decide
  exact hspace b (mem_connectiveTable.2 hb)

theorem readsOperator_relation {relation : Relation} (h : relation ∈ Relation.all)
    (rest : List Char) : ReadsOperator Relation.aliases (relation.name.toList ++ ' ' :: rest)
      relation (' ' :: rest) := by
  have hspelling : Alias.IsSpelling Relation.aliases ⟨relation.name.toList, relation⟩ := by
    refine ⟨relation.name, ?_, rfl⟩
    cases relation with
    | unset => exact absurd h (by decide)
    | _ => decide
  refine readsOperator_space hspelling (fun b hb => ?_) rest
  have hspace : ∀ b ∈ relationTable, ' ' ∉ b.text := by decide
  exact hspace b (mem_relationTable.2 hb)

/-! ## Comparisons -/

/-- Layout in front changes nothing. -/
theorem Derives.skip {x : Nonterminal} {s t rest : List Char} {ns : List Filter}
    (h : Derives x t ns rest) (hs : Skips s t) : Derives x s ns rest := by
  induction h generalizing s with
  | comparison ht hnot hc => exact .comparison (hs.trans ht) hnot hc
  | not ht hop hn _ => exact .not (hs.trans ht) hop hn
  | parens ht hns hn hr _ => exact .parens (hs.trans ht) hns hn hr
  | factor _ ih => exact .factor (ih hs)
  | and _ hr hop hns ih _ => exact .and (ih hs) hr hop hns
  | term _ hn ih => exact .term (ih hs) hn
  | or _ hn hr hop hms ih _ => exact .or (ih hs) hn hr hop hms

/-- A written negation negates what it stands in front of. -/
theorem derives_negation (negated : Bool) {s rest : List Char} {n : Filter}
    (h : Derives .factor s [n] rest) :
    Derives .factor ((if negated then "NOT ".toList else []) ++ s)
      [if negated then n.negate else n] rest := by
  cases negated with
  | false => exact h
  | true =>
    have hnot : ReadsOperator Connective.aliases ("NOT".toList ++ ' ' :: s) .not (' ' :: s) :=
      readsOperator_connective (by decide) s
    exact .not (.refl _) hnot (h.skip (skips_space s))

theorem isPath_text {c : Comparison} (h : c.Canonical) :
    IsPath c.field.path c.field.text.toList := by
  refine ⟨h.path_ne, h.isName, ?_⟩
  rw [Field.text, h.not_negated, if_neg (by decide), Field.name, join, String.toList_ofList]
  rfl

theorem readsComparison_chars {c : Comparison} (h : c.Canonical) {rest : List Char}
    (hrest : atDelimiter rest = true) :
    ReadsComparison (c.field.text.toList ++ ' ' ::
      (c.relation.name.toList ++ ' ' :: (c.value.chars ++ rest)))
      { c with negated := false } rest := by
  have hfield : c.field = ⟨c.field.path, false⟩ := by rw [← h.not_negated]
  refine ⟨c.field.path, _, _, _, _, c.relation, c.value, ?_, skips_space _,
    readsOperator_relation h.mem_all _, skips_space _, readsLiterals_chars h.finite rest hrest,
    h.fits, ?_⟩
  · refine (readsField_iff (by simp)).2 ⟨_, rfl, isPath_text h, fun d hd => ?_⟩
    cases hd
    decide
  · rw [← hfield]

theorem derives_comparison {c : Comparison} (h : c.Canonical) {rest : List Char}
    (hrest : atDelimiter rest = true) :
    Derives .factor (c.chars ++ rest) [.comparison c] rest := by
  have hnot : ∀ r, ¬ ReadsOperator Connective.aliases (c.field.text.toList ++ ' ' ::
      (c.relation.name.toList ++ ' ' :: (c.value.chars ++ rest))) .not r := by
    intro r hr
    have hstop : Stops isPathPart (' ' ::
        (c.relation.name.toList ++ ' ' :: (c.value.chars ++ rest))) := by
      intro d hd
      cases hd
      decide
    exact h.first_ne (((isPath_text h).exists_readsOperator_not_iff hstop).1 ⟨r, hr⟩)
  have hplain := Derives.comparison (.refl _) hnot (readsComparison_chars h hrest)
  have hsigned : (if c.negated then negate (.comparison { c with negated := false })
      else .comparison { c with negated := false }) = Filter.comparison c := by
    obtain ⟨field, relation, value, negated⟩ := c
    cases negated <;> rfl
  have := derives_negation c.negated hplain
  rw [hsigned] at this
  simpa [Comparison.chars] using this

/-! ## Groups -/

/-- The text of the filter, in front of what ends a word, derives it as a factor. -/
def DerivesText (n : Filter) : Prop :=
  ∀ rest, atDelimiter rest = true → Derives .factor (n.chars ++ rest) [n] rest

theorem derives_conjuncts {ns : List Filter} (hne : ns ≠ []) (h : ∀ n ∈ ns, DerivesText n)
    {rest : List Char} (hrest : atDelimiter rest = true) :
    Derives .term (childrenChars .and ns ++ rest) ns rest := by
  induction ns with
  | nil => exact absurd rfl hne
  | cons n ns ih =>
    have hn := h n List.mem_cons_self
    cases ns with
    | nil =>
      rw [childrenChars]
      exact .factor (hn rest hrest)
    | cons m ms =>
      have hmore := ih (by simp) fun k hk => h k (List.mem_cons_of_mem n hk)
      rw [childrenChars, List.append_assoc, List.cons_append, List.append_assoc, List.cons_append]
      · exact .and (hn _ (atDelimiter_cons (by decide) _)) (skips_space _)
          (readsOperator_connective (by decide) _) (hmore.skip (skips_space _))
      · simp

theorem derives_alternatives {ns : List Filter} (hne : ns ≠ []) (h : ∀ n ∈ ns, DerivesText n)
    {rest : List Char} (hrest : atDelimiter rest = true) :
    Derives .expr (childrenChars .or ns ++ rest) ns rest := by
  induction ns with
  | nil => exact absurd rfl hne
  | cons n ns ih =>
    have hn := h n List.mem_cons_self
    cases ns with
    | nil =>
      rw [childrenChars]
      exact .term (.factor (hn rest hrest)) (.one n)
    | cons m ms =>
      have hmore := ih (by simp) fun k hk => h k (List.mem_cons_of_mem n hk)
      rw [childrenChars, List.append_assoc, List.cons_append, List.append_assoc, List.cons_append]
      · exact .or (.factor (hn _ (atDelimiter_cons (by decide) _))) (.one n) (skips_space _)
          (readsOperator_connective (by decide) _) (hmore.skip (skips_space _))
      · simp

/-- Children in parentheses derive their sequence. -/
theorem derives_parens {op : Connective} (hop : op.IsJunction) {ns : List Filter} (hne : ns ≠ [])
    (h : ∀ n ∈ ns, DerivesText n) (rest : List Char) :
    Derives .factor ('(' :: (childrenChars op ns ++ ')' :: rest)) [collapse op ns] rest := by
  have hrest : atDelimiter (')' :: rest) = true := atDelimiter_cons (by decide) rest
  rcases hop with rfl | rfl
  · have hns := derives_conjuncts hne h hrest
    exact .parens (.refl _) (.term hns (hns.joins_collapse .and)) (.one _) (.refl _)
  · have hns := derives_alternatives hne h hrest
    exact .parens (.refl _) hns (hns.joins_collapse .or) (.refl _)

/-- A canonical group is the sequence of its children, negated if it is. -/
theorem GroupCanonical.eq_collapse {op : Connective} {ns : List Filter} {negated : Bool}
    (h : GroupCanonical op ns negated) :
    (if negated then (collapse op ns).negate else collapse op ns) = .group op ns negated := by
  obtain ⟨-, hlength | ⟨rfl, rfl, n, rfl, hn⟩⟩ := h
  · match ns, hlength with
    | n :: m :: ms, _ => cases negated <;> rfl
  · exact if_pos hn

theorem GroupCanonical.ne_nil {op : Connective} {ns : List Filter} {negated : Bool}
    (h : GroupCanonical op ns negated) : ns ≠ [] := by
  rintro rfl
  obtain ⟨-, hlength | ⟨-, -, n, hn, -⟩⟩ := h
  · cases hlength
  · cases hn

theorem Canonical.derives_chars {n : Filter} (h : Canonical n) : DerivesText n := by
  induction h with
  | comparison hc =>
    intro rest hrest
    rw [chars]
    exact derives_comparison hc hrest
  | @group op ns negated hq _ ih =>
    intro rest _
    have hparens := derives_negation negated (derives_parens hq.1 hq.ne_nil ih rest)
    rw [hq.eq_collapse] at hparens
    rw [chars]
    simpa using hparens

/-- The text of a canonical filter is a sentence for it. -/
theorem Canonical.sentence_chars {n : Filter} (h : Canonical n) : Sentence n.chars n := by
  have hfactor := h.derives_chars [] rfl
  rw [List.append_nil] at hfactor
  exact ⟨[n], [], .term (.factor hfactor) (.one n), .one n, .refl _⟩

end SearchGateway.Filter
