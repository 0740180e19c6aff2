import SearchGateway.Proofs.Filter.Printing

/-!
# Filters in parentheses

A filter may be put into parentheses as it is written. Nothing in it reads on into the closing
parenthesis: it ends a name, a bare word and an operator, and no operator is spelled with it.
`Derives.enclosed` carries this from the tokens to derivations, and `Sentence.parens` says that a
sentence in parentheses is derived for the same filter.
-/

namespace SearchGateway.Filter

open SearchGateway.Text

/-! ## Tokens in front of a closing parenthesis -/

theorem Skips.append {s t : List Char} (h : Skips s t) (u : List Char) :
    Skips (s ++ u) (t ++ u) := by
  obtain ⟨blanks, hb, rfl⟩ := h
  exact ⟨blanks, hb, List.append_assoc ..⟩

/-- What stops before the parenthesis stops at it. -/
theorem Stops.enclosed {p : Char → Bool} {s : List Char} (h : Stops p s) (hp : p ')' = false)
    (u : List Char) : Stops p (s ++ ')' :: u) := by
  intro c hc
  cases s with
  | nil => cases hc; exact hp
  | cons d s => exact h c hc

theorem ReadsOperator.enclosed {ω : Type} {spellings : ω → List String} {s rest : List Char}
    {op : ω} (h : ReadsOperator spellings s op rest)
    (hspelled : ∀ b : Alias ω, b.IsSpelling spellings → ')' ∉ b.text) (u : List Char) :
    ReadsOperator spellings (s ++ ')' :: u) op (rest ++ ')' :: u) := by
  obtain ⟨a, hop, ha, ⟨rfl, hstop⟩, hlong⟩ := h
  refine ⟨a, hop, ha, ⟨List.append_assoc .., fun hword => ?_⟩, fun b hb r hstands => ?_⟩
  · exact Stops.enclosed (hstop hword) (by decide) u
  · -- A longer spelling would reach into the parenthesis.
    obtain ⟨he, hend⟩ := hstands
    rcases List.append_eq_append_iff.1 he with ⟨t, hb', ht⟩ | ⟨t, hs, rfl⟩
    · cases t with
      | nil =>
        rw [List.append_nil] at hb'
        exact hlong b hb [] ⟨by rw [hb', List.append_nil], fun _ c hc => nomatch hc⟩
      | cons c t =>
        obtain ⟨rfl, -⟩ := List.cons.inj ht
        exact absurd (hb' ▸ List.mem_append_right _ List.mem_cons_self) (hspelled b hb)
    · refine hlong b hb t ⟨hs, fun hword c hc => hend hword c ?_⟩
      cases t with
      | nil => cases hc
      | cons d t => exact hc

theorem ReadsOperator.enclosed_connective {s rest : List Char} {op : Connective}
    (h : ReadsOperator Connective.aliases s op rest) (u : List Char) :
    ReadsOperator Connective.aliases (s ++ ')' :: u) op (rest ++ ')' :: u) := by
  have hspelled : ∀ b ∈ connectiveTable, ')' ∉ b.text := by decide
  exact h.enclosed (fun b hb => hspelled b (mem_connectiveTable.2 hb)) u

theorem ReadsOperator.enclosed_relation {s rest : List Char} {op : Relation}
    (h : ReadsOperator Relation.aliases s op rest) (u : List Char) :
    ReadsOperator Relation.aliases (s ++ ')' :: u) op (rest ++ ')' :: u) := by
  have hspelled : ∀ b ∈ relationTable, ')' ∉ b.text := by decide
  exact h.enclosed (fun b hb => hspelled b (mem_relationTable.2 hb)) u

theorem atDelimiter_cons_eq (c : Char) (s : List Char) : atDelimiter (c :: s) =
    (isDelimiter c || (c == '&' && s.head? == some '&') || (c == '|' && s.head? == some '|')) := by
  unfold atDelimiter
  split
  · rename_i he; cases he
  · rename_i he; cases he; rfl
  · rename_i he; cases he; rfl
  · rename_i hand hor he
    cases he
    have hpair {d : Char} (hd : ∀ t, c = d → s = d :: t → False) :
        (c == d && s.head? == some d) = false := by
      rw [Bool.eq_false_iff]
      intro h
      rw [Bool.and_eq_true, beq_iff_eq, beq_iff_eq] at h
      obtain ⟨t, ht⟩ := List.head?_eq_some_iff.1 h.2
      exact hd t h.1 ht
    rw [hpair hand, hpair hor, Bool.or_false, Bool.or_false]
    rfl

theorem atDelimiter_enclosed {s : List Char} (hs : s ≠ []) (u : List Char) :
    atDelimiter (s ++ ')' :: u) = atDelimiter s := by
  obtain ⟨c, s, rfl⟩ := List.exists_cons_of_ne_nil hs
  rw [List.cons_append, atDelimiter_cons_eq, atDelimiter_cons_eq]
  cases s <;> rfl

theorem ReadsWord.enclosed {s word rest : List Char} (h : ReadsWord s word rest) (u : List Char) :
    ReadsWord (s ++ ')' :: u) word (rest ++ ')' :: u) := by
  obtain ⟨hne, rfl, hrest, hinside⟩ := readsWord_iff.1 h
  refine readsWord_iff.2 ⟨hne, List.append_assoc .., ?_, fun v w he hw => ?_⟩
  · by_cases hnil : rest = []
    · subst hnil
      exact atDelimiter_cons (by decide) u
    · rw [atDelimiter_enclosed hnil]
      exact hrest
  · have hne' : w ++ rest ≠ [] := fun hnil => hw (List.append_eq_nil_iff.1 hnil).1
    rw [← List.append_assoc, atDelimiter_enclosed hne']
    exact hinside v w he hw

theorem ReadsLiterals.enclosed {e : Extent} {s rest : List Char} {vs : List Literal}
    (h : ReadsLiterals e s vs rest) (u : List Char) :
    ReadsLiterals e (s ++ ')' :: u) vs (rest ++ ')' :: u) := by
  induction h with
  | word hword hnot hclass => exact .word (hword.enclosed u) hnot hclass
  | @quoted w text rest hquoted =>
    have htext : '"' :: (w ++ '"' :: rest) ++ ')' :: u =
        '"' :: (w ++ '"' :: (rest ++ ')' :: u)) := by
      simp
    rw [htext]
    exact .quoted hquoted
  | empty hskips => exact .empty (hskips.append _)
  | list _ ih => exact .list ih
  | last hs _ hr ih => exact .last (hs.append _) ih (hr.append _)
  | cons hs _ hr _ ih ihs => exact .cons (hs.append _) ih (hr.append _) ihs

/-! ## Derivations in front of a closing parenthesis -/

theorem ReadsComparison.enclosed {s rest : List Char} {c : Comparison}
    (h : ReadsComparison s c rest) (u : List Char) :
    ReadsComparison (s ++ ')' :: u) c (rest ++ ')' :: u) := by
  obtain ⟨path, s₁, s₂, s₃, s₄, relation, v, hfield, h₁₂, hop, h₃₄, hv, hfits, rfl⟩ := h
  have hop' := hop.enclosed_relation u
  have h₁₂' := h₁₂.append (')' :: u)
  obtain ⟨text, rfl, hpath, hstop⟩ :=
    (readsField_iff (head?_ne_dot_of_readsOperator h₁₂ hop)).1 hfield
  have hfield' : ReadsField (text ++ s₁ ++ ')' :: u) path (s₁ ++ ')' :: u) :=
    (readsField_iff (head?_ne_dot_of_readsOperator h₁₂' hop')).2
      ⟨text, List.append_assoc .., hpath, hstop.enclosed (by decide) u⟩
  exact ⟨path, _, _, _, _, relation, v, hfield', h₁₂', hop', h₃₄.append _, hv.enclosed u, hfits,
    rfl⟩

/-- Whether a comparison starts with a negation is seen at its first name. -/
theorem ReadsComparison.not_enclosed {s rest : List Char} {c : Comparison}
    (h : ReadsComparison s c rest) (hnot : ∀ r, ¬ ReadsOperator Connective.aliases s .not r)
    (u : List Char) : ∀ r, ¬ ReadsOperator Connective.aliases (s ++ ')' :: u) .not r := by
  obtain ⟨path, s₁, s₂, s₃, s₄, relation, v, hfield, h₁₂, hop, -⟩ := h
  obtain ⟨text, rfl, hpath, hstop⟩ :=
    (readsField_iff (head?_ne_dot_of_readsOperator h₁₂ hop)).1 hfield
  intro r hr
  rw [List.append_assoc] at hr
  have hfirst :=
    (hpath.exists_readsOperator_not_iff (hstop.enclosed (by decide) u)).1 ⟨r, hr⟩
  obtain ⟨r', hr'⟩ := (hpath.exists_readsOperator_not_iff hstop).2 hfirst
  exact hnot r' hr'

theorem Derives.enclosed {x : Nonterminal} {s rest : List Char} {ns : List Filter}
    (h : Derives x s ns rest) (u : List Char) :
    Derives x (s ++ ')' :: u) ns (rest ++ ')' :: u) := by
  induction h with
  | comparison hs hnot hc =>
    exact .comparison (hs.append _) (hc.not_enclosed hnot u) (hc.enclosed u)
  | not hs hop _ ih => exact .not (hs.append _) (hop.enclosed_connective u) ih
  | parens hs _ hn hr ih => exact .parens (hs.append _) ih hn (hr.append _)
  | factor _ ih => exact .factor ih
  | and _ hs hop _ ihn ihns => exact .and ihn (hs.append _) (hop.enclosed_connective u) ihns
  | term _ hn ih => exact .term ih hn
  | or _ hn hs hop _ ihns ihms => exact .or ihns hn (hs.append _) (hop.enclosed_connective u) ihms

/-! ## Sentences in parentheses -/

theorem Sentence.parens {s : List Char} {n : Filter} (h : Sentence s n) (u : List Char) :
    Derives .factor ('(' :: (s ++ ')' :: u)) [n] u := by
  obtain ⟨ns, rest, hns, hn, hrest⟩ := h
  exact .parens (.refl _) (hns.enclosed u) hn (hrest.append (')' :: u))

/-- A filter in parentheses with two negations in front. -/
theorem parse_negated_twice {f : String} {n : Filter} (h : parse f = .ok n) :
    parse ("NOT NOT (" ++ f ++ ")") = .ok n.negate.negate := by
  have hparens := (parse_eq_ok_iff_derives.1 h).parens []
  have htwice := derives_negation true (derives_negation true hparens)
  refine parse_eq_ok_iff_derives.2
    ⟨[n.negate.negate], [], .term (.factor ?_) (.one _), .one _, .refl _⟩
  have htext : ("NOT NOT (" ++ f ++ ")").toList =
      "NOT ".toList ++ ("NOT ".toList ++ '(' :: (f.toList ++ [')'])) := by
    simp [String.toList_append]
  rw [htext]
  exact htwice

end SearchGateway.Filter
