import SearchGateway.Proofs.Filter.Tokens

/-!
# What the literals of a filter are

`ReadsLiterals` derives a literal, or the items of a list up to its closing bracket, from the
front of a text. `taken_scanLiteral` and `taken_scanItems` say that the scanner reads exactly what
can be derived.
-/

namespace SearchGateway.Filter

open SearchGateway.Text

/-! ## Bare words -/

/-- Where a word ends: at the end of the text, or in front of layout, a parenthesis, a bracket, a
comma, a quote, `&&` or `||`. -/
inductive Delimits : List Char → Prop where
  | nil : Delimits []
  | char {c : Char} (s : List Char) : c ∈ layout ++ ['(', ')', '[', ']', ',', '"'] →
      Delimits (c :: s)
  | and (s : List Char) : Delimits ('&' :: '&' :: s)
  | or (s : List Char) : Delimits ('|' :: '|' :: s)

/-- The characters up to the next delimiter; there is at least one. -/
def ReadsWord (s word rest : List Char) : Prop :=
  word ≠ [] ∧ s = word ++ rest ∧ Delimits rest ∧
    ∀ u v, word = u ++ v → v ≠ [] → ¬ Delimits (v ++ rest)

/-- The characters that end a word wherever they stand. -/
def isDelimiter (c : Char) : Bool :=
  isLayout c || c == '(' || c == ')' || c == '[' || c == ']' || c == ',' || c == '"'

theorem isDelimiter_iff {c : Char} :
    isDelimiter c = true ↔ c ∈ layout ++ ['(', ')', '[', ']', ',', '"'] := by
  simp only [isDelimiter, Bool.or_eq_true, isLayout_iff, beq_iff_eq, List.mem_append,
    List.mem_cons, List.not_mem_nil, or_false, or_assoc]

theorem atDelimiter_cons {c : Char} (h : isDelimiter c = true) (s : List Char) :
    atDelimiter (c :: s) = true := by
  unfold atDelimiter
  split
  · rfl
  · rfl
  · rfl
  · rename_i he
    cases he
    exact h

theorem delimits_iff {s : List Char} : Delimits s ↔ atDelimiter s = true := by
  constructor
  · intro h
    cases h with
    | nil => rfl
    | char s hc => exact atDelimiter_cons (isDelimiter_iff.2 hc) s
    | and s => rfl
    | or s => rfl
  · intro h
    unfold atDelimiter at h
    split at h
    · exact .nil
    · exact .and _
    · exact .or _
    · exact .char _ (isDelimiter_iff.1 h)

theorem readsWord_iff {s word rest : List Char} : ReadsWord s word rest ↔
    word ≠ [] ∧ s = word ++ rest ∧ atDelimiter rest = true ∧
      ∀ u v, word = u ++ v → v ≠ [] → atDelimiter (v ++ rest) = false := by
  simp only [ReadsWord, delimits_iff, Bool.not_eq_true]

theorem splitWord_eq_iff {s word rest : List Char} : splitWord s = (word, rest) ↔
    s = word ++ rest ∧ atDelimiter rest = true ∧
      ∀ u v, word = u ++ v → v ≠ [] → atDelimiter (v ++ rest) = false := by
  induction s generalizing word rest with
  | nil =>
    rw [splitWord]
    constructor
    · intro h
      cases h
      exact ⟨rfl, rfl, fun u v he hv => absurd (List.append_eq_nil_iff.1 he.symm).2 hv⟩
    · rintro ⟨h, -, -⟩
      obtain ⟨rfl, rfl⟩ := List.append_eq_nil_iff.1 h.symm
      rfl
  | cons c cs ih =>
    rw [splitWord]
    split
    · rename_i hd
      constructor
      · intro h
        cases h
        exact ⟨rfl, hd, fun u v he hv => absurd (List.append_eq_nil_iff.1 he.symm).2 hv⟩
      · rintro ⟨h, -, hno⟩
        cases word with
        | nil => rw [h]; rfl
        | cons d word =>
          have := hno [] (d :: word) rfl (by simp)
          rw [← h, hd] at this
          cases this
    · rename_i hd
      constructor
      · intro h
        cases h
        obtain ⟨hcs, hrest, hno⟩ := ih.1 rfl
        refine ⟨by rw [List.cons_append, ← hcs], hrest, fun u v he hv => ?_⟩
        rcases List.cons_eq_append_iff.1 he with ⟨rfl, rfl⟩ | ⟨u', rfl, he'⟩
        · rw [List.cons_append, ← hcs]; exact Bool.eq_false_iff.2 hd
        · exact hno u' v he' hv
      · rintro ⟨h, hrest, hno⟩
        cases word with
        | nil => rw [List.nil_append] at h; rw [← h] at hrest; exact absurd hrest hd
        | cons d word =>
          rw [List.cons_append, List.cons.injEq] at h
          obtain ⟨rfl, rfl⟩ := h
          have := ih.2 ⟨rfl, hrest, fun u v he => hno (c :: u) v (by rw [he, List.cons_append])⟩
          rw [this]

/-! ## Quoted texts -/

/-- `Quoted w text`: between quotes, `w` stands for `text`. A backslash in front of a quote or a
backslash is left out, any other stands for itself. -/
inductive Quoted : List Char → List Char → Prop where
  | nil : Quoted [] []
  | escaped {c : Char} {w text : List Char} :
      c = '"' ∨ c = '\\' → Quoted w text → Quoted ('\\' :: c :: w) (c :: text)
  | plain {c : Char} {w text : List Char} :
      c ≠ '"' → (c = '\\' → ∃ d w', w = d :: w' ∧ d ≠ '"' ∧ d ≠ '\\') → Quoted w text →
      Quoted (c :: w) (c :: text)

theorem splitQuoted_plain {c : Char} {w : List Char} (hc : c ≠ '"')
    (hb : c = '\\' → ∃ d w', w = d :: w' ∧ d ≠ '"' ∧ d ≠ '\\') :
    splitQuoted (c :: w) = (splitQuoted w).map fun (text, rest) => (c :: text, rest) := by
  apply splitQuoted.eq_5
  · exact hc
  · rintro r rfl rfl
    obtain ⟨d, w', he, hd, -⟩ := hb rfl
    cases he
    exact hd rfl
  · rintro r rfl rfl
    obtain ⟨d, w', he, -, hd⟩ := hb rfl
    cases he
    exact hd rfl

theorem splitQuoted_escaped {c : Char} (hc : c = '"' ∨ c = '\\') (w : List Char) :
    splitQuoted ('\\' :: c :: w) = (splitQuoted w).map fun (text, rest) => (c :: text, rest) := by
  rcases hc with rfl | rfl <;> rw [splitQuoted]

theorem splitQuoted_eq_some_iff {s text rest : List Char} :
    splitQuoted s = some (text, rest) ↔ ∃ w, Quoted w text ∧ s = w ++ '"' :: rest := by
  constructor
  · intro h
    fun_induction splitQuoted s generalizing text rest with
    | case1 => cases h
    | case2 r => cases h; exact ⟨[], .nil, rfl⟩
    | case3 r ih =>
      obtain ⟨⟨t, u⟩, hu, he⟩ := Option.map_eq_some_iff.1 h
      cases he
      obtain ⟨w, hw, rfl⟩ := ih hu
      exact ⟨_, .escaped (.inl rfl) hw, rfl⟩
    | case4 r ih =>
      obtain ⟨⟨t, u⟩, hu, he⟩ := Option.map_eq_some_iff.1 h
      cases he
      obtain ⟨w, hw, rfl⟩ := ih hu
      exact ⟨_, .escaped (.inr rfl) hw, rfl⟩
    | case5 c r hquote hescQuote hescSlash ih =>
      obtain ⟨⟨t, u⟩, hu, he⟩ := Option.map_eq_some_iff.1 h
      cases he
      obtain ⟨w, hw, rfl⟩ := ih hu
      refine ⟨c :: w, .plain hquote (fun hc => ?_) hw, rfl⟩
      cases w with
      | nil => exact (hescQuote rest hc rfl).elim
      | cons d w =>
        exact ⟨d, w, rfl, fun hd => hescQuote (w ++ '"' :: rest) hc (by rw [hd]; rfl),
          fun hd => hescSlash (w ++ '"' :: rest) hc (by rw [hd]; rfl)⟩
  · rintro ⟨w, hw, rfl⟩
    induction hw with
    | nil => rw [List.nil_append, splitQuoted]
    | escaped hc _ ih =>
      rw [List.cons_append, List.cons_append, splitQuoted_escaped hc, ih]
      rfl
    | @plain c w text hc hb _ ih =>
      rw [List.cons_append, splitQuoted_plain hc, ih]
      · rfl
      · intro h
        obtain ⟨d, w', rfl, hd⟩ := hb h
        exact ⟨d, w' ++ '"' :: rest, rfl, hd⟩

/-! ## Literals -/

/-- The word is a spelling of a connective. -/
def IsConnective (word : List Char) : Prop := ∃ op : Connective, ∃ a ∈ op.aliases, a.toList = word

theorem isConnectiveWord_iff {word : List Char} :
    isConnectiveWord word = true ↔ IsConnective word := by
  simp only [isConnectiveWord, List.any_eq_true, decide_eq_true_eq]
  constructor
  · rintro ⟨a, ha, rfl⟩
    obtain ⟨s, hs, he⟩ := mem_connectiveTable.1 ha
    exact ⟨a.operator, s, hs, he⟩
  · rintro ⟨op, s, hs, he⟩
    exact ⟨⟨word, op⟩, mem_connectiveTable.2 ⟨s, hs, he⟩, rfl⟩

/-- One literal, or the items of a list after its opening bracket. -/
inductive Extent
  | single | items

inductive ReadsLiterals : Extent → List Char → List Literal → List Char → Prop where
  | word {s word rest : List Char} {v : Literal} :
      ReadsWord s word rest → ¬ IsConnective word → classify word = .ok v →
      ReadsLiterals .single s [v] rest
  | quoted {w text rest : List Char} : Quoted w text →
      ReadsLiterals .single ('"' :: (w ++ '"' :: rest)) [.string (String.ofList text)] rest
  | empty {s rest : List Char} : Skips s (']' :: rest) →
      ReadsLiterals .single ('[' :: s) [.list []] rest
  | list {s rest : List Char} {vs : List Literal} : ReadsLiterals .items s vs rest →
      ReadsLiterals .single ('[' :: s) [.list vs] rest
  | last {s t r rest : List Char} {v : Literal} : Skips s t → ReadsLiterals .single t [v] r →
      Skips r (']' :: rest) → ReadsLiterals .items s [v] rest
  | cons {s t r r' rest : List Char} {v : Literal} {vs : List Literal} : Skips s t →
      ReadsLiterals .single t [v] r → Skips r (',' :: r') → ReadsLiterals .items r' vs rest →
      ReadsLiterals .items s (v :: vs) rest

theorem taken_scanWord_eq (s : List Char) : taken (scanWord s) =
    if (splitWord s).1 = [] ∨ isConnectiveWord (splitWord s).1 = true then none
    else (classify (splitWord s).1).toOption.map fun v => (v, (splitWord s).2) := by
  rw [scanWord]
  split
  · rename_i h
    rw [if_pos (.inl h)]
    rfl
  · rename_i c cs h
    simp only [h]
    split
    · rename_i hop
      rw [if_pos (.inr hop)]
      rfl
    · rename_i hop
      rw [if_neg (by simpa using hop)]
      split <;> rename_i hv <;> rw [hv] <;> rfl

theorem taken_scanWord {s rest : List Char} {v : Literal} : taken (scanWord s) = some (v, rest) ↔
    ∃ word, ReadsWord s word rest ∧ ¬ IsConnective word ∧ classify word = .ok v := by
  rw [taken_scanWord_eq]
  constructor
  · intro h
    split at h
    · cases h
    · rename_i hword
      rw [not_or, isConnectiveWord_iff] at hword
      obtain ⟨v', hv, he⟩ := Option.map_eq_some_iff.1 h
      cases he
      refine ⟨(splitWord s).1, readsWord_iff.2 ⟨hword.1, splitWord_eq_iff.1 rfl⟩, hword.2, ?_⟩
      cases hc : classify (splitWord s).1 with
      | error p => rw [hc] at hv; cases hv
      | ok v' => rw [hc] at hv; cases hv; rfl
  · rintro ⟨word, hreads, hop, hv⟩
    obtain ⟨hne, hword⟩ := readsWord_iff.1 hreads
    rw [← isConnectiveWord_iff] at hop
    rw [splitWord_eq_iff.2 hword, if_neg (not_or.2 ⟨hne, hop⟩), hv]
    rfl

theorem readsLiterals_of_scanWord {s rest : List Char} {v : Literal}
    (h : taken (scanWord s) = some (v, rest)) : ReadsLiterals .single s [v] rest := by
  obtain ⟨word, hword, hop, hv⟩ := taken_scanWord.1 h
  exact .word hword hop hv

theorem taken_scanLiteral_quote (s : List Char) : taken (scanLiteral ('"' :: s)) =
    (splitQuoted s).map fun r => (.string (String.ofList r.1), r.2) := by
  rw [scanLiteral]
  split <;> rename_i h <;> simp only [h] <;> rfl

theorem taken_scanLiteral_bracket (s : List Char) : taken (scanLiteral ('[' :: s)) =
    match skipLayout s with
    | ']' :: rest => some (.list [], rest)
    | rest => (taken (scanItems ('[' :: s) rest)).map fun r => (.list r.1, r.2) := by
  rw [scanLiteral]
  split
  · rename_i rest h
    simp only [h]
    rfl
  · rename_i hne
    split
    · rename_i rest h
      exact (hne rest h).elim
    · cases scanItems ('[' :: s) (skipLayout s) <;> rfl

theorem scanLiteral_word {s : List Char} (hquote : s.head? ≠ some '"')
    (hbracket : s.head? ≠ some '[') : scanLiteral s = scanWord s := by
  rw [scanLiteral]
  · rintro cs rfl; exact hquote rfl
  · rintro cs rfl; exact hbracket rfl

theorem taken_scanItems (start s : List Char) : taken (scanItems start s) =
    match skipLayout s with
    | [] => none
    | c :: cs => (taken (scanLiteral (c :: cs))).bind fun r =>
      match skipLayout r.2 with
      | ',' :: rest => (taken (scanItems start rest)).map fun rs => (r.1 :: rs.1, rs.2)
      | ']' :: rest => some ([r.1], rest)
      | _ => none := by
  rw [scanItems]
  split
  · rename_i h
    simp only [h]
    rfl
  · rename_i c cs h
    simp only [h]
    cases hitem : scanLiteral (c :: cs) with
    | error e => rfl
    | ok item =>
      simp only [bind, Except.bind, taken_ok, Option.bind_some]
      split
      · rename_i rest hr
        simp only [hr]
        cases scanItems start rest <;> rfl
      · rename_i rest hr
        simp only [hr]
        rfl
      · rename_i hr
        simp only [hr]
        rfl
      · rename_i hcomma hclose hnil
        split
        · rename_i rest hr
          exact (hcomma rest hr).elim
        · rename_i rest hr
          exact (hclose rest hr).elim
        · rfl

/-- The reader of an extent takes the literals from the front. -/
def Extent.Takes : Extent → List Char → List Literal → List Char → Prop
  | single, s, vs, rest => ∃ v, vs = [v] ∧ taken (scanLiteral s) = some (v, rest)
  | items, s, vs, rest => ∀ start, taken (scanItems start s) = some (vs, rest)

/-- A word starts with a character that is no delimiter. -/
theorem ReadsWord.head {s word rest : List Char} (h : ReadsWord s word rest) :
    ∃ c t, s = c :: t ∧ isDelimiter c = false := by
  obtain ⟨hne, rfl, -, hno⟩ := readsWord_iff.1 h
  obtain ⟨c, cs, rfl⟩ := List.exists_cons_of_ne_nil hne
  refine ⟨c, cs ++ rest, rfl, ?_⟩
  have hword := hno [] (c :: cs) rfl (List.cons_ne_nil c cs)
  cases hc : isDelimiter c with
  | false => rfl
  | true => rw [List.cons_append, atDelimiter_cons hc] at hword; cases hword

theorem ReadsLiterals.head {s rest : List Char} {vs : List Literal}
    (h : ReadsLiterals .single s vs rest) : ∃ c t, s = c :: t ∧ isLayout c = false ∧ c ≠ ']' := by
  cases h with
  | word hword _ _ =>
    obtain ⟨c, t, rfl, hc⟩ := hword.head
    simp only [isDelimiter, Bool.or_eq_false_iff, beq_eq_false_iff_ne] at hc
    exact ⟨c, t, rfl, hc.1.1.1.1.1.1, hc.1.1.2⟩
  | quoted _ => exact ⟨_, _, rfl, by decide, by decide⟩
  | empty _ => exact ⟨_, _, rfl, by decide, by decide⟩
  | list _ => exact ⟨_, _, rfl, by decide, by decide⟩

/-- The text of a literal after layout is what skipping finds. -/
theorem ReadsLiterals.skipLayout_eq {s t rest : List Char} {vs : List Literal} (hs : Skips s t)
    (h : ReadsLiterals .single t vs rest) :
    ∃ c t', skipLayout s = c :: t' ∧ t = c :: t' ∧ c ≠ ']' := by
  obtain ⟨c, t', rfl, hc, hne⟩ := h.head
  exact ⟨c, t', hs.skipLayout_cons hc, rfl, hne⟩

theorem ReadsLiterals.head_items {s rest : List Char} {vs : List Literal}
    (h : ReadsLiterals .items s vs rest) : ∃ c t, skipLayout s = c :: t ∧ c ≠ ']' := by
  cases h with
  | last hs hv _ => obtain ⟨c, t, he, -, hne⟩ := hv.skipLayout_eq hs; exact ⟨c, t, he, hne⟩
  | cons hs hv _ _ => obtain ⟨c, t, he, -, hne⟩ := hv.skipLayout_eq hs; exact ⟨c, t, he, hne⟩

theorem taken_scanItems_skipLayout (start s : List Char) :
    taken (scanItems start (skipLayout s)) = taken (scanItems start s) := by
  rw [taken_scanItems, taken_scanItems, skipLayout_skipLayout]

theorem ReadsLiterals.takes {e : Extent} {s rest : List Char} {vs : List Literal}
    (h : ReadsLiterals e s vs rest) : e.Takes s vs rest := by
  induction h with
  | @word s word rest v hword hop hv =>
    refine ⟨v, rfl, ?_⟩
    obtain ⟨c, t, rfl, hc⟩ := hword.head
    simp only [isDelimiter, Bool.or_eq_false_iff, beq_eq_false_iff_ne] at hc
    rw [scanLiteral_word (by simpa using hc.2) (by simpa using hc.1.1.1.2), taken_scanWord]
    exact ⟨word, hword, hop, hv⟩
  | quoted hw =>
    refine ⟨_, rfl, ?_⟩
    rw [taken_scanLiteral_quote, splitQuoted_eq_some_iff.2 ⟨_, hw, rfl⟩]
    rfl
  | empty hs =>
    refine ⟨_, rfl, ?_⟩
    rw [taken_scanLiteral_bracket, hs.skipLayout_cons (by decide)]
    rfl
  | @list s rest vs h ih =>
    refine ⟨_, rfl, ?_⟩
    obtain ⟨c, t, he, hne⟩ := h.head_items
    have hitems := ih ('[' :: s)
    rw [← taken_scanItems_skipLayout, he] at hitems
    rw [taken_scanLiteral_bracket, he]
    split
    · rename_i hclose
      cases hclose
      exact absurd rfl hne
    · rw [hitems]
      rfl
  | last hs hv hr ih =>
    intro start
    obtain ⟨c, t, he, rfl, -⟩ := hv.skipLayout_eq hs
    obtain ⟨v, hvs, hitem⟩ := ih
    cases hvs
    rw [taken_scanItems, he]
    simp only [hitem, Option.bind_some, hr.skipLayout_cons (c := ']') (by decide)]
  | cons hs hv hr _ ihv ihvs =>
    intro start
    obtain ⟨c, t, he, rfl, -⟩ := hv.skipLayout_eq hs
    obtain ⟨v, hvs, hitem⟩ := ihv
    cases hvs
    rw [taken_scanItems, he]
    simp only [hitem, Option.bind_some, hr.skipLayout_cons (c := ',') (by decide), ihvs start,
      Option.map_some]

/-! What the readers take can be derived. The items of a list are shorter than the list, and an
item is as long as the text of the items at most. -/

def SingleSound (s : List Char) : Prop :=
  ∀ v rest, taken (scanLiteral s) = some (v, rest) → ReadsLiterals .single s [v] rest

def ItemsSound (s : List Char) : Prop :=
  ∀ start vs rest, taken (scanItems start s) = some (vs, rest) → ReadsLiterals .items s vs rest

theorem singleSound {s : List Char} (hitems : ∀ r, r.length < s.length → ItemsSound r) :
    SingleSound s := by
  intro v rest h
  by_cases hquote : s.head? = some '"'
  · obtain ⟨s, rfl⟩ := List.head?_eq_some_iff.1 hquote
    rw [taken_scanLiteral_quote] at h
    obtain ⟨⟨text, r⟩, hq, he⟩ := Option.map_eq_some_iff.1 h
    cases he
    obtain ⟨w, hw, rfl⟩ := splitQuoted_eq_some_iff.1 hq
    exact .quoted hw
  by_cases hbracket : s.head? = some '['
  · obtain ⟨s, rfl⟩ := List.head?_eq_some_iff.1 hbracket
    rw [taken_scanLiteral_bracket] at h
    split at h
    · rename_i rest' hclose
      cases h
      exact .empty (hclose ▸ skips_skipLayout s)
    · obtain ⟨⟨vs, r⟩, hvs, he⟩ := Option.map_eq_some_iff.1 h
      cases he
      rw [taken_scanItems_skipLayout] at hvs
      exact .list (hitems s (Nat.lt_succ_self _) _ vs r hvs)
  · rw [scanLiteral_word hquote hbracket, taken_scanWord] at h
    obtain ⟨word, hword, hop, hv⟩ := h
    exact .word hword hop hv

theorem itemsSound {s : List Char} (hsingle : ∀ r, r.length ≤ s.length → SingleSound r)
    (hitems : ∀ r, r.length < s.length → ItemsSound r) : ItemsSound s := by
  intro start vs rest h
  have hskip := length_skipLayout_le s
  rw [taken_scanItems] at h
  split at h
  · cases h
  · rename_i c cs he
    rw [he] at hskip
    obtain ⟨⟨v, r⟩, hitem, h⟩ := Option.bind_eq_some_iff.1 h
    have hv := hsingle _ hskip v r hitem
    have hr := length_lt_of_taken hitem
    have hst : Skips s (c :: cs) := he ▸ skips_skipLayout s
    split at h
    · rename_i r' hcomma
      obtain ⟨⟨vs', rest'⟩, hmore, he'⟩ := Option.map_eq_some_iff.1 h
      cases he'
      have hr' : Skips r (',' :: r') := hcomma ▸ skips_skipLayout r
      have hlen := length_skipLayout_le r
      rw [hcomma, List.length_cons] at hlen
      exact .cons hst hv hr' (hitems r' (by omega) start vs' _ hmore)
    · rename_i rest' hclose
      cases h
      exact .last hst hv (hclose ▸ skips_skipLayout r)
    · cases h

theorem readsLiterals_of_taken (s : List Char) : SingleSound s ∧ ItemsSound s := by
  induction hn : s.length using Nat.strong_induction_on generalizing s with
  | _ n ih =>
    subst hn
    have hshorter (r : List Char) (hr : r.length < s.length) := ih r.length hr r rfl
    have hitems (r : List Char) (hr : r.length < s.length) := (hshorter r hr).2
    have hsingle (r : List Char) (hr : r.length ≤ s.length) : SingleSound r :=
      singleSound fun u hu => hitems u (Nat.lt_of_lt_of_le hu hr)
    exact ⟨hsingle s (Nat.le_refl _), itemsSound hsingle hitems⟩

theorem taken_scanLiteral {s rest : List Char} {v : Literal} :
    taken (scanLiteral s) = some (v, rest) ↔ ReadsLiterals .single s [v] rest := by
  constructor
  · exact (readsLiterals_of_taken s).1 v rest
  · intro h
    obtain ⟨v', he, htaken⟩ := h.takes
    cases he
    exact htaken

end SearchGateway.Filter
