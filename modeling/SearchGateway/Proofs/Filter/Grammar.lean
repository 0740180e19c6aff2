import Mathlib.Data.Set.Subsingleton
import SearchGateway.Proofs.Filter.Literals

/-!
# The grammar of filters

    expr       ::= term (OR term)*
    term       ::= factor (AND factor)*
    factor     ::= NOT factor | '(' expr ')' | comparison
    comparison ::= field relation literal

`Derives` is this grammar over the text, with layout in front of every token. An expression and a
term are derived as the list of their operands, and `Joins` says which filter such a list stands
for. Nothing in it says that a sequence of operands goes on as far as it can: that follows, since
only `OR`, a closing parenthesis and the end come after a term. `taken_scanAlternatives` says that
the reader of an expression takes what can be derived, and `parse_eq_ok_iff_derives` that a whole
text is read as a filter exactly if it is derived for it.
-/

namespace SearchGateway

namespace Filter

open SearchGateway.Text

/-- A field, a relation and a literal that fits it. -/
def ReadsComparison (s : List Char) (c : Comparison) (rest : List Char) : Prop :=
  ∃ path s₁ s₂ s₃ s₄ relation v, ReadsField s path s₁ ∧ Skips s₁ s₂ ∧
    ReadsOperator Relation.aliases s₂ relation s₃ ∧ Skips s₃ s₄ ∧
    ReadsLiterals .single s₄ [v] rest ∧ relation.rejects v = none ∧
    c = ⟨⟨path, false⟩, relation, v, false⟩

/-- What a sequence of operands stands for: one operand for itself, several for one group that holds
them in the order written. -/
inductive Joins (op : Connective) : List Filter → Filter → Prop where
  | one (n : Filter) : Joins op [n] n
  | several (n m : Filter) (ns : List Filter) :
      Joins op (n :: m :: ns) (.group op (n :: m :: ns) false)

inductive Nonterminal
  | expr | term | factor

inductive Derives : Nonterminal → List Char → List Filter → List Char → Prop where
  | comparison {s t rest : List Char} {c : Comparison} : Skips s t →
      (∀ r, ¬ ReadsOperator Connective.aliases t .not r) → ReadsComparison t c rest →
      Derives .factor s [.comparison c] rest
  | not {s t r rest : List Char} {n : Filter} : Skips s t →
      ReadsOperator Connective.aliases t .not r → Derives .factor r [n] rest →
      Derives .factor s [n.negate] rest
  | parens {s t r rest : List Char} {ns : List Filter} {n : Filter} : Skips s ('(' :: t) →
      Derives .expr t ns r → Joins .or ns n → Skips r (')' :: rest) →
      Derives .factor s [n] rest
  | factor {s rest : List Char} {n : Filter} : Derives .factor s [n] rest →
      Derives .term s [n] rest
  | and {s r t r' rest : List Char} {n : Filter} {ns : List Filter} : Derives .factor s [n] r →
      Skips r t → ReadsOperator Connective.aliases t .and r' → Derives .term r' ns rest →
      Derives .term s (n :: ns) rest
  | term {s rest : List Char} {ns : List Filter} {n : Filter} : Derives .term s ns rest →
      Joins .and ns n → Derives .expr s [n] rest
  | or {s r t r' rest : List Char} {ns ms : List Filter} {n : Filter} : Derives .term s ns r →
      Joins .and ns n → Skips r t → ReadsOperator Connective.aliases t .or r' →
      Derives .expr r' ms rest → Derives .expr s (n :: ms) rest

/-- The whole text is an expression, with layout after it, that stands for the filter. -/
def Sentence (s : List Char) (n : Filter) : Prop :=
  ∃ ns rest, Derives .expr s ns rest ∧ Joins .or ns n ∧ Skips rest []

theorem joins_iff {op : Connective} {ns : List Filter} {n : Filter} :
    Joins op ns n ↔ ns ≠ [] ∧ n = collapse op ns := by
  constructor
  · intro h
    cases h with
    | one n => exact ⟨List.cons_ne_nil n [], rfl⟩
    | several n m ns => exact ⟨List.cons_ne_nil n _, rfl⟩
  · rintro ⟨hne, rfl⟩
    cases ns with
    | nil => exact absurd rfl hne
    | cons n ns =>
      cases ns with
      | nil => exact .one n
      | cons m ns => exact .several n m ns

theorem Derives.ne_nil {x : Nonterminal} {s rest : List Char} {ns : List Filter}
    (h : Derives x s ns rest) : ns ≠ [] := by
  cases h <;> exact List.cons_ne_nil _ _

/-- Operands that are derived are joined by `collapse`. -/
theorem Derives.joins_collapse {x : Nonterminal} {s rest : List Char} {ns : List Filter}
    (h : Derives x s ns rest) (op : Connective) : Joins op ns (collapse op ns) :=
  joins_iff.2 ⟨h.ne_nil, rfl⟩

/-! ## Comparisons -/

theorem taken_scanField (s : List Char) : taken (scanField s) = taken (scanPath s) := by
  rw [scanField]
  cases scanPath s with
  | ok r => rfl
  | error e =>
    simp only
    split <;> rfl

theorem make_eq_ok_iff {field : Field} {relation : Relation} {v : Literal} {c : Comparison} :
    Comparison.make field relation v = .ok c ↔
      relation.rejects v = none ∧ c = ⟨field, relation, v, false⟩ := by
  rw [Comparison.make, Comparison.misfit?]
  cases relation.rejects v with
  | none =>
    constructor
    · intro h; cases h; exact ⟨rfl, rfl⟩
    · rintro ⟨-, rfl⟩; rfl
  | some r =>
    constructor
    · intro h; cases h
    · rintro ⟨h, -⟩; cases h

theorem taken_scanComparison_eq (s : List Char) : taken (scanComparison s) =
    (taken (scanField s)).bind fun f =>
      (Alias.first? relationTable (skipLayout f.2)).bind fun a =>
        (taken (scanLiteral (skipLayout a.2))).bind fun v =>
          (Comparison.make ⟨f.1, false⟩ a.1.operator v.1).toOption.map fun c =>
            (.comparison c, v.2) := by
  rw [scanComparison]
  split
  · rename_i h
    subst h
    rw [taken_scanField, scanPath]
    rfl
  · cases scanField s with
    | error e => rfl
    | ok field =>
      simp only [bind, Except.bind, taken_ok, Option.bind_some]
      split
      · rename_i h
        rw [h]
        split <;> rfl
      · rename_i a rest h
        simp only [h, Option.bind_some]
        cases scanLiteral (skipLayout rest) with
        | error e => rfl
        | ok value =>
          simp only [taken_ok, Option.bind_some]
          cases Comparison.make ⟨field.value, false⟩ a.operator value.value <;> rfl

theorem taken_scanFactor_eq (s : List Char) : taken (scanFactor s) =
    match scanConnective? .not s with
    | some rest => (taken (scanFactor rest)).map fun r => (r.1.negate, r.2)
    | none =>
      match skipLayout s with
      | '(' :: inner => (taken (scanAlternatives inner)).bind fun r =>
        match skipLayout r.2 with
        | ')' :: rest => some (collapse .or r.1, rest)
        | _ => none
      | rest => taken (scanComparison rest) := by
  rw [scanFactor]
  split
  · rename_i rest h
    simp only [h]
    cases scanFactor rest <;> rfl
  · rename_i h
    simp only [h]
    split
    · rename_i inner ho
      simp only [ho]
      cases scanAlternatives inner with
      | error e => rfl
      | ok filters =>
        simp only [bind, Except.bind, taken_ok, Option.bind_some]
        split
        · rename_i rest hr
          simp only [hr]
          rfl
        · rename_i hr
          simp only [hr]
          rfl
        · rename_i hclose hnil
          split
          · rename_i rest hr
            exact (hclose rest hr).elim
          · rfl
    · rename_i hopen
      split
      · rename_i inner ho
        exact (hopen inner ho).elim
      · cases scanComparison (skipLayout s) <;> rfl

theorem taken_scanConjuncts_eq (s : List Char) : taken (scanConjuncts s) =
    (taken (scanFactor s)).bind fun r =>
      match scanConnective? .and r.2 with
      | none => some ([r.1], r.2)
      | some rest => (taken (scanConjuncts rest)).map fun q => (r.1 :: q.1, q.2) := by
  rw [scanConjuncts]
  cases scanFactor s with
  | error e => rfl
  | ok first =>
    simp only [bind, Except.bind, taken_ok, Option.bind_some]
    split
    · rename_i h
      simp only [h]
      rfl
    · rename_i rest h
      simp only [h]
      cases scanConjuncts rest <;> rfl

theorem taken_scanAlternatives_eq (s : List Char) : taken (scanAlternatives s) =
    (taken (scanConjuncts s)).bind fun r =>
      match scanConnective? .or r.2 with
      | none => some ([collapse .and r.1], r.2)
      | some rest =>
        (taken (scanAlternatives rest)).map fun q => (collapse .and r.1 :: q.1, q.2) := by
  rw [scanAlternatives]
  cases scanConjuncts s with
  | error e => rfl
  | ok first =>
    simp only [bind, Except.bind, taken_ok, Option.bind_some]
    split
    · rename_i h
      simp only [h]
      rfl
    · rename_i rest h
      simp only [h]
      cases scanAlternatives rest <;> rfl

theorem ReadsField.head {s rest : List Char} {path : List String} (h : ReadsField s path rest) :
    ∃ c t, s = c :: t ∧ isNameStart c = true := by
  obtain ⟨text, rfl, hpath, -⟩ := h
  obtain ⟨p, hp, ⟨-, rfl⟩ | ⟨_, text', -, -, rfl⟩⟩ := hpath.cases
  · obtain ⟨c, t, he, hc, -⟩ := isName_iff.1 hp
    exact ⟨c, t ++ rest, by rw [he, List.cons_append], hc⟩
  · obtain ⟨c, t, he, hc, -⟩ := isName_iff.1 hp
    exact ⟨c, _, by rw [he, List.cons_append, List.cons_append], hc⟩

theorem toNat_of_isNameStart {c : Char} (h : isNameStart c = true) :
    c.toNat = 95 ∨ (97 ≤ c.toNat ∧ c.toNat ≤ 122) ∨ (65 ≤ c.toNat ∧ c.toNat ≤ 90) := by
  simp only [isNameStart, Bool.or_eq_true, Bool.and_eq_true, beq_iff_eq, decide_eq_true_eq,
    Char.le_def, UInt32.le_iff_toNat_le] at h
  rcases h with (rfl | h) | h
  · exact .inl rfl
  · exact .inr (.inl h)
  · exact .inr (.inr h)

theorem isLayout_of_isNameStart {c : Char} (h : isNameStart c = true) : isLayout c = false := by
  rw [Bool.eq_false_iff]
  intro hl
  simp only [isLayout, Bool.or_eq_true, beq_iff_eq] at hl
  rcases hl with ((rfl | rfl) | rfl) | rfl <;> revert h <;> decide

/-- After a field comes a relation, so no dot. -/
theorem head?_ne_dot_of_readsOperator {s t rest : List Char} {relation : Relation}
    (hs : Skips s t) (h : ReadsOperator Relation.aliases t relation rest) :
    s.head? ≠ some '.' := by
  intro hdot
  obtain ⟨r, rfl⟩ := List.head?_eq_some_iff.1 hdot
  have ht := hs.skipLayout_eq
  rw [h.skipLayout_relation, skipLayout_cons (by decide)] at ht
  subst ht
  obtain ⟨a, -, ha, ⟨he, -⟩, -⟩ := h
  have hvisible : ∀ a ∈ relationTable, a.text ≠ [] ∧ a.text.head? ≠ some '.' := by decide
  obtain ⟨hne, hhead⟩ := hvisible a (mem_relationTable.2 ha)
  obtain ⟨c, cs, hcs⟩ := List.exists_cons_of_ne_nil hne
  rw [hcs, List.cons_append, List.cons.injEq] at he
  rw [hcs, ← he.1] at hhead
  exact hhead rfl

theorem taken_scanComparison {s rest : List Char} {n : Filter} :
    taken (scanComparison s) = some (n, rest) ↔
      ∃ c, n = .comparison c ∧ ReadsComparison s c rest := by
  rw [taken_scanComparison_eq]
  constructor
  · intro h
    obtain ⟨⟨path, s₁⟩, hfield, h⟩ := Option.bind_eq_some_iff.1 h
    obtain ⟨⟨a, s₃⟩, ha, h⟩ := Option.bind_eq_some_iff.1 h
    obtain ⟨⟨v, r⟩, hv, h⟩ := Option.bind_eq_some_iff.1 h
    obtain ⟨c, hc, he⟩ := Option.map_eq_some_iff.1 h
    cases he
    rw [taken_scanField, taken_scanPath] at hfield
    have hop := (first?_iff_readsOperator ranked_relationTable fun _ => mem_relationTable).1
      ⟨a, ha, rfl⟩
    have hmake : Comparison.make ⟨path, false⟩ a.operator v = .ok c := by
      cases hm : Comparison.make ⟨path, false⟩ a.operator v with
      | error e => rw [hm] at hc; cases hc
      | ok c' => rw [hm] at hc; cases hc; rfl
    obtain ⟨hfit, hceq⟩ := make_eq_ok_iff.1 hmake
    have hdot := head?_ne_dot_of_readsOperator (skips_skipLayout s₁) hop
    exact ⟨c, rfl, path, s₁, skipLayout s₁, s₃, skipLayout s₃, a.operator, v,
      (readsField_iff hdot).2 hfield, skips_skipLayout s₁, hop, skips_skipLayout s₃,
      taken_scanLiteral.1 hv, hfit, hceq⟩
  · rintro ⟨c, rfl, path, s₁, s₂, s₃, s₄, relation, v, hfield, h₁₂, hop, h₃₄, hv, hfit, rfl⟩
    have hdot := head?_ne_dot_of_readsOperator h₁₂ hop
    rw [readsField_iff hdot, ← taken_scanPath, ← taken_scanField] at hfield
    have hs₂ : skipLayout s₁ = s₂ := h₁₂.skipLayout_eq.trans hop.skipLayout_relation
    have hs₄ : skipLayout s₃ = s₄ := by
      obtain ⟨c, t, he, rfl, -⟩ := hv.skipLayout_eq h₃₄
      exact he
    obtain ⟨a, ha, rfl⟩ :=
      (first?_iff_readsOperator ranked_relationTable fun _ => mem_relationTable).2 hop
    subst hs₄
    rw [hfield, Option.bind_some, hs₂, ha, Option.bind_some, taken_scanLiteral.2 hv,
      Option.bind_some, make_eq_ok_iff.2 ⟨hfit, rfl⟩]
    rfl

theorem ReadsComparison.head {s rest : List Char} {c : Comparison} (h : ReadsComparison s c rest) :
    ∃ d t, s = d :: t ∧ isNameStart d = true := by
  obtain ⟨_, _, _, _, _, _, _, hfield, -⟩ := h
  exact hfield.head

/-! ## Sequences and factors -/

/-- Nothing a connective starts with is next. -/
theorem scanConnective?_eq_none {s t : List Char} {c : Char}
    (hc : ∀ a ∈ connectiveTable, a.text.head? ≠ some c) (hs : skipLayout s = c :: t)
    (op : Connective) : scanConnective? op s = none := by
  have hnone : Alias.first? connectiveTable (c :: t) = none := by
    refine Alias.first?_eq_none_iff.2 fun a ha rest hstand => ?_
    obtain ⟨d, cs, hcs⟩ := List.exists_cons_of_ne_nil (text_ne_nil_of_mem_connectiveTable a ha)
    have he := hstand.1
    rw [hcs, List.cons_append, List.cons.injEq] at he
    exact hc a ha (by rw [hcs, he.1]; rfl)
  rw [scanConnective?, hs, hnone]

theorem scanConnective?_eq_none_of_nil {s : List Char} (hs : skipLayout s = []) (op : Connective) :
    scanConnective? op s = none := by
  rw [scanConnective?, hs]
  rfl

theorem scanConnective?_of_skips {s t rest : List Char} {op : Connective} (hs : Skips s t)
    (h : ReadsOperator Connective.aliases t op rest) : scanConnective? op s = some rest := by
  rw [scanConnective?_eq_some_iff, hs.skipLayout_eq, h.skipLayout_connective]
  exact h

/-- The reader of a nonterminal takes the operands from the front, unless a sequence of them would
go on. -/
def Nonterminal.Takes : Nonterminal → List Char → List Filter → List Char → Prop
  | factor, s, ns, rest => ∃ n, ns = [n] ∧ taken (scanFactor s) = some (n, rest)
  | term, s, ns, rest => scanConnective? .and rest = none →
      taken (scanConjuncts s) = some (ns, rest)
  | expr, s, ns, rest => scanConnective? .and rest = none → scanConnective? .or rest = none →
      taken (scanAlternatives s) = some (ns, rest)

theorem Derives.takes {x : Nonterminal} {s rest : List Char} {ns : List Filter}
    (h : Derives x s ns rest) : x.Takes s ns rest := by
  induction h with
  | @comparison s t rest c hs hnot hc =>
    refine ⟨_, rfl, ?_⟩
    obtain ⟨d, t', rfl, hd⟩ := hc.head
    have hskip := hs.skipLayout_cons (isLayout_of_isNameStart hd)
    have hnone : scanConnective? .not s = none := by
      cases hcon : scanConnective? .not s with
      | none => rfl
      | some r =>
        rw [scanConnective?_eq_some_iff, hskip] at hcon
        exact absurd hcon (hnot r)
    rw [taken_scanFactor_eq, hnone, hskip]
    simp only
    split
    · rename_i he
      cases he
      exact absurd hd (by decide)
    · exact taken_scanComparison.2 ⟨c, rfl, hc⟩
  | not hs hop _ ih =>
    refine ⟨_, rfl, ?_⟩
    obtain ⟨n, he, htaken⟩ := ih
    cases he
    rw [taken_scanFactor_eq, scanConnective?_of_skips hs hop]
    simp only [htaken, Option.map_some]
  | parens hs _ hn hr ih =>
    refine ⟨_, rfl, ?_⟩
    obtain ⟨-, rfl⟩ := joins_iff.1 hn
    have hskip := hs.skipLayout_cons (by decide)
    have hclose := hr.skipLayout_cons (by decide)
    have htaken := ih (scanConnective?_eq_none (by decide) hclose _)
      (scanConnective?_eq_none (by decide) hclose _)
    rw [taken_scanFactor_eq, scanConnective?_eq_none (by decide) hskip, hskip]
    simp only [htaken, Option.bind_some, hclose]
  | factor _ ih =>
    intro hand
    obtain ⟨n, he, htaken⟩ := ih
    cases he
    rw [taken_scanConjuncts_eq, htaken, Option.bind_some]
    simp only [hand]
  | and _ hs hop _ ihn ihns =>
    intro hand
    obtain ⟨n, he, htaken⟩ := ihn
    cases he
    rw [taken_scanConjuncts_eq, htaken, Option.bind_some]
    simp only [scanConnective?_of_skips hs hop, ihns hand, Option.map_some]
  | term _ hn ih =>
    intro hand hor
    obtain ⟨-, rfl⟩ := joins_iff.1 hn
    rw [taken_scanAlternatives_eq, ih hand, Option.bind_some]
    simp only [hor]
  | or _ hn hs hop _ ihns ihms =>
    intro hand hor
    obtain ⟨-, rfl⟩ := joins_iff.1 hn
    have hnext := scanConnective?_of_skips hs hop
    have hno : scanConnective? .and _ = none := scanConnective?_eq_none_of_ne hnext (by decide)
    rw [taken_scanAlternatives_eq, ihns hno, Option.bind_some]
    simp only [hnext, ihms hand hor, Option.map_some]

/-! What the readers take can be derived. Each reader calls those before it on the same text, and
any other only on a shorter one. -/

def FactorSound (s : List Char) : Prop :=
  ∀ n rest, taken (scanFactor s) = some (n, rest) → Derives .factor s [n] rest

def TermSound (s : List Char) : Prop :=
  ∀ ns rest, taken (scanConjuncts s) = some (ns, rest) →
    Derives .term s ns rest ∧ scanConnective? .and rest = none

def ExprSound (s : List Char) : Prop :=
  ∀ ns rest, taken (scanAlternatives s) = some (ns, rest) →
    Derives .expr s ns rest ∧ scanConnective? .and rest = none ∧ scanConnective? .or rest = none

theorem factorSound {s : List Char} (hfactor : ∀ r, r.length < s.length → FactorSound r)
    (hexpr : ∀ r, r.length < s.length → ExprSound r) : FactorSound s := by
  intro n rest h
  rw [taken_scanFactor_eq] at h
  split at h
  · rename_i r hnot
    obtain ⟨⟨m, r'⟩, hr, he⟩ := Option.map_eq_some_iff.1 h
    cases he
    exact .not (skips_skipLayout s) (scanConnective?_eq_some_iff.1 hnot)
      (hfactor r (length_scanConnective?_lt hnot) m _ hr)
  · rename_i hnot
    split at h
    · rename_i inner hopen
      obtain ⟨⟨ns, r⟩, hr, h⟩ := Option.bind_eq_some_iff.1 h
      have hskip := length_skipLayout_le s
      rw [hopen, List.length_cons] at hskip
      have hns := (hexpr inner (by omega) ns r hr).1
      split at h
      · rename_i rest' hclose
        cases h
        exact .parens (hopen ▸ skips_skipLayout s) hns (hns.joins_collapse .or)
          (hclose ▸ skips_skipLayout r)
      · cases h
    · obtain ⟨c, rfl, hc⟩ := taken_scanComparison.1 h
      refine .comparison (skips_skipLayout s) (fun r hr => ?_) hc
      rw [scanConnective?_eq_some_iff.2 hr] at hnot
      cases hnot

theorem termSound {s : List Char} (hfactor : FactorSound s)
    (hterm : ∀ r, r.length < s.length → TermSound r) : TermSound s := by
  intro ns rest h
  rw [taken_scanConjuncts_eq] at h
  obtain ⟨⟨n, r⟩, hn, h⟩ := Option.bind_eq_some_iff.1 h
  have hr := length_lt_of_taken hn
  split at h
  · rename_i hand
    cases h
    exact ⟨.factor (hfactor n r hn), hand⟩
  · rename_i r' hand
    obtain ⟨⟨ns', rest'⟩, hmore, he⟩ := Option.map_eq_some_iff.1 h
    cases he
    have hr' := length_scanConnective?_lt hand
    obtain ⟨hns, hno⟩ := hterm r' (Nat.lt_trans hr' hr) ns' _ hmore
    exact ⟨.and (hfactor n r hn) (skips_skipLayout r) (scanConnective?_eq_some_iff.1 hand) hns, hno⟩

theorem exprSound {s : List Char} (hterm : TermSound s)
    (hexpr : ∀ r, r.length < s.length → ExprSound r) : ExprSound s := by
  intro ns rest h
  rw [taken_scanAlternatives_eq] at h
  obtain ⟨⟨ns', r⟩, hns, h⟩ := Option.bind_eq_some_iff.1 h
  obtain ⟨hns', hand⟩ := hterm ns' r hns
  have hr := length_lt_of_taken hns
  split at h
  · rename_i hor
    cases h
    exact ⟨.term hns' (hns'.joins_collapse .and), hand, hor⟩
  · rename_i r' hor
    obtain ⟨⟨ms, rest'⟩, hmore, he⟩ := Option.map_eq_some_iff.1 h
    cases he
    have hr' := length_scanConnective?_lt hor
    obtain ⟨hms, hno⟩ := hexpr r' (Nat.lt_trans hr' hr) ms _ hmore
    exact ⟨.or hns' (hns'.joins_collapse .and) (skips_skipLayout r)
      (scanConnective?_eq_some_iff.1 hor) hms, hno⟩

theorem derives_of_taken (s : List Char) : FactorSound s ∧ TermSound s ∧ ExprSound s := by
  induction hn : s.length using Nat.strong_induction_on generalizing s with
  | _ n ih =>
    subst hn
    have hshorter (r : List Char) (hr : r.length < s.length) := ih r.length hr r rfl
    have hfactor := factorSound (fun r hr => (hshorter r hr).1) fun r hr => (hshorter r hr).2.2
    have hterm := termSound hfactor fun r hr => (hshorter r hr).2.1
    exact ⟨hfactor, hterm, exprSound hterm fun r hr => (hshorter r hr).2.2⟩

theorem taken_scanAlternatives {s rest : List Char} {ns : List Filter} :
    taken (scanAlternatives s) = some (ns, rest) ↔ Derives .expr s ns rest ∧
      scanConnective? .and rest = none ∧ scanConnective? .or rest = none :=
  ⟨(derives_of_taken s).2.2 ns rest, fun h => h.1.takes h.2.1 h.2.2⟩

/-- The tokens of a comparison, found one after the other. -/
theorem derives_of_tokens {s rest : List Char} {path : List String} (s₁ : List Char)
    (a : Alias Relation) (s₃ : List Char) {v : Literal} (hnot : scanConnective? .not s = none)
    (hfield : taken (scanPath (skipLayout s)) = some (path, s₁))
    (hop : Alias.first? relationTable (skipLayout s₁) = some (a, s₃))
    (hv : ReadsLiterals .single (skipLayout s₃) [v] rest) (hfits : a.operator.rejects v = none) :
    Derives .factor s [.comparison ⟨⟨path, false⟩, a.operator, v, false⟩] rest := by
  have htaken : taken (scanComparison (skipLayout s)) =
      some (.comparison ⟨⟨path, false⟩, a.operator, v, false⟩, rest) := by
    rw [taken_scanComparison_eq, taken_scanField, hfield, Option.bind_some, hop, Option.bind_some,
      taken_scanLiteral.2 hv, Option.bind_some, make_eq_ok_iff.2 ⟨hfits, rfl⟩]
    rfl
  obtain ⟨c, hc, hreads⟩ := taken_scanComparison.1 htaken
  cases hc
  refine .comparison (skips_skipLayout s) (fun r hr => ?_) hreads
  rw [scanConnective?_eq_some_iff.2 hr] at hnot
  cases hnot

/-! ## Whole texts -/

theorem isBlank_of_isNameStart {c : Char} (h : isNameStart c = true) : isBlank c = false := by
  have := toNat_of_isNameStart h
  simp only [isBlank, Bool.or_eq_false_iff, Bool.and_eq_false_iff, beq_eq_false_iff_ne,
    decide_eq_false_iff_not]
  omega

theorem isBlank_connective {s rest : List Char} {op : Connective}
    (h : ReadsOperator Connective.aliases s op rest) : ∃ c ∈ s, isBlank c = false := by
  obtain ⟨a, -, ha, ⟨rfl, -⟩, -⟩ := h
  have hvisible : ∀ a ∈ connectiveTable, a.text.any (fun c => !isBlank c) = true := by decide
  obtain ⟨c, hc, hb⟩ := List.any_eq_true.1 (hvisible a (mem_connectiveTable.2 ha))
  exact ⟨c, List.mem_append_left _ hc, by simpa using hb⟩

/-- What can be derived is not blank. -/
theorem Derives.not_blank {x : Nonterminal} {s rest : List Char} {ns : List Filter}
    (h : Derives x s ns rest) : ∃ c ∈ s, isBlank c = false := by
  have hskips {s t : List Char} (hs : Skips s t) (ht : ∃ c ∈ t, isBlank c = false) :
      ∃ c ∈ s, isBlank c = false := by
    obtain ⟨blanks, -, rfl⟩ := hs
    obtain ⟨c, hc, hb⟩ := ht
    exact ⟨c, List.mem_append_right _ hc, hb⟩
  induction h with
  | comparison hs _ hc =>
    obtain ⟨d, t, rfl, hd⟩ := hc.head
    exact hskips hs ⟨d, List.mem_cons_self, isBlank_of_isNameStart hd⟩
  | not hs hop _ _ => exact hskips hs (isBlank_connective hop)
  | parens hs _ _ _ _ => exact hskips hs ⟨'(', List.mem_cons_self, by decide⟩
  | factor _ ih => exact ih
  | and _ _ _ _ ih _ => exact ih
  | term _ _ ih => exact ih
  | or _ _ _ _ _ ih _ => exact ih

theorem parse_eq_ok_iff_taken {input : String} {n : Filter} : parse input = .ok n ↔
    isBlankText input = false ∧ ∃ ns rest, taken (scanAlternatives input.toList) = some (ns, rest) ∧
      skipLayout rest = [] ∧ n = collapse .or ns := by
  rw [parse]
  cases hb : isBlankText input with
  | true =>
    constructor
    · intro h; cases h
    · rintro ⟨h, -⟩; cases h
  | false =>
    simp only [Bool.false_eq_true, ↓reduceIte, true_and]
    cases scanAlternatives input.toList with
    | error e =>
      constructor
      · intro h; cases h
      · rintro ⟨ns, rest, h, -⟩; cases h
    | ok r =>
      simp only [bind, Except.bind, taken_ok, Option.some.injEq, Prod.mk.injEq]
      constructor
      · intro h
        split at h
        · rename_i hr
          cases h
          exact ⟨_, _, ⟨rfl, rfl⟩, hr, rfl⟩
        · cases h
        · cases h
      · rintro ⟨ns, rest, ⟨rfl, rfl⟩, hr, rfl⟩
        rw [hr]
        rfl

/-- A text is read as a filter exactly if it is a sentence for it. -/
theorem parse_eq_ok_iff_derives {input : String} {n : Filter} :
    parse input = .ok n ↔ Sentence input.toList n := by
  rw [parse_eq_ok_iff_taken]
  constructor
  · rintro ⟨-, ns, rest, htaken, hrest, rfl⟩
    have hns := (taken_scanAlternatives.1 htaken).1
    exact ⟨ns, rest, hns, hns.joins_collapse .or, skips_nil_iff.2 hrest⟩
  · rintro ⟨ns, rest, hns, hn, hrest⟩
    obtain ⟨-, rfl⟩ := joins_iff.1 hn
    rw [skips_nil_iff] at hrest
    have htaken := taken_scanAlternatives.2 ⟨hns, scanConnective?_eq_none_of_nil hrest _,
      scanConnective?_eq_none_of_nil hrest _⟩
    refine ⟨?_, ns, rest, htaken, hrest, rfl⟩
    obtain ⟨c, hc, hb⟩ := hns.not_blank
    rw [isBlankText, Bool.eq_false_iff]
    intro hall
    rw [List.all_eq_true.1 hall c hc] at hb
    cases hb

/-- Parsing accepts the sentences of the grammar and nothing else, and a text is a sentence for one
filter at most. -/
theorem parse_eq_ok_iff_sentence (input : String) :
    (∀ n, parse input = .ok n ↔ Sentence input.toList n) ∧
      {n | Sentence input.toList n}.Subsingleton := by
  refine ⟨fun n => parse_eq_ok_iff_derives, ?_⟩
  intro n hn m hm
  have hn := parse_eq_ok_iff_derives.2 hn
  have hm := parse_eq_ok_iff_derives.2 hm
  exact Except.ok.inj (hn.symm.trans hm)

/-- Sequences of two and of three, all kinds of layout and of values, and no blank that is not
needed. -/
def mixedText : String := "a.b_1=x AND\t(c NE y||d IN[\"z\" ,2])\r\n&&!e >=3"

def mixedFilter : Filter :=
  .group .and [
    .comparison ⟨⟨["a", "b_1"], false⟩, .equal, .string "x", false⟩,
    .group .or [
      .comparison ⟨⟨["c"], false⟩, .different, .string "y", false⟩,
      .comparison ⟨⟨["d"], false⟩, .within, .list [.string "z", .int 2], false⟩] false,
    .comparison ⟨⟨["e"], false⟩, .greaterEqual, .int 3, true⟩] false

theorem sentence_mixedFilter : Sentence mixedText.toList mixedFilter := by
  have ha : Derives .factor mixedText.toList
      [.comparison ⟨⟨["a", "b_1"], false⟩, .equal, .string "x", false⟩]
      " AND\t(c NE y||d IN[\"z\" ,2])\r\n&&!e >=3".toList :=
    derives_of_tokens "=x AND\t(c NE y||d IN[\"z\" ,2])\r\n&&!e >=3".toList ⟨['='], .equal⟩
      "x AND\t(c NE y||d IN[\"z\" ,2])\r\n&&!e >=3".toList (by decide +kernel) (by decide +kernel)
      (by decide +kernel) (readsLiterals_of_scanWord rfl) rfl
  have hc : Derives .factor "c NE y||d IN[\"z\" ,2])\r\n&&!e >=3".toList
      [.comparison ⟨⟨["c"], false⟩, .different, .string "y", false⟩]
      "||d IN[\"z\" ,2])\r\n&&!e >=3".toList :=
    derives_of_tokens " NE y||d IN[\"z\" ,2])\r\n&&!e >=3".toList ⟨['N', 'E'], .different⟩
      " y||d IN[\"z\" ,2])\r\n&&!e >=3".toList (by decide +kernel) (by decide +kernel)
      (by decide +kernel) (readsLiterals_of_scanWord rfl) rfl
  have hz : ReadsLiterals .single "\"z\" ,2])\r\n&&!e >=3".toList [.string "z"]
      " ,2])\r\n&&!e >=3".toList :=
    .quoted (.plain (c := 'z') (by decide +kernel) (fun h => absurd h (by decide +kernel)) .nil)
  have hd : Derives .factor "d IN[\"z\" ,2])\r\n&&!e >=3".toList
      [.comparison ⟨⟨["d"], false⟩, .within, .list [.string "z", .int 2], false⟩]
      ")\r\n&&!e >=3".toList :=
    derives_of_tokens " IN[\"z\" ,2])\r\n&&!e >=3".toList ⟨['I', 'N'], .within⟩
      "[\"z\" ,2])\r\n&&!e >=3".toList (by decide +kernel) (by decide +kernel) (by decide +kernel)
      (.list (.cons (.refl _) hz (skips_space _)
        (.last (.refl _) (readsLiterals_of_scanWord rfl) (.refl _)))) rfl
  have he : Derives .factor "e >=3".toList
      [.comparison ⟨⟨["e"], false⟩, .greaterEqual, .int 3, false⟩] [] :=
    derives_of_tokens " >=3".toList ⟨['>', '='], .greaterEqual⟩ "3".toList (by decide +kernel)
      (by decide +kernel) (by decide +kernel) (readsLiterals_of_scanWord rfl) rfl
  have hor : Derives .expr "c NE y||d IN[\"z\" ,2])\r\n&&!e >=3".toList _
      ")\r\n&&!e >=3".toList :=
    .or (.factor hc) (.one _) (skips_skipLayout _) (scanConnective?_eq_some_iff.1 rfl)
      (.term (.factor hd) (.one _))
  have hparens : Derives .factor "\t(c NE y||d IN[\"z\" ,2])\r\n&&!e >=3".toList _
      "\r\n&&!e >=3".toList :=
    .parens (skips_skipLayout _) hor (.several _ _ []) (.refl _)
  have hnot : Derives .factor "!e >=3".toList _ [] :=
    .not (skips_skipLayout _) (scanConnective?_eq_some_iff.1 rfl) he
  have hmore : Derives .term "\t(c NE y||d IN[\"z\" ,2])\r\n&&!e >=3".toList _ [] :=
    .and hparens (skips_skipLayout _) (scanConnective?_eq_some_iff.1 rfl) (.factor hnot)
  have hall : Derives .term mixedText.toList _ [] :=
    .and ha (skips_skipLayout _) (scanConnective?_eq_some_iff.1 rfl) hmore
  exact ⟨_, [], .term hall (.several _ _ _), .one _, .refl _⟩

/-- Parsing finds the tree, and the text stands for no other. -/
theorem parse_eq_ok_iff_sentence_mixed :
    parse mixedText = .ok mixedFilter ∧ ∀ n, Sentence mixedText.toList n → n = mixedFilter := by
  obtain ⟨hparse, hunique⟩ := parse_eq_ok_iff_sentence mixedText
  exact ⟨(hparse mixedFilter).2 sentence_mixedFilter, fun n hn => hunique hn sentence_mixedFilter⟩

end Filter

end SearchGateway
