import Mathlib.Data.List.Induction
import Mathlib.Data.Nat.Digits.Defs
import SearchGateway.Proofs.Filter.Printing
import SearchGateway.Proofs.Query.Polarity

/-!
# Integers in filters

A bare word of digits, with a minus sign or without, is the integer of 64 bits that the digits are
the numeral of, or no value at all: `classify` does not turn to other numbers for it
(`classify_of_isInteger`), and it finds integers in no other words (`denotes_of_classify`).

`WritesOperands` cuts a text into comparisons and what may stand between them, and gives the values
that are written in the comparisons. The operands of a parsed filter are these values, in the order
of the text (`operands_of_parse`).
-/

namespace SearchGateway

open SearchGateway.Text

namespace Numeral

theorem splitFraction_snd {cs : List Char} (h : (splitFraction cs).1 = none) :
    (splitFraction cs).2 = cs := by
  revert h
  fun_cases splitFraction cs with
  | case1 => exact fun _ => rfl
  | case2 =>
    intro h
    cases h
  | case3 => exact fun _ => rfl

theorem eq_nil_of_readExponent? {cs : List Char} (h : readExponent? cs = some none) : cs = [] := by
  unfold readExponent? at h
  split at h
  · rfl
  · dsimp only at h
    split at h
    · split at h <;> cases h
    · cases h

end Numeral

namespace Filter

/-! ## Integers of 64 bits -/

theorem int64?_eq_some_iff {z : Int} {i : Int64} : int64? z = some i ↔ i.toInt = z := by
  constructor
  · intro h
    unfold int64? at h
    split at h
    · next hrange =>
      cases h
      exact Int64.toInt_ofInt_of_le hrange.1 (Int.lt_add_one_of_le hrange.2)
    · cases h
  · rintro rfl
    exact int64?_toInt i

theorem int64?_eq_none_iff {z : Int} : int64? z = none ↔ z < -2 ^ 63 ∨ 2 ^ 63 - 1 < z := by
  rw [int64?, ite_eq_right_iff, Int64.toInt_minValue, Int64.toInt_maxValue]
  simp only [reduceCtorEq, imp_false, not_and_or, Int.not_le]

/-! ## Words that are integers -/

/-- The value of digits in base ten. -/
def decimalValue (ds : List Char) : Nat :=
  Nat.ofDigits 10 (ds.reverse.map fun c => c.toNat - '0'.toNat)

theorem digitsValue_eq_decimalValue (ds : List Char) : digitsValue ds = decimalValue ds := by
  induction ds using List.reverseRecOn with
  | nil => rfl
  | append_singleton ds d ih =>
    have hone : digitsValue [d] = d.toNat - '0'.toNat := Nat.zero_add _
    rw [digitsValue_append, ih, hone, decimalValue, decimalValue, List.reverse_concat,
      List.map_cons, Nat.ofDigits_cons, Nat.add_comm, Nat.mul_comm]
    rfl

/-- Digits, with a minus sign in front or without, and the integer they are the numeral of. -/
def IsInteger (word : List Char) (z : Int) : Prop :=
  ∃ negative ds, ds ≠ [] ∧ (∀ c ∈ ds, c.isDigit = true) ∧ word = Numeral.withSign negative ds ∧
    z = if negative then -(decimalValue ds : Int) else decimalValue ds

section

variable {word : List Char} {z : Int}

theorem IsInteger.read? (h : IsInteger word z) :
    ∃ n, Numeral.read? word = some n ∧ n.isInteger = true ∧ n.integer = z := by
  obtain ⟨negative, ds, hne, hdigits, rfl, rfl⟩ := h
  refine ⟨_, Numeral.read?_integer negative hne hdigits, rfl, ?_⟩
  rw [Numeral.integer, digitsValue_eq_decimalValue, signed]

/-- Where nothing but digits is found, nothing else was there. -/
theorem isInteger_of_read? {n : Numeral} (h : Numeral.read? word = some n)
    (hint : n.isInteger = true) : IsInteger word n.integer := by
  unfold Numeral.read? at h
  dsimp only at h
  split at h
  · cases h
  · next hne =>
    obtain ⟨exponent, hexponent, rfl⟩ := Option.map_eq_some_iff.1 h
    rw [Numeral.isInteger, Bool.and_eq_true, Option.isNone_iff_eq_none, Option.isNone_iff_eq_none]
      at hint
    obtain ⟨hfraction, rfl⟩ := hint
    have hend := Numeral.eq_nil_of_readExponent? hexponent
    rw [Numeral.splitFraction_snd hfraction] at hend
    have hbody := List.takeWhile_append_dropWhile (p := Char.isDigit)
      (l := (Numeral.splitSign word).2)
    rw [hend, List.append_nil] at hbody
    refine ⟨(Numeral.splitSign word).1, _, hne, fun c hc => List.mem_takeWhile_imp hc, ?_, ?_⟩
    · rw [hbody, Numeral.withSign_splitSign]
    · rw [Numeral.integer, digitsValue_eq_decimalValue, signed]

theorem IsInteger.isWordPart (h : IsInteger word z) : ∀ c ∈ word, isWordPart c = true := by
  obtain ⟨negative, ds, -, hdigits, rfl, -⟩ := h
  exact isWordPart_withSign negative fun c hc => isWordPart_of_isDigit (hdigits c hc)

theorem classify_of_isInteger (h : IsInteger word z) {i : Int64} (hi : i.toInt = z) :
    classify word = .ok (.int i) := by
  obtain ⟨n, hread, hint, rfl⟩ := h.read?
  exact classify_integer hread hint (int64?_eq_some_iff.2 hi)

theorem classify_of_out_of_range (h : IsInteger word z) (hz : z < -2 ^ 63 ∨ 2 ^ 63 - 1 < z) :
    classify word = .error (.integerOutOfRange word) := by
  obtain ⟨n, hread, hint, rfl⟩ := h.read?
  rw [classify_of_read? hread, if_pos hint, int64?_eq_none_iff.2 hz]
  rfl

end

/-- A word that is an integer stands for it, any other for a single value that is no integer. -/
inductive Denotes (word : List Char) : Literal → Prop
  | integer {i : Int64} : IsInteger word i.toInt → Denotes word (.int i)
  | other {v : Literal} : (∀ z, ¬ IsInteger word z) → (∀ i, v ≠ .int i) → (∀ vs, v ≠ .list vs) →
      Denotes word v

theorem denotes_of_classify {word : List Char} {v : Literal} (h : classify word = .ok v) :
    Denotes word v := by
  by_cases hword : ∃ z, IsInteger word z
  · obtain ⟨z, hz⟩ := hword
    cases hvalue : int64? z with
    | some i =>
      have hi := int64?_eq_some_iff.1 hvalue
      rw [classify_of_isInteger hz hi] at h
      cases h
      exact .integer (hi ▸ hz)
    | none =>
      rw [classify_of_out_of_range hz (int64?_eq_none_iff.1 hvalue)] at h
      cases h
  · have hno : ∀ z, ¬ IsInteger word z := fun z hz => hword ⟨z, hz⟩
    cases classified_of_classify h with
    | int hread hint _ => exact absurd (isInteger_of_read? hread hint) (hno _)
    | bool b => exact .other hno (by simp) (by simp)
    | null => exact .other hno (by simp) (by simp)
    | string => exact .other hno (by simp) (by simp)
    | float _ _ _ => exact .other hno (by simp) (by simp)

theorem failure_integerOutOfRange (word : List Char) (place : Nat) (found : String) :
    (Problem.integerOutOfRange word).failure place found = .invalid ("integer '" ++
      String.ofList word ++ "' at offset " ++ toString place ++ " is out of range") := by
  have hplace : "' " ++ "at offset " = "' at offset " := by decide
  rw [← hplace]
  show Failure.invalid ("integer '" ++ String.ofList word ++ "' " ++
    ("at offset " ++ toString place) ++ " is out of range") = _
  simp only [String.append_assoc]

theorem scanWord_of_out_of_range {word : List Char} {z : Int} (h : IsInteger word z)
    (hz : z < -2 ^ 63 ∨ 2 ^ 63 - 1 < z) {rest : List Char} (hrest : atDelimiter rest = true) :
    scanWord (word ++ rest) = .error (.located (.integerOutOfRange word) (word ++ rest)) := by
  obtain ⟨n, hread, -⟩ := h.read?
  have hne : word ≠ [] := by
    rintro rfl
    cases hread
  have hsplit : (splitWord (word ++ rest)).1 = word :=
    congrArg Prod.fst
      (splitWord_eq_iff.2 (readsWord_iff.1 (readsWord_append hne h.isWordPart hrest)).2)
  have hop : ¬ isConnectiveWord word = true :=
    isConnectiveWord_iff.not.2 (not_isConnective_of_read? hread)
  rw [scanWord]
  split
  · next hnil => exact absurd (hsplit.symm.trans hnil) hne
  · next c cs hword =>
    obtain rfl : word = c :: cs := hsplit.symm.trans hword
    rw [if_neg hop, classify_of_out_of_range h hz]

/-- Wherever an integer out of range stands, the refusal names it and its place. -/
theorem scanLiteral_of_out_of_range {word : List Char} {z : Int} (h : IsInteger word z)
    (hz : z < -2 ^ 63 ∨ 2 ^ 63 - 1 < z) (before : List Char) {rest : List Char}
    (hrest : atDelimiter rest = true) :
    ∃ e, scanLiteral (word ++ rest) = .error e ∧
      e.failure (String.ofList (before ++ (word ++ rest))) = .invalid ("integer '" ++
        String.ofList word ++ "' at offset " ++ toString (byteLength before) ++
        " is out of range") := by
  obtain ⟨n, hread, -⟩ := h.read?
  have hhead : ∀ c : Char, isWordPart c = false → (word ++ rest).head? ≠ some c := by
    intro c hc he
    cases word with
    | nil => cases hread
    | cons d word =>
      cases he
      rw [h.isWordPart c List.mem_cons_self] at hc
      cases hc
  have hword : scanLiteral (word ++ rest) = scanWord (word ++ rest) :=
    scanLiteral_word (hhead '"' (by decide)) (hhead '[' (by decide))
  refine ⟨_, hword.trans (scanWord_of_out_of_range h hz hrest), ?_⟩
  rw [ParseError.failure, String.toList_ofList, offset_append]
  exact failure_integerOutOfRange word _ _

/-! ## Integers in a text -/

/-- Literals as they are written, with integers where the text has integers. -/
inductive WritesLiterals : Extent → List Char → List Literal → List Char → Prop
  | word {s word rest : List Char} {v : Literal} : ReadsWord s word rest → Denotes word v →
      WritesLiterals .single s [v] rest
  | quoted {w text rest : List Char} : Quoted w text →
      WritesLiterals .single ('"' :: (w ++ '"' :: rest)) [.string (String.ofList text)] rest
  | empty {s rest : List Char} : Skips s (']' :: rest) →
      WritesLiterals .single ('[' :: s) [.list []] rest
  | list {s rest : List Char} {vs : List Literal} : WritesLiterals .items s vs rest →
      WritesLiterals .single ('[' :: s) [.list vs] rest
  | last {s t r rest : List Char} {v : Literal} : Skips s t → WritesLiterals .single t [v] r →
      Skips r (']' :: rest) → WritesLiterals .items s [v] rest
  | cons {s t r r' rest : List Char} {v : Literal} {vs : List Literal} : Skips s t →
      WritesLiterals .single t [v] r → Skips r (',' :: r') → WritesLiterals .items r' vs rest →
      WritesLiterals .items s (v :: vs) rest

theorem ReadsLiterals.writes {x : Extent} {s rest : List Char} {vs : List Literal}
    (h : ReadsLiterals x s vs rest) : WritesLiterals x s vs rest := by
  induction h with
  | word hword _ hv => exact .word hword (denotes_of_classify hv)
  | quoted hq => exact .quoted hq
  | empty hs => exact .empty hs
  | list _ ih => exact .list ih
  | last hs _ hr ih => exact .last hs ih hr
  | cons hs _ hr _ ih ih' => exact .cons hs ih hr ih'

/-- The values of the comparisons in front of `rest`. Between comparisons there are only layout,
parentheses and connectives. -/
inductive WritesOperands : List Char → List Literal → List Char → Prop
  | nil (s : List Char) : WritesOperands s [] s
  | layout {s t rest : List Char} {vs : List Literal} : Skips s t → WritesOperands t vs rest →
      WritesOperands s vs rest
  | parenthesis {c : Char} {s rest : List Char} {vs : List Literal} : c = '(' ∨ c = ')' →
      WritesOperands s vs rest → WritesOperands (c :: s) vs rest
  | connective {op : Connective} {s t rest : List Char} {vs : List Literal} :
      ReadsOperator Connective.aliases s op t → WritesOperands t vs rest → WritesOperands s vs rest
  | comparison {path : List String} {relation : Relation} {s s₁ s₂ s₃ s₄ t rest : List Char}
      {v : Literal} {vs : List Literal} : ReadsField s path s₁ → Skips s₁ s₂ →
      ReadsOperator Relation.aliases s₂ relation s₃ → Skips s₃ s₄ →
      WritesLiterals .single s₄ [v] t → WritesOperands t vs rest → WritesOperands s (v :: vs) rest

theorem WritesOperands.trans {s t rest : List Char} {vs ws : List Literal}
    (h : WritesOperands s vs t) (h' : WritesOperands t ws rest) :
    WritesOperands s (vs ++ ws) rest := by
  induction h with
  | nil => exact h'
  | layout hs _ ih => exact .layout hs (ih h')
  | parenthesis hc _ ih => exact .parenthesis hc (ih h')
  | connective hop _ ih => exact .connective hop (ih h')
  | comparison hfield hs hop hs' hv _ ih => exact .comparison hfield hs hop hs' hv (ih h')

/-- The values that the comparisons of a filter compare with, in the order they are written. -/
def operands (n : Filter) : List Literal := n.conditions.map fun k => k.comparison.value

theorem operands_comparison (c : Comparison) : (comparison c).operands = [c.value] := by
  rw [operands, conditions]
  rfl

theorem operands_group (op : Connective) (ns : List Filter) (negated : Bool) :
    (group op ns negated).operands = ns.flatMap operands := by
  rw [operands, conditions_group, List.map_map, List.map_flatMap]
  rfl

theorem operands_negate (n : Filter) : n.negate.operands = n.operands := by
  unfold negate
  split
  · rw [operands_group, List.flatMap_singleton]
  · cases n with
    | comparison c => rw [setNegated, operands_comparison, operands_comparison]
    | group op ns negated => rw [setNegated, operands_group, operands_group]

theorem Joins.operands_eq {op : Connective} {ns : List Filter} {n : Filter} (h : Joins op ns n) :
    n.operands = ns.flatMap operands := by
  cases h with
  | one n => rw [List.flatMap_singleton]
  | several n m ns => rw [operands_group]

theorem operands_of_derives {x : Nonterminal} {s rest : List Char} {ns : List Filter}
    (h : Derives x s ns rest) : WritesOperands s (ns.flatMap operands) rest := by
  induction h with
  | comparison hs _ hc =>
    obtain ⟨path, s₁, s₂, s₃, s₄, relation, v, hfield, hs₁, hop, hs₃, hv, -, rfl⟩ := hc
    rw [List.flatMap_singleton, operands_comparison]
    exact .layout hs (.comparison hfield hs₁ hop hs₃ hv.writes (.nil _))
  | not hs hop _ ih =>
    rw [List.flatMap_singleton] at ih ⊢
    rw [operands_negate]
    exact .layout hs (.connective hop ih)
  | parens hs _ hn hr ih =>
    rw [List.flatMap_singleton, hn.operands_eq, ← List.append_nil (List.flatMap _ _)]
    have hclose := WritesOperands.layout hr (.parenthesis (.inr rfl) (.nil _))
    exact .layout hs (.parenthesis (.inl rfl) (ih.trans hclose))
  | factor _ ih => exact ih
  | and _ hs hop _ ih ih' =>
    rw [List.flatMap_singleton] at ih
    rw [List.flatMap_cons]
    exact ih.trans (.layout hs (.connective hop ih'))
  | term _ hn ih =>
    rw [List.flatMap_singleton, hn.operands_eq]
    exact ih
  | or _ hn hs hop _ ih ih' =>
    rw [List.flatMap_cons, hn.operands_eq]
    exact ih.trans (.layout hs (.connective hop ih'))

theorem operands_of_parse {input : String} {n : Filter} (h : parse input = .ok n) :
    WritesOperands input.toList n.operands [] := by
  obtain ⟨ns, rest, hderives, hn, hrest⟩ := parse_eq_ok_iff_derives.1 h
  rw [hn.operands_eq, ← List.append_nil (List.flatMap _ _)]
  exact (operands_of_derives hderives).trans (.layout hrest (.nil _))

/-- An integer in a filter is exact or refused: a word of digits is the integer of 64 bits with that
value, or it is refused with its text and its place, however long it is. An integer is read back
from its term, and the integers among the operands of a parsed filter are those that are written in
the text. -/
theorem integers_exact :
    (∀ word z, IsInteger word z →
      (-2 ^ 63 ≤ z ∧ z ≤ 2 ^ 63 - 1 → ∃ i : Int64, i.toInt = z ∧ classify word = .ok (.int i)) ∧
      (z < -2 ^ 63 ∨ 2 ^ 63 - 1 < z → classify word = .error (.integerOutOfRange word) ∧
        ∀ before rest, atDelimiter rest = true → ∃ e, scanLiteral (word ++ rest) = .error e ∧
          e.failure (String.ofList (before ++ (word ++ rest))) = .invalid ("integer '" ++
            String.ofList word ++ "' at offset " ++ toString (byteLength before) ++
            " is out of range"))) ∧
    (∀ i : Int64, classify (Literal.termText (.int i)).toList = .ok (.int i)) ∧
    ∀ input n, parse input = .ok n → WritesOperands input.toList n.operands [] := by
  refine ⟨fun word z hword => ⟨fun hz => ?_, fun hz => ?_⟩, fun i => ?_,
    fun input n => operands_of_parse⟩
  · cases hvalue : int64? z with
    | some i =>
      have hi := int64?_eq_some_iff.1 hvalue
      exact ⟨i, hi, classify_of_isInteger hword hi⟩
    | none =>
      have := int64?_eq_none_iff.1 hvalue
      omega
  · exact ⟨classify_of_out_of_range hword hz, fun before rest hrest =>
      scanLiteral_of_out_of_range hword hz before hrest⟩
  · rw [Literal.termText, String.toList_ofList]
    exact classify_intChars i

/-- A list with the greatest and the least integer, and a text of a digit. -/
def limitsSample : Filter :=
  .group .and
    [.comparison ⟨⟨["a"], false⟩, .within, .list [.int Int64.maxValue, .int Int64.minValue], false⟩,
      .comparison ⟨⟨["b"], false⟩, .equal, .string "5", true⟩] false

theorem canonical_limitsSample : Canonical limitsSample := by
  have ha : Canonical (.comparison ⟨⟨["a"], false⟩, .within,
      .list [.int Int64.maxValue, .int Int64.minValue], false⟩) := by
    refine .comparison ⟨by decide, by decide, by decide, rfl, by decide, rfl, .list ?_⟩
    exact List.forall_mem_cons.2 ⟨.int _, List.forall_mem_singleton.2 (.int _)⟩
  have hb : Canonical (.comparison ⟨⟨["b"], false⟩, .equal, .string "5", true⟩) :=
    .comparison ⟨by decide, by decide, by decide, rfl, by decide, rfl, .string _⟩
  exact canonical_collapse (.inl rfl) (by simp)
    (List.forall_mem_cons.2 ⟨ha, List.forall_mem_singleton.2 hb⟩)

def limitsText : String :=
  "(a IN [9223372036854775807,-9223372036854775808] AND NOT b EQUAL \"5\")"

theorem integers_exact_limits :
    (∃ i : Int64, i.toInt = -2 ^ 63 ∧ classify "-009223372036854775808".toList = .ok (.int i)) ∧
      (∃ e, scanLiteral ("9223372036854775808".toList ++ ")".toList) = .error e ∧
        e.failure "(a:\"é\" AND b:9223372036854775808)" =
          .invalid "integer '9223372036854775808' at offset 14 is out of range") ∧
      parse limitsText = .ok limitsSample ∧
      WritesOperands limitsText.toList
        [.list [.int Int64.maxValue, .int Int64.minValue], .string "5"] [] := by
  obtain ⟨hwords, -, hparsed⟩ := integers_exact
  have hleast : IsInteger "-009223372036854775808".toList (-2 ^ 63) :=
    ⟨true, "009223372036854775808".toList, by decide, List.all_eq_true.1 (by decide), by decide,
      by decide +kernel⟩
  have hbeyond : IsInteger "9223372036854775808".toList (2 ^ 63) :=
    ⟨false, "9223372036854775808".toList, by decide, List.all_eq_true.1 (by decide), by decide,
      by decide +kernel⟩
  have hparse : parse limitsText = .ok limitsSample := by
    have hchars : limitsSample.chars = limitsText.toList := by decide +kernel
    rw [parse_eq_ok_iff_derives, ← hchars]
    exact canonical_limitsSample.sentence_chars
  refine ⟨(hwords _ _ hleast).1 (by decide), ?_, hparse, hparsed _ _ hparse⟩
  obtain ⟨e, he, hfailure⟩ := ((hwords _ _ hbeyond).2 (.inr (by decide))).2
    "(a:\"é\" AND b:".toList ")".toList (by decide)
  exact ⟨e, he, hfailure⟩

end Filter

end SearchGateway
