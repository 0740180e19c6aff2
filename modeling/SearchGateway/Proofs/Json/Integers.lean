import Mathlib.Data.Nat.Digits.Lemmas
import SearchGateway.Proofs.Json.Document

/-!
# Integers in documents

Integers are read digit by digit in arithmetic of 64 bits. An integer that fits is read as itself,
the least one included, and a number with a fraction or an exponent is not read at all
(`Number.int64_text`). Both rest on the numbers having no zero in front, which makes the digits of a
value unique (`digitsValue_inj`).
-/

namespace SearchGateway.Json

/-- The value of digits that follow digits of the value `n`. -/
def valueAfter (n : Nat) (ds : List Char) : Nat :=
  ds.foldl (fun n c => 10 * n + (c.toNat - '0'.toNat)) n

theorem le_valueAfter (n : Nat) (ds : List Char) : n ≤ valueAfter n ds := by
  induction ds generalizing n with
  | nil => exact Nat.le_refl n
  | cons c ds ih =>
    calc n ≤ 10 * n + (c.toNat - '0'.toNat) := by omega
      _ ≤ valueAfter (10 * n + (c.toNat - '0'.toNat)) ds := ih _

/-- As long as nothing overflows the digits are read to their value. -/
theorem int64Digits_ofNat {n : Nat} {ds : List Char} (hdigits : ∀ c ∈ ds, c.isDigit = true)
    (hlt : valueAfter n ds < 2 ^ 63) :
    int64Digits (Int64.ofNat n) ds = .ok (Int64.ofNat (valueAfter n ds)) := by
  induction ds generalizing n with
  | nil => rfl
  | cons c ds ih =>
    have hstep : 10 * Int64.ofNat n + Int64.ofInt (c.toNat - '0'.toNat : Nat) =
        Int64.ofNat (10 * n + (c.toNat - '0'.toNat)) := by
      rw [Int64.ofNat_add, Int64.ofNat_mul, Int64.ofInt_eq_ofNat]
      rfl
    have hle := le_valueAfter (10 * n + (c.toNat - '0'.toNat)) ds
    have hlt' : valueAfter (10 * n + (c.toNat - '0'.toNat)) ds < 2 ^ 63 := hlt
    have hgrows : ¬ Int64.ofNat (10 * n + (c.toNat - '0'.toNat)) < Int64.ofNat n := by
      rw [Int64.lt_iff_toInt_lt, Int64.toInt_ofNat_of_lt (by omega),
        Int64.toInt_ofNat_of_lt (by omega)]
      omega
    rw [int64Digits, if_pos (hdigits c List.mem_cons_self)]
    dsimp only
    rw [hstep, if_neg hgrows, ih (fun d hd => hdigits d (List.mem_cons_of_mem _ hd)) hlt']
    rfl

/-- Digits are not read past a character that is none. -/
theorem exists_error_int64Digits (v : Int64) (ds : List Char) {c : Char} (hc : c.isDigit = false)
    (cs : List Char) : ∃ e, int64Digits v (ds ++ c :: cs) = .error e := by
  induction ds generalizing v with
  | nil => exact ⟨.malformedValue, by rw [List.nil_append, int64Digits, if_neg (by simp [hc])]⟩
  | cons d ds ih =>
    rw [List.cons_append, int64Digits]
    split
    · dsimp only
      split
      · exact ⟨_, rfl⟩
      · exact ih _
    · exact ⟨_, rfl⟩

theorem toNat_of_isDigit {c : Char} (h : c.isDigit = true) : 48 ≤ c.toNat ∧ c.toNat ≤ 57 := by
  simp only [Char.isDigit, Bool.and_eq_true, decide_eq_true_eq, ge_iff_le,
    UInt32.le_iff_toNat_le] at h
  exact h

/-- The digits of a number without a zero in front are those of its value. -/
theorem digits_digitsValue {ds : List Char} (hdigits : ∀ c ∈ ds, c.isDigit = true)
    (hhead : ds.head? ≠ some '0') :
    Nat.digits 10 (digitsValue ds) = (ds.map fun c => c.toNat - '0'.toNat).reverse := by
  have hvalue : digitsValue ds =
      Nat.ofDigits 10 (ds.map fun c => c.toNat - '0'.toNat).reverse := by
    rw [Nat.ofDigits_eq_foldr, List.foldr_reverse, List.foldl_map, digitsValue]
    simp [Nat.add_comm]
  rw [hvalue]
  apply Nat.digits_ofDigits 10 (by decide)
  · intro l hl
    obtain ⟨c, hc, rfl⟩ := List.mem_map.1 (List.mem_reverse.1 hl)
    have := toNat_of_isDigit (hdigits c hc)
    show c.toNat - 48 < 10
    omega
  · intro hne hlast
    cases ds with
    | nil => exact hne rfl
    | cons c ds =>
      rw [List.getLast_reverse, List.head_map, List.head_cons] at hlast
      have hc := toNat_of_isDigit (hdigits c List.mem_cons_self)
      have hzero : c.toNat = '0'.toNat := by
        have : c.toNat - 48 = 0 := hlast
        show c.toNat = 48
        omega
      apply hhead
      rw [List.head?_cons, Char.toNat_inj.1 hzero]

theorem digitsValue_inj {ds ds' : List Char} (hdigits : ∀ c ∈ ds, c.isDigit = true)
    (hhead : ds.head? ≠ some '0') (hdigits' : ∀ c ∈ ds', c.isDigit = true)
    (hhead' : ds'.head? ≠ some '0') (h : digitsValue ds = digitsValue ds') : ds = ds' := by
  have hmap : ds.map (fun c => c.toNat - '0'.toNat) = ds'.map fun c => c.toNat - '0'.toNat := by
    rw [← List.reverse_inj, ← digits_digitsValue hdigits hhead, h,
      digits_digitsValue hdigits' hhead']
  clear h hhead hhead'
  induction ds generalizing ds' with
  | nil => simpa using hmap
  | cons c ds ih =>
    cases ds' with
    | nil => cases hmap
    | cons c' ds' =>
      obtain ⟨hfirst, hrest⟩ := List.cons.inj hmap
      have hc := toNat_of_isDigit (hdigits c List.mem_cons_self)
      have hc' := toNat_of_isDigit (hdigits' c' List.mem_cons_self)
      have hsame : c.toNat = c'.toNat := by
        have : c.toNat - 48 = c'.toNat - 48 := hfirst
        omega
      rw [Char.toNat_inj.1 hsame,
        ih (fun d hd => hdigits d (List.mem_cons_of_mem _ hd))
          (fun d hd => hdigits' d (List.mem_cons_of_mem _ hd)) hrest]

theorem int64_of_digits {ds : List Char} (hdigits : ∀ c ∈ ds, c.isDigit = true) (t : List Char)
    (hne : ds ≠ []) : int64 (ds ++ t) = int64Digits 0 (ds ++ t) := by
  obtain ⟨c, cs, rfl⟩ := List.exists_cons_of_ne_nil hne
  unfold int64
  split
  · next heq =>
    have hc := hdigits c List.mem_cons_self
    rw [(List.cons.inj heq).1] at hc
    cases hc
  · rfl

theorem isDigit_least : ∀ c ∈ "9223372036854775808".toList, c.isDigit = true :=
  List.all_eq_true.1 (by decide)

/-- The digits of the least integer. -/
theorem eq_of_digitsValue_eq {ds : Digits} (hhead : ds.1.head? = some '0' → ds.1.length = 1)
    (h : digitsValue ds.1 = 2 ^ 63) : ds.1 = "9223372036854775808".toList := by
  apply digitsValue_inj ds.2.2 ?_ isDigit_least (by decide) (h.trans (by decide))
  intro hzero
  obtain ⟨c, cs, hcs⟩ := List.exists_cons_of_ne_nil ds.2.1
  have hlength := hhead hzero
  rw [hcs] at hzero hlength h
  cases hzero
  have hnil : cs = [] := List.length_eq_zero_iff.1 (Nat.succ.inj hlength)
  rw [hnil] at h
  cases h

theorem Number.integer?_eq_some_iff {n : Number} {i : Int} : n.integer? = some i ↔
    n.fraction = none ∧ n.exponent = none ∧ signed n.negative (digitsValue n.whole.1) = i := by
  rw [integer?]
  cases n.fraction <;> cases n.exponent <;> simp

/-- An integer that fits is read as itself. -/
theorem Number.int64_of_integer {n : Number} {i : Int} (h : n.integer? = some i)
    (hlow : -2 ^ 63 ≤ i) (hhigh : i < 2 ^ 63) : int64 n.text = .ok (Int64.ofInt i) := by
  obtain ⟨hfraction, hexponent, rfl⟩ := integer?_eq_some_iff.1 h
  have hdigits : ∀ {v : Nat}, digitsValue n.whole.1 = v → v < 2 ^ 63 →
      int64Digits 0 n.whole.1 = .ok (Int64.ofNat v) := by
    rintro _ rfl hlt
    exact int64Digits_ofNat n.whole.2.2 hlt
  cases hnegative : n.negative with
  | false =>
    have htext : n.text = n.whole.1 ++ [] := by simp [Number.text, hfraction, hexponent, hnegative]
    rw [hnegative] at hhigh
    have hlt : digitsValue n.whole.1 < 2 ^ 63 := by
      have : ((digitsValue n.whole.1 : Nat) : Int) < 2 ^ 63 := hhigh
      omega
    rw [htext, int64_of_digits n.whole.2.2 [] n.whole.2.1, List.append_nil, hdigits rfl hlt,
      ← Int64.ofInt_eq_ofNat]
    rfl
  | true =>
    have htext : n.text = '-' :: n.whole.1 := by simp [Number.text, hfraction, hexponent, hnegative]
    rw [hnegative] at hlow
    have hle : digitsValue n.whole.1 ≤ 2 ^ 63 := by
      have : -2 ^ 63 ≤ -((digitsValue n.whole.1 : Nat) : Int) := hlow
      omega
    rw [htext, int64]
    rcases Nat.lt_or_eq_of_le hle with hlt | heq
    · have hne : n.whole.1 ≠ "9223372036854775808".toList := by
        intro hwhole
        rw [hwhole] at hlt
        revert hlt
        decide
      rw [if_neg hne, hdigits rfl hlt, ← Int64.ofInt_eq_ofNat]
      show Except.ok (-Int64.ofInt _) = Except.ok (Int64.ofInt (-_))
      rw [Int64.ofInt_neg]
    · rw [if_pos (eq_of_digitsValue_eq n.head_whole heq), heq]
      rfl

/-- A number that is no integer is not read as one. -/
theorem Number.exists_error_int64 {n : Number} (h : n.integer? = none) :
    ∃ e, int64 n.text = .error e := by
  have htail : ∃ c cs, c.isDigit = false ∧
      n.text = (if n.negative then ['-'] else []) ++ (n.whole.1 ++ c :: cs) := by
    cases hfraction : n.fraction with
    | some ds =>
      exact ⟨'.', ds.1 ++ n.exponent.elim [] Exponent.text, by decide, by
        simp [Number.text, hfraction]⟩
    | none =>
      cases hexponent : n.exponent with
      | some e =>
        refine ⟨if e.capital then 'E' else 'e',
          e.sign.elim [] (fun negative => [if negative then '-' else '+']) ++ e.digits.1,
          by cases e.capital <;> decide, ?_⟩
        simp [Number.text, hfraction, hexponent, Exponent.text]
      | none => simp [integer?, hfraction, hexponent] at h
  obtain ⟨c, cs, hc, htext⟩ := htail
  obtain ⟨e, he⟩ := exists_error_int64Digits 0 n.whole.1 hc cs
  cases hnegative : n.negative with
  | false =>
    rw [htext, hnegative]
    exact ⟨e, (int64_of_digits n.whole.2.2 _ n.whole.2.1).trans he⟩
  | true =>
    have hne : n.whole.1 ++ c :: cs ≠ "9223372036854775808".toList := by
      intro heq
      have hmem : c ∈ "9223372036854775808".toList :=
        heq ▸ List.mem_append_right _ List.mem_cons_self
      rw [isDigit_least c hmem] at hc
      cases hc
    refine ⟨e, ?_⟩
    rw [htext, hnegative, if_pos rfl, List.singleton_append, int64, if_neg hne, he]
    rfl

/-- Numbers that fit are read as their integers. -/
theorem Number.int64_text {n : Number} (hfits : ∀ i ∈ n.integer?, -2 ^ 63 ≤ i ∧ i < 2 ^ 63) :
    (int64 n.text).toOption = n.integer?.map Int64.ofInt := by
  cases h : n.integer? with
  | none =>
    obtain ⟨e, he⟩ := exists_error_int64 h
    rw [he]
    rfl
  | some i =>
    obtain ⟨hmin, hmax⟩ := hfits i h
    rw [int64_of_integer h hmin hmax]
    rfl

end SearchGateway.Json
