import SearchGateway.Proofs.Filter.Words
import SearchGateway.Proofs.Json.Integers
import SearchGateway.Proofs.Json.Reading

/-!
# Numbers in documents

Integers and finite doubles are written as numbers of the format (`exists_number_int`,
`exists_number_float`). A number is read as a numeral with the same parts (`read?_text`), so that
the text of an integer decides the integer and the text of a double the double. For a double this
rests on `rank_shortest`, with and without an exponent.
-/

namespace SearchGateway

open SearchGateway.Filter (Stops)

/-! ### Digits -/

theorem head?_toDigits_ne {n : Nat} (hn : n ≠ 0) : (Nat.toDigits 10 n).head? ≠ some '0' := by
  induction n using Nat.strongRecOn with
  | ind n ih =>
    by_cases hlt : n < 10
    · have hdigit : ∀ k < 10, k ≠ 0 → k.digitChar ≠ '0' := by decide
      rw [Nat.toDigits_of_lt_base hlt, List.head?_singleton]
      exact fun h => hdigit n hlt hn (Option.some.inj h)
    · rw [Nat.toDigits_of_base_le (by decide) (by omega),
        List.head?_append_of_ne_nil _ Nat.toDigits_ne_nil]
      exact ih (n / 10) (by omega) (by omega)

/-- The digits of a small exponent are all read. -/
theorem exponentValue_eq {ds : List Char} (h : digitsValue ds < 10000) :
    exponentValue ds = digitsValue ds := by
  have hfold : ∀ n, Json.valueAfter n ds < 10000 →
      ds.foldl (fun n c => if n < 10000 then 10 * n + (c.toNat - '0'.toNat) else n) n =
        Json.valueAfter n ds := by
    clear h
    induction ds with
    | nil => exact fun n _ => rfl
    | cons c ds ih =>
      intro n hlt
      have hle := Json.le_valueAfter (10 * n + (c.toNat - '0'.toNat)) ds
      have hlt' : Json.valueAfter (10 * n + (c.toNat - '0'.toNat)) ds < 10000 := hlt
      rw [List.foldl_cons, if_pos (by omega)]
      exact ih _ hlt'
  exact hfold 0 h

/-! ### Numbers as numerals -/

namespace Json

namespace Number

/-- The parts of a number. -/
def numeral (n : Number) : Numeral :=
  ⟨n.negative, n.whole.1, n.fraction.map (·.1),
    n.exponent.map fun e => (e.sign.getD false, e.digits.1)⟩

end Number

theorem readExponent?_text (e : Exponent) :
    Numeral.readExponent? e.text = some (some (e.sign.getD false, e.digits.1)) := by
  obtain ⟨capital, sign, ds, hne, hdigits⟩ := e
  have hall : ds.all Char.isDigit = true := List.all_eq_true.2 hdigits
  have hsign : Numeral.splitExponentSign
      (sign.elim [] (fun negative => [if negative then '-' else '+']) ++ ds) =
        (sign.getD false, ds) := by
    obtain ⟨c, cs, rfl⟩ := List.exists_cons_of_ne_nil hne
    have hc := hdigits c List.mem_cons_self
    match sign with
    | some true => rfl
    | some false => rfl
    | none =>
      show Numeral.splitExponentSign (c :: cs) = (false, c :: cs)
      unfold Numeral.splitExponentSign
      split
      · rename_i he; cases he; cases hc
      · rename_i he; cases he; cases hc
      · rfl
  cases capital <;> simp [Exponent.text, Numeral.readExponent?, hsign, hne, hall]

theorem stops_exponent (e : Option Exponent) : Stops Char.isDigit (e.elim [] Exponent.text) := by
  intro c hc
  cases e with
  | none => cases hc
  | some e =>
    cases hc
    cases e.capital <;> rfl

theorem readExponent?_elim (e : Option Exponent) :
    Numeral.readExponent? (e.elim [] Exponent.text) =
      some (e.map fun e => (e.sign.getD false, e.digits.1)) := by
  cases e with
  | none => rfl
  | some e => exact readExponent?_text e

theorem splitFraction_elim (fraction : Option Digits) (e : Option Exponent) :
    Numeral.splitFraction (fraction.elim [] ('.' :: ·.1) ++ e.elim [] Exponent.text) =
      (fraction.map (·.1), e.elim [] Exponent.text) := by
  cases fraction with
  | none =>
    have hhead : ∀ c ∈ (e.elim [] Exponent.text).head?, c ≠ '.' := by
      intro c hc
      cases e with
      | none => cases hc
      | some e => cases hc; cases e.capital <;> decide
    show Numeral.splitFraction (e.elim [] Exponent.text) = (none, e.elim [] Exponent.text)
    unfold Numeral.splitFraction
    split
    · rename_i he
      exact absurd rfl (hhead '.' (by rw [he]; rfl))
    · rfl
  | some ds =>
    have htake := Filter.takeWhile_append_stop ds.2.2 (stops_exponent e)
    have hdrop := Filter.dropWhile_append_stop ds.2.2 (stops_exponent e)
    show Numeral.splitFraction ('.' :: (ds.1 ++ e.elim [] Exponent.text)) = _
    obtain ⟨c, cs, hds⟩ := List.exists_cons_of_ne_nil ds.2.1
    rw [Numeral.splitFraction, htake, hdrop, hds]
    simp [hds]

theorem Number.text_eq (n : Number) : n.text = Numeral.withSign n.negative (n.whole.1 ++
    (n.fraction.elim [] ('.' :: ·.1) ++ n.exponent.elim [] Exponent.text)) := by
  unfold Number.text Numeral.withSign
  cases n.negative <;> simp

/-- A number is read with its own parts. -/
theorem read?_text (n : Number) : Numeral.read? n.text = some n.numeral := by
  have hstops : Stops Char.isDigit
      (n.fraction.elim [] ('.' :: ·.1) ++ n.exponent.elim [] Exponent.text) := by
    cases n.fraction with
    | none => exact stops_exponent n.exponent
    | some ds => intro c hc; cases hc; rfl
  rw [n.text_eq, Numeral.read?_withSign _ n.whole.2.1 n.whole.2.2 hstops, splitFraction_elim,
    readExponent?_elim]
  rfl

theorem numeral_eq_of_text_eq {n n' : Number} (h : n.text = n'.text) : n.numeral = n'.numeral := by
  have hread := read?_text n
  rw [h, read?_text] at hread
  exact (Option.some.inj hread).symm

/-! ### Integers -/

theorem exists_number_int (i : Int) :
    ∃ n : Number, n.text = intChars i ∧ n.numeral.integer = i := by
  have hdigits : ∀ c ∈ Nat.toDigits 10 i.natAbs, c.isDigit = true :=
    fun c hc => Nat.isDigit_of_mem_toDigits (by decide) (by decide) hc
  have hhead : (Nat.toDigits 10 i.natAbs).head? = some '0' →
      (Nat.toDigits 10 i.natAbs).length = 1 := by
    intro hzero
    have hi : i.natAbs = 0 := by
      by_contra hne
      exact head?_toDigits_ne hne hzero
    rw [hi, Nat.toDigits_zero]
    rfl
  refine ⟨⟨i < 0, ⟨_, Nat.toDigits_ne_nil, hdigits⟩, none, none, hhead⟩, ?_, ?_⟩
  · unfold Number.text intChars
    by_cases hneg : i < 0 <;> simp [hneg]
  · unfold Numeral.integer Number.numeral signed
    rw [digitsValue_toDigits]
    by_cases hneg : i < 0
    · rw [if_pos (decide_eq_true hneg)]
      omega
    · rw [if_neg (by simpa using hneg)]
      omega

theorem intChars_inj {i j : Int} (h : intChars i = intChars j) : i = j := by
  obtain ⟨n, hn, hi⟩ := exists_number_int i
  obtain ⟨n', hn', hj⟩ := exists_number_int j
  rw [← hi, ← hj, numeral_eq_of_text_eq (hn.trans (h.trans hn'.symm))]

end Json

/-! ### Doubles -/

namespace Decimal

/-- Plain digits start with a zero only if it stands alone in front of the point. -/
theorem plain_zero {d : Decimal} {t : List Char} (h : d.plain = '0' :: t) :
    t = [] ∨ ∃ u, t = '.' :: u := by
  have hhead (hc : d.coefficient ≠ 0) : d.digits.head? ≠ some '0' := head?_toDigits_ne hc
  obtain ⟨c, cs, hdigits⟩ := List.exists_cons_of_ne_nil d.digits_ne_nil
  rw [plain] at h
  split at h
  · cases h
    exact .inl rfl
  · rename_i hc
    have hne : c ≠ '0' := by
      rintro rfl
      exact hhead hc (by rw [hdigits]; rfl)
    split at h
    · cases h
      exact .inr ⟨_, rfl⟩
    · rename_i hp
      rw [hdigits] at h
      split at h
      · exact absurd (List.cons.inj h).1 hne
      · obtain ⟨k, hk⟩ : ∃ k, d.point.toNat = k + 1 := ⟨d.point.toNat - 1, by omega⟩
        rw [hk] at h
        exact absurd (List.cons.inj h).1 hne

theorem Pointed.head_whole {d : Decimal} {whole fraction : List Char} (h : d.Pointed whole fraction)
    (hplain : d.plain = whole ++ '.' :: fraction ∨ d.plain = whole)
    (hzero : whole.head? = some '0') : whole.length = 1 := by
  obtain ⟨t, rfl⟩ := List.head?_eq_some_iff.1 hzero
  cases t with
  | nil => rfl
  | cons c t =>
    have hc : c.isDigit = true :=
      h.isDigit c (List.mem_append_left _ (List.mem_cons_of_mem _ List.mem_cons_self))
    have hdot : c = '.' := by
      rcases hplain with hplain | hplain <;> rcases plain_zero hplain with hnil | ⟨u, hu⟩
      · cases hnil
      · exact (List.cons.inj hu).1
      · cases hnil
      · exact (List.cons.inj hu).1
    rw [hdot] at hc
    cases hc

end Decimal

namespace Binary64

open Json (Number Exponent Digits)

/-- The exponent of a finite double is small. -/
theorem point_shortest {x : Binary64} (hx : x.isFinite = true)
    (hc : (shortest x.rank).coefficient ≠ 0) :
    -330 ≤ (shortest x.rank).point ∧ (shortest x.rank).point ≤ 310 := by
  have hrank : x.rank < infinityRank := of_decide_eq_true hx
  have hshortest := rank_shortest hrank
  constructor
  · by_contra hlt
    have hzero : x.rank = 0 := by
      rw [← hshortest]
      exact Decimal.rank_eq_zero (by
        have : (shortest x.rank).point < -330 := by omega
        exact this)
    rw [hzero] at hc
    exact hc rfl
  · by_contra hlt
    have hinfinite := Decimal.infinityRank_le_rank hc (by
      have : 310 < (shortest x.rank).point := by omega
      exact this)
    omega

/-- Plain digits as a number. -/
theorem exists_number_plain {x : Binary64} (hx : x.isFinite = true) :
    ∃ n : Number, n.text = Numeral.withSign x.negative (shortest x.rank).plain ∧
      n.numeral.toBinary64? = some x := by
  obtain ⟨whole, fraction, h, hplain⟩ := (shortest x.rank).plain_pointed
  have hwhole : ∀ c ∈ whole, c.isDigit = true := fun c hc => h.isDigit c (List.mem_append_left _ hc)
  have hfraction : ∀ c ∈ fraction, c.isDigit = true :=
    fun c hc => h.isDigit c (List.mem_append_right _ hc)
  have hread := ofDigits?_of_pointed hx h
  rcases hplain with hplain | ⟨hplain, rfl⟩
  · have hhead := h.head_whole (.inl hplain)
    rw [hplain]
    refine ⟨⟨x.negative, ⟨whole, h.whole_ne, hwhole⟩, some ⟨fraction, h.fraction_ne, hfraction⟩,
      none, hhead⟩, ?_, hread⟩
    rw [Number.text_eq]
    simp
  · have hhead := h.head_whole (.inr hplain)
    rw [hplain]
    refine ⟨⟨x.negative, ⟨whole, h.whole_ne, hwhole⟩, none, none, hhead⟩, ?_, ?_⟩
    · rw [Number.text_eq]
      simp
    · -- The zero that is not written would not count.
      have hrank : (shortest x.rank).rank < infinityRank := by
        rw [rank_shortest (of_decide_eq_true hx)]
        exact of_decide_eq_true hx
      have hlength := h.length_le_limit hrank
      have hten := Decimal.rank_mul_pow (digitsValue whole) 1 (-1)
      have hvalue : digitsValue (whole ++ ['0']) = digitsValue whole * 10 ^ 1 :=
        digitsValue_append whole ['0']
      show ofDigits? x.negative whole [] 0 = some x
      rw [ofDigits?_eq hlength, hvalue, ofDecimal?_eq] at hread
      rw [ofDigits?_eq hlength, List.append_nil, ofDecimal?_eq, ← hread]
      have hexponent : (0 : Int) - ((['0'] : List Char).length : Int) = -1 := by decide
      rw [hexponent, hten]
      rfl

/-- The exponent that is written for a power of ten. -/
def exponentOf (e : Int) : Exponent where
  capital := false
  sign := some (e < 0)
  digits := ⟨if (Nat.toDigits 10 e.natAbs).length < 2 then '0' :: Nat.toDigits 10 e.natAbs
      else Nat.toDigits 10 e.natAbs, by
    have hdigits : ∀ c ∈ Nat.toDigits 10 e.natAbs, c.isDigit = true :=
      fun c hc => Nat.isDigit_of_mem_toDigits (by decide) (by decide) hc
    split
    · exact ⟨List.cons_ne_nil _ _, List.forall_mem_cons.2 ⟨rfl, hdigits⟩⟩
    · exact ⟨Nat.toDigits_ne_nil, hdigits⟩⟩

theorem text_exponentOf (e : Int) : (exponentOf e).text = 'e' :: Decimal.exponentChars e := by
  unfold Exponent.text exponentOf Decimal.exponentChars
  by_cases he : e < 0 <;> simp [he]

theorem value_exponentOf {e : Int} (h : e.natAbs < 10000) :
    SearchGateway.signed ((exponentOf e).sign.getD false)
      (exponentValue (exponentOf e).digits.1) = e := by
  have hdigits : digitsValue (exponentOf e).digits.1 = e.natAbs := by
    unfold exponentOf
    dsimp only
    split
    · have hzero : digitsValue ('0' :: Nat.toDigits 10 e.natAbs) =
          digitsValue ['0'] * 10 ^ (Nat.toDigits 10 e.natAbs).length +
            digitsValue (Nat.toDigits 10 e.natAbs) := digitsValue_append ['0'] _
      have hnil : digitsValue ['0'] = 0 := rfl
      rw [hzero, hnil, Nat.zero_mul, Nat.zero_add, digitsValue_toDigits]
    · exact digitsValue_toDigits _
  rw [exponentValue_eq (by rw [hdigits]; exact h), hdigits]
  show (if decide (e < 0) = true then -((e.natAbs : Nat) : Int) else ((e.natAbs : Nat) : Int)) = e
  by_cases he : e < 0
  · rw [if_pos (decide_eq_true he)]
    omega
  · rw [if_neg (by simpa using he)]
    omega

/-- One digit in front of the point and the exponent, as a number. -/
theorem exists_number_digits (negative : Bool) {d : Decimal} {c : Char} {cs : List Char}
    (h : d.digits = c :: cs) :
    ∃ n : Number, n.text = Numeral.withSign negative d.scientific ∧ n.numeral =
      ⟨negative, [c], if cs = [] then none else some cs,
        some ((exponentOf (d.point - 1)).sign.getD false,
          (exponentOf (d.point - 1)).digits.1)⟩ := by
  have hdigits : ∀ x ∈ c :: cs, x.isDigit = true := h ▸ d.isDigit_digits
  have hwhole : ∀ x ∈ [c], x.isDigit = true :=
    List.forall_mem_singleton.2 (hdigits c List.mem_cons_self)
  have hfraction : ∀ x ∈ cs, x.isDigit = true := (List.forall_mem_cons.1 hdigits).2
  by_cases hcs : cs = []
  · subst hcs
    refine ⟨⟨negative, ⟨[c], List.cons_ne_nil _ _, hwhole⟩, none, some (exponentOf (d.point - 1)),
      fun _ => rfl⟩, ?_, rfl⟩
    rw [Number.text_eq, Decimal.scientific, h]
    simp [text_exponentOf]
  · refine ⟨⟨negative, ⟨[c], List.cons_ne_nil _ _, hwhole⟩, some ⟨cs, hcs, hfraction⟩,
      some (exponentOf (d.point - 1)), fun _ => rfl⟩, ?_, by rw [if_neg hcs]; rfl⟩
    obtain ⟨c', cs', rfl⟩ := List.exists_cons_of_ne_nil hcs
    rw [Number.text_eq, Decimal.scientific, h]
    simp [text_exponentOf]

theorem exists_number_scientific {x : Binary64} (hx : x.isFinite = true)
    (hc : (shortest x.rank).coefficient ≠ 0) :
    ∃ n : Number, n.text = Numeral.withSign x.negative (shortest x.rank).scientific ∧
      n.numeral.toBinary64? = some x := by
  have hrank : x.rank < infinityRank := of_decide_eq_true hx
  obtain ⟨hlow, hhigh⟩ := point_shortest hx hc
  obtain ⟨c, cs, hdigits⟩ := List.exists_cons_of_ne_nil (shortest x.rank).digits_ne_nil
  obtain ⟨n, htext, hnumeral⟩ := exists_number_digits x.negative hdigits
  refine ⟨n, htext, ?_⟩
  have hpower : n.numeral.power = (shortest x.rank).point - 1 := by
    have hsmall : ((shortest x.rank).point - 1).natAbs < 10000 := by omega
    rw [hnumeral]
    exact value_exponentOf hsmall
  have hfraction : n.numeral.fraction.getD [] = cs := by
    rw [hnumeral]
    by_cases hcs : cs = [] <;> simp [hcs]
  have hsign : n.numeral.negative = x.negative := by rw [hnumeral]
  have hwhole : n.numeral.whole = [c] := by rw [hnumeral]
  have hexponent : (shortest x.rank).point - 1 - cs.length = (shortest x.rank).exponent := by
    rw [Decimal.point, hdigits, List.length_cons]
    omega
  rw [Numeral.toBinary64?, hpower, hfraction, hsign, hwhole, ofDigits?_eq (by simp), hexponent,
    List.singleton_append, ← hdigits, Decimal.digitsValue_digits, ofDecimal?_eq,
    rank_shortest hrank, if_pos hrank, ofRank_rank]

/-- The text of a finite double is a number that reads as that double. -/
theorem exists_number_float {x : Binary64} (hx : x.isFinite = true) :
    ∃ n : Number, n.text = x.jsonChars ∧ n.numeral.toBinary64? = some x := by
  rw [jsonChars, charsBy_of_isFinite hx, Layout.chars]
  split
  · rename_i h
    exact exists_number_scientific hx h.1
  · exact exists_number_plain hx

theorem jsonChars_inj {x y : Binary64} (hx : x.isFinite = true) (hy : y.isFinite = true)
    (h : x.jsonChars = y.jsonChars) : x = y := by
  obtain ⟨n, hn, hnx⟩ := exists_number_float hx
  obtain ⟨n', hn', hny⟩ := exists_number_float hy
  rw [Json.numeral_eq_of_text_eq (hn.trans (h.trans hn'.symm)), hny] at hnx
  exact (Option.some.inj hnx).symm

end Binary64

end SearchGateway
