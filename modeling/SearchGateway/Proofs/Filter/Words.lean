import SearchGateway.Proofs.Filter.Literals
import SearchGateway.Proofs.Number.Rounding

/-!
# Numbers as words

The text of an integer and of a finite double is a bare word that is classified as that number
again (`classify_intChars`, `classify_pointedChars`). For a double this rests on `rank_shortest`;
its digits may be laid out with the point in front of them, among them or behind them, and
`Decimal.Pointed` says what these layouts share.
-/

namespace SearchGateway

open SearchGateway.Filter (Stops takeWhile_append_stop dropWhile_append_stop)

/-! ## Values of digits -/

theorem digitsValue_append (ds es : List Char) :
    digitsValue (ds ++ es) = digitsValue ds * 10 ^ es.length + digitsValue es := by
  have happend := Nat.ofDigitChars_append (b := 10) (l := ds) (m := es) 0
  rw [Nat.ofDigitChars_eq_ofDigitChars_zero (l := es), Nat.mul_comm] at happend
  exact happend

theorem digitsValue_toDigits (n : Nat) : digitsValue (Nat.toDigits 10 n) = n :=
  Nat.ofDigitChars_ten_toDigits

theorem digitsValue_replicate_zero (k : Nat) : digitsValue (List.replicate k '0') = 0 := by
  have hzeros : Nat.ofDigitChars 10 (List.replicate k '0') 0 = 10 ^ k * 0 :=
    Nat.ofDigitChars_replicate_zero
  exact hzeros.trans (Nat.mul_zero _)

theorem digitsValue_dropWhile_zero_append (ds es : List Char) :
    digitsValue (ds.dropWhile (· = '0') ++ es) = digitsValue (ds ++ es) := by
  induction ds with
  | nil => rfl
  | cons d ds ih =>
    by_cases hd : d = '0'
    · subst hd
      rw [List.dropWhile_cons_of_pos (by simp), ih]
      rfl
    · rw [List.dropWhile_cons_of_neg (by simpa using hd)]

theorem ne_of_isDigit {c d : Char} (hc : c.isDigit = true) (hd : d.isDigit = false) : c ≠ d := by
  rintro rfl
  rw [hc] at hd
  cases hd

/-- A whole part of ordinary length is not cut. -/
theorem Binary64.ofDigits?_eq {whole : List Char} (h : whole.length ≤ 800) (negative : Bool)
    (fraction : List Char) (e : Int) : ofDigits? negative whole fraction e =
      ofDecimal? negative (digitsValue (whole ++ fraction)) (e - fraction.length) := by
  have hshort : (whole.dropWhile (· = '0')).length ≤ 800 :=
    Nat.le_trans (Filter.length_dropWhile_le _ _) h
  rw [ofDigits?, if_pos hshort, digitsValue_dropWhile_zero_append]

theorem Binary64.isFinite_of_ofDigits? {negative : Bool} {whole fraction : List Char} {e : Int}
    {x : Binary64} (h : ofDigits? negative whole fraction e = some x) : x.isFinite = true := by
  rw [ofDigits?] at h
  simp only at h
  split at h
  · exact isFinite_of_ofDecimal? h
  · rw [Option.orElse_eq_orElse, Option.orElse_eq_or] at h
    rcases Option.or_eq_some_iff.1 h with hsettled | ⟨-, hlong⟩
    · rw [settled?] at hsettled
      split at hsettled
      · cases hsettled
      · exact isFinite_of_ofDecimal? (Option.filter_eq_some_iff.1 hsettled).1
    · exact isFinite_of_ofDecimal? hlong

/-! ## Reading numerals -/

namespace Numeral

/-- The sign in front of a numeral. -/
def withSign (negative : Bool) (cs : List Char) : List Char := if negative then '-' :: cs else cs

theorem splitSign_withSign (negative : Bool) {cs : List Char} (h : cs.head? ≠ some '-') :
    splitSign (withSign negative cs) = (negative, cs) := by
  cases negative with
  | true => rfl
  | false =>
    rw [withSign, if_neg (by decide)]
    unfold splitSign
    split
    · exact absurd rfl h
    · rfl

theorem withSign_splitSign (cs : List Char) :
    withSign (splitSign cs).1 (splitSign cs).2 = cs := by
  unfold splitSign
  split <;> rfl

theorem withSign_append (negative : Bool) (cs ds : List Char) :
    withSign negative cs ++ ds = withSign negative (cs ++ ds) := by
  unfold withSign
  split <;> rfl

theorem mem_withSign {negative : Bool} {cs : List Char} {c : Char} (hc : c ≠ '-') :
    c ∈ withSign negative cs ↔ c ∈ cs := by
  unfold withSign
  split
  · rw [List.mem_cons, or_iff_right hc]
  · rfl

theorem read?_withSign (negative : Bool) {whole rest : List Char} (hne : whole ≠ [])
    (hdigits : ∀ c ∈ whole, c.isDigit = true) (hrest : Stops Char.isDigit rest) :
    read? (withSign negative (whole ++ rest)) =
      (readExponent? (splitFraction rest).2).map fun exponent =>
        ⟨negative, whole, (splitFraction rest).1, exponent⟩ := by
  have hhead : (whole ++ rest).head? ≠ some '-' := by
    obtain ⟨c, cs, rfl⟩ := List.exists_cons_of_ne_nil hne
    intro h
    have hc := hdigits c List.mem_cons_self
    rw [Option.some.inj h] at hc
    cases hc
  rw [read?, splitSign_withSign negative hhead]
  simp only [takeWhile_append_stop hdigits hrest, dropWhile_append_stop hdigits hrest]

theorem read?_integer (negative : Bool) {whole : List Char} (hne : whole ≠ [])
    (hdigits : ∀ c ∈ whole, c.isDigit = true) :
    read? (withSign negative whole) = some ⟨negative, whole, none, none⟩ := by
  have hend : Stops Char.isDigit [] := by simp [Stops]
  have := read?_withSign negative hne hdigits hend
  rwa [List.append_nil] at this

theorem splitFraction_point {fraction : List Char} (hne : fraction ≠ [])
    (hdigits : ∀ c ∈ fraction, c.isDigit = true) :
    splitFraction ('.' :: fraction) = (some fraction, []) := by
  have htake : fraction.takeWhile Char.isDigit = fraction := List.takeWhile_eq_self_iff.2 hdigits
  have hdrop : fraction.dropWhile Char.isDigit = [] := List.dropWhile_eq_nil_iff.2 hdigits
  obtain ⟨c, cs, rfl⟩ := List.exists_cons_of_ne_nil hne
  rw [splitFraction, htake, hdrop]

theorem read?_pointed (negative : Bool) {whole fraction : List Char} (hne : whole ≠ [])
    (hdigits : ∀ c ∈ whole, c.isDigit = true) (hne' : fraction ≠ [])
    (hdigits' : ∀ c ∈ fraction, c.isDigit = true) :
    read? (withSign negative (whole ++ '.' :: fraction)) =
      some ⟨negative, whole, some fraction, none⟩ := by
  rw [read?_withSign negative hne hdigits (by rintro c hc; cases hc; rfl),
    splitFraction_point hne' hdigits']
  rfl

end Numeral

namespace Filter

/-- A word that is a numeral is none of the named literals. -/
theorem ne_name_of_read? {word : List Char} {n : Numeral} (h : Numeral.read? word = some n) :
    ∀ name ∈ ["true", "false", "NULL", "null"], word ≠ name.toList := by
  rintro name hname rfl
  have hread : ∀ name ∈ ["true", "false", "NULL", "null"], Numeral.read? name.toList = none := by
    decide
  rw [hread name hname] at h
  cases h

/-- How a numeral is classified. -/
theorem classify_of_read? {word : List Char} {n : Numeral} (h : Numeral.read? word = some n) :
    classify word = if n.isInteger = true then
        (int64? n.integer).elim (.error (.integerOutOfRange word)) fun i => .ok (.int i)
      else n.toBinary64?.elim (.ok (.string (String.ofList word))) fun x => .ok (.float x) := by
  have hname := ne_name_of_read? h
  rw [classify, if_neg (hname _ (by simp)), if_neg (hname _ (by simp)),
    if_neg (not_or.2 ⟨hname _ (by simp), hname _ (by simp)⟩)]
  simp only [h]
  cases int64? n.integer <;> cases n.toBinary64? <;> rfl

theorem classify_integer {word : List Char} {n : Numeral} {i : Int64}
    (h : Numeral.read? word = some n) (hint : n.isInteger = true)
    (hvalue : int64? n.integer = some i) : classify word = .ok (.int i) := by
  rw [classify_of_read? h, if_pos hint, hvalue]
  rfl

theorem classify_double {word : List Char} {n : Numeral} {x : Binary64}
    (h : Numeral.read? word = some n) (hint : n.isInteger = false)
    (hvalue : n.toBinary64? = some x) : classify word = .ok (.float x) := by
  rw [classify_of_read? h, if_neg (by simp [hint]), hvalue]
  rfl

/-- The literals a word may be classified as. -/
inductive Classified (word : List Char) : Literal → Prop
  | bool (b : Bool) : Classified word (.bool b)
  | null : Classified word .null
  | string : Classified word (.string (String.ofList word))
  | int {n : Numeral} {i : Int64} : Numeral.read? word = some n → n.isInteger = true →
      int64? n.integer = some i → Classified word (.int i)
  | float {n : Numeral} {x : Binary64} : Numeral.read? word = some n → n.isInteger = false →
      n.toBinary64? = some x → Classified word (.float x)

theorem classified_of_classify {word : List Char} {v : Literal} (h : classify word = .ok v) :
    Classified word v := by
  unfold classify at h
  split at h
  · cases h; exact .bool true
  · split at h
    · cases h; exact .bool false
    · split at h
      · cases h; exact .null
      · split at h
        · cases h; exact .string
        · next n hread =>
          split at h
          · next hint =>
            split at h
            · next i hvalue => cases h; exact .int hread hint hvalue
            · cases h
          · next hint =>
            split at h
            · next x hvalue => cases h; exact .float hread (by simpa using hint) hvalue
            · cases h; exact .string

theorem not_isConnective_of_read? {word : List Char} {n : Numeral}
    (h : Numeral.read? word = some n) : ¬ IsConnective word := by
  rintro hop
  rw [← isConnectiveWord_iff, isConnectiveWord, List.any_eq_true] at hop
  obtain ⟨a, ha, he⟩ := hop
  have hread : ∀ a ∈ connectiveTable, Numeral.read? a.text = none := by decide
  rw [← of_decide_eq_true he, hread a ha] at h
  cases h

/-! ## Integers -/

theorem int64?_toInt (i : Int64) : int64? i.toInt = some i := by
  rw [int64?, if_pos, Int64.ofInt_toInt]
  have hle := i.le_toInt
  have hlt := i.toInt_lt
  rw [Int64.toInt_minValue, Int64.toInt_maxValue]
  omega

theorem intChars_eq (i : Int64) : Literal.intChars i =
    Numeral.withSign (i.toInt < 0) (Nat.toDigits 10 i.toInt.natAbs) := by
  rw [Literal.intChars, Numeral.withSign]
  by_cases hneg : i.toInt < 0
  · rw [if_pos hneg, if_pos (decide_eq_true hneg)]
  · rw [if_neg hneg, if_neg (by simpa using hneg)]

theorem read?_intChars (i : Int64) : Numeral.read? (Literal.intChars i) =
    some ⟨i.toInt < 0, Nat.toDigits 10 i.toInt.natAbs, none, none⟩ := by
  rw [intChars_eq]
  exact Numeral.read?_integer _ Nat.toDigits_ne_nil fun c hc =>
    Nat.isDigit_of_mem_toDigits (by decide) (by decide) hc

theorem classify_intChars (i : Int64) : classify (Literal.intChars i) = .ok (.int i) := by
  have hvalue : Numeral.integer ⟨i.toInt < 0, Nat.toDigits 10 i.toInt.natAbs, none, none⟩ =
      i.toInt := by
    rw [Numeral.integer, digitsValue_toDigits, signed]
    by_cases hneg : i.toInt < 0
    · rw [if_pos (decide_eq_true hneg)]
      omega
    · rw [if_neg (by simpa using hneg)]
      omega
  exact classify_integer (read?_intChars i) rfl (by rw [hvalue, int64?_toInt])

end Filter

/-! ## Doubles -/

namespace Decimal

/-- Digits with a point between them that stand for the value of `d`. -/
structure Pointed (d : Decimal) (whole fraction : List Char) : Prop where
  whole_ne : whole ≠ []
  fraction_ne : fraction ≠ []
  isDigit : ∀ c ∈ whole ++ fraction, c.isDigit = true
  length_le : whole.length = 1 ∨ d.coefficient ≠ 0 ∧ (whole.length : Int) ≤ d.point
  rank_eq : rank ⟨digitsValue (whole ++ fraction), -fraction.length⟩ = d.rank

theorem isDigit_digits (d : Decimal) : ∀ c ∈ d.digits, c.isDigit = true :=
  fun _ hc => Nat.isDigit_of_mem_toDigits (by decide) (by decide) hc

theorem isDigit_zeros (k : Nat) : ∀ c ∈ List.replicate k '0', c.isDigit = true := by
  intro c hc
  rw [List.eq_of_mem_replicate hc]
  rfl

theorem digitsValue_digits (d : Decimal) : digitsValue d.digits = d.coefficient :=
  digitsValue_toDigits _

theorem digits_ne_nil (d : Decimal) : d.digits ≠ [] := Nat.toDigits_ne_nil

theorem pointed_zero {d : Decimal} (hc : d.coefficient = 0) : d.Pointed ['0'] ['0'] := by
  refine ⟨by simp, by simp, isDigit_zeros 2, .inl rfl, ?_⟩
  obtain ⟨c, e⟩ := d
  cases hc
  rw [rank_zero e]
  exact rank_zero _

theorem pointed_below {d : Decimal} (hp : d.point ≤ 0) :
    d.Pointed ['0'] (List.replicate (-d.point).toNat '0' ++ d.digits) := by
  refine ⟨by simp, by simp [d.digits_ne_nil], ?_, .inl rfl, ?_⟩
  · exact List.forall_mem_append.2 ⟨isDigit_zeros 1,
      List.forall_mem_append.2 ⟨isDigit_zeros _, d.isDigit_digits⟩⟩
  · have hvalue : digitsValue (['0'] ++ (List.replicate (-d.point).toNat '0' ++ d.digits)) =
        d.coefficient := by
      have hzeros := digitsValue_replicate_zero ((-d.point).toNat + 1)
      rw [← List.append_assoc, List.singleton_append, ← List.replicate_succ, digitsValue_append,
        hzeros, Nat.zero_mul, Nat.zero_add, digitsValue_digits]
    have hlength : -((List.replicate (-d.point).toNat '0' ++ d.digits).length : Int) =
        d.exponent := by
      simp only [List.length_append, List.length_replicate, point] at hp ⊢
      omega
    rw [hvalue, hlength]

theorem pointed_whole {d : Decimal} (hc : d.coefficient ≠ 0) (he : 0 ≤ d.exponent) :
    d.Pointed (d.digits ++ List.replicate d.exponent.toNat '0') ['0'] := by
  refine ⟨by simp [d.digits_ne_nil], by simp, ?_, .inr ⟨hc, ?_⟩, ?_⟩
  · exact List.forall_mem_append.2
      ⟨List.forall_mem_append.2 ⟨d.isDigit_digits, isDigit_zeros _⟩, isDigit_zeros 1⟩
  · simp only [List.length_append, List.length_replicate, point]
    omega
  · have hvalue : digitsValue (d.digits ++ List.replicate d.exponent.toNat '0' ++ ['0']) =
        d.coefficient * 10 ^ (d.exponent.toNat + 1) := by
      have hzeros : List.replicate d.exponent.toNat '0' ++ ['0'] =
          List.replicate (d.exponent.toNat + 1) '0' := List.replicate_succ'.symm
      rw [List.append_assoc, hzeros, digitsValue_append, digitsValue_replicate_zero,
        digitsValue_digits, List.length_replicate, Nat.add_zero]
    have hexponent : -(['0'].length : Int) + ((d.exponent.toNat + 1 : Nat) : Int) = d.exponent := by
      simp only [List.length_singleton]
      omega
    rw [hvalue, rank_mul_pow, hexponent]

theorem pointed_inside {d : Decimal} (hc : d.coefficient ≠ 0) (hp : 0 < d.point)
    (he : d.exponent < 0) :
    d.Pointed (d.digits.take d.point.toNat) (d.digits.drop d.point.toNat) := by
  have hdigits := d.digits_ne_nil
  have hlength : d.point.toNat < d.digits.length := by
    rw [point] at hp ⊢
    omega
  refine ⟨?_, ?_, ?_, .inr ⟨hc, ?_⟩, ?_⟩
  · intro h
    rcases List.take_eq_nil_iff.1 h with h | h
    · omega
    · exact hdigits h
  · intro h
    exact absurd (List.drop_eq_nil_iff.1 h) (by omega)
  · rw [List.take_append_drop]
    exact d.isDigit_digits
  · rw [List.length_take]
    omega
  · have hexponent : -((d.digits.drop d.point.toNat).length : Int) = d.exponent := by
      rw [List.length_drop, point]
      rw [point] at hp hlength
      omega
    rw [List.take_append_drop, digitsValue_digits, hexponent]

/-- Plain digits are pointed, or become so when a zero fraction is added. -/
theorem plain_pointed (d : Decimal) : ∃ whole fraction, d.Pointed whole fraction ∧
    (d.plain = whole ++ '.' :: fraction ∨ d.plain = whole ∧ fraction = ['0']) := by
  rw [plain]
  split
  · rename_i hc
    exact ⟨_, _, pointed_zero hc, .inr ⟨rfl, rfl⟩⟩
  · rename_i hc
    split
    · rename_i hp
      exact ⟨_, _, pointed_below hp, .inl rfl⟩
    · rename_i hp
      split
      · rename_i he
        exact ⟨_, _, pointed_whole hc he, .inr ⟨rfl, rfl⟩⟩
      · rename_i he
        exact ⟨_, _, pointed_inside hc (by omega) (by omega), .inl rfl⟩

/-- The whole part of a finite value is of ordinary length. -/
theorem Pointed.length_le_limit {d : Decimal} {whole fraction : List Char}
    (h : d.Pointed whole fraction) (hd : d.rank < Binary64.infinityRank) : whole.length ≤ 800 := by
  rcases h.length_le with hone | ⟨hc, hlength⟩
  · omega
  · have hpoint : d.point ≤ 310 :=
      Int.not_lt.1 fun hlt => absurd hd (Nat.not_lt.2 (infinityRank_le_rank hc hlt))
    omega

end Decimal

namespace Binary64

open Decimal (Pointed)

theorem charsBy_of_isFinite {x : Binary64} (hx : x.isFinite = true) (layout : Decimal → List Char) :
    x.charsBy layout = Numeral.withSign x.negative (layout (shortest x.rank)) := by
  have hrank : x.rank < infinityRank := of_decide_eq_true hx
  rw [charsBy, if_neg, if_neg]
  · rfl
  · simp only [isInfinite, beq_iff_eq]
    omega
  · simp only [isNaN, decide_eq_true_eq]
    omega

theorem plainChars_pointed {x : Binary64} (hx : x.isFinite = true) :
    ∃ whole fraction, (shortest x.rank).Pointed whole fraction ∧
      (x.plainChars = Numeral.withSign x.negative (whole ++ '.' :: fraction) ∨
        x.plainChars = Numeral.withSign x.negative whole ∧ fraction = ['0']) := by
  obtain ⟨whole, fraction, h, hplain⟩ := (shortest x.rank).plain_pointed
  refine ⟨whole, fraction, h, ?_⟩
  rw [plainChars, charsBy_of_isFinite hx]
  rcases hplain with hplain | ⟨hplain, rfl⟩
  · exact .inl (by rw [hplain])
  · exact .inr ⟨by rw [hplain], rfl⟩

theorem pointedChars_eq {x : Binary64} (hx : x.isFinite = true) :
    ∃ whole fraction, (shortest x.rank).Pointed whole fraction ∧
      x.pointedChars = Numeral.withSign x.negative (whole ++ '.' :: fraction) := by
  obtain ⟨whole, fraction, h, hplain⟩ := plainChars_pointed hx
  refine ⟨whole, fraction, h, ?_⟩
  rw [pointedChars]
  rcases hplain with hplain | ⟨hplain, rfl⟩
  · rw [hplain, if_pos]
    exact List.any_eq_true.2 ⟨'.', (Numeral.mem_withSign (by decide)).2 (by simp), rfl⟩
  · -- Without a point there are only digits behind the sign.
    rw [hplain, if_neg, Numeral.withSign_append]
    rw [List.any_eq_true]
    rintro ⟨c, hc, hname⟩
    have hsign : c ≠ '-' := by
      rintro rfl
      cases hname
    have hdigit := h.isDigit c (List.mem_append_left _ ((Numeral.mem_withSign hsign).1 hc))
    simp [ne_of_isDigit hdigit (d := '.') rfl, ne_of_isDigit hdigit (d := 'I') rfl,
      ne_of_isDigit hdigit (d := 'N') rfl] at hname

/-- The pointed digits of a double read as that double. -/
theorem ofDigits?_of_pointed {x : Binary64} (hx : x.isFinite = true) {whole fraction : List Char}
    (h : (shortest x.rank).Pointed whole fraction) :
    ofDigits? x.negative whole fraction 0 = some x := by
  have hrank : x.rank < infinityRank := of_decide_eq_true hx
  have hshortest := rank_shortest hrank
  have hlength := h.length_le_limit (by rw [hshortest]; exact hrank)
  have hread := h.rank_eq.trans hshortest
  rw [ofDigits?_eq hlength, Int.zero_sub, ofDecimal?_eq, hread, if_pos hrank, ofRank_rank]

end Binary64

namespace Filter

theorem read?_pointedChars {x : Binary64} (hx : x.isFinite = true) :
    ∃ n, Numeral.read? x.pointedChars = some n ∧ n.isInteger = false ∧ n.toBinary64? = some x := by
  obtain ⟨whole, fraction, h, hchars⟩ := Binary64.pointedChars_eq hx
  refine ⟨⟨x.negative, whole, some fraction, none⟩, ?_, rfl, Binary64.ofDigits?_of_pointed hx h⟩
  rw [hchars]
  exact Numeral.read?_pointed _ h.whole_ne (fun c hc => h.isDigit c (List.mem_append_left _ hc))
    h.fraction_ne (fun c hc => h.isDigit c (List.mem_append_right _ hc))

theorem classify_pointedChars {x : Binary64} (hx : x.isFinite = true) :
    classify x.pointedChars = .ok (.float x) := by
  obtain ⟨n, hread, hint, hvalue⟩ := read?_pointedChars hx
  exact classify_double hread hint hvalue

end Filter

end SearchGateway
