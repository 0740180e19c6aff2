import Mathlib.Algebra.Group.Nat.Defs
import SearchGateway.Number.Shortest

/-!
# Rounding decimals to doubles

A double is its sign and its rank, and `rankOf` depends on the quotient alone: a common factor
changes nothing. `Decimal.rank` is the rank nearest to a decimal, and `ofDecimal?_eq` says that
`ofDecimal?` is the double of that rank, as long as the rank is finite. The exponents that
`ofDecimal?` settles without a division are no exception. Hence the digits that `shortest` chooses
read back (`rank_shortest`): it falls back on the exact value, which does.
-/

namespace SearchGateway

namespace Binary64

/-! ## Words and ranks -/

theorem ofRank_rank (x : Binary64) : ofRank x.negative x.rank = x := by
  have hlt : x.bits.toNat < Nat.pow 2 64 := x.bits.toNat_lt
  have hword : x.rank + (if x.negative then Nat.pow 2 63 else 0) = x.bits.toNat := by
    simp only [rank, negative, decide_eq_true_eq, Nat.pow_eq] at hlt ⊢
    split <;> omega
  rw [ofRank, hword, UInt64.ofNat_toNat]

theorem rank_ofRank (negative : Bool) {r : Nat} (h : r < infinityRank) :
    (ofRank negative r).rank = r := by
  simp only [infinityRank, Nat.pow_eq] at h
  simp only [rank, ofRank, UInt64.toNat_ofNat', Nat.pow_eq]
  split <;> omega

theorem isFinite_ofRank (negative : Bool) {r : Nat} (h : r < infinityRank) :
    (ofRank negative r).isFinite = true := by
  rw [isFinite, rank_ofRank negative h]
  exact decide_eq_true h

theorem ofRank_inj {negative : Bool} {r r' : Nat} (h : r < infinityRank) (h' : r' < infinityRank)
    (he : ofRank negative r = ofRank negative r') : r = r' := by
  rw [← rank_ofRank negative h, he, rank_ofRank negative h']

/-! ## Rounded quotients -/

theorem roundDiv_mul_left {k : Nat} (hk : 0 < k) (n d : Nat) :
    roundDiv (k * n) (k * d) = roundDiv n d := by
  have hlt : k * d < 2 * (k * (n % d)) ↔ d < 2 * (n % d) := by
    rw [Nat.mul_left_comm]
    exact Nat.mul_lt_mul_left hk
  have heq : 2 * (k * (n % d)) = k * d ↔ 2 * (n % d) = d := by
    rw [Nat.mul_left_comm]
    exact Nat.mul_right_inj (Nat.ne_of_gt hk)
  simp only [roundDiv, Nat.mul_div_mul_left _ _ hk, Nat.mul_mod_mul_left, beq_iff_eq, hlt, heq,
    Bool.or_eq_true, Bool.and_eq_true, decide_eq_true_eq]

theorem roundDiv_mul_self (n : Nat) {d : Nat} (hd : 0 < d) : roundDiv (n * d) d = n := by
  simp [roundDiv, Nat.mul_div_cancel _ hd, Nat.ne_of_lt hd]

theorem div_le_roundDiv (n d : Nat) : n / d ≤ roundDiv n d := by
  rw [roundDiv]
  split <;> omega

theorem roundDiv_eq_zero {n d : Nat} (h : 2 * n < d) : roundDiv n d = 0 := by
  have hn : n < d := by omega
  rw [roundDiv, Nat.div_eq_of_lt hn, Nat.mod_eq_of_lt hn, if_neg]
  simp
  omega

theorem rankOf_mul_left {k : Nat} (hk : 0 < k) (n d : Nat) :
    rankOf (k * n) (k * d) = rankOf n d := by
  simp only [rankOf, Nat.mul_div_mul_left _ _ hk, Nat.mul_assoc, roundDiv_mul_left hk]

theorem rankOf_zero (d : Nat) : rankOf 0 d = 0 := by
  simp [rankOf, roundDiv]

/-- The units of a rank are nearest to that rank. -/
theorem rankOf_units_mul (r : Nat) {d : Nat} (hd : 0 < d) : rankOf (units r * d) d = r := by
  have hreduce : rankOf (units r * d) d = rankOf (units r) 1 := by
    rw [Nat.mul_comm]
    simpa using rankOf_mul_left hd (units r) 1
  rw [hreduce]
  by_cases he : r / Nat.pow 2 52 = 0
  · have hr : r < 2 ^ 52 := by simpa using he
    have hunits : units r = r := by rw [units]; exact if_pos he
    have hlog : Nat.log2 r - 52 = 0 := by
      by_cases h0 : r = 0
      · subst h0; rfl
      · have := (Nat.log2_lt h0).2 hr
        omega
    rw [rankOf, hunits, Nat.div_one, hlog]
    simpa using roundDiv_mul_self r Nat.one_pos
  · have hunits : units r = (2 ^ 52 + r % 2 ^ 52) * 2 ^ (r / 2 ^ 52 - 1) := by
      rw [units]; exact if_neg he
    have hmod : r % 2 ^ 52 < 2 ^ 52 := Nat.mod_lt _ (by decide)
    have hlog : Nat.log2 (units r) = 52 + (r / 2 ^ 52 - 1) := by
      have hpos : 0 < 2 ^ (r / 2 ^ 52 - 1) := Nat.pow_pos (by decide)
      rw [hunits, Nat.log2_eq_iff (Nat.ne_of_gt (Nat.mul_pos (by omega) hpos)), Nat.pow_add,
        Nat.add_right_comm, Nat.pow_add]
      exact ⟨Nat.mul_le_mul_right _ (by omega), Nat.mul_lt_mul_of_pos_right (by omega) hpos⟩
    have hshift : Nat.log2 (units r) - 52 = r / 2 ^ 52 - 1 := by omega
    have hsplit := Nat.div_add_mod r (2 ^ 52)
    rw [rankOf, Nat.div_one, hshift, hunits, Nat.one_mul, Nat.pow_eq,
      roundDiv_mul_self _ (Nat.pow_pos (by decide))]
    simp only [Nat.pow_eq] at he ⊢
    omega

/-! ## Quotients out of range -/

theorem le_rankOf {n d k : Nat} (hd : 0 < d) (h : 2 ^ (52 + k) * d ≤ n) :
    (k + 1) * 2 ^ 52 ≤ rankOf n d := by
  have hq : 2 ^ (52 + k) ≤ n / d := (Nat.le_div_iff_mul_le hd).2 h
  have hpos : n / d ≠ 0 := Nat.ne_of_gt (Nat.lt_of_lt_of_le (Nat.two_pow_pos _) hq)
  have hlog : 52 + k ≤ Nat.log2 (n / d) := (Nat.le_log2 hpos).2 hq
  obtain ⟨shift, hshift⟩ : ∃ shift, Nat.log2 (n / d) = 52 + shift :=
    ⟨Nat.log2 (n / d) - 52, by omega⟩
  have hmantissa : 2 ^ 52 ≤ n / (d * 2 ^ shift) := by
    rw [← Nat.div_div_eq_div_mul, Nat.le_div_iff_mul_le (Nat.two_pow_pos shift), ← Nat.pow_add,
      ← hshift]
    exact Nat.log2_self_le hpos
  have hround := div_le_roundDiv n (d * 2 ^ shift)
  rw [rankOf, hshift, Nat.add_sub_cancel_left]
  simp only [Nat.pow_eq]
  omega

theorem roundDiv_le (n d : Nat) : roundDiv n d ≤ n / d + 1 := by
  simp only [roundDiv]
  split <;> omega

theorem rankOf_le {n k : Nat} (h : n < 2 ^ (53 + k)) : rankOf n 1 ≤ (k + 2) * 2 ^ 52 := by
  by_cases hn : n = 0
  · rw [hn, rankOf_zero]
    exact Nat.zero_le _
  · have hlog : Nat.log2 n < 53 + k := (Nat.log2_lt hn).2 h
    obtain ⟨shift, hshift⟩ : ∃ shift, Nat.log2 n - 52 = shift := ⟨_, rfl⟩
    have hmantissa : n / 2 ^ shift < 2 ^ 53 := by
      rw [Nat.div_lt_iff_lt_mul (Nat.two_pow_pos shift), ← Nat.pow_add]
      exact (Nat.log2_lt hn).1 (by omega)
    have hround := roundDiv_le n (2 ^ shift)
    rw [rankOf, Nat.div_one, hshift, Nat.one_mul]
    simp only [Nat.pow_eq]
    have hk : shift ≤ k := by omega
    omega

/-- The number nearest to an integer of 64 bits is finite. -/
theorem isFinite_ofInt64 (i : Int64) : (ofInt64 i).isFinite = true := by
  have hbound : i.toInt.natAbs < 2 ^ 64 := by
    have hle := i.le_toInt
    have hlt := i.toInt_lt
    omega
  have hunits (k : Nat) : i.toInt.natAbs * Nat.pow 2 k < 2 ^ (53 + (11 + k)) := by
    rw [← Nat.add_assoc, Nat.pow_add _ 64]
    exact Nat.mul_lt_mul_of_pos_right hbound (Nat.two_pow_pos k)
  refine isFinite_ofRank _ (Nat.lt_of_le_of_lt (rankOf_le (hunits _)) ?_)
  rw [infinityRank, Nat.pow_eq]
  omega

theorem rankOf_eq_zero {n d : Nat} (h : 2 * n < d) : rankOf n d = 0 := by
  have hq : n / d = 0 := Nat.div_eq_of_lt (by omega)
  rw [rankOf, hq, Nat.log2_zero, Nat.zero_sub, Nat.pow_eq, Nat.pow_zero, Nat.mul_one,
    roundDiv_eq_zero h, Nat.zero_mul]

theorem lt_pow_digitCount (c : Nat) : c < 10 ^ digitCount c :=
  (Nat.length_toDigits_le_iff (by decide) Nat.length_toDigits_pos).1 (Nat.le_refl _)

theorem pow_le_of_lt_digitCount {c k : Nat} (hc : c ≠ 0) (h : k < digitCount c) : 10 ^ k ≤ c := by
  cases k with
  | zero => exact Nat.pos_of_ne_zero hc
  | succ k =>
    refine Nat.le_of_not_lt fun hlt => ?_
    have := (Nat.length_toDigits_le_iff (by decide) (Nat.succ_pos k)).2 hlt
    exact absurd h (Nat.not_lt.2 this)

end Binary64

namespace Decimal

open Binary64

/-- The rank nearest to the value of a decimal. -/
def rank (d : Decimal) : Nat :=
  rankOf (d.coefficient * 10 ^ d.exponent.toNat * one) (10 ^ (-d.exponent).toNat)

theorem infinityRank_le_rank {d : Decimal} (hc : d.coefficient ≠ 0)
    (h : 310 < (digitCount d.coefficient : Int) + d.exponent) : infinityRank ≤ d.rank := by
  obtain ⟨k, hk, hunits⟩ : ∃ k ≤ 310, 2 ^ (52 + 2046) ≤ 10 ^ k * one :=
    ⟨310, Nat.le_refl _, by decide +kernel⟩
  have hdigits := pow_le_of_lt_digitCount hc (k := digitCount d.coefficient - 1)
    (Nat.sub_lt Nat.length_toDigits_pos Nat.one_pos)
  refine le_rankOf (k := 2046) (Nat.pow_pos (by decide)) ?_
  calc 2 ^ (52 + 2046) * 10 ^ (-d.exponent).toNat
      ≤ 10 ^ k * one * 10 ^ (-d.exponent).toNat := Nat.mul_le_mul_right _ hunits
    _ = 10 ^ (k + (-d.exponent).toNat) * one := by rw [Nat.mul_right_comm, Nat.pow_add]
    _ ≤ 10 ^ (digitCount d.coefficient - 1 + d.exponent.toNat) * one :=
        Nat.mul_le_mul_right _ (Nat.pow_le_pow_right (by decide) (by omega))
    _ = 10 ^ (digitCount d.coefficient - 1) * 10 ^ d.exponent.toNat * one := by rw [Nat.pow_add]
    _ ≤ d.coefficient * 10 ^ d.exponent.toNat * one :=
        Nat.mul_le_mul_right _ (Nat.mul_le_mul_right _ hdigits)

theorem rank_eq_zero {d : Decimal} (h : (digitCount d.coefficient : Int) + d.exponent < -330) :
    d.rank = 0 := by
  obtain ⟨k, hk, hunits⟩ : ∃ k ≤ 330, 2 * one ≤ 10 ^ k := ⟨330, Nat.le_refl _, by decide +kernel⟩
  refine rankOf_eq_zero ?_
  calc 2 * (d.coefficient * 10 ^ d.exponent.toNat * one)
      = d.coefficient * 10 ^ d.exponent.toNat * (2 * one) := Nat.mul_left_comm ..
    _ < 10 ^ digitCount d.coefficient * 10 ^ d.exponent.toNat * (2 * one) := by
        refine Nat.mul_lt_mul_of_pos_right (Nat.mul_lt_mul_of_pos_right (lt_pow_digitCount _) ?_) ?_
        · exact Nat.pow_pos (by decide)
        · decide +kernel
    _ ≤ 10 ^ digitCount d.coefficient * 10 ^ d.exponent.toNat * 10 ^ k :=
        Nat.mul_le_mul_left _ hunits
    _ = 10 ^ (digitCount d.coefficient + d.exponent.toNat + k) := by rw [Nat.pow_add, Nat.pow_add]
    _ ≤ 10 ^ (-d.exponent).toNat := Nat.pow_le_pow_right (by decide) (by omega)

theorem rank_zero (e : Int) : rank ⟨0, e⟩ = 0 := by
  rw [rank, Nat.zero_mul, Nat.zero_mul, rankOf_zero]

/-- A zero at the end of the coefficient counts in the exponent. -/
theorem rank_mul_ten (c : Nat) (e : Int) : rank ⟨c * 10, e⟩ = rank ⟨c, e + 1⟩ := by
  simp only [rank]
  by_cases he : 0 ≤ e
  · have hnum : (e + 1).toNat = e.toNat + 1 := by omega
    have hden : (-(e + 1)).toNat = 0 := by omega
    have hden' : (-e).toNat = 0 := by omega
    rw [hnum, hden, hden', Nat.mul_assoc c 10, ← Nat.pow_succ']
  · have hnum : (e + 1).toNat = 0 := by omega
    have hnum' : e.toNat = 0 := by omega
    have hden : (-e).toNat = (-(e + 1)).toNat + 1 := by omega
    rw [hnum, hnum', hden, Nat.mul_right_comm c 10, Nat.mul_right_comm _ 10, Nat.pow_succ,
      Nat.mul_comm _ 10, Nat.mul_comm _ 10, rankOf_mul_left (by decide)]

theorem rank_mul_pow (c k : Nat) (e : Int) : rank ⟨c * 10 ^ k, e⟩ = rank ⟨c, e + k⟩ := by
  induction k generalizing e with
  | zero => simp
  | succ k ih =>
    rw [Nat.pow_succ, ← Nat.mul_assoc, rank_mul_ten, ih]
    congr 2
    omega

end Decimal

namespace Binary64

/-- `ofDecimal?` gives the double of the nearest rank, unless that rank is not finite. -/
theorem ofDecimal?_eq (negative : Bool) (c : Nat) (e : Int) : ofDecimal? negative c e =
    if Decimal.rank ⟨c, e⟩ < infinityRank then some (ofRank negative (Decimal.rank ⟨c, e⟩))
    else none := by
  rw [ofDecimal?]
  split
  · rename_i hc
    subst hc
    rw [Decimal.rank_zero]
    rfl
  · rename_i hc
    simp only
    split
    · rename_i htop
      rw [if_neg (Nat.not_lt.2 (Decimal.infinityRank_le_rank (d := ⟨c, e⟩) hc htop))]
    · split
      · rename_i htop
        rw [Decimal.rank_eq_zero (d := ⟨c, e⟩) htop]
        rfl
      · split
        · rename_i he
          rw [ofRatio?, Decimal.rank, Int.toNat_eq_zero.2 (by omega : -e ≤ 0)]
          rfl
        · rename_i he
          rw [ofRatio?, Decimal.rank, Int.toNat_eq_zero.2 (by omega : e ≤ 0), Nat.pow_zero,
            Nat.mul_one]
          rfl

theorem isFinite_of_ofDecimal? {negative : Bool} {c : Nat} {e : Int} {x : Binary64}
    (h : ofDecimal? negative c e = some x) : x.isFinite = true := by
  rw [ofDecimal?_eq] at h
  split at h
  · rename_i hr
    cases h
    exact isFinite_ofRank negative hr
  · cases h

end Binary64

/-! ## The fewest digits -/

namespace Decimal

open Binary64

theorem readsAs_iff {d : Decimal} {r : Nat} (hr : r < infinityRank) :
    d.readsAs r = true ↔ d.rank = r := by
  rw [readsAs, beq_iff_eq, ofDecimal?_eq]
  constructor
  · intro h
    split at h
    · rename_i hd
      exact ofRank_inj hd hr (Option.some.inj h)
    · cases h
  · intro h
    rw [h, if_pos hr]

theorem rank_stripZeros (c : Nat) (e : Int) (fuel : Nat) :
    (stripZeros c e fuel).rank = rank ⟨c, e⟩ := by
  induction fuel generalizing c e with
  | zero => rfl
  | succ fuel ih =>
    rw [stripZeros]
    split
    · rename_i h
      rw [ih, ← rank_mul_ten, Nat.div_mul_cancel (Nat.dvd_of_mod_eq_zero h.2)]
    · rfl

theorem rank_normalize (d : Decimal) : d.normalize.rank = d.rank :=
  rank_stripZeros ..

end Decimal

namespace Binary64

theorem rank_of_pick? {r : Nat} {low high d : Decimal} {takeLow : Bool} (hr : r < infinityRank)
    (h : pick? r low high takeLow = some d) : d.rank = r := by
  rw [pick?] at h
  split at h
  · rename_i hlow hhigh
    cases h
    split
    · exact (Decimal.readsAs_iff hr).1 hlow
    · exact (Decimal.readsAs_iff hr).1 hhigh
  · rename_i hlow _
    cases h
    exact (Decimal.readsAs_iff hr).1 hlow
  · rename_i _ hhigh
    cases h
    exact (Decimal.readsAs_iff hr).1 hhigh
  · cases h

theorem rank_exactDecimal (r : Nat) : (exactDecimal r).rank = r := by
  obtain ⟨k, hd, hone⟩ : ∃ k : Nat, exactDecimal r = ⟨units r * Nat.pow 5 k, -k⟩ ∧
      Nat.pow 5 k * one = 10 ^ k :=
    ⟨1074, rfl, by decide +kernel⟩
  have hnum : (-(k : Int)).toNat = 0 := by omega
  have hden : (-(-(k : Int))).toNat = k := by omega
  rw [hd, Decimal.rank, hnum, hden, Nat.pow_zero, Nat.mul_one, Nat.mul_assoc, hone]
  exact rankOf_units_mul r (Nat.pow_pos (by decide))

/-- The fewest digits of a finite rank are nearest to that rank. -/
theorem rank_shortest {r : Nat} (hr : r < infinityRank) : (shortest r).rank = r := by
  rw [shortest]
  split
  · rename_i h0
    rw [Decimal.rank_zero, h0]
  · simp only [Decimal.rank_normalize]
    cases hfound : (List.range 17).findSome? fun n => candidate? r (n + 1) with
    | none => exact rank_exactDecimal r
    | some d =>
      obtain ⟨n, -, hn⟩ := List.exists_of_findSome?_eq_some hfound
      exact rank_of_pick? hr hn

end Binary64

end SearchGateway
