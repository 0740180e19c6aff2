import SearchGateway.Proofs.Text.Unicode

/-!
# The bytes of a text

No character is without bytes, so that of two places in a text the later one has fewer bytes after
it (`byteLength_lt_of_suffix`).

`takeBytes` cuts a text between any two of its bytes (`bytes_takeBytes`): all bytes of a character
that has several are beyond ASCII, and such bytes can be held.
-/

namespace SearchGateway.Text

theorem byteLength_append (s t : List Char) :
    byteLength (s ++ t) = byteLength s + byteLength t := by
  induction s with
  | nil => exact (Nat.zero_add _).symm
  | cons c s ih => rw [List.cons_append, byteLength, byteLength, ih, Nat.add_assoc]

theorem charSize_pos (c : Char) : 0 < charSize c := by
  unfold charSize
  split
  · exact Nat.one_pos
  · exact c.utf8Size_pos

theorem byteLength_eq_zero_iff {s : List Char} : byteLength s = 0 ↔ s = [] := by
  cases s with
  | nil => exact iff_of_true rfl rfl
  | cons c s =>
    have := charSize_pos c
    rw [byteLength]
    exact iff_of_false (by omega) (List.cons_ne_nil _ _)

theorem byteLength_le_of_suffix {s t : List Char} (h : t <:+ s) : byteLength t ≤ byteLength s := by
  obtain ⟨before, rfl⟩ := h
  rw [byteLength_append]
  omega

theorem byteLength_lt_of_suffix {s t : List Char} (h : t <:+ s) (hne : t ≠ s) :
    byteLength t < byteLength s := by
  obtain ⟨before, rfl⟩ := h
  have hbefore : byteLength before ≠ 0 := by
    intro hzero
    exact hne (by rw [byteLength_eq_zero_iff.1 hzero, List.nil_append])
  rw [byteLength_append]
  omega

theorem bytes_append (cs cs' : List Char) : bytes (cs ++ cs') = bytes cs ++ bytes cs' :=
  List.flatMap_append

theorem high_ofNat {n k : Nat} (hk : 0x80 ≤ k) (hn : n + k < 256) :
    0x80 ≤ (UInt8.ofNat (n + k)).toNat := by
  have htoNat : (UInt8.ofNat (n + k)).toNat = n + k := UInt8.toNat_ofNat_of_lt' hn
  omega

theorem high_of_one_lt_length {c : Char} (h : 1 < (charBytes c).length) :
    ∀ b ∈ charBytes c, 0x80 ≤ b.toNat := by
  unfold charBytes String.utf8EncodeChar at h ⊢
  -- One byte is the case of a held byte and that of ASCII.
  by_cases hheld : isHeld c = true
  · rw [if_pos hheld] at h
    exact absurd h (Nat.lt_irrefl 1)
  by_cases hascii : c.val.toNat ≤ 0x7f
  · rw [if_neg hheld, if_pos hascii] at h
    exact absurd h (Nat.lt_irrefl 1)
  rw [if_neg hheld, if_neg hascii]
  split <;> [skip; split] <;>
    simp only [List.forall_mem_cons, List.not_mem_nil, false_imp_iff, implies_true, and_true] <;>
    and_intros <;> exact high_ofNat (by omega) (by omega)

/-- Bytes beyond ASCII can be held. -/
theorem bytes_map_hold {bs : List UInt8} (h : ∀ b ∈ bs, 0x80 ≤ b.toNat) :
    bytes (bs.map hold) = bs := by
  induction bs with
  | nil => rfl
  | cons b bs ih =>
    obtain ⟨hb, hbs⟩ := List.forall_mem_cons.1 h
    have hbyte : charBytes (hold b) = [b] := by
      rw [charBytes, if_pos (isHeld_hold hb), heldByte_hold]
    rw [List.map_cons, bytes, List.flatMap_cons, hbyte, ← bytes, ih hbs, List.singleton_append]

theorem bytes_takeBytes (n : Nat) (cs : List Char) :
    bytes (takeBytes n cs) = (bytes cs).take n := by
  induction cs generalizing n with
  | nil => rw [takeBytes, bytes, List.flatMap_nil, List.take_nil]
  | cons c cs ih =>
    have hcons : bytes (c :: cs) = charBytes c ++ bytes cs := List.flatMap_cons
    rw [hcons, takeBytes]
    split
    · next hfits =>
      rw [List.take_append, List.take_of_length_le hfits, ← ih]
      exact List.flatMap_cons
    · next hcut =>
      have hn : n < (charBytes c).length := Nat.lt_of_not_le hcut
      rw [List.take_append_of_le_length (Nat.le_of_lt hn)]
      refine bytes_map_hold fun b hb => ?_
      have hlong : 1 < (charBytes c).length := by
        have := List.length_pos_of_mem hb
        rw [List.length_take] at this
        omega
      exact high_of_one_lt_length hlong b (List.mem_of_mem_take hb)

end SearchGateway.Text
