import Mathlib.Data.List.Basic
import SearchGateway.Text.Bytes

/-!
# Texts of Unicode characters

A text that comes from Unicode characters is read as exactly these characters (`glyphs_ofUnicode`),
although those of the last half block are held by four characters each: neighbours that hold bytes
are read as one run of bytes, and it falls into whole characters again.
-/

namespace SearchGateway.Text

/-- The text stands for Unicode characters only. -/
def IsUnicode (s : String) : Prop := ∃ u : String, ofUnicode u = s

/-- The characters stand for Unicode characters only. -/
def Genuine (cs : List Char) : Prop := ∃ us : List Char, us.flatMap ofChar = cs

theorem genuine_nil : Genuine [] := ⟨[], rfl⟩

theorem Genuine.append {cs ds : List Char} (hc : Genuine cs) (hd : Genuine ds) :
    Genuine (cs ++ ds) := by
  obtain ⟨us, rfl⟩ := hc
  obtain ⟨vs, rfl⟩ := hd
  exact ⟨us ++ vs, List.flatMap_append⟩

theorem genuine_ofChar (c : Char) : Genuine (ofChar c) := ⟨[c], List.flatMap_singleton ..⟩

theorem Genuine.flatMap {α : Type} {f : α → List Char} {xs : List α}
    (h : ∀ x ∈ xs, Genuine (f x)) : Genuine (xs.flatMap f) := by
  induction xs with
  | nil => exact genuine_nil
  | cons x xs ih =>
    obtain ⟨hx, hxs⟩ := List.forall_mem_cons.1 h
    rw [List.flatMap_cons]
    exact hx.append (ih hxs)

theorem isUnicode_iff {s : String} : IsUnicode s ↔ Genuine s.toList := by
  constructor
  · rintro ⟨u, rfl⟩
    exact ⟨u.toList, by rw [ofUnicode, String.toList_ofList]⟩
  · rintro ⟨us, hus⟩
    exact ⟨String.ofList us, by rw [ofUnicode, String.toList_ofList, hus, String.ofList_toList]⟩

theorem ofChar_of_lt {c : Char} (h : isHeld c = false) : ofChar c = [c] := by
  rw [ofChar, Glyph.text, h]
  rfl

theorem ofChar_of_isHeld {c : Char} (h : isHeld c = true) :
    ofChar c = (String.utf8EncodeChar c).map hold := by
  rw [ofChar, Glyph.text, if_pos h]

/-- Characters that hold no bytes stand for themselves. -/
theorem genuine_of_not_isHeld {cs : List Char} (h : ∀ c ∈ cs, isHeld c = false) : Genuine cs := by
  have hchars : cs.flatMap ofChar = cs := by
    induction cs with
    | nil => rfl
    | cons c cs ih =>
      obtain ⟨hc, hcs⟩ := List.forall_mem_cons.1 h
      rw [List.flatMap_cons, ofChar_of_lt hc, ih hcs, List.singleton_append]
  exact ⟨cs, hchars⟩

/-! ### Characters that are held -/

theorem toNat_hold (b : UInt8) : (hold b).toNat = 0x10FF00 + b.toNat := by
  have hb := b.toNat_lt
  have hvalid : (0x10FF00 + b.toNat).isValidChar := .inr (by omega)
  rw [hold, Char.ofNat, dif_pos hvalid]
  rfl

theorem isHeld_hold {b : UInt8} (hb : 0x80 ≤ b.toNat) : isHeld (hold b) = true := by
  rw [isHeld, toNat_hold, decide_eq_true_eq, firstHeld]
  omega

theorem heldByte_hold (b : UInt8) : heldByte (hold b) = b := by
  have hb := b.toNat_lt
  have hmod : (0x10FF00 + b.toNat) % 256 = b.toNat := by omega
  rw [heldByte, toNat_hold, hmod, UInt8.ofNat_toNat]

theorem toNat_ofNat_trailing (n : Nat) :
    (UInt8.ofNat (n % 64 + 128)).toNat = n % 64 + 128 := by
  have hlt : n % 64 + 128 < 256 := by omega
  exact UInt8.toNat_ofNat_of_lt' hlt

theorem isContinuation_ofNat (n : Nat) : isContinuation (UInt8.ofNat (n % 64 + 128)) = true := by
  simp only [isContinuation, UInt8.le_iff_toNat_le, UInt8.lt_iff_toNat_lt, toNat_ofNat_trailing,
    Bool.and_eq_true, decide_eq_true_eq]
  show 128 ≤ n % 64 + 128 ∧ n % 64 + 128 < 192
  omega

theorem payload_ofNat (n : Nat) : payload (UInt8.ofNat (n % 64 + 128)) = n % 64 := by
  rw [payload, toNat_ofNat_trailing]
  omega

theorem firstGlyph_held {z w : UInt8} (hz : isContinuation z = true) (hw : isContinuation w = true)
    (rest : List UInt8) : firstGlyph 0xF4 (0x8F :: z :: w :: rest) =
      (.char (Char.ofNat (0x10F000 + payload z * 64 + payload w)), 3) := by
  have hsecond : (secondLow 0xF4 ≤ 0x8F && 0x8F ≤ secondHigh 0xF4) = true := by decide
  have hsum : (0xF4 : UInt8).toNat % 8 * 262144 + payload 0x8F * 4096 = 0x10F000 := by decide
  simp only [firstGlyph, hsecond, hz, hw, hsum]
  rfl

/-- The four bytes of a character from `firstHeld` on. -/
theorem utf8EncodeChar_of_isHeld {c : Char} (h : isHeld c = true) :
    String.utf8EncodeChar c = [0xF4, 0x8F, UInt8.ofNat (c.toNat / 64 % 64 + 128),
      UInt8.ofNat (c.toNat % 64 + 128)] ∧
    Char.ofNat (0x10F000 + c.toNat / 64 % 64 * 64 + c.toNat % 64) = c := by
  rw [isHeld, decide_eq_true_eq, firstHeld] at h
  have hlt : c.toNat < 0x110000 := by
    have hvalid := c.valid
    unfold UInt32.isValidChar Nat.isValidChar at hvalid
    show c.val.toNat < 0x110000
    omega
  have hval : c.val.toNat = c.toNat := rfl
  constructor
  · have hx : c.toNat / 262144 % 8 + 240 = 0xF4 := by omega
    have hy : c.toNat / 4096 % 64 + 128 = 0x8F := by omega
    unfold String.utf8EncodeChar
    rw [hval, if_neg (by omega), if_neg (by omega), if_neg (by omega), hx, hy]
    rfl
  · have hsum : 0x10F000 + c.toNat / 64 % 64 * 64 + c.toNat % 64 = c.toNat := by omega
    rw [hsum, Char.ofNat_toNat]

theorem glyphsOfBytes_utf8EncodeChar {c : Char} (h : isHeld c = true) (rest : List UInt8) :
    glyphsOfBytes (String.utf8EncodeChar c ++ rest) = .char c :: glyphsOfBytes rest := by
  obtain ⟨hbytes, hchar⟩ := utf8EncodeChar_of_isHeld h
  have hread := firstGlyph_held (isContinuation_ofNat (c.toNat / 64)) (isContinuation_ofNat c.toNat)
    rest
  rw [payload_ofNat, payload_ofNat, hchar] at hread
  rw [hbytes]
  simp only [List.cons_append, List.nil_append]
  rw [glyphsOfBytes, hread]
  rfl

theorem high_of_mem_utf8EncodeChar {c : Char} (h : isHeld c = true) :
    ∀ b ∈ String.utf8EncodeChar c, 0x80 ≤ b.toNat := by
  rw [(utf8EncodeChar_of_isHeld h).1]
  simp only [List.forall_mem_cons, List.not_mem_nil, false_imp_iff, implies_true, and_true]
  rw [toNat_ofNat_trailing, toNat_ofNat_trailing]
  exact ⟨by decide, by decide, by omega, by omega⟩

theorem glyphsOfBytes_flatMap {cs : List Char} (h : ∀ c ∈ cs, isHeld c = true) :
    glyphsOfBytes (cs.flatMap String.utf8EncodeChar) = cs.map .char := by
  induction cs with
  | nil => rw [List.flatMap_nil, glyphsOfBytes, List.map_nil]
  | cons c cs ih =>
    obtain ⟨hc, hcs⟩ := List.forall_mem_cons.1 h
    rw [List.flatMap_cons, glyphsOfBytes_utf8EncodeChar hc, ih hcs, List.map_cons]

/-! ### Glyphs -/

theorem glyphsAfter_hold (held : List UInt8) {bs : List UInt8} (hbs : ∀ b ∈ bs, 0x80 ≤ b.toNat)
    (cs : List Char) :
    glyphsAfter held (bs.map hold ++ cs) = glyphsAfter (bs.reverse ++ held) cs := by
  induction bs generalizing held with
  | nil => rfl
  | cons b bs ih =>
    obtain ⟨hb, hbs⟩ := List.forall_mem_cons.1 hbs
    rw [List.map_cons, List.cons_append, glyphsAfter, if_pos (isHeld_hold hb), heldByte_hold,
      ih _ hbs, List.reverse_cons, List.append_assoc, List.singleton_append]

/-- The characters after a run of held ones. -/
theorem glyphsAfter_flatMap {front : List Char} (hfront : ∀ c ∈ front, isHeld c = true)
    (cs : List Char) :
    glyphsAfter (front.flatMap String.utf8EncodeChar).reverse (cs.flatMap ofChar) =
      (front ++ cs).map .char := by
  induction cs generalizing front with
  | nil =>
    rw [List.flatMap_nil, glyphsAfter, List.reverse_reverse, glyphsOfBytes_flatMap hfront,
      List.append_nil]
  | cons c cs ih =>
    rw [List.flatMap_cons]
    by_cases hc : isHeld c = true
    · have hfront' : ∀ d ∈ front ++ [c], isHeld d = true := by
        intro d hd
        rcases List.mem_append.1 hd with hd | hd
        · exact hfront d hd
        · rw [List.mem_singleton.1 hd]
          exact hc
      have hnext := ih hfront'
      rw [List.flatMap_append, List.flatMap_singleton, List.reverse_append,
        List.append_assoc, List.singleton_append] at hnext
      rw [ofChar_of_isHeld hc, glyphsAfter_hold _ (high_of_mem_utf8EncodeChar hc), hnext]
    · have hlt := Bool.eq_false_iff.2 hc
      have hnext := @ih [] nofun
      rw [List.flatMap_nil, List.reverse_nil, List.nil_append] at hnext
      rw [ofChar_of_lt hlt, List.singleton_append, glyphsAfter, if_neg hc, List.reverse_reverse,
        glyphsOfBytes_flatMap hfront, hnext, List.map_append, List.map_cons]

theorem glyphs_ofUnicode (u : String) : glyphs (ofUnicode u).toList = u.toList.map .char := by
  have hglyphs := @glyphsAfter_flatMap [] nofun u.toList
  rw [ofUnicode, String.toList_ofList, glyphs]
  exact hglyphs

end SearchGateway.Text
