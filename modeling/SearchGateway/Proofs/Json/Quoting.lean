import SearchGateway.Json.Value
import SearchGateway.Proofs.Json.Document
import SearchGateway.Proofs.Text.Unicode

/-!
# Texts in quotes

Whatever a text holds, it is written as a string of the format (`exists_literal`): what has a
meaning there is escaped, and no control character is left. The string stands for the text, up to
stray bytes (`written`), and so for the text itself if it consists of Unicode characters.
-/

namespace SearchGateway.Json

open SearchGateway.Text

/-- The characters between quotes stand for the value, and none of them is a control character. -/
def Spells (text value : List Char) : Prop :=
  ∃ l : Literal, l.text = text ∧ l.flatMap Symbol.value = value ∧ l.any Symbol.isLone = false ∧
    ∀ c ∈ text, 0x20 ≤ c.toNat

theorem spells_nil : Spells [] [] := ⟨[], rfl, rfl, rfl, List.forall_mem_nil _⟩

theorem Spells.append {text text' value value' : List Char} (h : Spells text value)
    (h' : Spells text' value') : Spells (text ++ text') (value ++ value') := by
  obtain ⟨l, rfl, rfl, hlone, hprintable⟩ := h
  obtain ⟨l', rfl, rfl, hlone', hprintable'⟩ := h'
  refine ⟨l ++ l', List.flatMap_append, List.flatMap_append, ?_, ?_⟩
  · rw [List.any_append, hlone, hlone']
    rfl
  · exact List.forall_mem_append.2 ⟨hprintable, hprintable'⟩

theorem Spells.flatMap {α : Type} {text value : α → List Char}
    (xs : List α) (h : ∀ x ∈ xs, Spells (text x) (value x)) :
    Spells (xs.flatMap text) (xs.flatMap value) := by
  induction xs with
  | nil => exact spells_nil
  | cons x xs ih =>
    obtain ⟨hx, hxs⟩ := List.forall_mem_cons.1 h
    rw [List.flatMap_cons, List.flatMap_cons]
    exact hx.append (ih hxs)

theorem Spells.of_symbol (s : Symbol) (hlone : s.isLone = false)
    (hprintable : ∀ c ∈ s.text, 0x20 ≤ c.toNat) : Spells s.text s.value := by
  refine ⟨[s], List.flatMap_singleton .., List.flatMap_singleton .., ?_, hprintable⟩
  rw [List.any_cons, hlone]
  rfl

theorem spells_plain {c : Char} (hquote : c ≠ '"') (hbackslash : c ≠ '\\') (hc : 0x20 ≤ c.toNat) :
    Spells [c] [c] :=
  .of_symbol (.plain c ⟨hquote, hbackslash⟩) rfl (List.forall_mem_singleton.2 hc)

theorem spells_escape (e : Escape) : Spells ['\\', e.letter] [e.char] := by
  refine .of_symbol (.escape e) rfl ?_
  cases e <;> exact List.forall_mem_cons.2 ⟨by decide, List.forall_mem_singleton.2 (by decide)⟩

/-! ### Characters by their number -/

theorem isHexDigit_hexDigit : ∀ n < 16, isHexDigit (hexDigit n) = true := by decide

theorem hexValue_hexDigit : ∀ n < 16, hexValue (hexDigit n) = n := by decide

theorem le_toNat_of_isHexDigit {c : Char} (h : isHexDigit c = true) : 0x20 ≤ c.toNat := by
  by_contra hlt
  have hdigit : ∀ n < 0x20, isHexDigit (Char.ofNat n) = false := by decide
  have hfalse := hdigit c.toNat (by omega)
  rw [Char.ofNat_toNat, h] at hfalse
  cases hfalse

/-- The digits of a number below 2¹⁶. -/
def hex4 (n : Nat) : Hex4 where
  text := [hexDigit (n / 4096 % 16), hexDigit (n / 256 % 16), hexDigit (n / 16 % 16),
    hexDigit (n % 16)]
  length_eq := rfl
  isHexDigit := by
    simp only [List.forall_mem_cons, List.not_mem_nil, false_imp_iff, implies_true, and_true]
    exact ⟨isHexDigit_hexDigit _ (by omega), isHexDigit_hexDigit _ (by omega),
      isHexDigit_hexDigit _ (by omega), isHexDigit_hexDigit _ (by omega)⟩

theorem value_hex4 {n : Nat} (h : n < 0x10000) : (hex4 n).value = n := by
  show (((0 * 16 + hexValue (hexDigit (n / 4096 % 16))) * 16 +
    hexValue (hexDigit (n / 256 % 16))) * 16 + hexValue (hexDigit (n / 16 % 16))) * 16 +
    hexValue (hexDigit (n % 16)) = n
  rw [hexValue_hexDigit _ (by omega), hexValue_hexDigit _ (by omega),
    hexValue_hexDigit _ (by omega), hexValue_hexDigit _ (by omega)]
  omega

theorem spells_unicodeEscape {c : Char} (hc : c.toNat < 0x10000) :
    Spells (unicodeEscape c) (ofChar c) := by
  have hvalue := value_hex4 hc
  -- No character has the number of a surrogate.
  have hsurrogate : (hex4 c.toNat).value < 0xD800 ∨ 0xDFFF < (hex4 c.toNat).value := by
    have hvalid := c.valid
    unfold UInt32.isValidChar Nat.isValidChar at hvalid
    rw [hvalue]
    show c.val.toNat < 0xD800 ∨ 0xDFFF < c.val.toNat
    omega
  have hchar : (Symbol.code (hex4 c.toNat) hsurrogate).value = ofChar c := by
    rw [Symbol.value, hvalue, Char.ofNat_toNat]
  rw [← hchar]
  refine .of_symbol (.code (hex4 c.toNat) hsurrogate) rfl fun d hd => ?_
  rcases List.mem_cons.1 hd with rfl | hd
  · decide
  rcases List.mem_cons.1 hd with rfl | hd
  · decide
  exact le_toNat_of_isHexDigit ((hex4 c.toNat).isHexDigit d hd)

/-! ### Glyphs -/

theorem spells_hold (b : UInt8) : Spells [hold b] [hold b] := by
  have hb := toNat_hold b
  refine spells_plain ?_ ?_ (by omega)
  · intro h
    rw [h] at hb
    have : ('"' : Char).toNat = 34 := by decide
    omega
  · intro h
    rw [h] at hb
    have : ('\\' : Char).toNat = 92 := by decide
    omega

theorem toNat_lt_of_isMarkup {c : Char} (h : isMarkup c = true) : c.toNat < 0x10000 := by
  simp only [isMarkup, Bool.or_eq_true, beq_iff_eq, or_assoc] at h
  rcases h with rfl | rfl | rfl | h | h
  · decide
  · decide
  · decide
  · omega
  · omega

theorem spells_escapeChar (markup : Bool) {c : Char} (hc : isHeld c = false) :
    Spells (escapeChar markup c) (ofChar c) := by
  unfold escapeChar
  by_cases hquote : c = '"'
  · subst hquote
    exact spells_escape .quote
  rw [if_neg hquote]
  by_cases hbackslash : c = '\\'
  · subst hbackslash
    exact spells_escape .backslash
  rw [if_neg hbackslash]
  by_cases hline : c = '\n'
  · subst hline
    exact spells_escape .lineFeed
  rw [if_neg hline]
  by_cases hreturn : c = '\r'
  · subst hreturn
    exact spells_escape .carriageReturn
  rw [if_neg hreturn]
  by_cases htab : c = '\t'
  · subst htab
    exact spells_escape .tab
  rw [if_neg htab]
  split
  · rename_i hnumber
    rw [Bool.or_eq_true, Bool.and_eq_true, decide_eq_true_eq] at hnumber
    refine spells_unicodeEscape ?_
    rcases hnumber with hlow | ⟨-, hmarkup⟩
    · omega
    · exact toNat_lt_of_isMarkup hmarkup
  · rename_i hnumber
    rw [Bool.or_eq_true, not_or, decide_eq_true_eq] at hnumber
    rw [ofChar_of_lt hc]
    exact spells_plain hquote hbackslash (by omega)

/-- What a glyph stands for once it is written. A stray byte is lost where markup is escaped. -/
def standsFor (markup : Bool) : Glyph → List Char
  | .char c => ofChar c
  | .stray b => if markup then [replacement] else [hold b]

theorem spells_escapeGlyph (markup : Bool) (g : Glyph) :
    Spells (escapeGlyph markup g) (standsFor markup g) := by
  cases g with
  | char c =>
    rw [escapeGlyph, standsFor]
    split
    · rename_i hc
      rw [ofChar_of_isHeld hc, List.map_eq_flatMap]
      exact .flatMap _ fun b _ => spells_hold b
    · rename_i hc
      exact spells_escapeChar markup (Bool.eq_false_iff.2 hc)
  | stray b =>
    cases markup with
    | true => exact spells_unicodeEscape (c := replacement) (by decide)
    | false => exact spells_hold b

/-! ### Texts -/

/-- What a text stands for once it is written. -/
def written (markup : Bool) (s : String) : String :=
  String.ofList ((glyphs s.toList).flatMap (standsFor markup))

theorem written_of_isUnicode {s : String} (h : IsUnicode s) (markup : Bool) :
    written markup s = s := by
  obtain ⟨u, rfl⟩ := h
  rw [written, glyphs_ofUnicode, List.flatMap_map, ofUnicode]
  rfl

theorem exists_literal (markup : Bool) (s : String) :
    ∃ l : Literal, quote markup s.toList = '"' :: (l.text ++ ['"']) ∧
      l.value = written markup s ∧ l.any Symbol.isLone = false ∧ ∀ c ∈ l.text, 0x20 ≤ c.toNat := by
  obtain ⟨l, htext, hvalue, hlone, hprintable⟩ :=
    Spells.flatMap (glyphs s.toList) fun g _ => spells_escapeGlyph markup g
  refine ⟨l, ?_, ?_, hlone, ?_⟩
  · rw [quote, htext]
  · rw [Literal.value, hvalue, written]
  · rw [htext]
    exact hprintable

end SearchGateway.Json
