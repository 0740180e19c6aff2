import Mathlib.Data.Bool.AllAny
import SearchGateway.Json.WellFormed
import SearchGateway.Proofs.Filter.Tokens
import SearchGateway.Proofs.Json.Document

/-!
# Reading the text of a document

Strings, blocks and values are taken from the front of a text by counting quotes and brackets. At
the text of a document they end where the document ends (`valueAt_text`, `elements_itemsText`), and
the escapes of a string are resolved to what it stands for (`unescape_text`).
-/

namespace SearchGateway.Json

open SearchGateway.Text
open SearchGateway.Filter (Stops takeWhile_append_stop dropWhile_append_stop)

/-! ### Strings -/

theorem ne_of_isHexDigit {c : Char} (h : isHexDigit c = true) : c ≠ '"' ∧ c ≠ '\\' := by
  constructor
  · rintro rfl
    cases h
  · rintro rfl
    cases h

/-- The text is part of any string it stands in. -/
def Inside (s : List Char) : Prop :=
  ∀ t, splitString (s ++ t) = (splitString t).map fun p => (s ++ p.1, p.2)

theorem inside_nil : Inside [] := fun t => by simp

theorem Inside.append {s s' : List Char} (h : Inside s) (h' : Inside s') : Inside (s ++ s') := by
  intro t
  rw [List.append_assoc, h, h', Option.map_map]
  simp [Function.comp_def]

theorem inside_plain {c : Char} (h : c ≠ '"' ∧ c ≠ '\\') : Inside [c] := by
  intro t
  rw [List.singleton_append, splitString.eq_def]
  split
  · cases ‹c :: t = []›
  · exact absurd (List.cons.inj ‹_›).1 h.1
  · exact absurd (List.cons.inj ‹_›).1 h.2
  · cases ‹c :: t = _›
    rfl

theorem inside_escaped (c : Char) : Inside ['\\', c] := fun _ => rfl

theorem inside_of_plain {s : List Char} (h : ∀ c ∈ s, c ≠ '"' ∧ c ≠ '\\') : Inside s := by
  induction s with
  | nil => exact inside_nil
  | cons c s ih =>
    exact (inside_plain (h c List.mem_cons_self)).append
      (ih fun d hd => h d (List.mem_cons_of_mem _ hd))

theorem Hex4.inside (n : Hex4) : Inside n.text :=
  inside_of_plain fun c hc => ne_of_isHexDigit (n.isHexDigit c hc)

theorem Symbol.inside (s : Symbol) : Inside s.text := by
  cases s with
  | plain c h => exact inside_plain h
  | escape e => exact inside_escaped e.letter
  | code n _ | lone n _ => exact (inside_escaped 'u').append n.inside
  | pair high low _ _ =>
    exact ((inside_escaped 'u').append high.inside).append ((inside_escaped 'u').append low.inside)

theorem Literal.inside (s : Literal) : Inside s.text := by
  induction s with
  | nil => exact inside_nil
  | cons c s ih => exact c.inside.append ih

/-- A string ends at its own quote. -/
theorem splitString_text (s : Literal) (t : List Char) :
    splitString (s.text ++ '"' :: t) = some (s.text, t) := by
  rw [s.inside]
  simp [splitString]

/-! ### Escapes -/

theorem hex4?_text (n : Hex4) (t : List Char) : hex4? (n.text ++ t) = some (n.value, t) := by
  obtain ⟨text, hlength, hhex⟩ := n
  match text, hlength with
  | [a, b, c, d], _ =>
    have hall : [a, b, c, d].all isHexDigit = true := List.all_eq_true.2 hhex
    simp [hex4?, hall, Hex4.value]

theorem unicodeEscape?_code {n : Hex4} (h : n.value < 0xD800 ∨ 0xDFFF < n.value) (t : List Char) :
    unicodeEscape? (n.text ++ t) = some (Char.ofNat n.value, t) := by
  have hnot : ¬ (0xD800 ≤ n.value ∧ n.value ≤ 0xDFFF) := by omega
  simp [unicodeEscape?, hex4?_text, hnot]

theorem unicodeEscape?_pair {high low : Hex4}
    (hhigh : 0xD800 ≤ high.value ∧ high.value ≤ 0xDBFF)
    (hlow : 0xDC00 ≤ low.value ∧ low.value ≤ 0xDFFF) (t : List Char) :
    unicodeEscape? (high.text ++ '\\' :: 'u' :: (low.text ++ t)) =
      some (Char.ofNat (0x10000 + (high.value - 0xD800) * 0x400 + (low.value - 0xDC00)), t) := by
  have his : 0xD800 ≤ high.value ∧ high.value ≤ 0xDFFF := by omega
  have hdrop : dropBytes? 2 ('\\' :: 'u' :: (low.text ++ t)) = some (low.text ++ t) := by
    have hsize : charSize '\\' = 1 ∧ charSize 'u' = 1 := by decide
    simp [dropBytes?, hsize]
  have hlt : 0x10000 + (high.value - 0xD800) * 0x400 + (low.value - 0xDC00) < 0x110000 := by omega
  have hnot : ¬ low.value < 0xDC00 := by omega
  simp [unicodeEscape?, hex4?_text, his, hdrop, hnot, surrogates, hlt]

theorem simpleEscape?_letter (e : Escape) : simpleEscape? e.letter = some e.char := by
  cases e <;> decide

theorem unescape_plain {c : Char} (h : c ≠ '\\') (t : List Char) :
    unescape (c :: t) = (unescape t).map (c :: ·) := by
  rw [unescape.eq_def]
  split
  · cases ‹c :: t = []›
  · exact absurd (List.cons.inj ‹_›).1 h
  · exact absurd (List.cons.inj ‹_›).1 h
  · exact absurd (List.cons.inj ‹_›).1 h
  · cases ‹c :: t = _›
    rfl

theorem unescape_unicode {s t : List Char} {c : Char} (h : unicodeEscape? s = some (c, t)) :
    unescape ('\\' :: 'u' :: s) = (unescape t).map (ofChar c ++ ·) := by
  rw [unescape]
  split
  · next hnone => rw [h] at hnone; cases hnone
  · next c' t' hsome =>
    rw [h] at hsome
    cases hsome
    rfl

theorem unescape_simple (e : Escape) (t : List Char) :
    unescape ('\\' :: e.letter :: t) = (unescape t).map (e.char :: ·) := by
  have hletter := simpleEscape?_letter e
  rw [unescape.eq_def]
  split
  · next h => cases h
  · next h =>
    have hu : e.letter = 'u' := (List.cons.inj (List.cons.inj h).2).1
    cases e <;> cases hu
  · next h => cases h
  · next c cs _ h =>
    cases h
    rw [hletter]
    cases unescape t <;> rfl
  · next hother h =>
    cases h
    exact (hother e.letter t rfl rfl).elim

theorem unescape_symbol {s : Symbol} (hs : s.isLone = false) (t : List Char) :
    unescape (s.text ++ t) = (unescape t).map (s.value ++ ·) := by
  cases s with
  | plain c h => exact unescape_plain h.2 t
  | escape e => exact unescape_simple e t
  | code n h => exact unescape_unicode (unicodeEscape?_code h t)
  | pair high low hhigh hlow =>
    have htext : (Symbol.pair high low hhigh hlow).text ++ t =
        '\\' :: 'u' :: (high.text ++ '\\' :: 'u' :: (low.text ++ t)) := by
      simp [Symbol.text]
    rw [htext, unescape_unicode (unicodeEscape?_pair hhigh hlow t), Symbol.value, Hex4.pairValue]
  | lone => cases hs

theorem resolve?_cons {c : Symbol} (hc : c.isLone = false) (s : Literal) :
    Literal.resolve? (c :: s) = s.resolve?.map (c.value ++ ·) := by
  cases c with
  | lone => cases hc
  | _ => rfl

/-- The escapes of a string stand for its characters. -/
theorem unescape_of_resolve? {s : Literal} {cs : List Char} (h : s.resolve? = some cs) :
    unescape s.text = some cs := by
  fun_induction Literal.resolve? s generalizing cs with
  | case1 =>
    cases h
    rw [Literal.text, List.flatMap_nil, unescape]
  | case2 high hhigh low hlow s hpair ih =>
    obtain ⟨cs, hcs, rfl⟩ := Option.map_eq_some_iff.1 h
    have htext : Literal.text (.lone high hhigh :: .lone low hlow :: s) =
        (Symbol.pair high low ⟨hhigh.1, hpair.1⟩ ⟨hpair.2, hlow.2⟩).text ++ Literal.text s := by
      simp [Literal.text, Symbol.text]
    rw [htext, unescape_symbol rfl, ih hcs]
    rfl
  | case3 => cases h
  | case4 => cases h
  | case5 c s _ hnot ih =>
    obtain ⟨cs, hcs, rfl⟩ := Option.map_eq_some_iff.1 h
    have hlone : c.isLone = false := by
      cases c with
      | lone n hn => exact (hnot n hn rfl).elim
      | _ => rfl
    rw [Literal.text, List.flatMap_cons, unescape_symbol hlone, ← Literal.text, ih hcs]
    rfl

theorem map_unescape_text {s : Literal} (h : s.string?.isSome) :
    (unescape s.text).map String.ofList = s.string? := by
  obtain ⟨cs, hcs⟩ := Option.isSome_iff_exists.1 ((Option.isSome_map ..).symm.trans h)
  rw [Literal.string?, unescape_of_resolve? hcs, hcs]

theorem resolve?_of_isLone {s : Literal} (h : s.any Symbol.isLone = false) :
    s.resolve? = some (s.flatMap Symbol.value) := by
  induction s with
  | nil => rfl
  | cons c s ih =>
    rw [List.any_cons, Bool.or_eq_false_iff] at h
    rw [resolve?_cons h.1, ih h.2, List.flatMap_cons]
    rfl

theorem string?_of_isLone {s : Literal} (h : s.any Symbol.isLone = false) :
    s.string? = some s.value := by
  rw [Literal.string?, resolve?_of_isLone h]
  rfl

theorem unescape_text {s : Literal} (h : s.any Symbol.isLone = false) :
    unescape s.text = some (s.flatMap Symbol.value) :=
  unescape_of_resolve? (resolve?_of_isLone h)

theorem unescape_of_no_backslash {s : List Char} (h : '\\' ∉ s) : unescape s = some s := by
  induction s with
  | nil => rw [unescape]
  | cons c s ih =>
    rw [List.mem_cons, not_or] at h
    rw [unescape_plain (Ne.symm h.1), ih h.2]
    rfl

/-- How a key is resolved: only where an escape makes it necessary. -/
theorem decoded_text {s : Literal} (hs : s.any Symbol.isLone = false) :
    (if s.text.contains '\\' then unescape s.text else some s.text) =
      some (s.flatMap Symbol.value) := by
  split
  · exact unescape_text hs
  · next h =>
    rw [List.contains_iff_mem] at h
    rw [← unescape_text hs, unescape_of_no_backslash h]

/-! ### Blocks -/

/-- The text opens as many brackets of the kind as it closes, and never closes more. -/
def Neutral (opening closing : Char) (s : List Char) : Prop :=
  ∀ level t, 1 ≤ level → splitBlock opening closing level (s ++ t) =
    (splitBlock opening closing level t).map fun p => (s ++ p.1, p.2)

section blocks

variable {opening closing : Char}

theorem neutral_nil : Neutral opening closing [] := fun _ t _ => by simp

theorem Neutral.append {s s' : List Char} (h : Neutral opening closing s)
    (h' : Neutral opening closing s') : Neutral opening closing (s ++ s') := by
  intro level t hlevel
  rw [List.append_assoc, h level _ hlevel, h' level t hlevel, Option.map_map]
  simp [Function.comp_def]

theorem neutral_other {c : Char} (hquote : c ≠ '"') (hopening : c ≠ opening)
    (hclosing : c ≠ closing) : Neutral opening closing [c] := by
  intro level t _
  rw [List.singleton_append, splitBlock, if_neg hquote, if_neg hopening, if_neg hclosing]
  rfl

theorem neutral_string (s : Literal) : Neutral opening closing ('"' :: (s.text ++ ['"'])) := by
  intro level t _
  have htext : '"' :: (s.text ++ ['"']) ++ t = '"' :: (s.text ++ '"' :: t) := by simp
  rw [htext, splitBlock, if_pos rfl]
  split
  · next hnone => rw [splitString_text] at hnone; cases hnone
  · next body rest hsome =>
    rw [splitString_text] at hsome
    cases hsome
    simp

/-- The brackets of arrays and of objects. -/
def IsPair (opening closing : Char) : Prop :=
  (opening = '[' ∧ closing = ']') ∨ (opening = '\x7b' ∧ closing = '\x7d')

theorem IsPair.ne_quote (h : IsPair opening closing) : opening ≠ '"' ∧ closing ≠ '"' := by
  rcases h with ⟨rfl, rfl⟩ | ⟨rfl, rfl⟩ <;> decide

theorem IsPair.closing_ne (h : IsPair opening closing) : closing ≠ opening := by
  rcases h with ⟨rfl, rfl⟩ | ⟨rfl, rfl⟩ <;> decide

theorem splitBlock_open (h : IsPair opening closing) (level : Nat) (t : List Char) :
    splitBlock opening closing level (opening :: t) =
      (splitBlock opening closing (level + 1) t).map fun p => (opening :: p.1, p.2) := by
  rw [splitBlock, if_neg h.ne_quote.1, if_pos rfl]

theorem splitBlock_close (h : IsPair opening closing) (t : List Char) :
    splitBlock opening closing 1 (closing :: t) = some ([closing], t) := by
  rw [splitBlock, if_neg h.ne_quote.2, if_neg h.closing_ne, if_pos rfl, if_pos (Nat.le_refl 1)]

theorem splitBlock_close_inner (h : IsPair opening closing) {level : Nat} (hlevel : 1 ≤ level)
    (t : List Char) : splitBlock opening closing (level + 1) (closing :: t) =
      (splitBlock opening closing level t).map fun p => (closing :: p.1, p.2) := by
  rw [splitBlock, if_neg h.ne_quote.2, if_neg h.closing_ne, if_pos rfl, if_neg (by omega),
    Nat.add_sub_cancel]

/-- A block of its own kind of bracket is split off whole. -/
theorem splitBlock_enclosed (h : IsPair opening closing) {s : List Char}
    (hs : Neutral opening closing s) (t : List Char) :
    splitBlock opening closing 0 (opening :: (s ++ [closing]) ++ t) =
      some (opening :: (s ++ [closing]), t) := by
  have htext : opening :: (s ++ [closing]) ++ t = opening :: (s ++ closing :: t) := by simp
  rw [htext, splitBlock_open h, hs 1 _ (Nat.le_refl 1), splitBlock_close h]
  rfl

theorem neutral_enclosed (h : IsPair opening closing) {left right : Char}
    (hsides : IsPair left right) {s : List Char} (hs : Neutral opening closing s) :
    Neutral opening closing (left :: (s ++ [right])) := by
  by_cases hleft : left = opening
  · have hright : right = closing := by
      rcases h with ⟨rfl, rfl⟩ | ⟨rfl, rfl⟩ <;> rcases hsides with ⟨hl, hr⟩ | ⟨hl, hr⟩ <;>
        simp_all
    subst hleft hright
    intro level t hlevel
    have htext : left :: (s ++ [right]) ++ t = left :: (s ++ right :: t) := by simp
    rw [htext, splitBlock_open h, hs _ _ (by omega), splitBlock_close_inner h hlevel]
    simp [Function.comp_def]
  · have hother : ∀ c, c = left ∨ c = right → c ≠ opening ∧ c ≠ closing := by
      rcases h with ⟨rfl, rfl⟩ | ⟨rfl, rfl⟩ <;> rcases hsides with ⟨rfl, rfl⟩ | ⟨rfl, rfl⟩ <;>
        simp_all
    have hl := hother left (.inl rfl)
    have hr := hother right (.inr rfl)
    exact (neutral_other hsides.ne_quote.1 hl.1 hl.2).append
      (hs.append (neutral_other hsides.ne_quote.2 hr.1 hr.2))

end blocks

/-! ### Characters without a structure -/

/-- A character that opens and closes nothing and ends no key. -/
def Ordinary (c : Char) : Prop :=
  c ≠ '"' ∧ c ≠ '\x7b' ∧ c ≠ '\x7d' ∧ c ≠ '[' ∧ c ≠ ']' ∧ c ≠ ':'

instance (c : Char) : Decidable (Ordinary c) := inferInstanceAs (Decidable (_ ∧ _))

theorem ordinary_of_isLayout {c : Char} (h : isLayout c = true) : Ordinary c := by
  refine ⟨?_, ?_, ?_, ?_, ?_, ?_⟩ <;> rintro rfl <;> cases h

theorem ordinary_of_isNumeric {c : Char} (h : isNumeric c = true) : Ordinary c := by
  refine ⟨?_, ?_, ?_, ?_, ?_, ?_⟩ <;> rintro rfl <;> cases h

theorem isTokenEnd_of_isNumeric {c : Char} (h : isNumeric c = true) : isTokenEnd c = false := by
  rw [Bool.eq_false_iff]
  intro hend
  simp only [isTokenEnd, isLayout, Bool.or_eq_true, beq_iff_eq, or_assoc] at hend
  rcases hend with rfl | rfl | rfl | rfl | rfl | rfl | rfl <;> cases h

theorem neutral_of_ordinary {opening closing : Char} (h : IsPair opening closing) {s : List Char}
    (hs : ∀ c ∈ s, Ordinary c) : Neutral opening closing s := by
  induction s with
  | nil => exact neutral_nil
  | cons c s ih =>
    obtain ⟨hquote, hbrace, hbrace', hbracket, hbracket', -⟩ := hs c List.mem_cons_self
    have hc : Neutral opening closing [c] := by
      rcases h with ⟨rfl, rfl⟩ | ⟨rfl, rfl⟩
      · exact neutral_other hquote hbracket hbracket'
      · exact neutral_other hquote hbrace hbrace'
    exact hc.append (ih fun d hd => hs d (List.mem_cons_of_mem _ hd))

theorem isNumeric_of_isDigit {c : Char} (h : c.isDigit = true) : isNumeric c = true := by
  simp [isNumeric, h]

theorem Exponent.isNumeric_text (e : Exponent) : ∀ c ∈ e.text, isNumeric c = true := by
  intro c hc
  rcases List.mem_cons.1 hc with rfl | hc
  · cases e.capital <;> decide
  · rcases List.mem_append.1 hc with hc | hc
    · cases hsign : e.sign with
      | none => rw [hsign] at hc; cases hc
      | some negative =>
        rw [hsign] at hc
        rw [List.mem_singleton.1 hc]
        cases negative <;> decide
    · exact isNumeric_of_isDigit (e.digits.2.2 c hc)

theorem Number.isNumeric_text (n : Number) : ∀ c ∈ n.text, isNumeric c = true := by
  intro c hc
  rw [Number.text, List.mem_append, List.mem_append, List.mem_append] at hc
  rcases hc with ((hc | hc) | hc) | hc
  · cases hnegative : n.negative with
    | false => rw [hnegative] at hc; cases hc
    | true => rw [hnegative] at hc; rw [List.mem_singleton.1 hc]; decide
  · exact isNumeric_of_isDigit (n.whole.2.2 c hc)
  · cases hfraction : n.fraction with
    | none => rw [hfraction] at hc; cases hc
    | some ds =>
      rw [hfraction] at hc
      rcases List.mem_cons.1 hc with rfl | hc
      · decide
      · exact isNumeric_of_isDigit (ds.2.2 c hc)
  · cases hexponent : n.exponent with
    | none => rw [hexponent] at hc; cases hc
    | some e => rw [hexponent] at hc; exact e.isNumeric_text c hc

namespace Document

/-- A word or a number. -/
def IsWord : Document → Prop
  | null | bool _ | number _ => True
  | _ => False

theorem IsWord.mem_text {d : Document} (h : d.IsWord) {c : Char} (hc : c ∈ d.text) :
    Ordinary c ∧ isTokenEnd c = false := by
  -- The letters of a word are tested one by one.
  have hletters : ∀ {word : List Char}, c ∈ word →
      (word.all fun c => Ordinary c ∧ isTokenEnd c = false) = true →
        Ordinary c ∧ isTokenEnd c = false :=
    fun hmem hall => List.all_iff_forall_prop.1 hall c hmem
  cases d with
  | null => rw [text] at hc; exact hletters hc (by decide)
  | bool b => rw [text] at hc; exact hletters hc (by cases b <;> decide)
  | number n =>
    have hnumeric := n.isNumeric_text c hc
    exact ⟨ordinary_of_isNumeric hnumeric, isTokenEnd_of_isNumeric hnumeric⟩
  | string => cases h
  | array => cases h
  | object => cases h

section neutral

variable {opening closing : Char}

theorem neutral_blank (hpair : IsPair opening closing) (b : Blank) : Neutral opening closing b.1 :=
  neutral_of_ordinary hpair fun c hc => ordinary_of_isLayout (b.2 c hc)

theorem neutral_key (hpair : IsPair opening closing) (k : Key) :
    Neutral opening closing k.text := by
  have hcolon : Neutral opening closing [':'] := by
    rcases hpair with ⟨rfl, rfl⟩ | ⟨rfl, rfl⟩ <;>
      exact neutral_other (by decide) (by decide) (by decide)
  have htext : k.text = k.before.1 ++ ('"' :: (k.literal.text ++ ['"'])) ++ k.between.1 ++ [':'] ++
      k.after.1 := by simp [Key.text]
  rw [htext]
  exact ((((neutral_blank hpair k.before).append (neutral_string k.literal)).append
    (neutral_blank hpair k.between)).append hcolon).append (neutral_blank hpair k.after)

theorem neutral_comma (hpair : IsPair opening closing) : Neutral opening closing [','] :=
  neutral_of_ordinary hpair (List.forall_mem_singleton.2 (by decide))

mutual

/-- A document closes all that it opens. -/
theorem neutral_text (hpair : IsPair opening closing) :
    (d : Document) → Neutral opening closing d.text
  | null => neutral_of_ordinary hpair fun _ hc => (IsWord.mem_text (d := null) trivial hc).1
  | bool b => neutral_of_ordinary hpair fun _ hc => (IsWord.mem_text (d := bool b) trivial hc).1
  | number n => neutral_of_ordinary hpair fun _ hc => (IsWord.mem_text (d := number n) trivial hc).1
  | string s => by
    rw [text]
    exact neutral_string s
  | array blank items => by
    rw [text]
    exact neutral_enclosed hpair (.inl ⟨rfl, rfl⟩)
      ((neutral_blank hpair blank).append (neutral_itemsText hpair neutral_nil items))
  | object blank members => by
    rw [text]
    exact neutral_enclosed hpair (.inr ⟨rfl, rfl⟩)
      ((neutral_blank hpair blank).append (neutral_membersText hpair neutral_nil members))

theorem neutral_itemsText (hpair : IsPair opening closing) {lead : List Char}
    (hlead : Neutral opening closing lead) :
    (items : List (Blank × Document × Blank)) → Neutral opening closing (itemsText lead items)
  | [] => neutral_nil
  | (before, d, after) :: items => by
    rw [itemsText]
    exact (((hlead.append (neutral_blank hpair before)).append (neutral_text hpair d)).append
      (neutral_blank hpair after)).append (neutral_itemsText hpair (neutral_comma hpair) items)

theorem neutral_membersText (hpair : IsPair opening closing) {lead : List Char}
    (hlead : Neutral opening closing lead) :
    (members : List (Key × Document × Blank)) → Neutral opening closing (membersText lead members)
  | [] => neutral_nil
  | (key, d, after) :: members => by
    rw [membersText]
    exact (((hlead.append (neutral_key hpair key)).append (neutral_text hpair d)).append
      (neutral_blank hpair after)).append (neutral_membersText hpair (neutral_comma hpair) members)

end

end neutral

theorem splitBlock_array (blank : Blank) (items : List (Blank × Document × Blank)) (t : List Char) :
    splitBlock '[' ']' 0 ('[' :: (blank.1 ++ itemsText [] items ++ [']'] ++ t)) =
      some ((array blank items).text, t) := by
  rw [text]
  exact splitBlock_enclosed (.inl ⟨rfl, rfl⟩) ((neutral_blank (.inl ⟨rfl, rfl⟩) blank).append
    (neutral_itemsText (.inl ⟨rfl, rfl⟩) neutral_nil items)) t

theorem splitBlock_object (blank : Blank) (members : List (Key × Document × Blank))
    (t : List Char) :
    splitBlock '\x7b' '\x7d' 0 ('\x7b' :: (blank.1 ++ membersText [] members ++ ['\x7d'] ++ t)) =
      some ((object blank members).text, t) := by
  rw [text]
  exact splitBlock_enclosed (.inr ⟨rfl, rfl⟩) ((neutral_blank (.inr ⟨rfl, rfl⟩) blank).append
    (neutral_membersText (.inr ⟨rfl, rfl⟩) neutral_nil members)) t

end Document

/-! ### Values -/

/-- What may follow a value: nothing but layout, or after it a comma or a closing bracket. -/
def Ended (t : List Char) : Prop :=
  ∀ c ∈ (skipLayout t).head?, c = ',' ∨ c = '\x7d' ∨ c = ']'

theorem skipLayout_append {b : List Char} (hb : ∀ c ∈ b, isLayout c = true) (t : List Char) :
    skipLayout (b ++ t) = skipLayout t := List.dropWhile_append_of_pos hb

theorem skipLayout_of_not {c : Char} (hc : isLayout c = false) (t : List Char) :
    skipLayout (c :: t) = c :: t := by
  rw [skipLayout, List.dropWhile_cons_of_neg (by simp [hc])]

theorem Ended.append {b t : List Char} (h : Ended t) (hb : ∀ c ∈ b, isLayout c = true) :
    Ended (b ++ t) := by
  rw [Ended, skipLayout_append hb]
  exact h

theorem ended_cons {c : Char} (hc : c = ',' ∨ c = '\x7d' ∨ c = ']') (t : List Char) :
    Ended (c :: t) := by
  have hlayout : isLayout c = false := by rcases hc with rfl | rfl | rfl <;> rfl
  rw [Ended, skipLayout_of_not hlayout]
  rintro d ⟨⟩
  exact hc

theorem Ended.stops {t : List Char} (h : Ended t) : Stops (fun c => !isTokenEnd c) t := by
  intro c hc
  cases t with
  | nil => cases hc
  | cons d t =>
    cases hc
    cases hlayout : isLayout c with
    | true => simp [isTokenEnd, hlayout]
    | false =>
      rw [Ended, skipLayout_of_not hlayout] at h
      rcases h c rfl with rfl | rfl | rfl <;> rfl

namespace Document

/-- The start of a number tells it from a word. -/
theorem exists_number_text_eq (n : Number) :
    ∃ c cs, n.text = c :: cs ∧ (c.isDigit = true ∨ c = '-') := by
  obtain ⟨c, cs, hwhole⟩ := List.exists_cons_of_ne_nil n.whole.2.1
  have hdigit : c.isDigit = true := n.whole.2.2 c (hwhole ▸ List.mem_cons_self)
  rw [Number.text, hwhole]
  cases n.negative with
  | true => exact ⟨'-', _, rfl, .inr rfl⟩
  | false => exact ⟨c, _, rfl, .inl hdigit⟩

theorem exists_text_eq (d : Document) :
    ∃ c cs, d.text = c :: cs ∧ isLayout c = false ∧ c ≠ ']' := by
  cases d with
  | null => exact ⟨'n', "ull".toList, by rw [text]; decide, by decide, by decide⟩
  | bool b =>
    cases b with
    | true => exact ⟨'t', "rue".toList, by rw [text]; decide, by decide, by decide⟩
    | false => exact ⟨'f', "alse".toList, by rw [text]; decide, by decide, by decide⟩
  | number n =>
    obtain ⟨c, cs, htext, hc⟩ := exists_number_text_eq n
    refine ⟨c, cs, by rw [text, htext], ?_⟩
    have hnumeric : isNumeric c = true := n.isNumeric_text c (htext ▸ List.mem_cons_self)
    have hend := isTokenEnd_of_isNumeric hnumeric
    simp only [isTokenEnd, Bool.or_eq_false_iff, beq_eq_false_iff_ne] at hend
    exact ⟨hend.1.1.1, hend.2⟩
  | string s => exact ⟨'"', _, by rw [text], by decide, by decide⟩
  | array blank items => exact ⟨'[', _, by rw [text], by decide, by decide⟩
  | object blank members => exact ⟨'\x7b', _, by rw [text], by decide, by decide⟩

theorem valueAt_word {d : Document} (hd : d.IsWord) {c : Char} {cs t : List Char}
    (htext : d.text = c :: cs) (ht : Ended t) : valueAt (d.text ++ t) =
      if c :: cs = "true".toList ∨ c :: cs = "false".toList then .ok (⟨.bool, d.text⟩, t)
      else if c :: cs = "null".toList then .ok (⟨.null, d.text⟩, t)
      else if c.isDigit ∨ c = '-' then .ok (⟨.number, d.text⟩, t)
      else .error .unknownType := by
  have hc : Ordinary c := (hd.mem_text (htext ▸ List.mem_cons_self)).1
  have hword : ∀ x ∈ cs, (!isTokenEnd x) = true := by
    intro x hx
    rw [(hd.mem_text (htext ▸ List.mem_cons_of_mem c hx)).2]
    rfl
  have htake := takeWhile_append_stop hword ht.stops
  have hdrop := dropWhile_append_stop hword ht.stops
  rw [htext, List.cons_append, valueAt.eq_def]
  split
  · cases ‹c :: (cs ++ t) = []›
  · exact absurd (List.cons.inj ‹_›).1 hc.1
  · exact absurd (List.cons.inj ‹_›).1 hc.2.2.2.1
  · exact absurd (List.cons.inj ‹_›).1 hc.2.1
  · cases ‹c :: (cs ++ t) = _›
    dsimp only
    rw [htake, hdrop]

/-- A value is read to its end and no further. -/
theorem valueAt_text (d : Document) {t : List Char} (ht : Ended t) :
    valueAt (d.text ++ t) = .ok (d.raw, t) := by
  cases d with
  | null =>
    have htext : null.text = 'n' :: "ull".toList := by rw [text]; rfl
    exact valueAt_word (d := null) trivial htext ht
  | bool b =>
    cases b with
    | true =>
      have htext : (bool true).text = 't' :: "rue".toList := by rw [text]; rfl
      exact valueAt_word (d := bool true) trivial htext ht
    | false =>
      have htext : (bool false).text = 'f' :: "alse".toList := by rw [text]; rfl
      exact valueAt_word (d := bool false) trivial htext ht
  | number n =>
    obtain ⟨c, cs, htext, hc⟩ := exists_number_text_eq n
    have hne : ∀ w : List Char, w.head? = some 't' ∨ w.head? = some 'f' ∨ w.head? = some 'n' →
        c :: cs ≠ w := by
      rintro _ hw rfl
      rcases hw with hw | hw | hw <;> cases hw <;> rcases hc with hc | hc <;> cases hc
    have htext' : (number n).text = c :: cs := by rw [text, htext]
    rw [valueAt_word (d := number n) trivial htext' ht,
      if_neg (not_or.2 ⟨hne _ (.inl rfl), hne _ (.inr (.inl rfl))⟩),
      if_neg (hne _ (.inr (.inr rfl))), if_pos hc]
    rfl
  | string s =>
    have hquoted : '"' :: (s.text ++ ['"']) ++ t = '"' :: (s.text ++ '"' :: t) := by simp
    rw [raw, text, hquoted, valueAt, splitString_text]
  | array blank items =>
    show valueAt ((array blank items).text ++ t) = .ok (⟨.array, (array blank items).text⟩, t)
    rw [text, List.cons_append, valueAt, splitBlock_array, text]
  | object blank members =>
    show valueAt ((object blank members).text ++ t) =
      .ok (⟨.object, (object blank members).text⟩, t)
    rw [text, List.cons_append, valueAt, splitBlock_object, text]

/-! ### Items -/

theorem skipLayout_text_append (d : Document) (t : List Char) :
    skipLayout (d.text ++ t) = d.text ++ t := by
  obtain ⟨c, cs, htext, hc, -⟩ := d.exists_text_eq
  rw [htext, List.cons_append, skipLayout_of_not hc]

theorem itemsText_comma (item : Blank × Document × Blank)
    (items : List (Blank × Document × Blank)) :
    itemsText [','] (item :: items) = ',' :: itemsText [] (item :: items) := by
  rw [itemsText, itemsText]
  rfl

theorem elements_of_last {s t : List Char} {v : Raw} {rest : List Char}
    (h : valueAt (skipLayout s) = .ok (v, rest)) (hrest : skipLayout rest = ']' :: t) :
    elements s = ([v], none) := by
  rw [elements.eq_def]
  split
  · next herror => rw [h] at herror; cases herror
  · next hok =>
    rw [h] at hok
    cases hok
    split
    · rfl
    · next hcomma => rw [hrest] at hcomma; cases hcomma
    · next hnot _ => exact (hnot t hrest).elim

theorem elements_of_comma {s t : List Char} {v : Raw} {rest : List Char}
    (h : valueAt (skipLayout s) = .ok (v, rest)) (hrest : skipLayout rest = ',' :: t) :
    elements s = (v :: (elements t).1, (elements t).2) := by
  rw [elements.eq_def]
  split
  · next herror => rw [h] at herror; cases herror
  · next hok =>
    rw [h] at hok
    cases hok
    split
    · next hclose => rw [hrest] at hclose; cases hclose
    · next hcomma => rw [hrest] at hcomma; cases hcomma; rfl
    · next hnot => exact (hnot t hrest).elim

theorem valueAt_item (before : Blank) (d : Document) (after : Blank) {t : List Char}
    (ht : Ended t) :
    valueAt (skipLayout (before.1 ++ (d.text ++ (after.1 ++ t)))) = .ok (d.raw, after.1 ++ t) := by
  rw [skipLayout_append before.2, skipLayout_text_append, valueAt_text d (ht.append after.2)]

/-- The items of an array that is not empty start with a value, and not with its end. -/
theorem exists_skipLayout_items (item : Blank × Document × Blank)
    (items : List (Blank × Document × Blank)) (t : List Char) :
    ∃ c u, skipLayout (itemsText [] (item :: items) ++ t) = c :: u ∧ isLayout c = false ∧
      c ≠ ']' := by
  obtain ⟨before, d, after⟩ := item
  obtain ⟨c, cs, htext, hlayout, hclose⟩ := d.exists_text_eq
  rw [itemsText, htext]
  simp only [List.nil_append, List.append_assoc, List.cons_append]
  rw [skipLayout_append before.2, skipLayout_of_not hlayout]
  exact ⟨c, _, rfl, hlayout, hclose⟩

/-- The items of an array are read one by one to its end. -/
theorem elements_itemsText (item : Blank × Document × Blank)
    (items : List (Blank × Document × Blank)) (t : List Char) {s : List Char}
    (hs : skipLayout s = skipLayout (itemsText [] (item :: items) ++ ']' :: t)) :
    elements s = ((item :: items).map (·.2.1.raw), none) := by
  induction items generalizing item s with
  | nil =>
    obtain ⟨before, d, after⟩ := item
    have hvalue : valueAt (skipLayout s) = .ok (d.raw, after.1 ++ ']' :: t) := by
      rw [hs, itemsText, itemsText]
      simp only [List.nil_append, List.append_assoc]
      exact valueAt_item before d after (ended_cons (.inr (.inr rfl)) t)
    have hclose : skipLayout (after.1 ++ ']' :: t) = ']' :: t := by
      rw [skipLayout_append after.2, skipLayout_of_not (by decide)]
    rw [elements_of_last hvalue hclose]
    rfl
  | cons next items ih =>
    obtain ⟨before, d, after⟩ := item
    have hvalue : valueAt (skipLayout s) =
        .ok (d.raw, after.1 ++ ',' :: (itemsText [] (next :: items) ++ ']' :: t)) := by
      rw [hs, itemsText, itemsText_comma]
      simp only [List.nil_append, List.append_assoc, List.cons_append]
      exact valueAt_item before d after (ended_cons (.inl rfl) _)
    have hcomma : skipLayout (after.1 ++ ',' :: (itemsText [] (next :: items) ++ ']' :: t)) =
        ',' :: (itemsText [] (next :: items) ++ ']' :: t) := by
      rw [skipLayout_append after.2, skipLayout_of_not (by decide)]
    rw [elements_of_comma hvalue hcomma, ih next rfl]
    rfl

end Document

end SearchGateway.Json
