/-!
# Text and its bytes

A text is a list of characters, and its bytes are their UTF-8 forms. Bytes that come from outside
need not be UTF-8: a byte that is part of no character is a *stray*, and a text holds it by a
character of the last half block of private use, `hold b`. So that nothing is confused, a genuine
character of that half block is held as its four bytes. Every list of bytes is then the bytes of
one text (`ofBytes`), and a text without such characters is written as it is.

`glyphs` reads a text as characters and strays; `ofUnicode` and `toUnicode` lead from text of
Unicode characters and back, a stray being shown as the replacement character.
-/

namespace SearchGateway.Text

/-- The least number of a character that holds a byte. -/
def firstHeld : Nat := 0x10FF80

/-- The character that holds a byte which is not ASCII. -/
def hold (b : UInt8) : Char := Char.ofNat (0x10FF00 + b.toNat)

def isHeld (c : Char) : Bool := firstHeld ≤ c.toNat

/-- The byte that a character holds. -/
def heldByte (c : Char) : UInt8 := UInt8.ofNat (c.toNat % 256)

def charBytes (c : Char) : List UInt8 :=
  if isHeld c then [heldByte c] else String.utf8EncodeChar c

def bytes (cs : List Char) : List UInt8 := cs.flatMap charBytes

/-- The number of bytes of a character. -/
def charSize (c : Char) : Nat := if isHeld c then 1 else c.utf8Size

/-- The number of bytes of a text. -/
def byteLength : List Char → Nat
  | [] => 0
  | c :: cs => charSize c + byteLength cs

/-- The text of the first `n` bytes of a text. A character that is cut is held by its bytes. -/
def takeBytes (n : Nat) : List Char → List Char
  | [] => []
  | c :: cs =>
    if (charBytes c).length ≤ n then c :: takeBytes (n - (charBytes c).length) cs
    else ((charBytes c).take n).map hold

/-- The order of texts by their bytes. -/
def le (a b : String) : Bool := bytes a.toList ≤ bytes b.toList

/-! ### Reading bytes -/

/-- A character, or a byte that is part of none. -/
inductive Glyph
  | char (c : Char)
  | stray (b : UInt8)
  deriving DecidableEq

/-- The character shown in the place of a stray. -/
def replacement : Char := Char.ofNat 0xFFFD

namespace Glyph

/-- A glyph as part of a text. -/
def text : Glyph → List Char
  | char c => if isHeld c then (String.utf8EncodeChar c).map hold else [c]
  | stray b => [hold b]

/-- The character that shows a glyph. -/
def shown : Glyph → Char
  | char c => c
  | stray _ => replacement

end Glyph

/-- A byte that continues a character of several bytes. -/
def isContinuation (b : UInt8) : Bool := 0x80 ≤ b && b < 0xC0

/-- The low six bits of a continuing byte. -/
def payload (b : UInt8) : Nat := b.toNat % 64

/-- The least value of the second byte after a leading byte, to refuse overlong forms. -/
def secondLow (b : UInt8) : UInt8 := if b = 0xE0 then 0xA0 else if b = 0xF0 then 0x90 else 0x80

/-- The greatest value of the second byte, to refuse surrogates and numbers beyond the last
character. -/
def secondHigh (b : UInt8) : UInt8 := if b = 0xED then 0x9F else if b = 0xF4 then 0x8F else 0xBF

/-- The glyph at the front and how many bytes after the first it takes. -/
def firstGlyph (b : UInt8) (rest : List UInt8) : Glyph × Nat :=
  if b < 0x80 then (.char (Char.ofNat b.toNat), 0)
  else if 0xC2 ≤ b && b ≤ 0xDF then
    match rest with
    | c :: _ =>
      if isContinuation c then (.char (Char.ofNat (b.toNat % 32 * 64 + payload c)), 1)
      else (.stray b, 0)
    | _ => (.stray b, 0)
  else if 0xE0 ≤ b && b ≤ 0xEF then
    match rest with
    | c :: d :: _ =>
      if secondLow b ≤ c && c ≤ secondHigh b && isContinuation d then
        (.char (Char.ofNat (b.toNat % 16 * 4096 + payload c * 64 + payload d)), 2)
      else (.stray b, 0)
    | _ => (.stray b, 0)
  else if 0xF0 ≤ b && b ≤ 0xF4 then
    match rest with
    | c :: d :: e :: _ =>
      if secondLow b ≤ c && c ≤ secondHigh b && isContinuation d && isContinuation e then
        (.char (Char.ofNat (b.toNat % 8 * 262144 + payload c * 4096 + payload d * 64 + payload e)),
          3)
      else (.stray b, 0)
    | _ => (.stray b, 0)
  else (.stray b, 0)

/-- The glyphs of bytes. -/
def glyphsOfBytes (bytes : List UInt8) : List Glyph :=
  match bytes with
  | [] => []
  | b :: rest =>
    let (g, n) := firstGlyph b rest
    g :: glyphsOfBytes (rest.drop n)
termination_by bytes.length
decreasing_by rw [List.length_drop, List.length_cons]; omega

/-- The text of bytes. -/
def ofBytes (bytes : List UInt8) : List Char := (glyphsOfBytes bytes).flatMap Glyph.text

/-! ### Glyphs of a text -/

/-- Reads a text, `held` being the bytes held so far, the last first. -/
def glyphsAfter (held : List UInt8) : List Char → List Glyph
  | [] => glyphsOfBytes held.reverse
  | c :: cs =>
    if isHeld c then glyphsAfter (heldByte c :: held) cs
    else glyphsOfBytes held.reverse ++ .char c :: glyphsAfter [] cs

/-- The characters and strays of a text. -/
def glyphs (cs : List Char) : List Glyph := glyphsAfter [] cs

/-- The text of a genuine character. -/
def ofChar (c : Char) : List Char := (Glyph.char c).text

def ofUnicode (s : String) : String := String.ofList (s.toList.flatMap ofChar)

/-- What is shown of a text. -/
def toUnicode (s : String) : String := String.ofList ((glyphs s.toList).map Glyph.shown)

end SearchGateway.Text
