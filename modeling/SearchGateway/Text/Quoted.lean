import SearchGateway.Json.Value
import SearchGateway.Text.Printable

/-!
# Quoted arguments

Messages quote an argument so that every character of it can be seen: quotes and backslashes are
escaped, and so is whatever cannot be printed, a stray byte included.
-/

namespace SearchGateway.Text

/-- The last `count` hexadecimal digits of a number. -/
def hexChars : Nat → Nat → List Char
  | 0, _ => []
  | count + 1, n => hexChars count (n / 16) ++ [Json.hexDigit (n % 16)]

def quotedChar (c : Char) : List Char :=
  let n := c.toNat
  if c = '"' then ['\\', '"']
  else if c = '\\' then ['\\', '\\']
  else if isPrintable c then [c]
  else if n = 7 then ['\\', 'a']
  else if n = 8 then ['\\', 'b']
  else if n = 9 then ['\\', 't']
  else if n = 10 then ['\\', 'n']
  else if n = 11 then ['\\', 'v']
  else if n = 12 then ['\\', 'f']
  else if n = 13 then ['\\', 'r']
  else if n < 0x80 then ['\\', 'x'] ++ hexChars 2 n
  else if n < 0x10000 then ['\\', 'u'] ++ hexChars 4 n
  else ['\\', 'U'] ++ hexChars 8 n

/-- A single character in quotes of its own. -/
def quotedMark (c : Char) : List Char :=
  ['\''] ++ (if c = '\'' then ['\\', '\''] else if c = '"' then ['"'] else quotedChar c) ++ ['\'']

def quotedGlyph : Glyph → List Char
  | .char c => quotedChar c
  | .stray b => ['\\', 'x'] ++ hexChars 2 b.toNat

def quoted (s : String) : String :=
  String.ofList ('"' :: ((glyphs s.toList).flatMap quotedGlyph ++ ['"']))

/-- Whether a glyph can stand between backquotes. -/
def isBackquotable : Glyph → Bool
  | .char c => (0x20 ≤ c.toNat || c == '\t') && c != '`' && c.toNat != 0x7F && c.toNat != 0xFEFF
  | .stray _ => false

/-- An argument between backquotes where that is possible, else in plain quotes. -/
def backquoted (s : String) : String :=
  if (glyphs s.toList).all isBackquotable then "`" ++ s ++ "`" else quoted s

end SearchGateway.Text
