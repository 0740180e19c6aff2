import SearchGateway.Number.Layout
import SearchGateway.Text.Bytes

/-!
# JSON documents

A document keeps the order of its members, tells integers from doubles, and may embed a text that
is a document already. Writing fails only on a double that is not finite: the last in the order of
the text is named, since writing goes on to the end before it fails.

The five characters that could end a script in an HTML page are escaped in texts, and a stray byte
is written as the escape of the replacement character; whether keys are written so too depends on
the document.
-/

namespace SearchGateway

inductive Json
  | null
  | bool (b : Bool)
  | int (i : Int)
  | float (x : Binary64)
  | string (s : String)
  | array (items : List Json)
  | object (members : List (String × Json))
  /-- A text that is a document, copied as it stands. -/
  | raw (text : List Char)
  deriving Inhabited

namespace Json

def hexDigit (n : Nat) : Char :=
  if n < 10 then Char.ofNat ('0'.toNat + n) else Char.ofNat ('a'.toNat + n - 10)

/-- The escape of a character below 2¹⁶ by its number. -/
def unicodeEscape (c : Char) : List Char :=
  let n := c.toNat
  ['\\', 'u', hexDigit (n / 4096 % 16), hexDigit (n / 256 % 16), hexDigit (n / 16 % 16),
    hexDigit (n % 16)]

/-- Characters that could end a script in an HTML page. -/
def isMarkup (c : Char) : Bool :=
  c == '<' || c == '>' || c == '&' || c.toNat == 0x2028 || c.toNat == 0x2029

def escapeChar (markup : Bool) (c : Char) : List Char :=
  if c = '"' then ['\\', '"']
  else if c = '\\' then ['\\', '\\']
  else if c = '\n' then ['\\', 'n']
  else if c = '\r' then ['\\', 'r']
  else if c = '\t' then ['\\', 't']
  else if c.toNat < 0x20 || (markup && isMarkup c) then unicodeEscape c
  else [c]

def escapeGlyph (markup : Bool) : Text.Glyph → List Char
  | .char c => if Text.isHeld c then Text.ofChar c else escapeChar markup c
  | .stray b => if markup then unicodeEscape Text.replacement else [Text.hold b]

/-- A text in quotes. -/
def quote (markup : Bool) (cs : List Char) : List Char :=
  '"' :: ((Text.glyphs cs).flatMap (escapeGlyph markup) ++ ['"'])

def intChars (i : Int) : List Char :=
  if i < 0 then '-' :: Nat.toDigits 10 i.natAbs else Nat.toDigits 10 i.natAbs

def boolChars (b : Bool) : List Char := if b then "true".toList else "false".toList

mutual

/-- The text of a document; `markupKeys` tells whether markup is escaped in keys too. -/
def print (markupKeys : Bool) : Json → List Char
  | null => "null".toList
  | bool b => boolChars b
  | int i => intChars i
  | float x => x.jsonChars
  | string s => quote true s.toList
  | array items => '[' :: (printItems markupKeys items ++ [']'])
  | object members => '\x7b' :: (printMembers markupKeys members ++ ['\x7d'])
  | raw text => text

def printItems (markupKeys : Bool) : List Json → List Char
  | [] => []
  | [v] => print markupKeys v
  | v :: vs => print markupKeys v ++ ',' :: printItems markupKeys vs

def printMembers (markupKeys : Bool) : List (String × Json) → List Char
  | [] => []
  | [(k, v)] => quote markupKeys k.toList ++ ':' :: print markupKeys v
  | (k, v) :: ms =>
    quote markupKeys k.toList ++ ':' :: (print markupKeys v ++ ',' :: printMembers markupKeys ms)

end

mutual

/-- The last double that is not finite, in the order of the text. -/
def lastUnwritable : Json → Option Binary64
  | float x => if x.isFinite then none else some x
  | array items => lastUnwritableItem items
  | object members => lastUnwritableMember members
  | _ => none

def lastUnwritableItem : List Json → Option Binary64
  | [] => none
  | v :: vs => lastUnwritableItem vs <|> lastUnwritable v

def lastUnwritableMember : List (String × Json) → Option Binary64
  | [] => none
  | (_, v) :: ms => lastUnwritableMember ms <|> lastUnwritable v

end

/-- Writes a document, unless it holds a double that is not finite. -/
def write (markupKeys : Bool) (v : Json) : Except Binary64 String :=
  match lastUnwritable v with
  | some x => .error x
  | none => .ok (String.ofList (print markupKeys v))

/-- The message about a double that cannot be written. -/
def unwritable (x : Binary64) : String := "unsupported value: " ++ x.generalText

/-- A document that holds no doubles as a line of text. -/
def text (v : Json) : String := String.ofList (print true v)

def strings (xs : List String) : Json := array (xs.map string)

/-- An object of those members that are given. -/
def record (members : List (String × Option Json)) : Json :=
  object (members.filterMap fun m => m.2.map fun v => (m.1, v))

/-- A text, unless it is empty. -/
def text? (s : String) : Option Json := if s = "" then none else some (string s)

/-- A list, unless it is empty. -/
def list? (items : List Json) : Option Json := if items.isEmpty then none else some (array items)

end Json

end SearchGateway
