import Mathlib.Data.List.Nodup
import SearchGateway.Json.Seek

/-!
# Documents as they are written

A `Document` is a JSON value together with all that its text leaves open: the layout around its
parts, the escapes in its strings, the form of its numbers. The well-formed texts whose keys stand
for characters are the texts of documents (`Document.text`). What a document holds is said on the
document alone: the member of an object by its key, the value at a path of keys, the integer a
number stands for.
-/

namespace SearchGateway.Json

open SearchGateway.Text

/-- Layout between the parts of a document. -/
abbrev Blank := { cs : List Char // ∀ c ∈ cs, isLayout c = true }

def noBlank : Blank := ⟨[], nofun⟩

/-! ### Strings -/

/-- The escapes of one letter. -/
inductive Escape
  | quote | backslash | slash | backspace | formFeed | lineFeed | carriageReturn | tab

namespace Escape

def letter : Escape → Char
  | quote => '"'
  | backslash => '\\'
  | slash => '/'
  | backspace => 'b'
  | formFeed => 'f'
  | lineFeed => 'n'
  | carriageReturn => 'r'
  | tab => 't'

def char : Escape → Char
  | quote => '"'
  | backslash => '\\'
  | slash => '/'
  | backspace => '\x08'
  | formFeed => '\x0c'
  | lineFeed => '\n'
  | carriageReturn => '\r'
  | tab => '\t'

end Escape

/-- Four hexadecimal digits. -/
structure Hex4 where
  text : List Char
  length_eq : text.length = 4
  isHexDigit : ∀ c ∈ text, isHexDigit c = true

namespace Hex4

def value (n : Hex4) : Nat := n.text.foldl (fun n c => n * 16 + hexValue c) 0

/-- What two surrogates stand for together. -/
def pairValue (high low : Hex4) : List Char :=
  ofChar (Char.ofNat (0x10000 + (high.value - 0xD800) * 0x400 + (low.value - 0xDC00)))

end Hex4

/-- A character of a string as it is written. The numbers of surrogates stand for a character in
pairs; one that is alone stands for none. -/
inductive Symbol
  | plain (c : Char) (h : c ≠ '"' ∧ c ≠ '\\')
  | escape (e : Escape)
  | code (n : Hex4) (h : n.value < 0xD800 ∨ 0xDFFF < n.value)
  | pair (high low : Hex4) (hhigh : 0xD800 ≤ high.value ∧ high.value ≤ 0xDBFF)
      (hlow : 0xDC00 ≤ low.value ∧ low.value ≤ 0xDFFF)
  | lone (n : Hex4) (h : 0xD800 ≤ n.value ∧ n.value ≤ 0xDFFF)

namespace Symbol

def text : Symbol → List Char
  | plain c _ => [c]
  | escape e => ['\\', e.letter]
  | code n _ | lone n _ => '\\' :: 'u' :: n.text
  | pair high low _ _ => '\\' :: 'u' :: (high.text ++ '\\' :: 'u' :: low.text)

def value : Symbol → List Char
  | plain c _ => [c]
  | escape e => [e.char]
  | code n _ => ofChar (Char.ofNat n.value)
  | pair high low _ _ => high.pairValue low
  | lone _ _ => []

def isLone : Symbol → Bool
  | lone _ _ => true
  | _ => false

end Symbol

/-- What stands between the quotes of a string. -/
abbrev Literal := List Symbol

namespace Literal

def text (s : Literal) : List Char := s.flatMap Symbol.text

def value (s : Literal) : String := String.ofList (s.flatMap Symbol.value)

/-- The characters that symbols stand for one after the other. Two surrogates that make a pair are
one character however they are taken; one without the other stands for none. -/
def resolve? : Literal → Option (List Char)
  | [] => some []
  | .lone high _ :: .lone low _ :: s =>
    if high.value ≤ 0xDBFF ∧ 0xDC00 ≤ low.value then (resolve? s).map (high.pairValue low ++ ·)
    else none
  | .lone _ _ :: _ => none
  | c :: s => (resolve? s).map (c.value ++ ·)

/-- The string that stands between the quotes, unless it has a surrogate without its partner. -/
def string? (s : Literal) : Option String := s.resolve?.map String.ofList

end Literal

/-! ### Numbers -/

abbrev Digits := { ds : List Char // ds ≠ [] ∧ ∀ c ∈ ds, c.isDigit = true }

/-- The exponent of a number, its mark and its sign as they are written. -/
structure Exponent where
  capital : Bool
  sign : Option Bool
  digits : Digits

def Exponent.text (e : Exponent) : List Char :=
  (if e.capital then 'E' else 'e') ::
    (e.sign.elim [] (fun negative => [if negative then '-' else '+']) ++ e.digits.1)

/-- A number; a zero in front of other digits is not written. -/
structure Number where
  negative : Bool
  whole : Digits
  fraction : Option Digits
  exponent : Option Exponent
  head_whole : whole.1.head? = some '0' → whole.1.length = 1

namespace Number

def text (n : Number) : List Char :=
  (if n.negative then ['-'] else []) ++ n.whole.1 ++ n.fraction.elim [] ('.' :: ·.1) ++
    n.exponent.elim [] Exponent.text

/-- The integer of a number without a fraction and an exponent. -/
def integer? (n : Number) : Option Int :=
  if n.fraction.isNone && n.exponent.isNone then some (signed n.negative (digitsValue n.whole.1))
  else none

end Number

/-! ### Documents -/

/-- A key with the layout around it, up to its value. Its symbols all stand for characters. -/
structure Key where
  before : Blank
  literal : Literal
  isLone_literal : literal.any Symbol.isLone = false
  between : Blank
  after : Blank

namespace Key

def text (k : Key) : List Char :=
  k.before.1 ++ '"' :: (k.literal.text ++ '"' :: (k.between.1 ++ ':' :: k.after.1))

def name (k : Key) : String := k.literal.value

end Key

/-- A value with its text. An item of an array stands between layout, a member of an object between
its key and layout. -/
inductive Document
  | null
  | bool (b : Bool)
  | number (n : Number)
  | string (s : Literal)
  | array (blank : Blank) (items : List (Blank × Document × Blank))
  | object (blank : Blank) (members : List (Key × Document × Blank))

namespace Document

mutual

def text : Document → List Char
  | null => "null".toList
  | bool b => if b then "true".toList else "false".toList
  | number n => n.text
  | string s => '"' :: (s.text ++ ['"'])
  | array blank items => '[' :: (blank.1 ++ itemsText [] items ++ [']'])
  | object blank members => '\x7b' :: (blank.1 ++ membersText [] members ++ ['\x7d'])

/-- The items in a row, the first after `lead` and each other after a comma. -/
def itemsText (lead : List Char) : List (Blank × Document × Blank) → List Char
  | [] => []
  | (before, d, after) :: items => lead ++ before.1 ++ text d ++ after.1 ++ itemsText [','] items

def membersText (lead : List Char) : List (Key × Document × Blank) → List Char
  | [] => []
  | (key, d, after) :: members =>
    lead ++ key.text ++ text d ++ after.1 ++ membersText [','] members

end

mutual

/-- No object in the document has a key twice. -/
def Distinct : Document → Prop
  | array _ items => ItemsDistinct items
  | object _ members => (members.map (·.1.name)).Nodup ∧ MembersDistinct members
  | _ => True

def ItemsDistinct : List (Blank × Document × Blank) → Prop
  | [] => True
  | (_, d, _) :: items => Distinct d ∧ ItemsDistinct items

def MembersDistinct : List (Key × Document × Blank) → Prop
  | [] => True
  | (_, d, _) :: members => Distinct d ∧ MembersDistinct members

end

def kind : Document → Kind
  | null => .null
  | bool _ => .bool
  | number _ => .number
  | string _ => .string
  | array _ _ => .array
  | object _ _ => .object

/-- The value as it is handed on: its kind and its text, a string without its quotes. -/
def raw : Document → Raw
  | string s => ⟨.string, s.text⟩
  | d => ⟨d.kind, d.text⟩

/-- The member of an object by its key. -/
def member? (d : Document) (key : String) : Option Document :=
  match d with
  | object _ members => (members.find? (·.1.name = key)).map (·.2.1)
  | _ => none

/-- The value at a path of keys. -/
def at? : List String → Document → Option Document
  | [], d => some d
  | key :: keys, d => (d.member? key).bind (at? keys)

theorem at?_singleton (name : String) (d : Document) : d.at? [name] = d.member? name := by
  rw [at?]
  cases d.member? name <;> rfl

def string? : Document → Option String
  | string s => s.string?
  | _ => none

/-- A string that stands for characters, or no string. -/
def isResolved : Document → Bool
  | string s => s.string?.isSome
  | _ => true

end Document

end SearchGateway.Json
