import SearchGateway.Number.Numeral
import SearchGateway.Text.Bytes

/-!
# Percent escapes

In addresses a character outside a set of kept ones is written as its bytes, each as `%` and two
hexadecimal digits. Reading turns the bytes back into text.
-/

namespace SearchGateway.Text

def upperHexDigit (n : Nat) : Char :=
  if n < 10 then Char.ofNat ('0'.toNat + n) else Char.ofNat ('A'.toNat + n - 10)

def escapeByte (b : UInt8) : List Char :=
  ['%', upperHexDigit (b.toNat / 16), upperHexDigit (b.toNat % 16)]

/-- Bytes in escaped form; only kept ASCII characters stand for themselves. -/
def escapeBytes (keep : Char → Bool) (bytes : List UInt8) : List Char :=
  bytes.flatMap fun b =>
    let c := Char.ofNat b.toNat
    if b < 0x80 && keep c then [c] else escapeByte b

def escape (keep : Char → Bool) (cs : List Char) : List Char :=
  cs.flatMap fun c => if keep c then [c] else (charBytes c).flatMap escapeByte

/-- Letters, digits and the four marks that are never escaped. -/
def isUnreserved (c : Char) : Bool :=
  c.isAlphanum || c == '-' || c == '_' || c == '.' || c == '~'

/-- Characters that stand for themselves inside one segment of a path. -/
def isSegmentChar (c : Char) : Bool :=
  isUnreserved c || "$&+:=@".toList.contains c

/-- Characters that stand for themselves in a path. -/
def isPathChar (c : Char) : Bool :=
  isSegmentChar c || "/;,".toList.contains c

def escapeSegment (s : String) : String := String.ofList (escape isSegmentChar s.toList)

/-- In a query a space is a plus. -/
def escapeQuery (s : String) : String :=
  String.ofList ((escape (fun c => isUnreserved c || c == ' ') s.toList).map fun c =>
    if c = ' ' then '+' else c)

/-! ### Reading -/

/-- The bytes of an escaped text, `none` when a percent sign is not followed by two hexadecimal
digits. With `plus`, a plus is a space. -/
def unescapeBytes (plus : Bool) : List Char → Option (List UInt8)
  | [] => some []
  | '%' :: a :: b :: cs =>
    if isHexDigit a && isHexDigit b then
      (unescapeBytes plus cs).map (UInt8.ofNat (hexValue a * 16 + hexValue b) :: ·)
    else none
  | '%' :: _ => none
  | '+' :: cs => (unescapeBytes plus cs).map ((if plus then 0x20 else 0x2B) :: ·)
  | c :: cs => (unescapeBytes plus cs).map (charBytes c ++ ·)

def unescape (plus : Bool) (cs : List Char) : Option (List Char) :=
  (unescapeBytes plus cs).map ofBytes

end SearchGateway.Text
