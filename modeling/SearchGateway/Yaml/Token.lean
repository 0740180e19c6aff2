import SearchGateway.Text.Bytes
import SearchGateway.Yaml.Scalar

/-!
# Tokens of a YAML document

A token is a mark, a scalar, or one of the names that stand before a node: an anchor, which names
the node, an alias, which stands for a named node, and a tag, which tells its type. Indentation
shows as tokens that begin and end a collection.
-/

namespace SearchGateway.Yaml

inductive Token
  | version (major minor : Nat)
  | tagHandle (handle stem : String)
  | documentStart
  | documentEnd
  | streamEnd
  | blockSequence
  | blockMapping
  | blockEnd
  | flowSequence
  | flowSequenceEnd
  | flowMapping
  | flowMappingEnd
  | blockEntry
  | flowEntry
  | key
  | value
  | reference (name : String)
  | anchor (name : String)
  | tag (handle suffix : String)
  | scalar (plain : Bool) (text : String)
  deriving DecidableEq

/-- A character of the name of an anchor or of a handle. -/
def isNameChar (c : Char) : Bool := c.isAlphanum || c == '_' || c == '-'

/-- The name of an anchor or alias, the cursor being after its mark. -/
def nodeName? (c : Cursor) : Option (String × Cursor) :=
  let name := c.rest.takeWhile isNameChar
  let after := c.skips name.length
  if name ≠ [] ∧ (after.atGap ∨ after.sees 0 "?:,]\x7d%@`".toList.contains) then
    some (String.ofList name, after)
  else none

/-! ### Tags -/

def isUriChar (c : Char) : Bool := isNameChar c || ";/?:@&=+$,.!~*'()[]%".toList.contains c

/-- The byte of an escape in a tag. -/
def escapedByte? : List Char → Option UInt8
  | '%' :: h :: l :: _ =>
    if isHexDigit h && isHexDigit l then some (UInt8.ofNat (16 * hexValue h + hexValue l)) else none
  | _ => none

/-- The number of bytes of a character that begins with the given one. -/
def bytesFrom? (b : UInt8) : Option Nat :=
  if b < 0x80 then some 1
  else if 0xC0 ≤ b && b < 0xE0 then some 2
  else if 0xE0 ≤ b && b < 0xF0 then some 3
  else if 0xF0 ≤ b && b < 0xF8 then some 4
  else none

/-- The continuation bytes of an escaped character. -/
def escapedRest? : Nat → Cursor → Option (List UInt8 × Cursor)
  | 0, c => some ([], c)
  | n + 1, c => do
    let b ← escapedByte? c.rest
    if Text.isContinuation b then
      let (bs, c) ← escapedRest? n (c.skips 3)
      return (b :: bs, c)
    else none

/-- The characters of a tag, in reverse. -/
def uriChars : Nat → List Char → Cursor → Option (List Char × Cursor)
  | 0, uri, c => some (uri, c)
  | fuel + 1, uri, c =>
    match c.peek with
    | none => some (uri, c)
    | some ch =>
      if ch = '%' then do
        let b ← escapedByte? c.rest
        let (bs, c) ← escapedRest? ((← bytesFrom? b) - 1) (c.skips 3)
        uriChars fuel ((Text.ofBytes (b :: bs)).reverse ++ uri) c
      else if isUriChar ch then uriChars fuel (ch :: uri) c.skip
      else some (uri, c)

/-- The characters of a tag that begins with `head`. -/
def uri? (head : List Char) (c : Cursor) : Option (List Char × Cursor) := do
  let (cs, c) ← uriChars c.bound head.reverse c
  return (cs.reverse, c)

/-- A mark with the name after it and, where it is there, the mark after that. -/
def handle (c : Cursor) : List Char × Cursor :=
  let name := (c.rest.drop 1).takeWhile isNameChar
  let c := c.skips (name.length + 1)
  if c.at? '!' then ('!' :: name ++ ['!'], c.skip) else ('!' :: name, c)

/-- A tag, the cursor being at its mark. -/
def tag? (c : Cursor) : Option (Token × Cursor) := do
  let (t, c) ←
    if c.sees 1 (· == '<') then do
      let (uri, c) ← uri? [] (c.skips 2)
      if uri ≠ [] ∧ c.at? '>' then some (Token.tag "" (String.ofList uri), c.skip) else none
    else
      let (name, c) := handle c
      if 1 < name.length ∧ name.getLast? = some '!' then do
        let (uri, c) ← uri? [] c
        if uri = [] then none else some (.tag (String.ofList name) (String.ofList uri), c)
      else do
        let (uri, c) ← uri? (name.drop 1) c
        some (if uri = [] then .tag "" "!" else .tag "!" (String.ofList uri), c)
  if c.atGap then some (t, c) else none

/-! ### Directives -/

/-- A number of a version. -/
def versionPart? (c : Cursor) : Option (Nat × Cursor) :=
  let ds := c.rest.takeWhile Char.isDigit
  if ds = [] ∨ 2 < ds.length then none else some (digitsValue ds, c.skips ds.length)

def versionDirective? (c : Cursor) : Option (Token × Cursor) := do
  let (major, c) ← versionPart? (c.skipWhile isBlank)
  if c.at? '.' then
    let (minor, c) ← versionPart? c.skip
    return (.version major minor, c)
  else none

def tagDirective? (c : Cursor) : Option (Token × Cursor) := do
  let c := c.skipWhile isBlank
  if c.at? '!' then
    let (name, c) := handle c
    if (name.length = 1 ∨ name.getLast? = some '!') ∧ c.sees 0 isBlank then
      let (uri, c) ← uri? [] (c.skipWhile isBlank)
      if uri = [] ∨ !c.atGap then none
      else some (.tagHandle (String.ofList name) (String.ofList uri), c)
    else none
  else none

/-- A directive, the cursor being at its mark. -/
def directive? (c : Cursor) : Option (Token × Cursor) := do
  let name := (c.rest.drop 1).takeWhile isNameChar
  let c := c.skips (name.length + 1)
  if c.atGap then
    let (t, c) ←
      if name = "YAML".toList then versionDirective? c
      else if name = "TAG".toList then tagDirective? c
      else none
    let c := c.skipWhile isBlank
    let c := if c.at? '#' then c.toBreak else c
    if c.atBreak then some (t, c.skipLine) else none
  else none

end SearchGateway.Yaml
