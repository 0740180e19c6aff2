/-!
# A place in a YAML document

A cursor is what is left of a document and where that begins: the number of characters before it,
its line and its column. Line ends are the two of ASCII, alone or together, the next-line character
and the two separators of Unicode; a scalar keeps only the last two as they are.
-/

namespace SearchGateway.Yaml

def isBlank (c : Char) : Bool := c == ' ' || c == '\t'

/-- A character that ends a line. -/
def isBreak (c : Char) : Bool :=
  c == '\n' || c == '\r' || c.toNat == 0x85 || c.toNat == 0x2028 || c.toNat == 0x2029

/-- The mark of byte order, which may begin a line. -/
def isOrderMark (c : Char) : Bool := c.toNat == 0xFEFF

structure Cursor where
  rest : List Char
  index : Nat := 0
  line : Nat := 0
  column : Nat := 0
  /-- Line ends since the last character that is not blank. -/
  lineEnds : Nat := 0
  /-- The length of the document, which no walk through what is left of it exceeds. -/
  bound : Nat := rest.length
  deriving DecidableEq

namespace Cursor

/-- The character at the cursor. -/
def peek (c : Cursor) : Option Char := c.rest.head?

/-- Whether the character some places on has a property. -/
def sees (c : Cursor) (n : Nat) (p : Char → Bool) : Bool := c.rest[n]?.any p

/-- Whether a character is at the cursor. -/
def at? (c : Cursor) (ch : Char) : Bool := c.rest.head? == some ch

/-- Whether a line ends some places on, at the end of the document if nowhere else. -/
def atBreak (c : Cursor) (n : Nat := 0) : Bool := c.rest[n]?.all isBreak

/-- Whether a blank, a line end or the end of the document is some places on. -/
def atGap (c : Cursor) (n : Nat := 0) : Bool := c.rest[n]?.all fun ch => isBlank ch || isBreak ch

/-- Passes one character. -/
def skip (c : Cursor) : Cursor :=
  match c.rest with
  | [] => c
  | ch :: cs =>
    { c with
      rest := cs
      index := c.index + 1
      column := c.column + 1
      lineEnds := if isBlank ch then c.lineEnds else 0 }

/-- Passes some characters. -/
def skips : Nat → Cursor → Cursor
  | 0, c => c
  | n + 1, c => skips n c.skip

/-- Passes a line end. -/
def skipLine (c : Cursor) : Cursor :=
  let next := fun cs n =>
    { c with
      rest := cs
      index := c.index + n
      line := c.line + 1
      column := 0
      lineEnds := c.lineEnds + 1 }
  match c.rest with
  | '\r' :: '\n' :: cs => next cs 2
  | ch :: cs => if isBreak ch then next cs 1 else c
  | [] => c

/-- What a line end is in a scalar. -/
def lineEnd (c : Cursor) : List Char :=
  match c.rest with
  | ch :: _ =>
    if ch.toNat = 0x2028 ∨ ch.toNat = 0x2029 then [ch] else if isBreak ch then ['\n'] else []
  | [] => []

/-- Passes characters with a property, none of them a line end. -/
def skipWhile (p : Char → Bool) (c : Cursor) : Cursor := skips (c.rest.takeWhile p).length c

/-- Passes the rest of the line. -/
def toBreak (c : Cursor) : Cursor := c.skipWhile fun ch => !isBreak ch

/-- Whether a line begins here with a mark that ends or begins a document. -/
def atDocumentMark (c : Cursor) : Bool :=
  c.column == 0 && (['-', '-', '-'].isPrefixOf c.rest || ['.', '.', '.'].isPrefixOf c.rest) &&
    c.atGap 3

/-- The farthest that is looked ahead for a comment. -/
def commentReach : Nat := 512

/-- Passes a comment on the line of the token just read. -/
def skipLineComment (c : Cursor) : Cursor :=
  let blanks := (c.rest.takeWhile isBlank).length
  if c.lineEnds = 0 ∧ blanks < commentReach ∧ c.sees blanks (· == '#') then (skips blanks c).toBreak
  else c

/-- How far the next comment is from the end of one, if only blanks and line ends lie between. -/
def nextComment? (c : Cursor) : Option Nat :=
  let isGap := fun ch => isBlank ch || ch == '\n' || ch == '\r'
  let gap := ((c.rest.drop 1).takeWhile isGap).length + 1
  if c.sees 0 isGap && gap < commentReach && c.sees gap (· == '#') then some gap else none

/-- Passes characters and line ends. -/
def skipsLines : Nat → Cursor → Cursor
  | 0, c => c
  | n + 1, c =>
    match c.rest with
    | '\r' :: '\n' :: _ => skipsLines (n - 1) c.skipLine
    | ch :: _ => skipsLines n (if isBreak ch then c.skipLine else c.skip)
    | [] => c
termination_by n => n

/-- Passes comments that follow each other. -/
def skipComments : Nat → Cursor → Cursor
  | 0, c => c
  | fuel + 1, c =>
    let c := c.toBreak
    match c.nextComment? with
    | some n => skipComments fuel (skipsLines n c)
    | none => c

end Cursor

end SearchGateway.Yaml
