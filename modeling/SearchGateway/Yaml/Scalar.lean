import SearchGateway.Number.Numeral
import SearchGateway.Yaml.Cursor

/-!
# Scalars of a YAML document

Four styles: plain texts, which end where another token could begin; double quotes with escapes;
single quotes in which a quote is written twice; and blocks of indented lines. Where a plain or
quoted text goes on in the next line its line end counts as a blank, and further line ends count as
themselves. Texts are gathered in reverse.
-/

namespace SearchGateway.Yaml

/-! ### Blanks between words -/

/-- Blanks and line ends between two words of a scalar. -/
structure Gap where
  /-- Blanks before the first line end, in reverse. -/
  blanks : List Char := []
  /-- The first line end, nothing if it is escaped. -/
  first : List Char := []
  /-- Further line ends, in reverse. -/
  more : List Char := []
  broken : Bool := false

namespace Gap

/-- What a gap stands for, in reverse. -/
def folded (g : Gap) : List Char :=
  if !g.broken then g.blanks
  else if g.first.head? = some '\n' then if g.more = [] then [' '] else g.more
  else g.more ++ g.first.reverse

def addBlank (g : Gap) (ch : Char) : Gap :=
  if g.broken then g else { g with blanks := ch :: g.blanks }

def addBreak (g : Gap) (t : List Char) : Gap :=
  if g.broken then { g with more := t.reverse ++ g.more }
  else { g with blanks := [], first := t, broken := true }

/-- Reads a gap. A tab that indents a line by less than `limit` is refused. -/
def read (limit : Int) : Nat → Gap → Cursor → Option (Gap × Cursor)
  | 0, g, c => some (g, c)
  | fuel + 1, g, c =>
    match c.peek with
    | none => some (g, c)
    | some ch =>
      if isBlank ch then
        if g.broken ∧ ch = '\t' ∧ (c.column : Int) < limit then none
        else read limit fuel (g.addBlank ch) c.skip
      else if isBreak ch then read limit fuel (g.addBreak c.lineEnd) c.skipLine
      else some (g, c)

end Gap

/-! ### Plain scalars -/

/-- Characters that divide the parts of a list or map in brackets. -/
def isBracketMark (c : Char) : Bool := ",?[]\x7b\x7d".toList.contains c

/-- A plain scalar may begin at the cursor. -/
def startsPlain (inBrackets : Bool) (c : Cursor) : Bool :=
  match c.peek with
  | none => false
  | some ch =>
    if isBlank ch || isBreak ch then false
    else if ch = '-' then !c.sees 1 isBlank
    else if ch = '?' ∨ ch = ':' then !inBrackets && !c.atGap 1
    else !",[]\x7b\x7d#&*!|>'\"%@`".toList.contains ch

/-- A word of a plain scalar, after the gap before it. -/
def plainWord (inBrackets : Bool) : Nat → List Char → Gap → Cursor → List Char × Gap × Cursor
  | 0, text, g, c => (text, g, c)
  | fuel + 1, text, g, c =>
    match c.peek with
    | none => (text, g, c)
    | some ch =>
      if c.atGap ∨ (ch = ':' ∧ c.atGap 1) ∨ (inBrackets ∧ isBracketMark ch) then (text, g, c)
      else plainWord inBrackets fuel (ch :: (g.folded ++ text)) {} c.skip

/-- A scalar with the cursor after it. -/
structure Scanned where
  text : List Char
  rest : Cursor
  /-- The cursor is on a later line than the last character of the scalar. -/
  broken : Bool := false

def plainWords (inBrackets : Bool) (indent : Int) :
    Nat → List Char → Gap → Cursor → Option Scanned
  | 0, _, _, _ => none
  | fuel + 1, text, g, c =>
    if c.atDocumentMark || c.at? '#' then some ⟨text.reverse, c, g.broken⟩
    else
      let (text, g, c) := plainWord inBrackets c.bound text g c
      if c.rest = [] || !c.atGap then some ⟨text.reverse, c, g.broken⟩
      else do
        let (g, c) ← g.read indent c.bound c
        if !inBrackets && (c.column : Int) < indent then some ⟨text.reverse, c, g.broken⟩
        else plainWords inBrackets indent fuel text g c

/-- A plain scalar in a collection that is indented by `indent`. -/
def plainScalar? (inBrackets : Bool) (indent : Int) (c : Cursor) : Option Scanned :=
  plainWords inBrackets (indent + 1) (c.bound + 1) [] {} c

/-! ### Quoted scalars -/

/-- The character of a numbered escape of `count` hexadecimal digits. -/
def numbered? (count : Nat) (cs : List Char) : Option Char :=
  let ds := cs.take count
  if ds.length = count ∧ ds.all isHexDigit then
    let n := ds.foldl (fun n d => 16 * n + hexValue d) 0
    if (0xD800 ≤ n ∧ n ≤ 0xDFFF) ∨ 0x10FFFF < n then none else some (Char.ofNat n)
  else none

/-- The character of a simple escape. -/
def escape? (c : Char) : Option Char :=
  [('0', 0), ('a', 7), ('b', 8), ('t', 9), ('\t', 9), ('n', 10), ('v', 11), ('f', 12), ('r', 13),
    ('e', 27), (' ', 32), ('"', 34), ('\'', 39), ('\\', 92), ('N', 0x85), ('_', 0xA0),
    ('L', 0x2028), ('P', 0x2029)].lookup c |>.map Char.ofNat

/-- The number of digits of a numbered escape. -/
def escapeDigits? (c : Char) : Option Nat := [('x', 2), ('u', 4), ('U', 8)].lookup c

/-- A word of a quoted scalar: whether it ends with an escaped line end, and what follows. -/
def quotedWord (single : Bool) : Nat → List Char → Cursor → Option (List Char × Bool × Cursor)
  | 0, text, c => some (text, false, c)
  | fuel + 1, text, c =>
    match c.rest with
    | '\'' :: '\'' :: _ =>
      if single then quotedWord single fuel ('\'' :: text) (c.skips 2)
      else quotedWord single fuel ('\'' :: text) c.skip
    | ch :: rest =>
      if c.atGap ∨ ch = (if single then '\'' else '"') then some (text, false, c)
      else if single ∨ ch ≠ '\\' then quotedWord single fuel (ch :: text) c.skip
      else
        match rest with
        | [] => none
        | e :: ds =>
          if isBreak e then some (text, true, c.skip.skipLine)
          else
            match escapeDigits? e with
            | some n => do quotedWord single fuel ((← numbered? n ds) :: text) (c.skips (n + 2))
            | none => do quotedWord single fuel ((← escape? e) :: text) (c.skips 2)
    | [] => some (text, false, c)

def quotedWords (single : Bool) : Nat → List Char → Cursor → Option Scanned
  | 0, _, _ => none
  | fuel + 1, text, c =>
    if c.atDocumentMark || c.rest.isEmpty then none
    else do
      let (text, escaped, c) ← quotedWord single c.bound text c
      if c.at? (if single then '\'' else '"') then some ⟨text.reverse, c.skip, false⟩
      else
        let (g, c) ← Gap.read 0 c.bound { broken := escaped } c
        quotedWords single fuel (g.folded ++ text) c

/-- A quoted scalar, the cursor being at its first quote. -/
def quotedScalar? (c : Cursor) : Option Scanned :=
  quotedWords (c.at? '\'') (c.bound + 1) [] c.skip

/-! ### Block scalars -/

/-- What becomes of the line ends at the end of a block. -/
inductive Chomping
  | strip
  | clip
  | keep
  deriving DecidableEq

/-- The marks of a block. -/
structure BlockHeader where
  chomping : Chomping := .clip
  /-- The indentation relative to the collection around the block, zero if it is not given. -/
  indent : Nat := 0

def BlockHeader.readChomping (h : BlockHeader) (c : Cursor) : BlockHeader × Cursor :=
  if c.at? '+' then ({ h with chomping := .keep }, c.skip)
  else if c.at? '-' then ({ h with chomping := .strip }, c.skip)
  else (h, c)

def BlockHeader.readIndent (h : BlockHeader) (c : Cursor) : Option (BlockHeader × Cursor) :=
  match c.peek with
  | some ch =>
    if ch = '0' then none
    else if ch.isDigit then some ({ h with indent := ch.toNat - '0'.toNat }, c.skip)
    else some (h, c)
  | none => some (h, c)

/-- The header of a block: its marks, in either order, and a comment. -/
def BlockHeader.read (c : Cursor) : Option (BlockHeader × Cursor) := do
  let chompedFirst := c.at? '+' || c.at? '-'
  let (h, c) := ({} : BlockHeader).readChomping c
  let (h, c) ← h.readIndent c
  let (h, c) := if chompedFirst || h.indent = 0 then (h, c) else h.readChomping c
  let c := c.skipWhile isBlank
  let c := if c.at? '#' then c.toBreak else c
  if c.atBreak then some (h, c.skipLine) else none

/-- Empty lines of a block: their line ends in reverse, and the deepest indentation among them and
before what follows. With `indent` zero every blank counts as indentation. -/
def blockBreaks (indent : Nat) : Nat → Nat → List Char → Cursor → Option (Nat × List Char × Cursor)
  | 0, deepest, breaks, c => some (deepest, breaks, c)
  | fuel + 1, deepest, breaks, c =>
    let spaces := (c.rest.takeWhile (· == ' ')).length
    let c := c.skips (if indent = 0 then spaces else min spaces (indent - c.column))
    let deepest := max deepest c.column
    if (indent = 0 ∨ c.column < indent) ∧ c.at? '\t' then none
    else if c.rest ≠ [] ∧ c.atBreak then
      blockBreaks indent fuel deepest (c.lineEnd.reverse ++ breaks) c.skipLine
    else some (deepest, breaks, c)

/-- The lines of a block that are read so far, in reverse, with the line end after them and the
empty lines that follow. -/
structure BlockText where
  text : List Char := []
  last : List Char := []
  breaks : List Char := []
  /-- The last line begins with a blank, so that its line ends stay. -/
  blankStart : Bool := false

/-- The text before a further line. -/
def BlockText.joined (b : BlockText) (literal blankNext : Bool) : List Char :=
  if !literal && !b.blankStart && !blankNext && b.last.head? == some '\n' then
    b.breaks ++ (if b.breaks = [] then ' ' :: b.text else b.text)
  else b.breaks ++ b.last.reverse ++ b.text

def BlockText.chomped (b : BlockText) : Chomping → List Char
  | .strip => b.text
  | .clip => b.last.reverse ++ b.text
  | .keep => b.breaks ++ b.last.reverse ++ b.text

def blockLines (literal : Bool) (indent : Nat) :
    Nat → BlockText → Cursor → Option (BlockText × Cursor)
  | 0, b, c => some (b, c)
  | fuel + 1, b, c =>
    if c.column ≠ indent ∨ c.rest = [] then some (b, c)
    else do
      let blank := c.sees 0 isBlank
      let line := c.rest.takeWhile fun ch => !isBreak ch
      let before := b.joined literal blank
      let c := c.toBreak
      let (_, breaks, after) ← blockBreaks indent (c.bound + 1) 0 [] c.skipLine
      blockLines literal indent fuel ⟨line.reverse ++ before, c.lineEnd, breaks, blank⟩ after

/-- A block scalar in a collection that is indented by `indent`, the cursor being at its mark. -/
def blockScalar? (indent : Int) (c : Cursor) : Option Scanned := do
  let literal := c.at? '|'
  let (h, c) ← BlockHeader.read c.skip
  let given := if h.indent = 0 then 0 else (max indent 0).toNat + h.indent
  let (deepest, breaks, c) ← blockBreaks given (c.bound + 1) 0 [] c
  let depth := if given = 0 then max deepest (max (indent + 1) 1).toNat else given
  let (b, c) ← blockLines literal depth (c.bound + 1) { breaks := breaks } c
  return ⟨(b.chomped h.chomping).reverse, c, false⟩

end SearchGateway.Yaml
