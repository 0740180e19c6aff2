import SearchGateway.Yaml.Token

/-!
# The tokens of a document, in order

A key needs no mark of its own: that a scalar or a bracket begins a key shows only at the `:` after
it. So tokens wait in a queue while the first of them may still turn out to be a key, and the tokens
that begin a key, and with it perhaps a map, are put in before it afterwards. A key without a mark
ends on the line it begins on and within 1024 characters.
-/

namespace SearchGateway.Yaml

/-- A place where a key may have begun. -/
structure KeyPlace where
  possible : Bool := false
  /-- Nothing else than a key can stand there. -/
  required : Bool := false
  /-- The number of the token that begins there. -/
  number : Nat := 0
  index : Nat := 0
  line : Nat := 0
  column : Nat := 0

structure Tokens where
  cursor : Cursor
  /-- Tokens that are read but not taken. -/
  queue : List Token := []
  taken : Nat := 0
  /-- The indentation of the collection around the cursor, below zero outside all of them. -/
  indent : Int := -1
  /-- The indentations of the collections around that one. -/
  indents : List Int := []
  keyAllowed : Bool := true
  /-- The depth of brackets. -/
  depth : Nat := 0
  /-- The last place for a key at each level of brackets, the innermost level first. -/
  places : List KeyPlace := [{}]
  /-- The levels of the places that tokens wait for, by the number of the token. -/
  waiting : List (Nat × Nat) := []

namespace Tokens

def inBrackets (t : Tokens) : Bool := t.depth != 0

/-- The deepest that brackets or indentations may go. -/
def maxDepth : Nat := 10000

/-- The longest that a key without a mark may be. -/
def keyReach : Nat := 1024

/-- The number of the next token that is read. -/
def nextNumber (t : Tokens) : Nat := t.taken + t.queue.length

def push (t : Tokens) (token : Token) : Tokens := { t with queue := t.queue ++ [token] }

/-- Puts a token in before the one of the given number, at the end if there is none. -/
def insert (t : Tokens) (token : Token) : Option Nat → Tokens
  | none => t.push token
  | some number =>
    if t.taken ≤ number then
      let place := number - t.taken
      { t with queue := t.queue.take place ++ token :: t.queue.drop place }
    else t.push token

/-! ### Indentation -/

/-- Begins a collection at a column if that is deeper than the one around it. -/
def roll (t : Tokens) (column : Nat) (token : Token) (before : Option Nat) : Option Tokens :=
  if !t.inBrackets && t.indent < column then
    if maxDepth ≤ t.indents.length then none
    else some ({ t with indent := column, indents := t.indent :: t.indents }.insert token before)
  else some t

/-- Ends the collections of the given indentations that are deeper than `column`. -/
def unrollFrom (column : Int) : List Int → Tokens → Tokens
  | [], t => t
  | outer :: indents, t =>
    if column < t.indent then
      unrollFrom column indents ({ t with indent := outer, indents := indents }.push .blockEnd)
    else t

/-- Ends the collections that are deeper than `column`. -/
def unroll (t : Tokens) (column : Int) : Tokens :=
  if t.inBrackets then t else unrollFrom column t.indents t

/-! ### Places for keys -/

/-- The place of a level, counted from outside. -/
def place (t : Tokens) (level : Nat) : KeyPlace := t.places.getD (t.depth - level) {}

def setPlace (t : Tokens) (level : Nat) (k : KeyPlace) : Tokens :=
  { t with places := t.places.set (t.depth - level) k }

/-- Whether a key may still have begun at the place of a level. It fails if one must have begun
there and did not end in time. -/
def checkPlace (t : Tokens) (level : Nat) : Option (Bool × Tokens) :=
  let k := t.place level
  if !k.possible then some (false, t)
  else if k.line < t.cursor.line ∨ k.index + keyReach < t.cursor.index then
    if k.required then none else some (false, t.setPlace level { k with possible := false })
  else some (true, t)

def stopWaiting (t : Tokens) (number : Nat) : Tokens :=
  { t with waiting := t.waiting.filter (·.1 ≠ number) }

/-- Gives up the innermost place, which fails if a key must begin there. -/
def dropPlace (t : Tokens) : Option Tokens :=
  let k := t.place t.depth
  if !k.possible then some t
  else if k.required then none
  else some ((t.setPlace t.depth { k with possible := false }).stopWaiting k.number)

/-- Notes that a key may begin at the cursor. -/
def notePlace (t : Tokens) : Option Tokens :=
  if !t.keyAllowed then some t
  else do
    let c := t.cursor
    let k : KeyPlace :=
      { possible := true
        required := !t.inBrackets && t.indent = c.column
        number := t.nextNumber
        index := c.index
        line := c.line
        column := c.column }
    let t := (← t.dropPlace).setPlace t.depth k
    let t := t.stopWaiting k.number
    return { t with waiting := (k.number, t.depth) :: t.waiting }

/-- Enters a level of brackets. -/
def enter (t : Tokens) : Option Tokens :=
  if maxDepth ≤ t.depth then none
  else some { t with depth := t.depth + 1, places := { number := t.nextNumber } :: t.places }

/-- Leaves a level of brackets. -/
def leave (t : Tokens) : Tokens :=
  match t.places with
  | k :: outer :: places =>
    { t.stopWaiting k.number with depth := t.depth - 1, places := outer :: places }
  | _ => t

/-! ### Reading a token -/

/-- Passes what stands between tokens. In the lines of a block a tab is no indentation. -/
def skipBetween : Nat → Tokens → Tokens
  | 0, t => t
  | fuel + 1, t =>
    let c := t.cursor
    let c := if c.column = 0 && c.sees 0 isOrderMark then c.skip else c
    let c := c.skipWhile fun ch => ch == ' ' || (ch == '\t' && (t.inBrackets || !t.keyAllowed))
    let c := if c.at? '#' then Cursor.skipComments c.bound c else c
    if c.rest ≠ [] ∧ c.atBreak then
      skipBetween fuel { t with cursor := c.skipLine, keyAllowed := t.keyAllowed || !t.inBrackets }
    else { t with cursor := c }

/-- The end of the text, which ends a line too. -/
def readEnd (t : Tokens) : Option Tokens := do
  let c := t.cursor
  let c := if c.column = 0 then c else { c with column := 0, line := c.line + 1 }
  let t ← ({ t with cursor := c }.unroll (-1)).dropPlace
  return { t with keyAllowed := false }.push .streamEnd

/-- A token at the beginning of a line that ends all collections. -/
def readOutside (t : Tokens) (token : Token) (after : Cursor) : Option Tokens := do
  let t ← (t.unroll (-1)).dropPlace
  return { t with keyAllowed := false, cursor := after }.push token

/-- A token at which a key may begin and after which none can. -/
def readNode (t : Tokens) (found : Option (Token × Cursor)) : Option Tokens := do
  let t ← t.notePlace
  let (token, after) ← found
  return { t with keyAllowed := false, cursor := after }.push token

def readOpening (t : Tokens) (token : Token) : Option Tokens := do
  let t ← (← t.notePlace).enter
  return { t with keyAllowed := true, cursor := t.cursor.skip }.push token

def readClosing (t : Tokens) (token : Token) : Option Tokens := do
  let t := (← t.dropPlace).leave
  return { t with keyAllowed := false, cursor := t.cursor.skip }.push token

def readFlowEntry (t : Tokens) : Option Tokens := do
  let t ← t.dropPlace
  return { t with keyAllowed := true, cursor := t.cursor.skip }.push .flowEntry

/-- A mark that begins a part of a collection, and the collection if there is none yet. In brackets
that is always allowed, in a block where a key is. -/
def beginPart (t : Tokens) (collection : Token) : Option Tokens :=
  if t.inBrackets then some t
  else if t.keyAllowed then t.roll t.cursor.column collection none
  else none

def readBlockEntry (t : Tokens) : Option Tokens := do
  let t ← (← t.beginPart .blockSequence).dropPlace
  return { t with keyAllowed := true, cursor := t.cursor.skip }.push .blockEntry

def readKey (t : Tokens) : Option Tokens := do
  let t ← (← t.beginPart .blockMapping).dropPlace
  return { t with keyAllowed := !t.inBrackets, cursor := t.cursor.skip }.push .key

/-- The mark of a value. A key before it that has no mark is marked now. -/
def readValue (t : Tokens) : Option Tokens := do
  let (isKey, t) ← t.checkPlace t.depth
  let t ←
    if isKey then do
      let k := t.place t.depth
      let t ← (t.insert .key (some k.number)).roll k.column .blockMapping (some k.number)
      let t := (t.setPlace t.depth { k with possible := false }).stopWaiting k.number
      pure { t with keyAllowed := false }
    else do
      let t ← t.beginPart .blockMapping
      pure { t with keyAllowed := !t.inBrackets }
  return { t with cursor := t.cursor.skip }.push .value

def readBlockScalar (t : Tokens) : Option Tokens := do
  let t ← t.dropPlace
  let s ← blockScalar? t.indent t.cursor
  return { t with keyAllowed := true, cursor := s.rest }.push (.scalar false (String.ofList s.text))

def readPlain (t : Tokens) : Option Tokens := do
  let t ← t.notePlace
  let s ← plainScalar? t.inBrackets t.indent t.cursor
  let token := Token.scalar true (String.ofList s.text)
  return { t with keyAllowed := s.broken, cursor := s.rest }.push token

/-- Reads a token within a line. -/
def readWithin (t : Tokens) (ch : Char) : Option Tokens :=
  let c := t.cursor
  let named := fun (make : String → Token) =>
    (nodeName? c.skip).map fun (name, after) => (make name, after)
  if ch = '[' then t.readOpening .flowSequence
  else if ch = '\x7b' then t.readOpening .flowMapping
  else if ch = ']' then t.readClosing .flowSequenceEnd
  else if ch = '\x7d' then t.readClosing .flowMappingEnd
  else if ch = ',' then t.readFlowEntry
  else if ch = '-' ∧ c.atGap 1 then t.readBlockEntry
  else if ch = '?' ∧ (t.inBrackets ∨ c.atGap 1) then t.readKey
  else if ch = ':' ∧ (t.inBrackets ∨ c.atGap 1) then t.readValue
  else if ch = '*' then t.readNode (named .reference)
  else if ch = '&' then t.readNode (named .anchor)
  else if ch = '!' then t.readNode (tag? c)
  else if (ch = '|' ∨ ch = '>') ∧ !t.inBrackets then t.readBlockScalar
  else if ch = '\'' ∨ ch = '"' then
    t.readNode ((quotedScalar? c).map fun s => (.scalar false (String.ofList s.text), s.rest))
  else if startsPlain t.inBrackets c then t.readPlain
  else none

/-- Passes a comment after a token. After the mark of an entry it belongs to what follows. -/
def skipLineComment (t : Tokens) : Tokens :=
  if t.queue.getLast? = some .blockEntry then t else { t with cursor := t.cursor.skipLineComment }

/-- Reads a token, and the ends of the collections before it. -/
def readToken (t : Tokens) : Option Tokens :=
  let t := skipBetween (t.cursor.bound + 1) t
  let t := t.unroll t.cursor.column
  let c := t.cursor
  match c.peek with
  | none => t.readEnd
  | some ch =>
    if c.column = 0 ∧ ch = '%' then do
      let (token, after) ← directive? c
      t.readOutside token after
    else if c.atDocumentMark then
      t.readOutside (if ch = '-' then .documentStart else .documentEnd) (c.skips 3)
    else (t.readWithin ch).map skipLineComment

/-! ### Taking tokens -/

/-- More tokens have to be read before the first of the queue is known to be next. -/
def needsMore (t : Tokens) : Option (Bool × Tokens) :=
  if t.queue.length < 3 then some (true, t)
  else
    match t.waiting.lookup t.taken with
    | none => some (false, t)
    | some level => t.checkPlace level

def fill : Nat → Tokens → Option Tokens
  | 0, _ => none
  | fuel + 1, t => do
    let (more, t) ← t.needsMore
    if more then fill fuel (← t.readToken) else some t

/-- The next token. -/
def peek (t : Tokens) : Option (Token × Tokens) := do
  let t ← fill (t.cursor.bound + 8) t
  return (← t.queue.head?, t)

/-- Takes the next token. -/
def take (t : Tokens) : Tokens := { t with queue := t.queue.drop 1, taken := t.taken + 1 }

/-- The tokens of a text, the mark of byte order at its beginning left out. -/
def ofChars (cs : List Char) : Tokens :=
  let rest := if cs.head?.any isOrderMark then cs.drop 1 else cs
  { cursor := { rest := rest } }

/-- A character that a document may hold. -/
def isAllowed (c : Char) : Bool :=
  let n := c.toNat
  n == 0x09 || n == 0x0A || n == 0x0D || (0x20 ≤ n && n ≤ 0x7E) || n == 0x85 ||
    (0xA0 ≤ n && n ≠ 0xFFFE && n ≠ 0xFFFF)

/-- A text is loaded in pieces of this many bytes. -/
def pieceSize : Nat := 512

/-- The characters of the pieces that hold the first `n` bytes. -/
def loaded (n : Nat) (cs : List Char) : List Char :=
  go ((n + pieceSize - 1) / pieceSize * pieceSize) cs
where
  go : Nat → List Char → List Char
    | _, [] => []
    | left, c :: cs => if c.utf8Size ≤ left then c :: go (left - c.utf8Size) cs else []

/-- What is loaded of a text when its tokens are read this far holds only characters that a
document may hold. -/
def loadedAllowed (t : Tokens) (cs : List Char) : Bool :=
  let reach := t.cursor.index + 4
  (loaded ((cs.take reach).foldl (fun n c => n + c.utf8Size) 0) cs).all isAllowed

end Tokens

end SearchGateway.Yaml
