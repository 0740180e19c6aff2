import SearchGateway.Yaml.Tokens

/-!
# Nodes of a YAML document

A document is a tree of scalars, sequences and mappings. An alias stands for the node that was last
given its name, itself or one around it included, which makes a tree without end. Only the first
document of a text is read, and of what follows it no more than the tokens that are read ahead.
-/

namespace SearchGateway.Yaml

inductive Node
  /-- A scalar with the tag that is written before it. -/
  | scalar (tag : Option String) (plain : Bool) (text : String)
  | sequence (items : List Node)
  | mapping (entries : List (Node × Node))
  | reference (name : String) (target : Node)
  /-- An alias of a node that it is part of. -/
  | endless (name : String)
  deriving Inhabited

namespace Node

/-- The scalar that stands where nothing is written. -/
def empty : Node := .scalar none true ""

/-- What is read of a document: the tokens left, the anchors seen, and the stems that handles of
tags stand for. An anchor of a node that is not yet complete has no node. -/
structure Reading where
  tokens : Tokens
  anchors : List (String × Nat × Option Node) := []
  handles : List (String × String) := []

namespace Reading

def peek (r : Reading) : Option (Token × Reading) :=
  r.tokens.peek.map fun (t, tokens) => (t, { r with tokens := tokens })

def take (r : Reading) : Reading := { r with tokens := r.tokens.take }

/-- Takes the next token and looks at the one after it. -/
def takePeek (r : Reading) : Option (Token × Reading) := r.take.peek

/-- Gives a name to the node that begins here. -/
def name (r : Reading) (name : String) : Reading :=
  { r with anchors := (name, r.anchors.length, none) :: r.anchors }

/-- Completes the node that was the `n`-th to be named. -/
def complete (r : Reading) (n : Nat) (node : Node) : Reading :=
  { r with
    anchors := r.anchors.map fun (name, m, old) => (name, m, if m = n then some node else old) }

/-- The tag of a handle and a suffix. -/
def tag? (r : Reading) (handle suffix : String) : Option String :=
  if handle = "" then some suffix else (r.handles.lookup handle).map (· ++ suffix)

end Reading

/-- The names before a node. -/
structure Properties where
  /-- The number of the anchor. -/
  anchor : Option Nat := none
  tag : Option String := none

/-- Reads an anchor, if one is next. -/
def readAnchor (p : Properties) (r : Reading) : Option (Properties × Reading) := do
  match ← r.peek with
  | (.anchor name, r) => return ({ p with anchor := some r.anchors.length }, r.take.name name)
  | (_, r) => return (p, r)

/-- Reads a tag, if one is next. -/
def readTag (p : Properties) (r : Reading) : Option (Properties × Reading) := do
  match ← r.peek with
  | (.tag handle suffix, r) => return ({ p with tag := some (← r.tag? handle suffix) }, r.take)
  | (_, r) => return (p, r)

/-- The names before a node: an anchor and a tag, in either order. -/
def readProperties (r : Reading) : Option (Properties × Reading) := do
  let (t, r) ← r.peek
  match t with
  | .tag _ _ => do
    let (p, r) ← readTag {} r
    readAnchor p r
  | _ => do
    let (p, r) ← readAnchor {} r
    readTag p r

/-- The tag of a scalar, unless it leaves the type open. -/
def Properties.scalarTag (p : Properties) : Option String :=
  p.tag.filter fun tag => tag ≠ "" && tag ≠ "!"

/-- A node under its anchor. -/
def Properties.finish (p : Properties) (node : Node) (r : Reading) : Node × Reading :=
  match p.anchor with
  | some n => (node, r.complete n node)
  | none => (node, r)

/-- The node that only its names are written for. -/
def Properties.emptyNode (p : Properties) (r : Reading) : Option (Node × Reading) :=
  if p.anchor.isSome ∨ p.tag.isSome then some (p.finish (.scalar p.scalarTag true "") r) else none

/-- A node may be left out before these tokens in a block. -/
def endsBlockPart (t : Token) : Bool := t == .key || t == .value || t == .blockEnd

mutual

/-- Reads a node. In brackets no collection of a block can begin, and only in a mapping of a block
may a sequence have its indentation. -/
def read (inBlock inMapping : Bool) : Nat → Reading → Option (Node × Reading)
  | 0, _ => none
  | fuel + 1, r => do
    let (t, r) ← r.peek
    match t with
    | .reference name =>
      match ← r.anchors.lookup name with
      | (_, some target) => return (.reference name target, r.take)
      | (_, none) => return (.endless name, r.take)
    | _ =>
      let (p, r) ← readProperties r
      let (t, r) ← r.peek
      match t with
      | .scalar plain text => return p.finish (.scalar p.scalarTag plain text) r.take
      | .flowSequence =>
        let (items, r) ← readFlowItems true fuel r.take
        return p.finish (.sequence items) r
      | .flowMapping =>
        let (entries, r) ← readFlowEntries true fuel r.take
        return p.finish (.mapping entries) r
      | .blockEntry =>
        if inMapping then
          let (items, r) ← readOutdented fuel r
          return p.finish (.sequence items) r
        else p.emptyNode r
      | .blockSequence =>
        if inBlock then
          let (items, r) ← readBlockItems fuel r.take
          return p.finish (.sequence items) r
        else p.emptyNode r
      | .blockMapping =>
        if inBlock then
          let (entries, r) ← readBlockEntries fuel r.take
          return p.finish (.mapping entries) r
        else p.emptyNode r
      | _ => p.emptyNode r

/-- The items of a sequence of a block. -/
def readBlockItems : Nat → Reading → Option (List Node × Reading)
  | 0, _ => none
  | fuel + 1, r => do
    let (t, r) ← r.peek
    match t with
    | .blockEntry =>
      let (t, r) ← r.takePeek
      let (item, r) ←
        if t = .blockEntry ∨ t = .blockEnd then some (empty, r) else read true false fuel r
      let (items, r) ← readBlockItems fuel r
      return (item :: items, r)
    | .blockEnd => return ([], r.take)
    | _ => none

/-- The items of a sequence that has the indentation of the mapping around it. -/
def readOutdented : Nat → Reading → Option (List Node × Reading)
  | 0, _ => none
  | fuel + 1, r => do
    let (t, r) ← r.peek
    match t with
    | .blockEntry =>
      let (t, r) ← r.takePeek
      let (item, r) ←
        if t = .blockEntry ∨ endsBlockPart t then some (empty, r) else read true false fuel r
      let (items, r) ← readOutdented fuel r
      return (item :: items, r)
    | _ => return ([], r)

/-- The entries of a mapping of a block. -/
def readBlockEntries : Nat → Reading → Option (List (Node × Node) × Reading)
  | 0, _ => none
  | fuel + 1, r => do
    let (t, r) ← r.peek
    match t with
    | .key =>
      let (t, r) ← r.takePeek
      let (key, r) ← if endsBlockPart t then some (empty, r) else read true true fuel r
      let (t, r) ← r.peek
      let (value, r) ←
        if t = .value then do
          let (t, r) ← r.takePeek
          if endsBlockPart t then some (empty, r) else read true true fuel r
        else some (empty, r)
      let (entries, r) ← readBlockEntries fuel r
      return ((key, value) :: entries, r)
    | .blockEnd => return ([], r.take)
    | _ => none

/-- The items of a sequence in brackets. A key among them is a mapping of its own. -/
def readFlowItems (first : Bool) : Nat → Reading → Option (List Node × Reading)
  | 0, _ => none
  | fuel + 1, r => do
    let (t, r) ← r.peek
    if t = .flowSequenceEnd then return ([], r.take)
    else
      let (t, r) ← if first then some (t, r) else if t = .flowEntry then r.takePeek else none
      if t = .flowSequenceEnd then return ([], r.take)
      else
        let (item, r) ← if t = .key then readFlowPair fuel r.take else read false false fuel r
        let (items, r) ← readFlowItems false fuel r
        return (item :: items, r)

/-- A key and its value in a sequence. Where the key is left out so is the token after it. -/
def readFlowPair : Nat → Reading → Option (Node × Reading)
  | 0, _ => none
  | fuel + 1, r => do
    let (t, r) ← r.peek
    let (key, r) ←
      if t = .value ∨ t = .flowEntry ∨ t = .flowSequenceEnd then some (empty, r.take)
      else read false false fuel r
    let (t, r) ← r.peek
    let (value, r) ←
      if t = .value then do
        let (t, r) ← r.takePeek
        if t = .flowEntry ∨ t = .flowSequenceEnd then some (empty, r) else read false false fuel r
      else some (empty, r)
    return (.mapping [(key, value)], r)

/-- The entries of a mapping in brackets. A node without a mark is a key without a value. -/
def readFlowEntries (first : Bool) : Nat → Reading → Option (List (Node × Node) × Reading)
  | 0, _ => none
  | fuel + 1, r => do
    let (t, r) ← r.peek
    if t = .flowMappingEnd then return ([], r.take)
    else
      let (t, r) ← if first then some (t, r) else if t = .flowEntry then r.takePeek else none
      if t = .flowMappingEnd then return ([], r.take)
      else
        let (entry, r) ←
          if t = .key then do
            let (t, r) ← r.takePeek
            let (key, r) ←
              if t = .value ∨ t = .flowEntry ∨ t = .flowMappingEnd then some (empty, r)
              else read false false fuel r
            let (t, r) ← r.peek
            let (value, r) ←
              if t = .value then do
                let (t, r) ← r.takePeek
                if t = .flowEntry ∨ t = .flowMappingEnd then some (empty, r)
                else read false false fuel r
              else some (empty, r)
            pure ((key, value), r)
          else do
            let (key, r) ← read false false fuel r
            let (_, r) ← r.peek
            pure ((key, empty), r)
        let (entries, r) ← readFlowEntries false fuel r
        return (entry :: entries, r)

end

/-! ### Documents -/

/-- The handles that need no directive. -/
def standardHandles : List (String × String) := [("!", "!"), ("!!", "tag:yaml.org,2002:")]

/-- Reads the directives of a document, `versioned` if the version is among those before. -/
def readDirectives (versioned : Bool) : Nat → Reading → Option (Token × Reading)
  | 0, _ => none
  | fuel + 1, r => do
    let (t, r) ← r.peek
    match t with
    | .version major minor =>
      if versioned ∨ (major, minor) ≠ (1, 1) then none else readDirectives true fuel r.take
    | .tagHandle handle stem =>
      if (r.handles.lookup handle).isSome then none
      else readDirectives versioned fuel { r with handles := (handle, stem) :: r.handles }.take
    | t => return (t, { r with handles := r.handles ++ standardHandles })

/-- The node after the mark that begins a document. -/
def readMarked (fuel : Nat) (r : Reading) : Option (Node × Reading) := do
  let (t, r) ← r.peek
  match t with
  | .version _ _ | .tagHandle _ _ | .documentStart | .documentEnd | .streamEnd => return (empty, r)
  | _ => read true false fuel r

/-- The first document, nothing if there is none. -/
def readFirst (fuel : Nat) (r : Reading) : Option (Option Node × Reading) := do
  let (first, r) ← r.peek
  if first = .streamEnd then return (none, r)
  else
    let (t, r) ← readDirectives false fuel r
    let (node, r) ←
      if t = .documentStart then readMarked fuel r.take
      else if t = first then read true false fuel r
      else none
    let (_, r) ← r.peek
    return (some node, r)

/-- More steps than the tokens of a text of this length take. -/
def fuelFor (length : Nat) : Nat := 16 * length + 64

/-- The first document of a text. It fails if the document cannot be read, and gives nothing if
there is none. -/
def ofChars? (cs : List Char) : Option (Option Node) := do
  let (node, r) ← readFirst (fuelFor cs.length) { tokens := Tokens.ofChars cs }
  if r.tokens.loadedAllowed cs then some node else none

end Node

end SearchGateway.Yaml
