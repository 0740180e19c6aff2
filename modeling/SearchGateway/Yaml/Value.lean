import SearchGateway.Number.Integer
import SearchGateway.Number.Layout
import SearchGateway.Text.Bytes
import SearchGateway.Yaml.Node
import SearchGateway.Yaml.Timestamp

/-!
# Values of a YAML document

What a plain scalar stands for is read off its text; a quoted scalar is a text. A tag fixes the
type. Keys of a mapping become texts. A mapping takes the entries it lacks from those it merges in,
the first of them that has one. A document that consists of little but repeated aliases is refused.
-/

namespace SearchGateway.Yaml

inductive Value
  | null
  | bool (b : Bool)
  | int (i : Int)
  | float (x : Binary64)
  | time (t : Timestamp)
  | string (s : String)
  | list (items : List Value)
  | map (entries : List (String × Value))
  deriving Inhabited

/-! ### Plain scalars -/

/-- A number with an optional fraction and exponent. -/
def isFloatText (cs : List Char) : Bool :=
  let (_, cs) := Numeral.splitExponentSign cs
  let (whole, fraction, rest) := Binary64.splitMantissa Char.isDigit cs
  (whole ≠ [] || fraction ≠ []) &&
    match rest with
    | [] => true
    | m :: ds => (m = 'e' ∨ m = 'E') && (Binary64.readPower? ds).isSome

/-- An integer of 64 bits in base two or eight, with a sign of its own after the mark. -/
def markedInteger? (cs : List Char) : Option Int :=
  match cs with
  | '0' :: 'b' :: ds => fit 2 (Numeral.splitExponentSign ds) (ds.head?.all Char.isDigit)
  | '0' :: 'o' :: ds => fit 8 (Numeral.splitExponentSign ds) (ds.head?.all Char.isDigit)
  | '-' :: '0' :: 'b' :: ds => fit 2 (true, ds) false
  | '-' :: '0' :: 'o' :: ds => fit 8 (true, ds) false
  | _ => none
where
  /-- The integer, if it fits; without a sign it may take all bits. -/
  fit (base : Nat) (signed : Bool × List Char) (bare : Bool) : Option Int :=
    if signed.2 = [] then none
    else
      match Integer.readDigits base (Nat.pow 2 64 - 1) 0 signed.2 with
      | .ok n =>
        if signed.1 then if n ≤ Nat.pow 2 63 then some (-n) else none
        else if bare ∨ n < Nat.pow 2 63 then some n
        else none
      | .error _ => none

/-- A number, if a plain scalar is one. Separators between digits do not count. -/
def number? (text : String) : Option Value :=
  let cs := text.toList.filter (· ≠ '_')
  let bare := String.ofList cs
  match Integer.read 64 bare, Integer.readNat 64 bare with
  | .ok i, _ => some (.int i)
  | .error _, .ok n => some (.int n)
  | .error _, .error _ =>
    (if isFloatText cs then (Binary64.read? bare).map .float else none) <|>
      (markedInteger? cs).map .int

/-- What a plain scalar stands for, a point in time only if `timed`. -/
def resolve (timed : Bool) (text : String) : Value :=
  if text ∈ ["", "~", "null", "Null", "NULL"] then .null
  else if text ∈ ["true", "True", "TRUE"] then .bool true
  else if text ∈ ["false", "False", "FALSE"] then .bool false
  else if text ∈ [".nan", ".NaN", ".NAN"] then .float Binary64.nan
  else if text ∈ [".inf", ".Inf", ".INF", "+.inf", "+.Inf", "+.INF"] then
    .float (Binary64.infinity false)
  else if text ∈ ["-.inf", "-.Inf", "-.INF"] then .float (Binary64.infinity true)
  else
    match text.toList.head? with
    | some c =>
      if c = '.' then ((Binary64.read? text).map .float).getD (.string text)
      else if c.isDigit ∨ c = '+' ∨ c = '-' then
        match if timed then Timestamp.read? text else none with
        | some t => .time t
        | none => (number? text).getD (.string text)
      else .string text
    | none => .string text

/-! ### Tags -/

/-- The stem of the tags of the standard types. -/
def standardStem : String := "tag:yaml.org,2002:"

/-- A tag with a mark in place of the stem of the standard types. -/
def shortTag (tag : String) : String :=
  if standardStem.toList.isPrefixOf tag.toList then
    "!!" ++ String.ofList (tag.toList.drop standardStem.length)
  else tag

/-- The tag of the type that a plain scalar has. -/
def Value.tag : Value → String
  | null => "!!null"
  | bool _ => "!!bool"
  | int _ => "!!int"
  | float _ => "!!float"
  | time _ => "!!timestamp"
  | string _ => "!!str"
  | list _ => "!!seq"
  | map _ => "!!map"

/-- The tags of the types that a text is read for. -/
def readTags : List String := ["!!bool", "!!int", "!!float", "!!null", "!!timestamp"]

/-- The six bits of a character of base 64. -/
def sixBits? (c : Char) : Option Nat :=
  if c.isUpper then some (c.toNat - 'A'.toNat)
  else if c.isLower then some (c.toNat - 'a'.toNat + 26)
  else if c.isDigit then some (c.toNat - '0'.toNat + 52)
  else if c = '+' then some 62
  else if c = '/' then some 63
  else none

/-- The bytes of a text in base 64; bits left over do not count. -/
def base64? : List Char → Option (List UInt8)
  | [] => some []
  | [a, b, '=', '='] => do return (quantum (← sixBits? a) (← sixBits? b) 0 0).take 1
  | [a, b, c, '='] => do return (quantum (← sixBits? a) (← sixBits? b) (← sixBits? c) 0).take 2
  | a :: b :: c :: d :: rest => do
    return quantum (← sixBits? a) (← sixBits? b) (← sixBits? c) (← sixBits? d) ++ (← base64? rest)
  | _ => none
where
  quantum (a b c d : Nat) : List UInt8 :=
    let n := ((a * 64 + b) * 64 + c) * 64 + d
    [UInt8.ofNat (n / 65536), UInt8.ofNat (n / 256 % 256), UInt8.ofNat (n % 256)]

/-- The text of a scalar with bytes that are part of no character held as themselves. -/
def heldText (text : String) : Value := .string (Text.ofUnicode text)

/-- A text or a value of another type with its texts held. -/
def held : Value → Value
  | .string s => heldText s
  | v => v

/-- The value of a scalar under a tag. An integer may stand for a float. Tags of unknown types
leave the text as it is. -/
def tagged? (tag text : String) : Option Value :=
  if tag = "!!binary" then
    (base64? (text.toList.filter fun c => c ≠ '\n' ∧ c ≠ '\r')).map fun bs =>
      .string (String.ofList (Text.ofBytes bs))
  else if tag ∈ readTags then
    let v := resolve (tag = "!!timestamp") text
    if v.tag = tag then some (held v)
    else
      match tag, v with
      | "!!float", .int i =>
        if i < Nat.pow 2 63 then
          some (.float (Binary64.ofRank (i < 0) (Binary64.rankOf (i.natAbs * Binary64.one) 1)))
        else none
      | _, _ => none
  else some (heldText text)

/-- The tag of a scalar. -/
def scalarTag (tag : Option String) (plain : Bool) (text : String) : String :=
  match tag with
  | some t => shortTag t
  | none =>
    if !plain then "!!str" else if text = "<<" then "!!merge" else (resolve true text).tag

/-- The value of a scalar. -/
def scalar? (tag : Option String) (plain : Bool) (text : String) : Option Value :=
  match tag with
  | some t => tagged? (shortTag t) text
  | none => some (if plain then held (resolve true text) else heldText text)

namespace Node

/-- The tag of a node. -/
def tag : Node → String
  | scalar t plain text => scalarTag t plain text
  | sequence _ => "!!seq"
  | mapping _ => "!!map"
  | reference _ target => target.tag
  | endless _ => ""

/-- The key under which a mapping names the mappings that it merges in. -/
def isMergeKey : Node → Bool
  | scalar t plain text => text == "<<" && scalarTag t plain text == "!!merge"
  | _ => false

/-- A mapping all of whose keys are texts. -/
def hasTextKeys (entries : List (Node × Node)) : Bool :=
  entries.all fun (k, _) => k.tag == "!!str" || k.tag == "!!merge"

/-- Two keys that count as the same: both scalars of one text, or both of the same kind. -/
def sameKey : Node → Node → Bool
  | scalar _ _ a, scalar _ _ b => a == b
  | sequence _, sequence _ => true
  | mapping _, mapping _ => true
  | reference a _, reference b _ | reference a _, endless b => a == b
  | endless a, reference b _ | endless a, endless b => a == b
  | _, _ => false

def hasUniqueKeys : List (Node × Node) → Bool
  | [] => true
  | (k, _) :: es => es.all (fun e => !sameKey k e.1) && hasUniqueKeys es

end Node

/-! ### Effort -/

/-- How many nodes have been valued, and how many of them below an alias. -/
structure Effort where
  nodes : Nat := 0
  aliased : Nat := 0

namespace Effort

/-- The share of nodes below aliases that is allowed, in parts of 360 million. -/
def allowedShare (nodes : Nat) : Nat :=
  if nodes ≤ 400000 then 99 * 3600000
  else if 4000000 ≤ nodes then 10 * 3600000
  else 99 * 3600000 - 89 * (nodes - 400000)

/-- Counts a node, and fails if too many are below aliases. -/
def count (e : Effort) (aliased : Bool) : Option Effort :=
  let e : Effort := ⟨e.nodes + 1, if aliased then e.aliased + 1 else e.aliased⟩
  if 100 < e.aliased ∧ 1000 < e.nodes ∧
      allowedShare e.nodes * e.nodes < e.aliased * 360000000 then none
  else some e

end Effort

/-! ### Keys -/

namespace Value

/-- Two keys are the same key. -/
def sameKey : Value → Value → Bool
  | null, null => true
  | bool a, bool b => a == b
  | int a, int b => a == b
  | float a, float b => a.eqv b
  | time a, time b => a == b
  | string a, string b => a == b
  | _, _ => false

/-- The text of a key. -/
def keyText : Value → String
  | null => ""
  | bool b => if b then "true" else "false"
  | int i => toString i
  | float x => x.plainText
  | time t => t.text
  | string s => s
  | list _ | map _ => ""

end Value

/-- A mapping that is being valued: its entries, and once others are merged in, the keys that it
has already. -/
structure Entries where
  entries : List (Value × Value) := []
  present : Option (List Value) := none

namespace Entries

/-- Sets the value of a key. -/
def set (key value : Value) (m : Entries) : Entries :=
  if m.entries.any fun e => e.1.sameKey key then
    { m with entries := m.entries.map fun e => if e.1.sameKey key then (e.1, value) else e }
  else { m with entries := m.entries ++ [(key, value)] }

/-- An entry that is merged in is dropped if its key is present. -/
def skips (m : Entries) (key : Value) : Bool := m.present.any fun ks => ks.any key.sameKey

def note (m : Entries) (key : Value) : Entries :=
  { m with present := m.present.map (key :: ·) }

/-- The entries under the texts of their keys. -/
def toMap (m : Entries) : List (String × Value) := m.entries.map fun (k, v) => (k.keyText, v)

end Entries

namespace Node

/-- The value of a key. Where only texts are keys, every scalar counts as its text, and nothing
(`none` inside) stands for a key that is null. Collections cannot be keys. -/
def key? (textKeys aliased : Bool) : Node → Effort → Option (Option Value × Effort)
  | scalar t plain text, e => do
    let e ← e.count aliased
    let v ← scalar? t plain text
    if textKeys then
      match v with
      | .null => return (none, e)
      | .string s => return (some (.string s), e)
      | _ => return (some (heldText text), e)
    else return (some v, e)
  | reference _ target, e => do key? textKeys true target (← e.count aliased)
  | _, _ => none

/-- The keys of a mapping that others are merged into. -/
def presentKeys? (aliased : Bool) : List (Node × Node) → Effort → Option (List Value × Effort)
  | [], e => some ([], e)
  | (k, _) :: es, e => do
    let (v, e) ← key? false aliased k e
    let (vs, e) ← presentKeys? aliased es e
    return (v.toList ++ vs, e)

def isMapping : Node → Bool
  | mapping _ => true
  | _ => false

/-- A mapping or an alias of one can be merged in. -/
def isMergeable : Node → Bool
  | reference _ target => target.isMapping
  | n => n.isMapping

mutual

/-- The value of a node. -/
def value? (aliased : Bool) : Node → Effort → Option (Value × Effort)
  | scalar t plain text, e => do
    let e ← e.count aliased
    return (← scalar? t plain text, e)
  | sequence items, e => do
    let (vs, e) ← values? aliased items (← e.count aliased)
    return (.list vs, e)
  | mapping entries, e => do
    let e ← e.count aliased
    if hasUniqueKeys entries then
      let textKeys := hasTextKeys entries
      let (m, e) ← entriesInto? textKeys aliased entries {} e
      let (m, e) ← mergesInto? textKeys aliased entries entries m e
      return (.map m.toMap, e)
    else none
  | reference _ target, e => do value? true target (← e.count aliased)
  | endless _, _ => none

def values? (aliased : Bool) : List Node → Effort → Option (List Value × Effort)
  | [], e => some ([], e)
  | n :: ns, e => do
    let (v, e) ← value? aliased n e
    let (vs, e) ← values? aliased ns e
    return (v :: vs, e)

/-- Adds the entries themselves. -/
def entriesInto? (textKeys aliased : Bool) :
    List (Node × Node) → Entries → Effort → Option (Entries × Effort)
  | [], m, e => some (m, e)
  | (k, v) :: es, m, e =>
    if k.isMergeKey then entriesInto? textKeys aliased es m e
    else do
      match ← key? textKeys aliased k e with
      | (none, e) => entriesInto? textKeys aliased es m e
      | (some key, e) =>
        if m.skips key then entriesInto? textKeys aliased es m e
        else
          let (v, e) ← value? aliased v e
          entriesInto? textKeys aliased es ((m.note key).set key v) e

/-- Adds what the merge key among the entries names. -/
def mergesInto? (textKeys aliased : Bool) (all : List (Node × Node)) :
    List (Node × Node) → Entries → Effort → Option (Entries × Effort)
  | [], m, e => some (m, e)
  | (k, v) :: es, m, e =>
    if k.isMergeKey then do
      let before := m.present
      let (keys, e) ←
        match before with
        | some keys => some (keys, e)
        | none => presentKeys? aliased all e
      let (m, e) ← mergeInto? textKeys aliased v { m with present := some keys } e
      let m := if before.isNone then { m with present := none } else m
      mergesInto? textKeys aliased all es m e
    else mergesInto? textKeys aliased all es m e

/-- Adds the entries of a mapping and those it merges in, or those of the mappings of a sequence. -/
def mergeInto? (textKeys aliased : Bool) : Node → Entries → Effort → Option (Entries × Effort)
  | mapping entries, m, e => do
    let e ← e.count aliased
    if hasUniqueKeys entries then
      let (m, e) ← entriesInto? textKeys aliased entries m e
      mergesInto? textKeys aliased entries entries m e
    else none
  | reference _ target, m, e =>
    if target.isMapping then do mergeInto? textKeys true target m (← e.count aliased) else none
  | sequence items, m, e => mergeItemsInto? textKeys aliased items m e
  | _, _, _ => none

def mergeItemsInto? (textKeys aliased : Bool) :
    List Node → Entries → Effort → Option (Entries × Effort)
  | [], m, e => some (m, e)
  | n :: ns, m, e =>
    if n.isMergeable then do
      let (m, e) ← mergeInto? textKeys aliased n m e
      mergeItemsInto? textKeys aliased ns m e
    else none

end

end Node

/-- The entries of the first document of a text, none if it is empty or null. It fails if the text
cannot be read, or is of another type. -/
def read? (text : String) : Option (List (String × Value)) := do
  match ← Node.ofChars? (Text.toUnicode text).toList with
  | none => return []
  | some (.mapping entries) => do
    let (m, _) ← Node.mergeInto? true false (.mapping entries) {} ⟨1, 0⟩
    return m.toMap
  | some (.scalar t plain s) =>
    match ← scalar? t plain s with
    | .null => return []
    | _ => none
  | some _ => none

end SearchGateway.Yaml
