import SearchGateway.Number.Numeral
import SearchGateway.Text.Blank

/-!
# Reading values out of a JSON text

A value is found by its path of keys straight in the text: the rest of the text is not read, so it
may even be malformed. Keys count only at their own level, and an object under a key that is not on
the path is skipped. A key in brackets names an element of an array by its number; other arrays are
skipped whole. A found value keeps its raw text.
-/

namespace SearchGateway.Json

open SearchGateway.Text

/-- Why a value cannot be read. -/
inductive SeekError
  | pathNotFound
  | malformed
  | openString
  | openArray
  | openObject
  | malformedValue
  | unknownType
  | overflow
  | notNumber (body : List Char)
  | notString (body : List Char)
  | notBool (body : List Char)
  deriving DecidableEq

def SeekError.message : SeekError → String
  | pathNotFound => "Key path not found"
  | malformed => "Malformed JSON error"
  | openString => "Value is string, but can't find closing '\"' symbol"
  | openArray => "Value is array, but can't find closing ']' symbol"
  | openObject => "Value looks like object, but can't find closing '\x7d' symbol"
  | malformedValue =>
    "Value looks like Number/Boolean/None, but can't find its end: ',' or '\x7d' symbol"
  | unknownType => "Unknown value type"
  | overflow => "Value is number, but overflowed while parsing"
  | notNumber body => "Value is not a number: " ++ String.ofList body
  | notString body => "Value is not a string: " ++ String.ofList body
  | notBool body => "Value is not a boolean: " ++ String.ofList body

/-! ### Strings and blocks -/

/-- The content of a string up to its closing quote, escapes untouched, and what follows. -/
def splitString : List Char → Option (List Char × List Char)
  | [] => none
  | '"' :: cs => some ([], cs)
  | '\\' :: c :: cs => (splitString cs).map fun (s, rest) => ('\\' :: c :: s, rest)
  | c :: cs => (splitString cs).map fun (s, rest) => (c :: s, rest)

theorem length_splitString {s text rest : List Char} (h : splitString s = some (text, rest)) :
    text.length + rest.length + 1 = s.length := by
  fun_induction splitString s generalizing text rest with
  | case1 => simp at h
  | case2 => simp_all
  | case3 c cs ih | case4 c cs _ _ ih =>
    obtain ⟨⟨t, u⟩, hu, he⟩ := Option.map_eq_some_iff.1 h
    have := ih hu
    grind

/-- The text up to the bracket that closes the level, and what follows; brackets inside strings do
not count. -/
def splitBlock (opening closing : Char) (level : Nat) (s : List Char) :
    Option (List Char × List Char) :=
  match s with
  | [] => none
  | c :: cs =>
    if c = '"' then
      match h : splitString cs with
      | none => none
      | some (text, rest) =>
        have := length_splitString h
        (splitBlock opening closing level rest).map fun (b, r) => ('"' :: (text ++ '"' :: b), r)
    else if c = opening then
      (splitBlock opening closing (level + 1) cs).map fun (b, r) => (c :: b, r)
    else if c = closing then
      if level ≤ 1 then some ([c], cs)
      else (splitBlock opening closing (level - 1) cs).map fun (b, r) => (c :: b, r)
    else (splitBlock opening closing level cs).map fun (b, r) => (c :: b, r)
termination_by s.length
decreasing_by all_goals simp_all; try omega

theorem length_splitBlock {opening closing : Char} {level : Nat} {s block rest : List Char}
    (h : splitBlock opening closing level s = some (block, rest)) :
    rest.length < s.length := by
  fun_induction splitBlock opening closing level s generalizing block rest with
  | case1 => simp at h
  | case2 => simp at h
  | case3 level cs text r hs hl ih =>
    obtain ⟨⟨t, u⟩, hu, he⟩ := Option.map_eq_some_iff.1 h
    have := ih hu
    have := length_splitString hs
    grind
  | case4 level cs _ ih | case6 level cs _ _ _ ih | case7 level c cs _ _ _ ih =>
    obtain ⟨⟨t, u⟩, hu, he⟩ := Option.map_eq_some_iff.1 h
    have := ih hu
    grind
  | case5 => grind

/-! ### Escapes -/

/-- The number of four hexadecimal digits. -/
def hex4? : List Char → Option (Nat × List Char)
  | a :: b :: c :: d :: cs =>
    if [a, b, c, d].all isHexDigit then
      some (((hexValue a * 16 + hexValue b) * 16 + hexValue c) * 16 + hexValue d, cs)
    else none
  | _ => none

/-- The character of a pair of surrogates; a number that is none becomes the replacement
character. -/
def surrogates (high low : Nat) : Char :=
  let n := 0x10000 + (high - 0xD800) * 0x400 + (low - 0xDC00)
  if n < 0x110000 then Char.ofNat n else replacement

/-- Drops characters of the given number of bytes, if the number ends with a character. -/
def dropBytes? : Nat → List Char → Option (List Char)
  | 0, cs => some cs
  | _ + 1, [] => none
  | n + 1, c :: cs => if charSize c ≤ n + 1 then dropBytes? (n + 1 - charSize c) cs else none

/-- The character of a simple escape. -/
def simpleEscape? (c : Char) : Option Char :=
  if c = '"' ∨ c = '\\' ∨ c = '/' then some c
  else if c = 'b' then some '\x08'
  else if c = 'f' then some '\x0c'
  else if c = 'n' then some '\n'
  else if c = 'r' then some '\r'
  else if c = 't' then some '\t'
  else none

/-- The escaped character after `\u`, and what follows. A surrogate takes the four digits two
bytes further on as its partner. -/
def unicodeEscape? (cs : List Char) : Option (Char × List Char) := do
  let (n, rest) ← hex4? cs
  if 0xD800 ≤ n ∧ n ≤ 0xDFFF then
    let (low, rest) ← hex4? (← dropBytes? 2 rest)
    if low < 0xDC00 then none else return (surrogates n low, rest)
  else return (Char.ofNat n, rest)

theorem length_hex4? {cs rest : List Char} {n : Nat} (h : hex4? cs = some (n, rest)) :
    rest.length < cs.length := by
  unfold hex4? at h
  split at h
  · split at h
    · simp at h; simp [← h.2]; omega
    · simp at h
  · simp at h

theorem length_dropBytes? {n : Nat} {cs rest : List Char} (h : dropBytes? n cs = some rest) :
    rest.length ≤ cs.length := by
  fun_induction dropBytes? n cs with
  | case1 => simp_all
  | case2 => simp at h
  | case3 n c cs _ ih => have := ih h; grind
  | case4 => simp at h

theorem length_unicodeEscape? {cs rest : List Char} {c : Char}
    (h : unicodeEscape? cs = some (c, rest)) : rest.length < cs.length := by
  simp only [unicodeEscape?, Option.bind_eq_bind, Option.bind_eq_some_iff, Prod.exists] at h
  obtain ⟨n, r, hn, h⟩ := h
  have h1 := length_hex4? hn
  split at h
  · simp only [Option.bind_eq_some_iff, Prod.exists] at h
    obtain ⟨d, hd, low, r', hl, h⟩ := h
    have h2 := length_hex4? hl
    have h3 := length_dropBytes? hd
    split at h
    · simp at h
    · simp at h; grind
  · simp at h; simp_all

/-- A string with its escapes resolved. -/
def unescape (s : List Char) : Option (List Char) :=
  match s with
  | [] => some []
  | '\\' :: 'u' :: cs =>
    match h : unicodeEscape? cs with
    | none => none
    | some (c, rest) =>
      have := length_unicodeEscape? h
      (unescape rest).map (ofChar c ++ ·)
  | ['\\'] => none
  | '\\' :: c :: cs => do return (← simpleEscape? c) :: (← unescape cs)
  | c :: cs => (unescape cs).map (c :: ·)
termination_by s.length
decreasing_by all_goals simp_all; try omega

/-! ### Values -/

inductive Kind
  | string | number | object | array | bool | null
  deriving DecidableEq

/-- A value in its raw text; a string is without its quotes. -/
structure Raw where
  kind : Kind
  text : List Char
  deriving DecidableEq

/-- Characters that end a number or a word. -/
def isTokenEnd (c : Char) : Bool := isLayout c || c == ',' || c == '\x7d' || c == ']'

/-- The value at the front of a text, and what follows. -/
def valueAt : List Char → Except SeekError (Raw × List Char)
  | [] => .error .malformed
  | '"' :: cs =>
    match splitString cs with
    | some (body, rest) => .ok (⟨.string, body⟩, rest)
    | none => .error .openString
  | '[' :: cs =>
    match splitBlock '[' ']' 0 ('[' :: cs) with
    | some (body, rest) => .ok (⟨.array, body⟩, rest)
    | none => .error .openArray
  | '\x7b' :: cs =>
    match splitBlock '\x7b' '\x7d' 0 ('\x7b' :: cs) with
    | some (body, rest) => .ok (⟨.object, body⟩, rest)
    | none => .error .openObject
  | c :: cs =>
    let body := c :: cs.takeWhile fun c => !isTokenEnd c
    let rest := cs.dropWhile fun c => !isTokenEnd c
    if body = "true".toList ∨ body = "false".toList then .ok (⟨.bool, body⟩, rest)
    else if body = "null".toList then .ok (⟨.null, body⟩, rest)
    else if c.isDigit ∨ c = '-' then .ok (⟨.number, body⟩, rest)
    else .error .unknownType

theorem length_valueAt {s rest : List Char} {v : Raw} (h : valueAt s = .ok (v, rest)) :
    rest.length < s.length := by
  unfold valueAt at h
  split at h
  · simp at h
  · split at h
    · next hs => have := length_splitString hs; simp_all; omega
    · simp at h
  · split at h
    · next hs => have := length_splitBlock hs; simp_all
    · simp at h
  · split at h
    · next hs => have := length_splitBlock hs; simp_all
    · simp at h
  · next c cs _ _ _ =>
    have := (List.dropWhile_sublist (l := cs) fun c => !isTokenEnd c).length_le
    grind

/-! ### Paths -/

/-- Where a search for a path stands: the depth of the text, how many keys are found, and whether
the last key seen is on the path. -/
structure SeekState where
  level : Int := 0
  found : Int := 0
  onPath : Bool := true

/-- What a key does to a search. -/
inductive KeyStep
  | fail
  | arrived
  | next (s : SeekState)

/-- A key at the present level. -/
def SeekState.key (st : SeekState) (path : List String) (body : List Char) : KeyStep :=
  if st.level < 1 ∨ (path.length : Int) < st.level then .fail
  else
    match if body.contains '\\' then unescape body else some body with
    | none => .fail
    | some name =>
      if path[(st.level - 1).toNat]? = some (String.ofList name) then
        if st.found = st.level - 1 then
          if st.found + 1 = path.length then .arrived
          else .next { st with found := st.found + 1, onPath := true }
        else .next { st with onPath := true }
      else .next { st with onPath := false }

/-- The number of an element that a key in brackets names. -/
def elementNumber? (key : String) : Option Nat :=
  match key.toList with
  | '[' :: cs =>
    if 2 ≤ cs.length ∧ cs.getLast? = some ']' then
      (readInt64? (String.ofList cs.dropLast)).bind fun i =>
        if i.toInt < 0 then none else some i.toInt.toNat
    else none
  | _ => none

/-- The text of the `n`-th value of a list of values, and the whole text from it on. -/
def element? (n : Nat) (s : List Char) : Option (List Char × List Char) :=
  match valueAt (skipLayout s) with
  | .error _ => none
  | .ok (_, rest) =>
    match n with
    | 0 => some ((skipLayout s).take ((skipLayout s).length - rest.length), skipLayout s)
    | n + 1 =>
      match skipLayout rest with
      | ',' :: more => element? n more
      | _ => none

theorem length_element? {n : Nat} {s own suffix : List Char}
    (h : element? n s = some (own, suffix)) : own.length ≤ s.length := by
  induction n generalizing s with
  | zero =>
    unfold element? at h
    have := length_skipLayout_le s
    split at h
    · simp at h
    · simp at h
      rw [← h.1, List.length_take]
      omega
  | succ n ih =>
    unfold element? at h
    have h1 := length_skipLayout_le s
    split at h
    · simp at h
    · next v rest hv =>
      have h2 := length_valueAt hv
      have h3 := length_skipLayout_le rest
      simp only at h
      split at h
      · next more hm =>
        have := ih h
        rw [hm, List.length_cons] at h3
        omega
      · simp at h

/-- Whether the next key names an element of an array rather than a member of an object. -/
def SeekState.wantsElement (st : SeekState) (path : List String) : Option String :=
  if st.found = st.level ∧ 0 ≤ st.level then
    path[st.level.toNat]?.filter fun key => key.toList.head? = some '['
  else none

/-- The text after the colon of the last key of the path, or from the element that the last key
names. -/
def seekFrom (path : List String) (st : SeekState) (s : List Char) : Option (List Char) :=
  match s with
  | [] => none
  | c :: cs =>
    if c = '"' then
      match hs : splitString cs with
      | none => none
      | some (body, rest) =>
        have := length_splitString hs
        have := length_skipLayout_le rest
        match _hr : skipLayout rest with
        | [] => none
        | d :: after =>
          if d = ':' then
            match st.key path body with
            | .fail => none
            | .arrived => some after
            | .next st => seekFrom path st after
          else seekFrom path st (d :: after)
    else if c = '\x7b' then
      if st.onPath then seekFrom path { st with level := st.level + 1 } cs
      else
        match hb : splitBlock '\x7b' '\x7d' 0 (c :: cs) with
        | none => none
        | some (_, rest) =>
          have := length_splitBlock hb
          seekFrom path st rest
    else if c = '\x7d' then
      let level := st.level - 1
      seekFrom path
        { st with level, found := if level = st.found then st.found - 1 else st.found } cs
    else if c = '[' then
      match st.wantsElement path with
      | some key =>
        match he : (elementNumber? key).bind fun n => element? n cs with
        | none => none
        | some (own, suffix) =>
          match path.drop (st.level.toNat + 1) with
          | [] => some suffix
          | keys =>
            have : own.length ≤ cs.length :=
              Option.bind_eq_some_iff.1 he |>.elim fun _ h => length_element? h.2
            (seekFrom keys {} own).map fun rest => suffix.drop (own.length - rest.length)
      | none =>
        match hb : splitBlock '[' ']' 0 (c :: cs) with
        | none => none
        | some (_, rest) =>
          have := length_splitBlock hb
          seekFrom path st rest
    else if c = ':' then none
    else seekFrom path st cs
termination_by s.length
decreasing_by all_goals simp_all; try omega

/-! ### Reading -/

/-- The value at a path. -/
def get (text : List Char) (path : List String) : Except SeekError Raw :=
  match seekFrom path {} text with
  | none => .error .pathNotFound
  | some rest => (valueAt (skipLayout rest)).map (·.1)

/-- An integer of 64 bits by digits, in arithmetic of 64 bits. A digit after which the value is
smaller than before has overflowed; the least integer alone is let through. -/
def int64Digits (v : Int64) : List Char → Except SeekError Int64
  | [] => .ok v
  | c :: cs =>
    if c.isDigit then
      let b := 10 * v + Int64.ofInt (c.toNat - '0'.toNat : Nat)
      if b < v then .error .overflow else int64Digits b cs
    else .error .malformedValue

def int64 (body : List Char) : Except SeekError Int64 :=
  match body with
  | '-' :: ds =>
    if ds = "9223372036854775808".toList then .ok Int64.minValue
    else (int64Digits 0 ds).map (- ·)
  | ds => int64Digits 0 ds

/-- The integer at a path. -/
def getInt (text : List Char) (path : List String) : Except SeekError Int64 := do
  let body ← get text path
  if body.kind = .number then int64 body.text else .error (.notNumber body.text)

/-- The number at a path. -/
def getFloat (text : List Char) (path : List String) : Except SeekError Binary64 := do
  let body ← get text path
  if body.kind = .number then
    match Binary64.read? (String.ofList body.text) with
    | some x => return x
    | none => .error .malformedValue
  else .error (.notNumber body.text)

/-- The string at a path, its escapes resolved. -/
def getString (text : List Char) (path : List String) : Except SeekError String := do
  let body ← get text path
  if body.kind = .string then
    match unescape body.text with
    | some s => return String.ofList s
    | none => .error .malformedValue
  else .error (.notString body.text)

/-- The truth value at a path. -/
def getBool (text : List Char) (path : List String) : Except SeekError Bool := do
  let body ← get text path
  if body.kind = .bool then return body.text = "true".toList else .error (.notBool body.text)

/-- The elements of an array after its opening bracket, and the error that ended them, if any. -/
def elements (s : List Char) : List Raw × Option SeekError :=
  match h : valueAt (skipLayout s) with
  | .error e => ([], some e)
  | .ok (v, rest) =>
    have := length_valueAt h
    have := length_skipLayout_le s
    have := length_skipLayout_le rest
    match _hr : skipLayout rest with
    | ']' :: _ => ([v], none)
    | ',' :: rest =>
      let (vs, e) := elements rest
      (v :: vs, e)
    | _ => ([v], some .openArray)
termination_by s.length
decreasing_by simp_all; omega

/-- The elements of the array at a path. An error ends them; those before it are kept. -/
def getArray (text : List Char) (path : List String) : List Raw × Option SeekError :=
  if text = [] then ([], some .openObject)
  else if skipLayout text = [] then ([], some .malformed)
  else
    match seekFrom path {} text with
    | none => ([], some .pathNotFound)
    | some rest =>
      match skipLayout rest with
      | [] => ([], some .malformed)
      | '[' :: cs =>
        match skipLayout cs with
        | [] => ([], some .malformed)
        | ']' :: _ => ([], none)
        | cs => elements cs
      | _ => ([], some .openArray)

end SearchGateway.Json
