import SearchGateway.Json.Value
import SearchGateway.Number.Numeral
import SearchGateway.Text.Blank

/-!
# Well-formed texts

A text that goes out as part of a document is read once before it is copied. Reading is a little
wider than the format: once a string has held an escape it may hold control characters, a minus may
be followed by a plus, and a key after the first may be `null`. Numbers that are too large are
refused, and so are values nested more than 10000 deep.
-/

namespace SearchGateway.Json

open SearchGateway.Text

/-- What is left of a text after something was read. -/
abbrev Shorter (s : List Char) := { r : List Char // r.length < s.length }

namespace Shorter

/-- Reading after a first part reads of the whole. -/
def widen {s t : List Char} (h : t.length ≤ s.length) (r : Shorter t) : Shorter s :=
  ⟨r.1, Nat.lt_of_lt_of_le r.2 h⟩

end Shorter

/-- The rest after a string that has held an escape. -/
def skipEscaped (s : List Char) : Option (Shorter s) :=
  match s with
  | [] => none
  | '"' :: cs => some ⟨cs, by simp⟩
  | '\\' :: 'u' :: a :: b :: c :: d :: cs =>
    if [a, b, c, d].all isHexDigit then
      (skipEscaped cs).map (Shorter.widen (by simp; omega))
    else none
  | '\\' :: e :: cs =>
    if "\"\\/bfnrt".toList.contains e then (skipEscaped cs).map (Shorter.widen (by simp; omega))
    else none
  | '\\' :: _ => none
  | _ :: cs => (skipEscaped cs).map (Shorter.widen (by simp))

/-- The rest after a string whose opening quote was read. -/
def skipString (s : List Char) : Option (Shorter s) :=
  match s with
  | [] => none
  | '"' :: cs => some ⟨cs, by simp⟩
  | '\\' :: cs => skipEscaped ('\\' :: cs)
  | c :: cs => if c.toNat < 0x20 then none else (skipString cs).map (Shorter.widen (by simp))

/-- Characters a number is made of. -/
def isNumeric (c : Char) : Bool :=
  c.isDigit || c == '+' || c == '-' || c == '.' || c == 'e' || c == 'E'

/-- A point stands before a digit. -/
def pointOk : List Char → Bool
  | [] => true
  | '.' :: d :: _ => d.isDigit
  | ['.'] => false
  | _ :: cs => pointOk cs

/-- A number without its minus. -/
def isMagnitude (run : List Char) : Bool :=
  (match run with
    | [] => false
    | '.' :: _ => false
    | '-' :: _ => false
    | '0' :: d :: _ => !d.isDigit
    | _ => true) &&
  pointOk run && (Binary64.read? (String.ofList run)).isSome

/-- The rest after a number. -/
def skipMagnitude (s : List Char) : Option (Shorter s) :=
  let run := s.takeWhile isNumeric
  if h : isMagnitude run then
    some ⟨s.dropWhile isNumeric, by
      have h1 : run ≠ [] := by intro h0; simp [h0, isMagnitude] at h
      have h2 : run.length + (s.dropWhile isNumeric).length = s.length := by
        rw [← List.length_append, List.takeWhile_append_dropWhile]
      have h3 := List.length_pos_iff.2 h1
      omega⟩
  else none

/-- The rest after a given word. -/
def skipWord (word s : List Char) : Option (Shorter s) :=
  if h : word <+: s ∧ word ≠ [] then
    some ⟨s.drop word.length, by
      have := h.1.length_le
      have := List.length_pos_iff.2 h.2
      simp; omega⟩
  else none

/-- The rest after the blanks and one given character. -/
def expect (c : Char) (s : List Char) : Option (Shorter s) :=
  match h : skipLayout s with
  | d :: cs =>
    if d = c then some ⟨cs, by have := length_skipLayout_le s; simp [h] at this; omega⟩ else none
  | [] => none

theorem length_lt_of_skipLayout {s cs : List Char} {c : Char} (h : skipLayout s = c :: cs) :
    cs.length < s.length := by
  have := length_skipLayout_le s
  rw [h, List.length_cons] at this
  omega

theorem length_cons_le_of_skipLayout {s cs : List Char} {c : Char}
    (h : skipLayout s = c :: cs) : (c :: cs).length ≤ s.length :=
  h ▸ length_skipLayout_le s

theorem length_le_of_lt {s t : List Char} (h : t.length < s.length) : t.length ≤ s.length :=
  Nat.le_of_lt h

/-- The rest after a key; after the first key `null` may stand for one. -/
def skipKey (first : Bool) (s : List Char) : Option (Shorter s) :=
  match expect '"' s with
  | some ⟨cs, h⟩ => (skipString cs).map (Shorter.widen (length_le_of_lt h))
  | none =>
    if first then none
    else (skipWord "null".toList (skipLayout s)).map (Shorter.widen (length_skipLayout_le s))

mutual

/-- The rest after a value that nests at most `depth` deep. -/
def skipValue (depth : Nat) (s : List Char) : Option (Shorter s) :=
  match h : skipLayout s with
  | [] => none
  | c :: cs =>
    have hc := length_lt_of_skipLayout h
    have hle := length_cons_le_of_skipLayout h
    if c = '"' then (skipString cs).map (Shorter.widen (length_le_of_lt hc))
    else if c = '\x7b' then
      match depth with
      | 0 => none
      | depth + 1 =>
        match expect '\x7d' cs with
        | some r => some (r.widen (length_le_of_lt hc))
        | none => (skipMembers depth true cs).map (Shorter.widen (length_le_of_lt hc))
    else if c = '[' then
      match depth with
      | 0 => none
      | depth + 1 =>
        match expect ']' cs with
        | some r => some (r.widen (length_le_of_lt hc))
        | none => (skipItems depth cs).map (Shorter.widen (length_le_of_lt hc))
    else if c = '-' then (skipMagnitude cs).map (Shorter.widen (length_le_of_lt hc))
    else if c.isDigit then (skipMagnitude (c :: cs)).map (Shorter.widen hle)
    else if c = 't' then (skipWord "true".toList (c :: cs)).map (Shorter.widen hle)
    else if c = 'f' then (skipWord "false".toList (c :: cs)).map (Shorter.widen hle)
    else (skipWord "null".toList (c :: cs)).map (Shorter.widen hle)
termination_by (s.length, 0)

/-- The rest after the items of an array and its closing bracket. -/
def skipItems (depth : Nat) (s : List Char) : Option (Shorter s) :=
  match skipValue depth s with
  | none => none
  | some ⟨r, hr⟩ =>
    match expect ',' r with
    | some ⟨t, ht⟩ => (skipItems depth t).map (Shorter.widen (by omega))
    | none => (expect ']' r).map (Shorter.widen (by omega))
termination_by (s.length, 1)

/-- The rest after the members of an object and its closing brace. -/
def skipMembers (depth : Nat) (first : Bool) (s : List Char) : Option (Shorter s) :=
  match skipKey first s with
  | none => none
  | some ⟨k, hk⟩ =>
    match expect ':' k with
    | none => none
    | some ⟨v, hv⟩ =>
      match skipValue depth v with
      | none => none
      | some ⟨r, hr⟩ =>
        match expect ',' r with
        | some ⟨t, ht⟩ => (skipMembers depth false t).map (Shorter.widen (by omega))
        | none => (expect '\x7d' r).map (Shorter.widen (by omega))
termination_by (s.length, 0)

end

def maxDepth : Nat := 10000

/-- A value can be read at the front of the text. -/
def isReadable (text : List Char) : Bool := (skipValue maxDepth text).isSome

/-- A text to be copied into a document; one that cannot be read is replaced by `null`. -/
def embed (text : List Char) : Json := if isReadable text then .raw text else .null

end SearchGateway.Json
