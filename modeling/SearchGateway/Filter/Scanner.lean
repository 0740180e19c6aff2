import SearchGateway.Number.Numeral
import SearchGateway.Filter.Alias
import SearchGateway.Filter.ParseError

/-!
# Tokens of the filter language

Fields, operators and literals are read from the front of a `List Char`. A reader that succeeds
returns a `Scanned` record: the value, the text left, and the proof that the text left is shorter.
That proof is what the loops of the language end by.
-/

namespace SearchGateway.Filter

open SearchGateway.Text

/-- A value read from the front of `s`, and what is left. -/
structure Scanned (α : Type) (s : List Char) where
  value : α
  rest : List Char
  lt : rest.length < s.length

namespace Scanned

variable {α β : Type} {s t : List Char}

def map (f : α → β) (r : Scanned α s) : Scanned β s := ⟨f r.value, r.rest, r.lt⟩

/-- What was read from a suffix was read from the whole. -/
def weaken (r : Scanned α t) (h : t.length ≤ s.length) : Scanned α s :=
  ⟨r.value, r.rest, Nat.lt_of_lt_of_le r.lt h⟩

end Scanned

theorem length_dropWhile_le {α : Type} (p : α → Bool) (l : List α) :
    (l.dropWhile p).length ≤ l.length :=
  (List.dropWhile_sublist p).length_le

theorem length_lt_of_dropWhile_cons {α : Type} {p : α → Bool} {l rest : List α} {a b : α}
    (h : l.dropWhile p = b :: rest) : rest.length < (a :: l).length := by
  have := length_dropWhile_le p l
  rw [h, List.length_cons] at this
  rw [List.length_cons]
  omega

theorem length_lt_of_dropWhile {α : Type} {p : α → Bool} {l rest : List α} {a : α}
    (h : l.dropWhile p = rest) : rest.length < (a :: l).length := by
  rw [← h, List.length_cons]
  exact Nat.lt_succ_of_le (length_dropWhile_le p l)

/-! ### Fields -/

/-- Names with dots between them; fails with the text left where a name is missing. -/
def scanPath (s : List Char) : Except (List Char) (Scanned (List String) s) :=
  match s with
  | [] => .error []
  | c :: cs =>
    if isNameStart c then
      let segment := String.ofList (c :: cs.takeWhile isNamePart)
      match h : cs.dropWhile isNamePart with
      | '.' :: rest =>
        have hr := length_lt_of_dropWhile_cons h
        (scanPath rest).map fun r => (r.map (segment :: ·)).weaken (Nat.le_of_lt hr)
      | rest => .ok ⟨[segment], rest, length_lt_of_dropWhile h⟩
    else .error (c :: cs)
termination_by s.length
decreasing_by exact hr

/-- The longest path of names at the front. -/
def scanField (s : List Char) : Except ParseError (Scanned (List String) s) :=
  match scanPath s with
  | .ok r => .ok r
  | .error rest =>
    if rest.length = s.length then .error (.located .expectedField rest)
    else .error (.located (.emptySegment (s.take (s.length - rest.length))) rest)

/-! ### Operators -/

theorem Alias.length_after?_le {ω : Type} {a : Alias ω} {s rest : List Char}
    (h : a.after? s = some rest) : rest.length + a.text.length ≤ s.length := by
  unfold Alias.after? at h
  split at h
  · rename_i hp
    have := (List.isPrefixOf_iff_prefix.1 hp).length_le
    grind
  · simp at h

/-- The connective `op` in front, if it is next; layout before it is skipped. -/
def scanConnective? (op : Connective) (s : List Char) : Option (List Char) :=
  match Alias.first? connectiveTable (skipLayout s) with
  | some (a, rest) => if a.operator = op then some rest else none
  | none => none

/-! ### Literals -/

/-- A bare word ends at layout, brackets, parentheses, commas, quotes, `&&` and `||`. -/
def atDelimiter : List Char → Bool
  | [] => true
  | '&' :: '&' :: _ => true
  | '|' :: '|' :: _ => true
  | c :: _ => isLayout c || c == '(' || c == ')' || c == '[' || c == ']' || c == ',' || c == '"'

/-- The bare word in front and what follows it. -/
def splitWord : List Char → List Char × List Char
  | [] => ([], [])
  | c :: cs =>
    if atDelimiter (c :: cs) then ([], c :: cs)
    else
      let (word, rest) := splitWord cs
      (c :: word, rest)

/-- A word that is an operator cannot be a value. -/
def isConnectiveWord (word : List Char) : Bool :=
  connectiveTable.any (·.text = word)

/-- The literal of a bare word. An integer that does not fit in 64 bits is refused rather than
rounded; any other number too large is a text. -/
def classify (word : List Char) : Except Problem Literal :=
  if word = "true".toList then .ok (.bool true)
  else if word = "false".toList then .ok (.bool false)
  else if word = "NULL".toList ∨ word = "null".toList then .ok .null
  else
    match Numeral.read? word with
    | none => .ok (.string (String.ofList word))
    | some n =>
      if n.isInteger then
        match int64? n.integer with
        | some i => .ok (.int i)
        | none => .error (.integerOutOfRange word)
      else
        match n.toBinary64? with
        | some x => .ok (.float x)
        | none => .ok (.string (String.ofList word))

/-- The text up to the closing quote. A backslash in front of a quote or a backslash is dropped,
any other stays. -/
def splitQuoted : List Char → Option (List Char × List Char)
  | [] => none
  | '"' :: rest => some ([], rest)
  | '\\' :: '"' :: rest => (splitQuoted rest).map fun (text, rest) => ('"' :: text, rest)
  | '\\' :: '\\' :: rest => (splitQuoted rest).map fun (text, rest) => ('\\' :: text, rest)
  | c :: rest => (splitQuoted rest).map fun (text, rest) => (c :: text, rest)

theorem length_splitWord (s : List Char) :
    (splitWord s).1.length + (splitWord s).2.length = s.length := by
  fun_induction splitWord s <;> simp_all; omega

theorem length_splitQuoted {s text rest : List Char} (h : splitQuoted s = some (text, rest)) :
    rest.length < s.length := by
  fun_induction splitQuoted s generalizing text rest with
  | case1 => simp at h
  | case2 => simp_all
  | case3 r ih | case4 r ih | case5 c r _ _ _ ih =>
    obtain ⟨⟨t, u⟩, hu, he⟩ := Option.map_eq_some_iff.1 h
    have := ih hu
    simp_all
    omega

/-- A bare word as a literal. -/
def scanWord (s : List Char) : Except ParseError (Scanned Literal s) :=
  match h : (splitWord s).1 with
  | [] => .error (.located .missingValue s)
  | c :: cs =>
    if isConnectiveWord (c :: cs) then .error (.located (.operatorAsValue (c :: cs)) s)
    else
      match classify (c :: cs) with
      | .error p => .error (.located p s)
      | .ok v => .ok ⟨v, (splitWord s).2, by have := length_splitWord s; simp [h] at this; omega⟩

mutual

/-- A quoted text, a list in brackets or a bare word. -/
def scanLiteral (s : List Char) : Except ParseError (Scanned Literal s) :=
  match s with
  | '"' :: cs =>
    match h : splitQuoted cs with
    | some (text, rest) =>
      .ok ⟨.string (String.ofList text), rest, by have := length_splitQuoted h; simp; omega⟩
    | none => .error (.located .unterminatedString ('"' :: cs))
  | '[' :: cs =>
    have hskip := length_skipLayout_le cs
    match h : skipLayout cs with
    | ']' :: rest => .ok ⟨.list [], rest, by simp [h] at hskip ⊢; omega⟩
    | rest =>
      (scanItems ('[' :: cs) rest).map fun r =>
        (r.map .list).weaken (by simp [← h]; omega)
  | s => scanWord s
termination_by (s.length, 0)
decreasing_by all_goals simp_all [Prod.lex_def]; try omega

/-- The items of a list up to its closing bracket. `start` is the text at its opening one. -/
def scanItems (start s : List Char) : Except ParseError (Scanned (List Literal) s) :=
  have hs := length_skipLayout_le s
  match h : skipLayout s with
  | [] => .error (.located .unterminatedList start)
  | c :: cs => do
    let item ← scanLiteral (c :: cs)
    have hi := item.lt
    have hr := length_skipLayout_le item.rest
    match hm : skipLayout item.rest with
    | ',' :: rest =>
      let items ← scanItems start rest
      return (items.map (item.value :: ·)).weaken (by simp_all; omega)
    | ']' :: rest => return ⟨[item.value], rest, by simp_all; omega⟩
    | [] => .error (.located .unterminatedList start)
    | other => .error (.located .expectedSeparator other)
termination_by (s.length, 1)
decreasing_by all_goals simp_all [Prod.lex_def]; try omega

end

end SearchGateway.Filter
