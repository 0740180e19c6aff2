import SearchGateway.Proofs.Filter.Grammar

/-!
# The calls of the readers

Reading a filter, a field or an operator is a run of calls of readers, each at a place of the text.
`Call.ending` is how a call ends: the text it leaves, or a failure with the place it names.
`Call.script` says what a call does with its place: which readers it calls, at which places, and how
it goes on when they end. A script knows no reader from within, only how it ended, and the readers
end as their scripts do (`ending_eq_run`). The calls that a call makes are read off its script.
-/

namespace SearchGateway.Filter

open SearchGateway.Text

/-- How a call ends: with the text left, or in a failure at a place or at none. -/
abbrev Ending := Except (Option (List Char)) (List Char)

/-- The tables that operators are looked up in. -/
inductive Table
  | connectives | relations

def Table.after? : Table → List Char → Option (List Char)
  | connectives, s => (Alias.first? connectiveTable s).map Prod.snd
  | relations, s => (Alias.first? relationTable s).map Prod.snd

/-- A reader and the text it starts from. -/
inductive Call
  | filter (input : String)
  | fieldName (input : String)
  | operatorName (t : Table) (input : String)
  | alternatives (s : List Char)
  | conjuncts (s : List Char)
  | factor (s : List Char)
  | comparison (s : List Char)
  | field (s : List Char)
  | path (s : List Char)
  | literal (s : List Char)
  | items (start s : List Char)
  | quoted (s : List Char)
  | word (s : List Char)
  | connective (op : Connective) (s : List Char)
  | spelling (t : Table) (s : List Char)
  | layout (s : List Char)

/-- The text that a call starts from. -/
def Call.place : Call → List Char
  | filter input | fieldName input | operatorName _ input => input.toList
  | alternatives s | conjuncts s | factor s | comparison s | field s | path s | literal s
  | items _ s | quoted s | word s | connective _ s | spelling _ s | layout s => s

/-- The place that an error names. -/
def ParseError.place? : ParseError → Option (List Char)
  | .located _ rest => some rest
  | _ => none

section endings

variable {α : Type} {s : List Char}

def endingOf (r : Except ParseError (Scanned α s)) : Ending :=
  (r.map Scanned.rest).mapError ParseError.place?

/-- The ending of a reader that reads to the end of the text. -/
def endingOfWhole (r : Except ParseError α) : Ending :=
  (r.map fun _ => []).mapError ParseError.place?

def endingOf? : Option (List Char) → Ending
  | some rest => .ok rest
  | none => .error none

@[simp] theorem endingOf_ok (r : Scanned α s) : endingOf (.ok r) = .ok r.rest := rfl

@[simp] theorem endingOf_error (e : ParseError) :
    endingOf (.error e : Except ParseError (Scanned α s)) = .error e.place? := rfl

@[simp] theorem endingOf?_some (rest : List Char) : endingOf? (some rest) = .ok rest := rfl

@[simp] theorem endingOf?_none : endingOf? none = .error none := rfl

/-- What is made of the value does not change where the reader ends. -/
theorem endingOf_map {β : Type} {t : List Char} {r : Except ParseError (Scanned α t)}
    {f : Scanned α t → Scanned β s} (h : ∀ x, (f x).rest = x.rest) :
    endingOf (r.map f) = endingOf r := by
  cases r with
  | error e => rfl
  | ok x => exact congrArg Except.ok (h x)

theorem endingOf_bind_pure {β : Type} {t : List Char} {r : Except ParseError (Scanned α t)}
    {f : Scanned α t → Scanned β s} (h : ∀ x, (f x).rest = x.rest) :
    endingOf (r >>= fun x => pure (f x)) = endingOf r :=
  endingOf_map h

theorem ok_bind {ε β : Type} (a : α) (f : α → Except ε β) : (Except.ok a >>= f) = f a := rfl

end endings

def Call.ending : Call → Ending
  | filter input => endingOfWhole (parse input)
  | fieldName input => endingOfWhole (Field.parse input)
  | operatorName .connectives input => endingOfWhole (Connective.parse input)
  | operatorName .relations input => endingOfWhole (Relation.parse input)
  | alternatives s => endingOf (scanAlternatives s)
  | conjuncts s => endingOf (scanConjuncts s)
  | factor s => endingOf (scanFactor s)
  | comparison s => endingOf (scanComparison s)
  | field s => endingOf (scanField s)
  | path s => ((scanPath s).map Scanned.rest).mapError some
  | literal s => endingOf (scanLiteral s)
  | items start s => endingOf (scanItems start s)
  | quoted s => endingOf? ((splitQuoted s).map Prod.snd)
  | word s => endingOf (scanWord s)
  | connective op s => endingOf? (scanConnective? op s)
  | spelling t s => endingOf? (t.after? s)
  | layout s => .ok (skipLayout s)

/-! ### Scripts -/

/-- What is left to do in a call: to end, or to call a reader and to go on by how that ends. -/
inductive Script
  | stop (e : Ending)
  | call (c : Call) (next : Ending → Script)

namespace Script

/-- Goes on where the call ended; its failure is passed on. -/
def andThen (c : Call) (next : List Char → Script) : Script :=
  .call c fun
    | .ok rest => next rest
    | .error e => .stop (.error e)

/-- The ending of a script whose calls end as given. -/
def run (ends : Call → Ending) : Script → Ending
  | stop e => e
  | call c next => (next (ends c)).run ends

/-- The calls that a script makes, in order. -/
def calls (ends : Call → Ending) : Script → List Call
  | stop _ => []
  | call c next => c :: (next (ends c)).calls ends

/-- Nothing but layout may be left. -/
def toEnd (s : List Char) : Script :=
  .andThen (.layout s) fun rest => .stop (if rest = [] then .ok [] else .error (some rest))

/-- Operands with a connective between them; `again` reads what follows a connective. -/
def sequence (op : Connective) (operand : Call) (again : List Char → Call) : Script :=
  andThen operand fun rest =>
    call (.connective op rest) fun
      | .ok more => call (again more) stop
      | .error _ => stop (.ok rest)

@[simp] theorem run_stop (ends : Call → Ending) (e : Ending) : (stop e).run ends = e := rfl

@[simp] theorem run_call (ends : Call → Ending) (c : Call) (next : Ending → Script) :
    (call c next).run ends = (next (ends c)).run ends := rfl

@[simp] theorem run_andThen (ends : Call → Ending) (c : Call) (next : List Char → Script) :
    (andThen c next).run ends = ends c >>= fun rest => (next rest).run ends := by
  rw [andThen, run]
  cases ends c <;> rfl

end Script

/-- The comparison in front is well formed, but its value does not fit its relation. -/
def misfits (s : List Char) : Bool :=
  match scanComparison s with
  | .error (.misfit _) => true
  | _ => false

open Script in
def Call.script : Call → Script
  | filter input =>
    if isBlankText input then stop (.error none) else andThen (alternatives input.toList) toEnd
  | fieldName input =>
    andThen (layout input.toList) fun s =>
      call (connective .not s) fun
        | .ok rest => andThen (layout rest) fun t => andThen (field t) toEnd
        | .error _ => andThen (field s) toEnd
  | operatorName t input =>
    andThen (layout input.toList) fun s =>
      call (spelling t s) fun
        | .ok rest => toEnd rest
        | .error _ => stop (.error (some s))
  | alternatives s => sequence .or (conjuncts s) alternatives
  | conjuncts s => sequence .and (factor s) conjuncts
  | factor s =>
    call (connective .not s) fun
      | .ok rest => call (factor rest) stop
      | .error _ => andThen (layout s) fun
        | '(' :: inner => andThen (alternatives inner) fun rest => andThen (layout rest) fun
          | ')' :: after => stop (.ok after)
          | [] => stop (.error (some ('(' :: inner)))
          | other => stop (.error (some other))
        | other => call (comparison other) stop
  | comparison s =>
    if s = [] then stop (.error (some s))
    else
      andThen (field s) fun rest => andThen (layout rest) fun operator =>
        call (spelling .relations operator) fun
          | .ok rest => andThen (layout rest) fun value => andThen (literal value) fun after =>
            stop (if misfits s then .error none else .ok after)
          | .error _ => stop (.error (some operator))
  | field s => call (path s) stop
  | path s =>
    match s with
    | [] => stop (.error (some []))
    | c :: cs =>
      if isNameStart c then
        match cs.dropWhile isNamePart with
        | '.' :: rest => call (path rest) stop
        | rest => stop (.ok rest)
      else stop (.error (some (c :: cs)))
  | literal s =>
    match s with
    | '"' :: cs => call (quoted cs) fun
      | .ok rest => stop (.ok rest)
      | .error _ => stop (.error (some ('"' :: cs)))
    | '[' :: cs => andThen (layout cs) fun
      | ']' :: rest => stop (.ok rest)
      | rest => call (items ('[' :: cs) rest) stop
    | s => call (word s) stop
  | items start s => andThen (layout s) fun
    | [] => stop (.error (some start))
    | c :: cs => andThen (literal (c :: cs)) fun rest => andThen (layout rest) fun
      | ',' :: more => call (items start more) stop
      | ']' :: after => stop (.ok after)
      | [] => stop (.error (some start))
      | other => stop (.error (some other))
  | quoted s =>
    match s with
    | [] => stop (.error none)
    | '"' :: rest => stop (.ok rest)
    | '\\' :: '"' :: rest => call (quoted rest) stop
    | '\\' :: '\\' :: rest => call (quoted rest) stop
    | _ :: rest => call (quoted rest) stop
  | word s =>
    stop (if (splitWord s).1 = [] ∨ isConnectiveWord (splitWord s).1 = true ∨
        (classify (splitWord s).1).isOk = false then .error (some s) else .ok (splitWord s).2)
  | connective op s =>
    andThen (layout s) fun rest =>
      call (spelling .connectives rest) fun
        | .ok after =>
          stop (if (Alias.first? connectiveTable rest).any (·.1.operator = op) then .ok after
            else .error none)
        | .error _ => stop (.error none)
  | spelling t s => stop (endingOf? (t.after? s))
  | layout s => stop (.ok (skipLayout s))

/-- The calls that a call makes, in order. -/
def Call.calls (c : Call) : List Call := c.script.calls Call.ending

/-! ### Readers end as their scripts do -/

namespace Call

theorem run_toEnd (s : List Char) : (Script.toEnd s).run ending =
    if skipLayout s = [] then .ok [] else .error (some (skipLayout s)) := by
  simp only [Script.toEnd, Script.run_andThen, ending, ok_bind, Script.run_stop]

theorem ending_filter (input : String) :
    (filter input).ending = (filter input).script.run ending := by
  rw [ending, parse, script]
  cases isBlankText input with
  | true => rfl
  | false =>
    simp only [Bool.false_eq_true, if_false, Script.run_andThen, run_toEnd, ending]
    cases scanAlternatives input.toList with
    | error e => rfl
    | ok filters =>
      simp only [ok_bind, endingOf_ok]
      split
      · next hrest => rw [hrest]; rfl
      · next hrest => rw [hrest]; rfl
      · next hnil _ => rw [if_neg hnil]; rfl

theorem endingOfWhole_parseOperator {ω : Type} (table : List (Alias ω)) (missing : Problem)
    (input : String) : endingOfWhole (parseOperator table missing input) =
      match Alias.first? table (skipLayout input.toList) with
      | some found => (Script.toEnd found.2).run ending
      | none => .error (some (skipLayout input.toList)) := by
  rw [parseOperator]
  cases Alias.first? table (skipLayout input.toList) with
  | none => rfl
  | some found =>
    simp only [run_toEnd]
    split
    · next hrest => rw [if_pos hrest]; rfl
    · next hrest => rw [if_neg hrest]; rfl

theorem ending_operatorName (t : Table) (input : String) :
    (operatorName t input).ending = (operatorName t input).script.run ending := by
  cases t with
  | connectives =>
    simp only [script, Script.run_andThen, Script.run_call, ok_bind, ending, Table.after?,
      Connective.parse, endingOfWhole_parseOperator]
    cases Alias.first? connectiveTable (skipLayout input.toList) <;> rfl
  | relations =>
    simp only [script, Script.run_andThen, Script.run_call, ok_bind, ending, Table.after?,
      Relation.parse, endingOfWhole_parseOperator]
    cases Alias.first? relationTable (skipLayout input.toList) <;> rfl

theorem endingOfWhole_field (s : List Char) (negated : Bool) :
    endingOfWhole (do
      let field ← scanField s
      match skipLayout field.rest with
      | [] => return ⟨field.value, negated⟩
      | rest => .error (.located .unexpectedAfterField rest) : Except ParseError Field) =
    (Script.andThen (field s) Script.toEnd).run ending := by
  simp only [Script.run_andThen, run_toEnd, ending]
  cases scanField s with
  | error e => rfl
  | ok field =>
    simp only [ok_bind, endingOf_ok]
    split
    · next hrest => rw [if_pos hrest]; rfl
    · next hrest => rw [if_neg hrest]; rfl

theorem ending_fieldName (input : String) :
    (fieldName input).ending = (fieldName input).script.run ending := by
  rw [ending, Field.parse, script, Script.run_andThen]
  simp only [ending, ok_bind, Script.run_call]
  cases scanConnective? .not (skipLayout input.toList) with
  | some rest => exact endingOfWhole_field (skipLayout rest) true
  | none => exact endingOfWhole_field (skipLayout input.toList) false

theorem ending_alternatives (s : List Char) :
    (alternatives s).ending = (alternatives s).script.run ending := by
  simp only [script, Script.sequence, Script.run_andThen, Script.run_call, ending]
  rw [scanAlternatives]
  cases scanConjuncts s with
  | error e => rfl
  | ok first =>
    simp only [ok_bind, endingOf_ok]
    split
    · next hor => rw [hor]; rfl
    · next rest hor =>
      simp only [hor]
      exact endingOf_bind_pure fun _ => rfl

theorem ending_conjuncts (s : List Char) :
    (conjuncts s).ending = (conjuncts s).script.run ending := by
  simp only [script, Script.sequence, Script.run_andThen, Script.run_call, ending]
  rw [scanConjuncts]
  cases scanFactor s with
  | error e => rfl
  | ok first =>
    simp only [ok_bind, endingOf_ok]
    split
    · next hand => rw [hand]; rfl
    · next rest hand =>
      simp only [hand]
      exact endingOf_bind_pure fun _ => rfl

theorem ending_factor (s : List Char) : (factor s).ending = (factor s).script.run ending := by
  simp only [script, Script.run_call, ending]
  rw [scanFactor]
  split
  · next rest hnot =>
    simp only [hnot]
    exact endingOf_map fun _ => rfl
  · next hnot =>
    simp only [hnot, endingOf?_none, Script.run_andThen, ending, ok_bind]
    split
    · next inner hopen =>
      simp only [hopen, Script.run_andThen, ending, ok_bind]
      cases scanAlternatives inner with
      | error e => rfl
      | ok filters =>
        simp only [ok_bind, endingOf_ok]
        split
        · next rest hclose => simp only [hclose]; rfl
        · next hclose => simp only [hclose]; rfl
        · next hother hnil =>
          split
          · next rest hclose => exact absurd hclose (hother rest)
          · next hclose => exact absurd hclose hnil
          · rfl
    · next hother =>
      split
      · next inner hopen => exact absurd hopen (hother inner)
      · exact endingOf_map fun _ => rfl

/-- What is left to check of a comparison when all of it is read. -/
theorem scanComparison_of_reads {s rest : List Char} {field : Scanned (List String) s}
    {a : Alias Relation} {value : Scanned Literal (skipLayout rest)} (hs : s ≠ [])
    (hfield : scanField s = .ok field)
    (hoperator : Alias.first? relationTable (skipLayout field.rest) = some (a, rest))
    (hvalue : scanLiteral (skipLayout rest) = .ok value) :
    endingOf (scanComparison s) = if misfits s then .error none else .ok value.rest := by
  unfold misfits
  generalize hr : scanComparison s = r
  rw [scanComparison, if_neg hs, hfield] at hr
  simp only [ok_bind] at hr
  split at hr
  · next hnone => rw [hoperator] at hnone; cases hnone
  · next hsome =>
    rw [hoperator] at hsome
    cases hsome
    rw [hvalue, ok_bind] at hr
    split at hr <;> subst hr <;> rfl

theorem ending_comparison (s : List Char) :
    (comparison s).ending = (comparison s).script.run ending := by
  simp only [script, ending]
  by_cases hs : s = []
  · subst hs
    rfl
  simp only [if_neg hs, Script.run_andThen, ending]
  cases hfield : scanField s with
  | error e =>
    rw [scanComparison, if_neg hs, hfield]
    rfl
  | ok field =>
    simp only [ok_bind, endingOf_ok, Script.run_call, ending, Table.after?]
    cases hoperator : Alias.first? relationTable (skipLayout field.rest) with
    | none =>
      rw [scanComparison, if_neg hs, hfield]
      simp only [ok_bind]
      split
      · split
        · next hnil => rw [hnil]; rfl
        · rfl
      · next hsome => rw [hoperator] at hsome; cases hsome
    | some found =>
      obtain ⟨a, rest⟩ := found
      simp only [Option.map_some, endingOf?_some, Script.run_andThen, ending, ok_bind]
      cases hvalue : scanLiteral (skipLayout rest) with
      | error e =>
        rw [scanComparison, if_neg hs, hfield]
        simp only [ok_bind]
        split
        · next hnone => rw [hoperator] at hnone; cases hnone
        · next hsome =>
          rw [hoperator] at hsome
          cases hsome
          rw [hvalue]
          rfl
      | ok value => exact scanComparison_of_reads hs hfield hoperator hvalue

theorem ending_field (s : List Char) : (field s).ending = (field s).script.run ending := by
  simp only [script, Script.run_call, Script.run_stop, ending]
  rw [scanField]
  cases scanPath s with
  | ok r => rfl
  | error rest =>
    simp only
    split <;> rfl

theorem ending_path (s : List Char) : (path s).ending = (path s).script.run ending := by
  cases s with
  | nil =>
    rw [ending, scanPath]
    rfl
  | cons c cs =>
    simp only [script, ending]
    rw [scanPath]
    cases hc : isNameStart c with
    | false => rfl
    | true =>
      simp only [if_true]
      split
      · next rest hdot =>
        simp only [hdot, Script.run_call, Script.run_stop, ending]
        cases scanPath rest <;> rfl
      · next hother =>
        split
        · next rest hdot => exact absurd hdot (hother rest)
        · rfl

theorem ending_literal (s : List Char) : (literal s).ending = (literal s).script.run ending := by
  simp only [script, ending]
  split
  · next cs =>
    rw [scanLiteral]
    simp only [Script.run_call, ending]
    split
    · next text rest hquoted => simp only [hquoted]; rfl
    · next hquoted => simp only [hquoted]; rfl
  · next cs =>
    rw [scanLiteral]
    simp only [Script.run_andThen, ending, ok_bind]
    split
    · next rest hclose => simp only [hclose]; rfl
    · next hother =>
      split
      · next rest hclose => exact absurd hclose (hother rest)
      · exact endingOf_map fun _ => rfl
  · next hquote hbracket =>
    rw [scanLiteral]
    · rfl
    · exact hquote
    · exact hbracket

theorem ending_items (start s : List Char) :
    (items start s).ending = (items start s).script.run ending := by
  simp only [script, Script.run_andThen, ending, ok_bind]
  rw [scanItems]
  split
  · next hnil => simp only [hnil]; rfl
  · next c cs hcons =>
    simp only [hcons, Script.run_andThen, ending, ok_bind]
    cases scanLiteral (c :: cs) with
    | error e => rfl
    | ok item =>
      simp only [ok_bind, endingOf_ok]
      split
      · next rest hcomma =>
        simp only [hcomma]
        exact endingOf_bind_pure fun _ => rfl
      · next rest hclose => simp only [hclose]; rfl
      · next hnil => simp only [hnil]; rfl
      · next hcomma hclose hnil =>
        split
        · next rest h => exact absurd h (hcomma rest)
        · next rest h => exact absurd h (hclose rest)
        · next h => exact absurd h hnil
        · rfl

theorem ending_quoted (s : List Char) : (quoted s).ending = (quoted s).script.run ending := by
  have hmore (rest : List Char) (f : List Char × List Char → List Char × List Char)
      (hf : ∀ r, (f r).2 = r.2) :
      endingOf? (((splitQuoted rest).map f).map Prod.snd) =
        endingOf? ((splitQuoted rest).map Prod.snd) := by
    cases splitQuoted rest with
    | none => rfl
    | some r => exact congrArg Except.ok (hf r)
  simp only [script, ending]
  split <;> rw [splitQuoted]
  · rfl
  · rfl
  · exact hmore _ _ fun _ => rfl
  · exact hmore _ _ fun _ => rfl
  · exact hmore _ _ fun _ => rfl
  all_goals assumption

theorem ending_word (s : List Char) : (word s).ending = (word s).script.run ending := by
  simp only [script, Script.run_stop, ending]
  rw [scanWord]
  split
  · next hnil => rw [if_pos (.inl hnil)]; rfl
  · next c cs hcons =>
    simp only [hcons]
    split
    · next hop => rw [if_pos (.inr (.inl hop))]; rfl
    · next hop =>
      split
      · next e hclass => simp [hclass, Except.isOk, Except.toBool, ParseError.place?]
      · next v hclass => simp [hclass, hop, Except.isOk, Except.toBool]

theorem ending_connective (op : Connective) (s : List Char) :
    (connective op s).ending = (connective op s).script.run ending := by
  simp only [script, Script.run_andThen, Script.run_call, ending, ok_bind, Table.after?]
  rw [scanConnective?]
  cases Alias.first? connectiveTable (skipLayout s) with
  | none => rfl
  | some found =>
    by_cases hop : found.1.operator = op <;> simp [hop]

/-- Every call ends as its script does when the calls in it end as they do. -/
theorem ending_eq_run (c : Call) : c.ending = c.script.run ending := by
  cases c with
  | filter input => exact ending_filter input
  | fieldName input => exact ending_fieldName input
  | operatorName t input => exact ending_operatorName t input
  | alternatives s => exact ending_alternatives s
  | conjuncts s => exact ending_conjuncts s
  | factor s => exact ending_factor s
  | comparison s => exact ending_comparison s
  | field s => exact ending_field s
  | path s => exact ending_path s
  | literal s => exact ending_literal s
  | items start s => exact ending_items start s
  | quoted s => exact ending_quoted s
  | word s => exact ending_word s
  | connective op s => exact ending_connective op s
  | spelling t s => rfl
  | layout s => rfl

end Call

end SearchGateway.Filter
