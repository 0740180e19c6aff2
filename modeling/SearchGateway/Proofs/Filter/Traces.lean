import SearchGateway.Proofs.Filter.Calls

/-!
# What the calls of a call read

A call reads its text in order: the readers it calls read one part after another, and between two of
them it takes at most one piece of the text itself, a bracket or a comma, a name, a bare word
(`Call.Takes`). It ends where its last part does, with the failure of the last reader it called, or
with one of its own (`Call.Stops`). `Call.Trace` says so of a list of calls, and the calls read off
the scripts are such a list (`Call.trace_calls`). Most readers take nothing themselves, so that they
read no text but what the readers they call do.
-/

namespace SearchGateway.Filter

open SearchGateway.Text

theorem Alias.exists_of_first? {ω : Type} {t : List (Alias ω)} {s rest : List Char}
    {a : Alias ω} (h : Alias.first? t s = some (a, rest)) : a ∈ t ∧ s = a.text ++ rest := by
  induction t with
  | nil => cases h
  | cons b t ih =>
    rw [Alias.first?] at h
    split at h
    · next r hr =>
      cases h
      exact ⟨List.mem_cons_self, (Alias.after?_eq_some_iff.1 hr).1⟩
    · exact ⟨List.mem_cons_of_mem b (ih h).1, (ih h).2⟩

namespace Call

/-- The pieces of the text that a reader takes by itself, between two calls. -/
inductive Takes : Call → List Char → Prop
  | nothing (c : Call) : Takes c []
  | parenthesis (s : List Char) {a : Char} : a ∈ ['(', ')'] → Takes (factor s) [a]
  | mark (s : List Char) {a : Char} : a ∈ ['"', '[', ']'] → Takes (literal s) [a]
  | separator (start s : List Char) {a : Char} : a ∈ [',', ']'] → Takes (items start s) [a]
  | name (s dot : List Char) {a : Char} {name : List Char} : isNameStart a = true →
      (∀ b ∈ name, isNamePart b = true) → dot ∈ [[], ['.']] → Takes (path s) (a :: name ++ dot)
  | char (s : List Char) (a : Char) : Takes (quoted s) [a]
  | escape (s : List Char) {a : Char} : a ∈ ['"', '\\'] → Takes (quoted s) ['\\', a]
  | word (s : List Char) : Takes (word s) (splitWord s).1
  | connective (s : List Char) {a : Alias Connective} : a ∈ connectiveTable →
      Takes (spelling .connectives s) a.text
  | relation (s : List Char) {a : Alias Relation} : a ∈ relationTable →
      Takes (spelling .relations s) a.text
  | blanks (s : List Char) {blanks : List Char} : blanks ⊆ Filter.layout → Takes (layout s) blanks

/-- From one place to the next there is at most one piece that the reader takes. -/
def Moves (c : Call) (s t : List Char) : Prop := ∃ piece, c.Takes piece ∧ s = piece ++ t

/-- How a call may end at a place of its own accord. -/
inductive Stops : Call → List Char → Ending → Prop
  | read (c : Call) (s : List Char) : Stops c s (.ok s)
  | unexpected (c : Call) (s : List Char) : Stops c s (.error (some s))
  | blank {input : String} : isBlankText input = true →
      Stops (filter input) input.toList (.error none)
  | misfit {s t : List Char} : misfits s = true → Stops (comparison s) t (.error none)
  | unclosedParenthesis {s inner : List Char} : skipLayout s = '(' :: inner →
      Stops (factor s) [] (.error (some ('(' :: inner)))
  | unclosedList (start s : List Char) : Stops (items start s) [] (.error (some start))
  | unclosedText {s : List Char} : splitQuoted s = none →
      Stops (literal ('"' :: s)) s (.error (some ('"' :: s)))
  | unended (s : List Char) : Stops (quoted s) [] (.error none)
  | unspelled {t : Table} {s : List Char} : t.after? s = none →
      Stops (spelling t s) s (.error none)
  | otherwise {op : Connective} {s t : List Char} :
      (∀ found ∈ Alias.first? connectiveTable (skipLayout s), found.1.operator ≠ op) →
      Stops (connective op s) t (.error none)

/-- The calls of a call, from a place of the text on, and its ending: each call starts at the place
that the last one came to, and one that fails has come to no other than its own. -/
inductive Trace (c : Call) : List Char → List Call → Ending → Prop
  | stops {s t : List Char} {e : Ending} : c.Moves s t → c.Stops t e → Trace c s [] e
  | reads {s t : List Char} {c' : Call} {cs : List Call} {e : Ending} : c.Moves s c'.place →
      c'.ending = .ok t → Trace c t cs e → Trace c s (c' :: cs) e
  | refused {s : List Char} {c' : Call} {cs : List Call} {e : Ending} {p : Option (List Char)} :
      c.Moves s c'.place → c'.ending = .error p → Trace c c'.place cs e → Trace c s (c' :: cs) e
  | fails {s : List Char} {c' : Call} {p : Option (List Char)} : c.Moves s c'.place →
      c'.ending = .error p → Trace c s [c'] (.error p)

variable {c c' : Call} {s t : List Char}

theorem Moves.stay (c : Call) (s : List Char) : c.Moves s s := ⟨[], .nothing c, rfl⟩

theorem Moves.step {a : Char} (h : c.Takes [a]) (s : List Char) : c.Moves (a :: s) s :=
  ⟨[a], h, rfl⟩

end Call

namespace Script

open Call

variable {c c' : Call} {s t : List Char}

/-- The calls of a script, and its ending, are a trace of the call from a place on. -/
def Traced (c : Call) (s : List Char) (script : Script) : Prop :=
  c.Trace s (script.calls Call.ending) (script.run Call.ending)

theorem traced_stop {e : Ending} (hmoves : c.Moves s t) (h : c.Stops t e) : (stop e).Traced c s :=
  .stops hmoves h

theorem traced_read (h : c.Moves s t) : (stop (.ok t)).Traced c s := .stops h (.read c t)

theorem traced_unexpected (c : Call) (s : List Char) : (stop (.error (some s))).Traced c s :=
  .stops (.stay c s) (.unexpected c s)

theorem traced_call {next : Ending → Script} (hmoves : c.Moves s c'.place)
    (hok : ∀ t, c'.ending = .ok t → (next (.ok t)).Traced c t)
    (herror : ∀ p, c'.ending = .error p → (next (.error p)).Traced c c'.place) :
    (call c' next).Traced c s := by
  unfold Traced
  rw [calls, run]
  cases hending : c'.ending with
  | ok t => exact .reads hmoves hending (hok t hending)
  | error p => exact .refused hmoves hending (herror p hending)

theorem traced_andThen {next : List Char → Script} (hmoves : c.Moves s c'.place)
    (hnext : ∀ t, c'.ending = .ok t → (next t).Traced c t) : (andThen c' next).Traced c s := by
  unfold Traced
  rw [andThen, calls, run]
  cases hending : c'.ending with
  | ok t => exact .reads hmoves hending (hnext t hending)
  | error p => exact .fails hmoves hending

theorem traced_tail (hmoves : c.Moves s c'.place) : (call c' stop).Traced c s := by
  unfold Traced
  rw [calls, run]
  cases hending : c'.ending with
  | ok t => exact .reads hmoves hending (.stops (.stay c t) (.read c t))
  | error p => exact .fails hmoves hending

theorem traced_toEnd (c : Call) (s : List Char) : (toEnd s).Traced c s := by
  refine traced_andThen (.stay c s) fun t _ => ?_
  split
  · next ht => exact ht ▸ traced_read (.stay c t)
  · exact traced_unexpected c t

theorem traced_sequence {op : Connective} {again : List Char → Call} (hplace : c'.place = s)
    (hagain : ∀ t, (again t).place = t) : (sequence op c' again).Traced c s := by
  subst hplace
  refine traced_andThen (.stay c _) fun rest _ => ?_
  refine traced_call (.stay c rest) (fun more _ => ?_) fun p _ => traced_read (.stay c rest)
  refine traced_tail ?_
  rw [hagain]
  exact .stay c more

end Script

namespace Call

open Script

/-! ### The scripts read their text in order -/

theorem traced_filter (input : String) :
    (filter input).script.Traced (filter input) input.toList := by
  rw [script]
  split
  · next hblank => exact traced_stop (.stay _ _) (.blank hblank)
  · exact traced_andThen (.stay _ _) fun t _ => traced_toEnd _ t

theorem traced_fieldName (input : String) :
    (fieldName input).script.Traced (fieldName input) input.toList := by
  refine traced_andThen (.stay _ _) fun s _ => ?_
  refine traced_call (.stay _ _) (fun rest _ => ?_) fun p _ => ?_
  · refine traced_andThen (.stay _ _) fun t _ => ?_
    exact traced_andThen (.stay _ _) fun u _ => traced_toEnd _ u
  · exact traced_andThen (.stay _ _) fun u _ => traced_toEnd _ u

theorem traced_operatorName (t : Table) (input : String) :
    (operatorName t input).script.Traced (operatorName t input) input.toList := by
  refine traced_andThen (.stay _ _) fun s _ => ?_
  exact traced_call (.stay _ _) (fun rest _ => traced_toEnd _ rest) fun p _ => traced_unexpected _ s

theorem traced_factor (s : List Char) : (factor s).script.Traced (factor s) s := by
  refine traced_call (.stay _ _) (fun rest _ => traced_tail (.stay _ _)) fun p _ => ?_
  refine traced_andThen (.stay _ _) fun t ht => ?_
  split
  · next inner =>
    have hopen : skipLayout s = '(' :: inner := Except.ok.inj ht
    refine traced_andThen (.step (.parenthesis s (by simp)) _) fun rest _ => ?_
    refine traced_andThen (.stay _ _) fun u _ => ?_
    split
    · exact traced_read (.step (.parenthesis s (by simp)) _)
    · exact traced_stop (.stay _ _) (.unclosedParenthesis hopen)
    · exact traced_unexpected _ _
  · exact traced_tail (.stay _ _)

theorem traced_comparison (s : List Char) : (comparison s).script.Traced (comparison s) s := by
  rw [script]
  split
  · exact traced_unexpected _ s
  · refine traced_andThen (.stay _ _) fun rest _ => traced_andThen (.stay _ _) fun operator _ => ?_
    refine traced_call (.stay _ _) (fun behind _ => ?_) fun p _ => traced_unexpected _ operator
    refine traced_andThen (.stay _ _) fun value _ => traced_andThen (.stay _ _) fun after _ => ?_
    split
    · next hmisfit => exact traced_stop (.stay _ _) (.misfit hmisfit)
    · exact traced_read (.stay _ _)

theorem traced_path (s : List Char) : (path s).script.Traced (path s) s := by
  simp only [script]
  split
  · exact traced_unexpected _ []
  · next a cs =>
    split
    · next ha =>
      have hname : ∀ b ∈ cs.takeWhile isNamePart, isNamePart b = true :=
        fun b hb => List.mem_takeWhile_imp hb
      have hcs := List.takeWhile_append_dropWhile (p := isNamePart) (l := cs)
      split
      · next rest hdot =>
        refine traced_tail ⟨_, .name _ ['.'] ha hname (by simp), ?_⟩
        rw [hdot] at hcs
        simp [place, hcs]
      · refine traced_read ⟨_, .name _ [] ha hname (by simp), ?_⟩
        rw [List.append_nil, List.cons_append, hcs]
    · exact traced_unexpected _ _

theorem traced_literal (s : List Char) : (literal s).script.Traced (literal s) s := by
  simp only [script]
  split
  · next cs =>
    refine traced_call (.step (.mark _ (by simp)) _) (fun rest _ => traced_read (.stay _ _)) ?_
    intro p hp
    refine traced_stop (.stay _ _) (.unclosedText ?_)
    rw [ending] at hp
    cases hquoted : splitQuoted cs with
    | none => rfl
    | some r => rw [hquoted] at hp; cases hp
  · next cs =>
    refine traced_andThen (.step (.mark _ (by simp)) _) fun t _ => ?_
    split
    · exact traced_read (.step (.mark _ (by simp)) _)
    · exact traced_tail (.stay _ _)
  · exact traced_tail (.stay _ _)

theorem traced_items (start s : List Char) :
    (items start s).script.Traced (items start s) s := by
  refine traced_andThen (.stay _ _) fun t _ => ?_
  split
  · exact traced_stop (.stay _ _) (.unclosedList start s)
  · refine traced_andThen (.stay _ _) fun rest _ => traced_andThen (.stay _ _) fun u _ => ?_
    split
    · exact traced_tail (.step (.separator _ _ (by simp)) _)
    · exact traced_read (.step (.separator _ _ (by simp)) _)
    · exact traced_stop (.stay _ _) (.unclosedList start s)
    · exact traced_unexpected _ _

theorem traced_quoted (s : List Char) : (quoted s).script.Traced (quoted s) s := by
  simp only [script]
  split
  · exact traced_stop (.stay _ _) (.unended _)
  · exact traced_read (.step (.char _ _) _)
  · exact traced_tail ⟨_, .escape _ (by simp), rfl⟩
  · exact traced_tail ⟨_, .escape _ (by simp), rfl⟩
  · exact traced_tail (.step (.char _ _) _)

theorem traced_word (s : List Char) : (word s).script.Traced (word s) s := by
  rw [script]
  split
  · exact traced_unexpected _ s
  · exact traced_read ⟨_, .word s, (splitWord_eq_iff.1 rfl).1⟩

theorem traced_connective (op : Connective) (s : List Char) :
    (connective op s).script.Traced (connective op s) s := by
  refine traced_andThen (.stay _ _) fun rest hrest => ?_
  cases (Except.ok.inj hrest : skipLayout s = rest)
  refine traced_call (.stay _ _) (fun after _ => ?_) fun p hp => ?_
  · show (stop (if _ then .ok after else .error none)).Traced _ after
    split
    · exact traced_read (.stay _ _)
    · next hother =>
      refine traced_stop (.stay _ after) (.otherwise fun found hfound => ?_)
      rw [hfound] at hother
      simpa using hother
  · refine traced_stop (.stay _ (skipLayout s)) (.otherwise fun found hfound => ?_)
    rw [ending, Table.after?, hfound] at hp
    cases hp

theorem traced_spelling (t : Table) (s : List Char) :
    (spelling t s).script.Traced (spelling t s) s := by
  have hfound {ω : Type} {table : List (Alias ω)}
      (htable : t.after? s = (Alias.first? table s).map Prod.snd)
      (htakes : ∀ a ∈ table, (spelling t s).Takes a.text) :
      (stop (endingOf? (t.after? s))).Traced (spelling t s) s := by
    cases hfirst : Alias.first? table s with
    | none =>
      rw [hfirst, Option.map_none] at htable
      rw [htable]
      exact traced_stop (.stay _ _) (.unspelled htable)
    | some found =>
      obtain ⟨hmem, hs⟩ := Alias.exists_of_first? hfirst
      rw [htable, hfirst]
      exact traced_read ⟨_, htakes _ hmem, hs⟩
  cases t with
  | connectives => exact hfound rfl fun a ha => .connective s ha
  | relations => exact hfound rfl fun a ha => .relation s ha

theorem traced_layout (s : List Char) : (layout s).script.Traced (layout s) s := by
  obtain ⟨blanks, hblanks, hs⟩ := skips_skipLayout s
  exact traced_read ⟨blanks, .blanks s hblanks, hs⟩

/-- The calls of every call read its text in order, up to where the call ends. -/
theorem trace_calls (c : Call) : c.Trace c.place c.calls c.ending := by
  rw [ending_eq_run]
  cases c with
  | filter input => exact traced_filter input
  | fieldName input => exact traced_fieldName input
  | operatorName t input => exact traced_operatorName t input
  | alternatives s => exact traced_sequence rfl fun _ => rfl
  | conjuncts s => exact traced_sequence rfl fun _ => rfl
  | factor s => exact traced_factor s
  | comparison s => exact traced_comparison s
  | field s => exact traced_tail (.stay _ _)
  | path s => exact traced_path s
  | literal s => exact traced_literal s
  | items start s => exact traced_items start s
  | quoted s => exact traced_quoted s
  | word s => exact traced_word s
  | connective op s => exact traced_connective op s
  | spelling t s => exact traced_spelling t s
  | layout s => exact traced_layout s

end Call

end SearchGateway.Filter
