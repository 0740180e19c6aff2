import SearchGateway.Stream

/-!
# What a stream did

A source gives its batches whatever becomes of them, so a stream is fed by the list of all batches
of its source (`writeFrom_eq`): `Sink.feed` gives the batches that were written, the one that was
refused, if any, and the writer after that.

`Sink.logged` keeps what was asked of a writer. The log of a stream is one write and one flush for
each batch that was written, and a refusal at most at the end; `writeTo_accounts` puts it next to
the number of records, the fault, and how often the source was asked. What a batch comes to is said
by its documents alone (`ndjson`).
-/

namespace SearchGateway

open SearchGateway.Backend (Hit)

/-! ## Sources -/

namespace Batches

variable {σ : Type} {b : Batches σ} {s s' : σ} {batch : List Hit}

theorem drain_of_none (h : b.next s = (none, s')) : b.drain s = ([], s') := by
  rw [drain]
  split
  · next he => rw [h] at he; cases he; rfl
  · next he => rw [h] at he; cases he

theorem drain_of_some (h : b.next s = (some batch, s')) :
    b.drain s = (batch :: (b.drain s').1, (b.drain s').2) := by
  rw [drain]
  split
  · next he => rw [h] at he; cases he
  · next he => rw [h] at he; cases he; rfl

/-- What holds when a source stops, and before a batch if after it, holds of every state. -/
theorem induction {motive : σ → Prop}
    (stop : ∀ s s', b.next s = (none, s') → motive s)
    (step : ∀ s batch s', b.next s = (some batch, s') → motive s' → motive s) (s : σ) :
    motive s := by
  induction h : b.left s using Nat.strongRecOn generalizing s with
  | ind n ih =>
    rcases hnext : b.next s with ⟨out, s'⟩
    cases out with
    | none => exact stop s s' hnext
    | some batch => exact step s batch s' hnext (ih _ (h ▸ b.left_lt s batch s' hnext) s' rfl)

/-- A source is asked once more than it has batches. -/
theorem after_length_drain (s : σ) : b.after ((b.drain s).1.length + 1) s = (b.drain s).2 := by
  induction s using b.induction with
  | stop s s' h =>
    rw [drain_of_none h]
    show (b.next s).2 = s'
    rw [h]
  | step s batch s' h ih =>
    rw [drain_of_some h]
    show b.after ((b.drain s').1.length + 1) (b.next s).2 = _
    rw [h, ih]

end Batches

namespace Stream

/-! ## Feeding a writer -/

variable {σ ω : Type}

/-- Writes batches until one is refused: those that were written, the refusal and the writer
after it. -/
def Sink.feed (k : Sink ω) : List (List Hit) → ω → List (List Hit) × Option (List Hit × Fault) × ω
  | [], w => ([], none, w)
  | batch :: more, w =>
    match k.put (lines batch) w with
    | (some f, w) => ([], some (batch, f), w)
    | (none, w) =>
      let (written, refused, w) := k.feed more (k.flushed w)
      (batch :: written, refused, w)

theorem Sink.feed_of_refused {k : Sink ω} {batch : List Hit} {w w' : ω} {f : Fault}
    (h : k.put (lines batch) w = (some f, w')) (more : List (List Hit)) :
    k.feed (batch :: more) w = ([], some (batch, f), w') := by
  rw [feed, h]

theorem Sink.feed_of_taken {k : Sink ω} {batch : List Hit} {w w' : ω}
    (h : k.put (lines batch) w = (none, w')) (more : List (List Hit)) :
    k.feed (batch :: more) w = (batch :: (k.feed more (k.flushed w')).1,
      (k.feed more (k.flushed w')).2) := by
  rw [feed, h]

/-- What was written is what came before the refusal. -/
theorem Sink.eq_append_of_feed {k : Sink ω} {batches written : List (List Hit)} {w w' : ω}
    {refused : Option (List Hit × Fault)} (h : k.feed batches w = (written, refused, w')) :
    match refused with
    | none => batches = written
    | some (batch, _) => ∃ more, batches = written ++ batch :: more := by
  induction batches generalizing written w with
  | nil =>
    cases h
    rfl
  | cons batch more ih =>
    rcases hput : k.put (lines batch) w with ⟨out, v⟩
    cases out with
    | some f =>
      rw [feed_of_refused hput] at h
      cases h
      exact ⟨more, rfl⟩
    | none =>
      rw [feed_of_taken hput] at h
      obtain ⟨rfl, hrest⟩ := Prod.mk.inj h
      have hmore := ih (Prod.ext rfl hrest)
      cases refused with
      | none => exact congrArg (batch :: ·) hmore
      | some r =>
        obtain ⟨rest, he⟩ := hmore
        exact ⟨rest, congrArg (batch :: ·) he⟩

section writeFrom

variable {b : Batches σ} {k : Sink ω} {records : Nat} {s s' : σ} {w w' : ω} {batch : List Hit}

theorem writeFrom_of_none (h : b.next s = (none, s')) :
    writeFrom b k records s w = (⟨records, b.fault s'⟩, s', w) := by
  rw [writeFrom]
  split
  · next he => rw [h] at he; cases he; rfl
  · next he => rw [h] at he; cases he

theorem writeFrom_of_some (h : b.next s = (some batch, s')) : writeFrom b k records s w =
    match k.put (lines batch) w with
    | (some f, w) => (⟨records, some f⟩, s', w)
    | (none, w) => writeFrom b k (records + batch.length) s' (k.flushed w) := by
  rw [writeFrom]
  split
  · next he => rw [h] at he; cases he
  · next he => rw [h] at he; cases he; rfl

end writeFrom

/-- A stream feeds its writer all batches of the source, and asks the source once more than there
were batches written. -/
theorem writeFrom_eq (b : Batches σ) (k : Sink ω) (records : Nat) (s : σ) (w : ω) :
    let fed := k.feed (b.drain s).1 w
    writeFrom b k records s w =
      (⟨records + fed.1.flatten.length, (fed.2.1.map (·.2)).or (b.fault (b.drain s).2)⟩,
        b.after (fed.1.length + 1) s, fed.2.2) := by
  induction s using b.induction generalizing records w with
  | stop s s' h =>
    rw [writeFrom_of_none h, Batches.drain_of_none h]
    show _ = (_, (b.next s).2, w)
    rw [h]
    rfl
  | step s batch s' h ih =>
    have hafter (n : Nat) : b.after (n + 1) s = b.after n s' := by
      show b.after n (b.next s).2 = _
      rw [h]
    rw [writeFrom_of_some h, Batches.drain_of_some h]
    rcases hput : k.put (lines batch) w with ⟨out, v⟩
    cases out with
    | some f =>
      rw [Sink.feed_of_refused hput]
      exact congrArg (fun t => (_, t, v)) (hafter 0).symm
    | none =>
      simp only [Sink.feed_of_taken hput, ih, List.flatten_cons, List.length_append,
        List.length_cons, Nat.add_assoc, hafter]

/-! ## The text of documents -/

/-- Documents on lines: the source of each, or an empty object if it has none, and a line feed. -/
def ndjson : List Hit → List Char
  | [] => []
  | h :: more =>
    (if h.source.getD [] = [] then "\x7b\x7d".toList else h.source.getD []) ++ '\n' :: ndjson more

theorem document_eq (h : Hit) : document h =
    if h.source.getD [] = [] then "\x7b\x7d".toList else h.source.getD [] := by
  obtain ⟨id, score, source⟩ := h
  rcases source with _ | _ | ⟨c, text⟩ <;> rfl

theorem lines_cons (h : Hit) (hits : List Hit) :
    lines (h :: hits) = document h ++ '\n' :: lines hits := by
  rw [lines, List.flatMap_cons, line, List.append_assoc]
  rfl

theorem lines_eq_ndjson (batch : List Hit) : lines batch = ndjson batch := by
  induction batch with
  | nil => rfl
  | cons h more ih => rw [lines_cons, document_eq, ih, ndjson]

/-! ## The log of a writer -/

/-- What was asked of a writer, and how it went. -/
inductive Action
  | wrote (text : List Char)
  | refused (text : List Char) (f : Fault)
  | flushed
  deriving DecidableEq

/-- The same writer with a log of what was asked of it. -/
def Sink.logged (k : Sink ω) : Sink (ω × List Action) where
  put text w :=
    let (f, v) := k.put text w.1
    (f, v, w.2 ++ [f.elim (.wrote text) (.refused text)])
  flush := k.flush.map fun flush w => (flush w.1, w.2 ++ [.flushed])

/-- The text of the writes that succeeded. -/
def accepted (log : List Action) : List Char :=
  log.flatMap fun
    | .wrote text => text
    | _ => []

/-- One write of all documents of a batch, and one flush after it if the writer can flush. -/
def Sink.actions (k : Sink ω) (batch : List Hit) : List Action :=
  .wrote (ndjson batch) :: if k.flush.isSome then [.flushed] else []

def refusal : Option (List Hit × Fault) → List Action
  | none => []
  | some (batch, f) => [.refused (ndjson batch) f]

theorem Sink.flushed_logged (k : Sink ω) (w : ω) (log : List Action) : k.logged.flushed (w, log) =
    (k.flushed w, log ++ if k.flush.isSome then [.flushed] else []) := by
  unfold Sink.flushed Sink.logged
  cases k.flush with
  | none => rw [Option.map_none, Option.isSome_none, if_neg Bool.false_ne_true, List.append_nil]
  | some flush => rfl

theorem Sink.feed_logged (k : Sink ω) (batches : List (List Hit)) (w : ω) (log : List Action) :
    let fed := k.feed batches w
    k.logged.feed batches (w, log) =
      (fed.1, fed.2.1, fed.2.2, log ++ (fed.1.flatMap k.actions ++ refusal fed.2.1)) := by
  induction batches generalizing w log with
  | nil => simp [feed, refusal]
  | cons batch more ih =>
    rcases hput : k.put (lines batch) w with ⟨out, v⟩
    have hlogged : k.logged.put (lines batch) (w, log) =
        (out, v, log ++ [out.elim (.wrote (lines batch)) (.refused (lines batch))]) := by
      simp only [logged, hput]
    cases out with
    | some f =>
      rw [feed_of_refused hput, feed_of_refused hlogged, lines_eq_ndjson]
      rfl
    | none =>
      rw [feed_of_taken hput, feed_of_taken hlogged, flushed_logged, ih]
      simp [actions, lines_eq_ndjson]

theorem accepted_append (log log' : List Action) :
    accepted (log ++ log') = accepted log ++ accepted log' := List.flatMap_append

theorem accepted_actions (k : Sink ω) (batches : List (List Hit)) :
    accepted (batches.flatMap k.actions) = lines batches.flatten := by
  have hbatch (batch : List Hit) : accepted (k.actions batch) = lines batch := by
    cases hflush : k.flush.isSome <;> simp [accepted, Sink.actions, hflush, lines_eq_ndjson]
  induction batches with
  | nil => rfl
  | cons batch batches ih =>
    rw [List.flatMap_cons, accepted_append, hbatch, ih, List.flatten_cons, lines, lines, lines,
      List.flatMap_append]

theorem accepted_refusal (refused : Option (List Hit × Fault)) :
    accepted (refusal refused) = [] := by
  cases refused <;> rfl

theorem writeTo_eq (b : Batches σ) (k : Sink ω) (s : σ) (w : ω) :
    let fed := k.feed (b.drain s).1 w
    writeTo b k s w =
      (⟨fed.1.flatten.length, (fed.2.1.map (·.2)).or (b.fault (b.drain s).2)⟩,
        b.after (fed.1.length + 1) s, fed.2.2) := by
  rw [writeTo, writeFrom_eq, Nat.zero_add]

/-- The log changes nothing, and gives a write and a flush for each batch up to the refusal. -/
theorem writeTo_logged (b : Batches σ) (k : Sink ω) (s : σ) (w : ω) :
    let fed := k.feed (b.drain s).1 w
    let ended := writeTo b k s w
    writeTo b k.logged s (w, []) =
      (ended.1, ended.2.1, ended.2.2, fed.1.flatMap k.actions ++ refusal fed.2.1) := by
  rw [writeTo_eq b k.logged, k.feed_logged, List.nil_append, writeTo_eq b k]

/-- The text that was accepted is that of the batches that were written. -/
theorem accepted_logged (b : Batches σ) (k : Sink ω) (s : σ) (w : ω) :
    accepted (writeTo b k.logged s (w, [])).2.2.2 = lines (k.feed (b.drain s).1 w).1.flatten := by
  rw [writeTo_logged, accepted_append, accepted_actions, accepted_refusal, List.append_nil]

/-- Whatever the writer does, a stream accounts for every batch of its source. The batches that were
written are the first of them, each by one write and one flush; the records are their documents, and
the text that was taken is that of these documents on lines. If all were written the stream ends as
the source did. If not, the next one was refused: the stream ends with the fault of that write and
has asked the source for no batch after it. The log changes nothing. -/
theorem writeTo_accounts (b : Batches σ) (k : Sink ω) (s : σ) (w : ω) :
    let ended := writeTo b k s w
    ∃ (written rest : List (List Hit)) (log : List Action), (b.drain s).1 = written ++ rest ∧
      writeTo b k.logged s (w, []) = (ended.1, ended.2.1, ended.2.2, log) ∧
      accepted log = ndjson written.flatten ∧ ended.1.records = written.flatten.length ∧
      (rest = [] ∧ log = written.flatMap k.actions ∧ ended.1.fault = b.fault (b.drain s).2 ∧
          ended.2.1 = (b.drain s).2 ∨
        ∃ batch more f, rest = batch :: more ∧
          log = written.flatMap k.actions ++ [.refused (ndjson batch) f] ∧
          ended.1.fault = some f ∧ ended.2.1 = b.after (written.length + 1) s) := by
  intro ended
  have hended : ended = _ := writeTo_eq b k s w
  have hlogged := writeTo_logged b k s w
  have haccepted := (accepted_logged b k s w).trans (lines_eq_ndjson _)
  rw [hlogged] at haccepted
  rcases hfed : k.feed (b.drain s).1 w with ⟨written, refused, w'⟩
  rw [hfed] at hended hlogged haccepted
  have hsplit := Sink.eq_append_of_feed hfed
  cases refused with
  | none =>
    refine ⟨written, [], _, by rw [hsplit, List.append_nil], hlogged, haccepted, by rw [hended],
      .inl ⟨rfl, List.append_nil _, by rw [hended]; rfl, ?_⟩⟩
    rw [hended, ← b.after_length_drain, hsplit]
  | some r =>
    obtain ⟨batch, f⟩ := r
    obtain ⟨more, hsplit⟩ := hsplit
    exact ⟨written, batch :: more, _, hsplit, hlogged, haccepted, by rw [hended],
      .inr ⟨batch, more, f, rfl, rfl, by rw [hended]; rfl, by rw [hended]⟩⟩

/-- Three batches for a writer that breaks on the second: its line is cut, and the third batch is
left with the source. -/
theorem writeTo_accounts_cut :
    let batches : List (List Hit) := [[{ id := "1", source := some "\x7b\"a\":1\x7d".toList },
      { id := "2" }, { id := "3", source := some [] }],
      [{ id := "4", source := some "\x7b\"b\":2\x7d".toList }], [{ id := "5" }]]
    let b := Batches.ofList none
    let k := Tape.sink (fun n => if n = 1 then some ⟨3, "closed"⟩ else none) true
    let first := "\x7b\"a\":1\x7d\n\x7b\x7d\n\x7b\x7d\n".toList
    ∃ written rest, (b.drain batches).1 = written ++ rest ∧ ndjson written.flatten = first ∧
      written.flatten.length = 3 ∧
      writeTo b k.logged batches ({}, []) =
        (⟨3, some (.plain "closed")⟩, [[{ id := "5" }]], ⟨first ++ "\x7b\"b".toList, 2, [14]⟩,
          [.wrote first, .flushed, .refused "\x7b\"b\":2\x7d\n".toList (.plain "closed")]) := by
  intro batches b k first
  obtain ⟨written, rest, log, hsplit, hlogged, haccepted, hrecords, -⟩ :=
    writeTo_accounts b k batches {}
  have hrun : writeTo b k.logged batches ({}, []) =
      (⟨3, some (.plain "closed")⟩, [[{ id := "5" }]], ⟨first ++ "\x7b\"b".toList, 2, [14]⟩,
        [.wrote first, .flushed, .refused "\x7b\"b\":2\x7d\n".toList (.plain "closed")]) := by
    decide +kernel
  rw [hrun] at hlogged
  simp only [Prod.mk.injEq] at hlogged
  obtain ⟨hended, -, -, rfl⟩ := hlogged
  rw [← hended] at hrecords
  exact ⟨written, rest, hsplit, haccepted.symm, hrecords.symm, hrun⟩

end Stream

end SearchGateway
