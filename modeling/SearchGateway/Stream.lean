import SearchGateway.Backend.Hit
import SearchGateway.Failure
import SearchGateway.Text.Blank

/-!
# Result streams

A stream writes one document per line. The documents come in batches from a source that is finite
but may stop with a failure; every batch is written at once and then flushed, and the writer may
fail on any write. `writeTo` is about any writer, `write` about one that fails by a script and keeps
what it was given.
-/

namespace SearchGateway

open SearchGateway.Backend (Hit)

/-- A source of batches over a state. It gives a batch or stops, and `left` bounds the batches that
are still to come. -/
structure Batches (σ : Type) where
  next : σ → Option (List Hit) × σ
  /-- The failure that stopped the source, if it was one. -/
  fault : σ → Option Fault
  left : σ → Nat
  left_lt : ∀ s batch s', next s = (some batch, s') → left s' < left s

namespace Batches

/-- A source that holds its batches. -/
def ofList (stop : Option Fault) : Batches (List (List Hit)) where
  next
    | [] => (none, [])
    | batch :: more => (some batch, more)
  fault _ := stop
  left := List.length
  left_lt s batch s' h := by
    cases s <;> simp at h
    simp [h.2]

/-- All batches of a source, and the state in which it stopped. -/
def drain (b : Batches σ) (s : σ) : List (List Hit) × σ :=
  match h : b.next s with
  | (none, s') => ([], s')
  | (some batch, s') =>
    have := b.left_lt s batch s' h
    let (batches, last) := drain b s'
    (batch :: batches, last)
termination_by b.left s

/-- The state after `n` questions for a batch. -/
def after (b : Batches σ) : Nat → σ → σ
  | 0, s => s
  | n + 1, s => b.after n (b.next s).2

end Batches

namespace Stream

def contentType : String := "application/x-ndjson"

/-- The text of a document; one without a source is an empty object. -/
def document (h : Hit) : List Char :=
  match h.source with
  | none | some [] => ['\x7b', '\x7d']
  | some text => text

def line (h : Hit) : List Char := document h ++ ['\n']

def lines (batch : List Hit) : List Char := batch.flatMap line

/-- A writer over a state. -/
structure Sink (ω : Type) where
  /-- Takes a text; a fault says that it was not taken as a whole. -/
  put : List Char → ω → Option Fault × ω
  /-- Passes on what was taken, if the writer can. -/
  flush : Option (ω → ω) := none

/-- Flushes a writer that can flush. -/
def Sink.flushed (k : Sink ω) (w : ω) : ω :=
  match k.flush with
  | some flush => flush w
  | none => w

/-- How a stream ended. -/
structure Outcome where
  /-- Documents of the batches that were written. -/
  records : Nat := 0
  fault : Option Fault := none
  deriving DecidableEq

/-- Writes the batches of a source after `records` documents were written. A failing write ends the
stream, and the source is not asked again. -/
def writeFrom (b : Batches σ) (k : Sink ω) (records : Nat) (s : σ) (w : ω) : Outcome × σ × ω :=
  match h : b.next s with
  | (none, s') => (⟨records, b.fault s'⟩, s', w)
  | (some batch, s') =>
    have := b.left_lt s batch s' h
    match k.put (lines batch) w with
    | (some f, w) => (⟨records, some f⟩, s', w)
    | (none, w) => writeFrom b k (records + batch.length) s' (k.flushed w)
termination_by b.left s

/-- Writes a source to its end. -/
def writeTo (b : Batches σ) (k : Sink ω) (s : σ) (w : ω) : Outcome × σ × ω :=
  writeFrom b k 0 s w

/-! ### Scripted writers -/

/-- A write that failed, after it took some of the bytes. -/
structure WriteFailure where
  accepted : Nat
  message : String
  deriving DecidableEq

/-- A writer, by what happens on its writes, counted from 0. -/
abbrev Writer := Nat → Option WriteFailure

/-- What reached a writer. -/
structure Tape where
  output : List Char := []
  /-- Writes that were tried. -/
  writes : Nat := 0
  /-- The bytes written at each flush. -/
  flushed : List Nat := []
  deriving DecidableEq

def Tape.sink (writer : Writer) (canFlush : Bool) : Sink Tape where
  put text t :=
    match writer t.writes with
    | none => (none, { t with output := t.output ++ text, writes := t.writes + 1 })
    | some f =>
      (some (.plain f.message),
        { t with output := t.output ++ Text.takeBytes f.accepted text, writes := t.writes + 1 })
  flush :=
    if canFlush then
      some fun t => { t with flushed := t.flushed ++ [Text.byteLength t.output] }
    else none

/-- What a stream did. -/
structure Written extends Outcome, Tape

/-- Writes a source to a writer that follows a script. -/
def write (b : Batches σ) (writer : Writer) (s : σ) (canFlush : Bool := true) : Written × σ :=
  let (o, s, t) := writeTo b (Tape.sink writer canFlush) s {}
  (⟨o, t⟩, s)

end Stream

end SearchGateway
