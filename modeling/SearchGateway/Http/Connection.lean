import SearchGateway.Http.Response
import SearchGateway.Stream

/-!
# Connections

A connection carries the texts of a response to the client. It may fail on any of them, after it
took some of the bytes. An `Outgoing` response keeps what was sent of it so far.

The head of a stream is sent lazily, with its first text: a stream that stops before that can still
be answered with a failure.
-/

namespace SearchGateway.Http

open SearchGateway.Stream (Sink WriteFailure)

/-- A connection over a state. -/
structure Connection (γ : Type) where
  /-- Takes bytes, or fails after some of them. -/
  take : List UInt8 → γ → Option WriteFailure × γ
  /-- Whether a response can be flushed. -/
  flushes : Bool := true

/-- A connection that takes everything. -/
def Connection.reliable : Connection Unit where
  take _ _ := (none, ())

/-- A response under way. -/
structure Outgoing (γ : Type) where
  /-- What was sent, in order; of a text that was cut the part that was taken. -/
  events : List Event := []
  link : γ

namespace Outgoing

variable {γ : Type}

def push (o : Outgoing γ) (e : Event) : Outgoing γ := { o with events := o.events ++ [e] }

/-- Sends an event over a connection. -/
def send (c : Connection γ) (o : Outgoing γ) : Event → Option Fault × Outgoing γ
  | .text cs =>
    match c.take (Text.bytes cs) o.link with
    | (none, link) => (none, { o.push (.text cs) with link })
    | (some f, link) =>
      (some (.plain f.message), { o.push (.text (Text.takeBytes f.accepted cs)) with link })
  | .flush => (none, if c.flushes then o.push .flush else o)
  | .head status contentType => (none, o.push (.head status contentType))

/-- Sends events in turn, whatever becomes of each. -/
def sendAll (c : Connection γ) (o : Outgoing γ) (es : List Event) : Outgoing γ :=
  es.foldl (fun o e => (o.send c e).2) o

end Outgoing

/-- A response whose head goes out with its first text. -/
structure LazyResponse (γ : Type) where
  response : Outgoing γ
  started : Bool := false

namespace LazyResponse

variable {γ : Type}

/-- The head of a stream. -/
def head : Event := .head 200 Stream.contentType

/-- Sends the head, unless it was sent before. -/
def start (c : Connection γ) (l : LazyResponse γ) : Outgoing γ :=
  if l.started then l.response else (l.response.send c head).2

/-- The response as the writer of a stream. -/
def sink (c : Connection γ) : Sink (LazyResponse γ) where
  put cs l :=
    let (f, response) := (l.start c).send c (.text cs)
    (f, ⟨response, true⟩)
  flush := some fun l => { l with response := (l.response.send c .flush).2 }

end LazyResponse

end SearchGateway.Http
