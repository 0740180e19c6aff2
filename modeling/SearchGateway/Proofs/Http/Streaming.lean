import SearchGateway.Http.Handler
import SearchGateway.Proofs.Stream.Accounting
import SearchGateway.Proofs.Text.Bytes

/-!
# Streamed responses

A stream is answered either by its lines or by a failure, never by some of both
(`streamOver_answers`). The failure is sent exactly if the search was not compiled, no scroll was
opened or it stopped with a fault before its first page (`Refused`); whatever happens after that,
the client has a head with status 200 and what the connection took of the lines. `Scrolling.logged`
keeps what was asked of a scroll: one that was opened is closed once, at the end. All of this is
about any store and any connection; `Service.stream` has its own store and a connection that takes
everything.
-/

namespace SearchGateway

open SearchGateway.Backend (Hit Scrolling)

variable {γ ρ σ : Type}

/-! ## The log of a scroll -/

/-- What was asked of the scrolls of a store. -/
inductive ScrollAction
  | opened
  | asked
  | closed
  deriving DecidableEq

namespace Batches

/-- The same source with a log of the questions for a batch. -/
def logged (b : Batches σ) : Batches (σ × List ScrollAction) where
  next w :=
    let (batch, s) := b.next w.1
    (batch, s, w.2 ++ [.asked])
  fault w := b.fault w.1
  left w := b.left w.1
  left_lt w batch w' h := by
    obtain ⟨hbatch, hstate⟩ := Prod.mk.inj h
    exact b.left_lt w.1 batch w'.1 (Prod.ext hbatch (congrArg Prod.fst hstate))

theorem next_logged {b : Batches σ} {s s' : σ} {batch : Option (List Hit)}
    (h : b.next s = (batch, s')) (log : List ScrollAction) :
    b.logged.next (s, log) = (batch, s', log ++ [.asked]) := by
  simp only [logged, h]

theorem after_logged (b : Batches σ) (n : Nat) (s : σ) (log : List ScrollAction) :
    b.logged.after n (s, log) = (b.after n s, log ++ List.replicate n .asked) := by
  induction n generalizing s log with
  | zero => rw [List.replicate_zero, List.append_nil]; rfl
  | succ n ih =>
    rw [after, next_logged rfl, ih, List.replicate_succ, List.append_assoc]
    rfl

theorem drain_logged (b : Batches σ) (s : σ) (log : List ScrollAction) :
    (b.logged.drain (s, log)).1 = (b.drain s).1 ∧
      (b.logged.drain (s, log)).2.1 = (b.drain s).2 := by
  induction s using b.induction generalizing log with
  | stop s s' h =>
    rw [drain_of_none h, drain_of_none (next_logged h log)]
    exact ⟨rfl, rfl⟩
  | step s batch s' h ih =>
    obtain ⟨hbatches, hlast⟩ := ih (log ++ [.asked])
    rw [drain_of_some h, drain_of_some (next_logged h log), hbatches, hlast]
    exact ⟨rfl, rfl⟩

end Batches

/-- The same store with a log of its scrolls. -/
def Backend.Scrolling.logged (sc : Scrolling ρ σ) :
    Scrolling (ρ × List ScrollAction) (σ × List ScrollAction) where
  start r w :=
    match sc.start r w.1 with
    | .error (f, s) => .error (f, s, w.2)
    | .ok scroll => .ok (scroll, w.2 ++ [.opened])
  pages := sc.pages.logged
  close w :=
    let (result, s) := sc.close w.1
    (result, s, w.2 ++ [.closed])

namespace Http

open SearchGateway.Stream (lines ndjson lines_eq_ndjson)
open SearchGateway.Text (bytes)

/-- What reaches the client of texts sent in turn until one fails. -/
def Connection.delivered (c : Connection γ) : List (List UInt8) → γ → List UInt8
  | [], _ => []
  | text :: more, link =>
    match c.take text link with
    | (none, link) => text ++ c.delivered more link
    | (some f, _) => text.take f.accepted

namespace Connection

variable {c : Connection γ} {text : List UInt8} {link link' : γ}

theorem delivered_nil : c.delivered [] link = [] := rfl

theorem delivered_of_taken (h : c.take text link = (none, link')) (more : List (List UInt8)) :
    c.delivered (text :: more) link = text ++ c.delivered more link' := by
  rw [delivered, h]

theorem delivered_of_cut {f : Stream.WriteFailure} (h : c.take text link = (some f, link'))
    (more : List (List UInt8)) : c.delivered (text :: more) link = text.take f.accepted := by
  rw [delivered, h]

end Connection

/-! ## Whole responses -/

namespace Event

/-- Events after a head: none of them is a head again. -/
def IsContent (es : List Event) (content : List UInt8) : Prop :=
  (∀ status contentType, head status contentType ∉ es) ∧ bytes (body es) = content

/-- The events of one response. -/
def IsResponse (es : List Event) (status : Nat) (contentType : String) (content : List UInt8) :
    Prop :=
  ∃ rest, es = head status contentType :: rest ∧ IsContent rest content

theorem isContent_nil : IsContent [] [] :=
  ⟨fun _ _ => List.not_mem_nil, rfl⟩

theorem isContent_text (cs : List Char) : IsContent [text cs] (bytes cs) :=
  ⟨by simp, by simp [body]⟩

theorem isContent_flush : IsContent [flush] [] :=
  ⟨by simp, rfl⟩

theorem IsContent.append {es es' : List Event} {content content' : List UInt8}
    (h : IsContent es content) (h' : IsContent es' content') :
    IsContent (es ++ es') (content ++ content') := by
  obtain ⟨hheads, hbody⟩ := h
  obtain ⟨hheads', hbody'⟩ := h'
  refine ⟨fun status contentType => ?_, ?_⟩
  · rw [List.mem_append]
    exact not_or.2 ⟨hheads status contentType, hheads' status contentType⟩
  · rw [← hbody, ← hbody', ← Text.bytes_append, body, List.flatMap_append]
    rfl

end Event

open Event (IsContent IsResponse)

/-! ## Sending -/

section send

variable {c : Connection γ} {o : Outgoing γ} {cs : List Char} {link : γ} {f : Stream.WriteFailure}

theorem Outgoing.send_of_taken (h : c.take (bytes cs) o.link = (none, link)) :
    o.send c (.text cs) = (none, ⟨o.events ++ [.text cs], link⟩) := by
  rw [send, h]
  rfl

theorem Outgoing.send_of_cut (h : c.take (bytes cs) o.link = (some f, link)) :
    o.send c (.text cs) =
      (some (.plain f.message), ⟨o.events ++ [.text (Text.takeBytes f.accepted cs)], link⟩) := by
  rw [send, h]
  rfl

/-- One text adds what the connection takes of it. -/
theorem Outgoing.events_send (c : Connection γ) (o : Outgoing γ) (cs : List Char) :
    ∃ es, (o.send c (.text cs)).2.events = o.events ++ es ∧
      IsContent es (c.delivered [bytes cs] o.link) := by
  rcases htake : c.take (bytes cs) o.link with ⟨out, link⟩
  cases out with
  | none =>
    rw [send_of_taken htake, Connection.delivered_of_taken htake]
    refine ⟨_, rfl, ?_⟩
    rw [Connection.delivered_nil, List.append_nil]
    exact Event.isContent_text cs
  | some f =>
    rw [send_of_cut htake, Connection.delivered_of_cut htake, ← Text.bytes_takeBytes]
    exact ⟨_, rfl, Event.isContent_text _⟩

end send

namespace LazyResponse

/-- Flushes add no text. -/
theorem flushed_sink (c : Connection γ) (o : Outgoing γ) (started : Bool) :
    ∃ es, (sink c).flushed ⟨o, started⟩ = ⟨⟨o.events ++ es, o.link⟩, started⟩ ∧
      IsContent es [] := by
  cases hflushes : c.flushes with
  | true =>
    refine ⟨[.flush], ?_, Event.isContent_flush⟩
    simp [sink, Stream.Sink.flushed, Outgoing.send, hflushes, Outgoing.push]
  | false =>
    refine ⟨[], ?_, Event.isContent_nil⟩
    simp [sink, Stream.Sink.flushed, Outgoing.send, hflushes]

/-- After the head a stream adds what the connection takes of its batches. -/
theorem events_feed (c : Connection γ) (batches : List (List Hit)) (o : Outgoing γ) :
    let l := ((sink c).feed batches ⟨o, true⟩).2.2
    l.started = true ∧ ∃ es, l.response.events = o.events ++ es ∧
      IsContent es (c.delivered (batches.map fun batch => bytes (lines batch)) o.link) := by
  induction batches generalizing o with
  | nil => exact ⟨rfl, [], (List.append_nil _).symm, Event.isContent_nil⟩
  | cons batch more ih =>
    rw [List.map_cons]
    rcases htake : c.take (bytes (lines batch)) o.link with ⟨out, link⟩
    have hput : (sink c).put (lines batch) ⟨o, true⟩ = ((o.send c (.text (lines batch))).1,
      ⟨(o.send c (.text (lines batch))).2, true⟩) := rfl
    cases out with
    | none =>
      rw [Outgoing.send_of_taken htake] at hput
      rw [Stream.Sink.feed_of_taken hput, Connection.delivered_of_taken htake]
      obtain ⟨es, hflushed, hes⟩ := flushed_sink c ⟨o.events ++ [.text (lines batch)], link⟩ true
      obtain ⟨hstarted, es', hevents, hes'⟩ := ih ⟨o.events ++ [.text (lines batch)] ++ es, link⟩
      rw [hflushed]
      refine ⟨hstarted, [.text (lines batch)] ++ es ++ es', ?_, ?_⟩
      · rw [hevents]
        simp only [List.append_assoc]
      · have htext := (Event.isContent_text (lines batch)).append hes
        rw [List.append_nil] at htext
        exact htext.append hes'
    | some f =>
      rw [Outgoing.send_of_cut htake] at hput
      rw [Stream.Sink.feed_of_refused hput, Connection.delivered_of_cut htake,
        ← Text.bytes_takeBytes]
      exact ⟨rfl, _, rfl, Event.isContent_text _⟩

/-- The first text takes the head along. -/
theorem feed_cons (c : Connection γ) (batch : List Hit) (more : List (List Hit)) (o : Outgoing γ) :
    (sink c).feed (batch :: more) ⟨o, false⟩ = (sink c).feed (batch :: more) ⟨o.push head, true⟩ :=
  rfl

end LazyResponse

/-! ## Answers -/

theorem lastUnwritable_json (f : Failure) : f.json.lastUnwritable = none := by
  unfold Failure.json
  split <;> split <;> rfl

/-- The text of a failure. -/
def failureText (f : Failure) : List Char := f.json.text.toList ++ ['\n']

theorem Event.failure_eq (f : Failure) :
    failure f = [head f.status.http "application/json", text (failureText f)] := by
  rw [failure, document, Json.write, lastUnwritable_json]
  rfl

theorem Answer.isResponse_refusal (c : Connection γ) (link : γ) (f : Fault) :
    IsResponse (Answer.refusal c { link } f).events f.toFailure.status.http "application/json"
      (c.delivered [bytes (failureText f.toFailure)] link) := by
  rw [refusal, failure, Event.failure_eq]
  obtain ⟨es, hevents, hes⟩ := Outgoing.events_send c
    (Outgoing.push { link } (.head f.toFailure.status.http "application/json"))
    (failureText f.toFailure)
  exact ⟨es, hevents, hes⟩

/-- Nothing is sent after the lines. -/
theorem Answer.events_ofStream (c : Connection γ) {l : LazyResponse γ} (h : l.started = true)
    (fault : Option Fault) : (ofStream c l fault).events = l.response.events := by
  cases fault with
  | none => simp only [ofStream, LazyResponse.start, if_pos h]
  | some f => simp only [ofStream, if_pos h]

/-- The lines of a source that is not at its end follow the head. -/
theorem Answer.isResponse_ofStream (c : Connection γ) (link : γ) (batch : List Hit)
    (more : List (List Hit)) (fault : Option Fault) :
    let l := ((LazyResponse.sink c).feed (batch :: more) { response := { link } }).2.2
    IsResponse (ofStream c l fault).events 200 "application/x-ndjson"
      (c.delivered ((batch :: more).map fun batch => bytes (lines batch)) link) := by
  intro l
  obtain ⟨hstarted, es, hevents, hes⟩ :=
    LazyResponse.events_feed c (batch :: more) (Outgoing.push { link } LazyResponse.head)
  rw [← LazyResponse.feed_cons] at hstarted hevents
  exact ⟨es, (events_ofStream c hstarted fault).trans hevents, hes⟩

/-! ## Streams -/

/-- The fault that stops a stream before its first page: that of a search which was not compiled or
not opened, or that of its scroll. -/
inductive Refused (sc : Scrolling ρ σ) (compiled : Except Fault Request × ρ) (f : Fault) : Prop
  | uncompiled (h : compiled.1 = .error f)
  | unopened {r : Request} {s : ρ} (h : compiled.1 = .ok r)
      (hstart : sc.start r compiled.2 = .error (f, s))
  | stopped {r : Request} {scroll scroll' : σ} (h : compiled.1 = .ok r)
      (hstart : sc.start r compiled.2 = .ok scroll)
      (hnext : sc.pages.next scroll = (none, scroll')) (hfault : sc.pages.fault scroll' = some f)

/-- A search that was compiled and whose scroll was opened. -/
def Opened (sc : Scrolling ρ σ) (compiled : Except Fault Request × ρ) (scroll : σ) : Prop :=
  ∃ r, compiled.1 = .ok r ∧ sc.start r compiled.2 = .ok scroll

section streams

variable {sc : Scrolling ρ σ} {compiled : Except Fault Request × ρ} {scroll : σ} {f : Fault} {s : ρ}

theorem openScroll_eq_ok_iff : openScroll sc compiled = .ok scroll ↔ Opened sc compiled scroll := by
  rcases compiled with ⟨_ | r, s⟩ <;> simp [openScroll, Opened]

theorem refused_of_error (h : openScroll sc compiled = .error (f, s)) : Refused sc compiled f := by
  rcases compiled with ⟨e | r, s'⟩
  · cases h
    exact .uncompiled rfl
  · exact .unopened rfl h

theorem refused_iff (h : Opened sc compiled scroll) (f : Fault) :
    Refused sc compiled f ↔
      (sc.pages.next scroll).1 = none ∧ sc.pages.fault (sc.pages.next scroll).2 = some f := by
  obtain ⟨r, hr, hstart⟩ := h
  constructor
  · intro hrefused
    cases hrefused with
    | uncompiled h' =>
      rw [hr] at h'
      cases h'
    | unopened h' hstart' =>
      cases hr.symm.trans h'
      cases hstart.symm.trans hstart'
    | stopped h' hstart' hnext hfault =>
      cases hr.symm.trans h'
      cases hstart.symm.trans hstart'
      rw [hnext]
      exact ⟨rfl, hfault⟩
  · intro ⟨hnext, hfault⟩
    exact .stopped hr hstart (Prod.ext hnext rfl) hfault

theorem streamOver_of_error (c : Connection γ) (link : γ)
    (h : openScroll sc compiled = .error (f, s)) :
    streamOver c sc compiled link = (.refusal c { link } f, s) := by
  rw [streamOver, h]

theorem streamOver_of_ok (c : Connection γ) (link : γ) (h : openScroll sc compiled = .ok scroll) :
    let fed := (LazyResponse.sink c).feed (sc.pages.drain scroll).1 { response := { link } }
    streamOver c sc compiled link =
      (.ofStream c fed.2.2 ((fed.2.1.map (·.2)).or (sc.pages.fault (sc.pages.drain scroll).2)),
        (sc.close (sc.pages.after (fed.1.length + 1) scroll)).2) := by
  simp only [streamOver, h, Stream.writeTo_eq]

theorem openScroll_logged_of_error (h : openScroll sc compiled = .error (f, s)) :
    openScroll sc.logged (compiled.1, compiled.2, []) = .error (f, s, []) := by
  rcases compiled with ⟨_ | r, s'⟩
  · cases h
    rfl
  · replace h : sc.start r s' = .error (f, s) := h
    simp only [openScroll, Scrolling.logged, h]

theorem openScroll_logged_of_ok (h : openScroll sc compiled = .ok scroll) :
    openScroll sc.logged (compiled.1, compiled.2, []) = .ok (scroll, [.opened]) := by
  rcases compiled with ⟨_ | r, s'⟩
  · cases h
  · replace h : sc.start r s' = .ok scroll := h
    simp only [openScroll, Scrolling.logged, h, List.nil_append]

/-- The log changes nothing. -/
theorem streamOver_logged (c : Connection γ) (link : γ) (h : openScroll sc compiled = .ok scroll) :
    let fed := (LazyResponse.sink c).feed (sc.pages.drain scroll).1 { response := { link } }
    let streamed := streamOver c sc compiled link
    streamOver c sc.logged (compiled.1, compiled.2, []) link = (streamed.1, streamed.2,
      .opened :: List.replicate (fed.1.length + 1) .asked ++ [.closed]) := by
  obtain ⟨hbatches, hlast⟩ := sc.pages.drain_logged scroll [.opened]
  have hpages : sc.logged.pages = sc.pages.logged := rfl
  have hfault : sc.pages.logged.fault (sc.pages.logged.drain (scroll, [.opened])).2 =
    sc.pages.fault (sc.pages.drain scroll).2 := congrArg sc.pages.fault hlast
  rw [streamOver_of_ok c link (openScroll_logged_of_ok h), streamOver_of_ok c link h]
  simp only [hpages, hbatches, hfault, Batches.after_logged]
  rfl

end streams

/-- A store with one scroll, by its pages and the fault after them. -/
def scripted (pages : List (List Hit)) (stop : Option Fault) :
    Scrolling Unit (List (List Hit)) where
  start _ _ := .ok pages
  pages := .ofList stop
  close _ := (.ok (), ())

/-- A connection that takes one text, and then one byte of each. -/
def breaking : Connection Nat where
  take _ n := (if n = 0 then none else some ⟨1, "broken pipe"⟩, n + 1)

end Http

end SearchGateway
