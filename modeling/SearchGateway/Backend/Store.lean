import SearchGateway.Backend.Scroll
import SearchGateway.Metrics.Sample

/-!
# Stores

A store carries out compiled requests: against a backend, or, where none is configured, by matching
nothing. A metered store leaves a sample of every call.
-/

namespace SearchGateway.Backend

open SearchGateway.Metrics (Sample)

/-- The address of a backend. -/
def address (host : String) (port : Int) : Except Failure String :=
  if host = "" then .error (.internal "search backend host is not configured")
  else
    let host := if host.toList.contains ':' then "[" ++ host ++ "]" else host
    .ok ("http://" ++ host ++ ":" ++ toString port)

/-- The calls to the backend and the samples left so far. -/
structure Session where
  wire : Wire := {}
  environment : String := ""
  samples : List Sample := []

namespace Session

def record (s : Session) (sample : Sample) : Session :=
  { s with samples := s.samples ++ [sample] }

end Session

/-- How a store is scrolled, over its own states `ρ` and those of an open scroll `σ`. -/
structure Scrolling (ρ σ : Type) where
  /-- Opens a scroll, or fails. -/
  start : Request → ρ → Except (Fault × ρ) σ
  pages : Batches σ
  close : σ → Except Fault Unit × ρ

structure Store where
  /-- The address of the backend; a store without one matches nothing. -/
  base : Option String
  metered : Bool := false

def missing (l : Lookup) : Failure :=
  .notFound s!"document '{l.id}' not found in index '{l.index}'"

def decoding (what : String) (e : DecodeError) : Fault :=
  .failure (.internal ("decoding " ++ what ++ " response: " ++ e.message))

/-- Runs a search at an address. -/
def runSearch (base : String) (cancel : Bool) (r : Request) (w : Wire) : Except Fault Page × Wire :=
  let (reply, w) := w.send base cancel
    { method := .post, path := Scroll.searchPath r.index, body := some r.json }
  (reply.bind fun body => (Page.decode body).mapError (decoding "search"), w)

def lookupCommand (l : Lookup) : Command where
  method := .get
  path := "/" ++ Text.escapeSegment l.index ++ "/_doc/" ++ Text.escapeSegment l.id
  params :=
    (if l.source.includes.isEmpty then []
      else [("_source_includes", Text.join "," l.source.includes)]) ++
    (if l.source.excludes.isEmpty then []
      else [("_source_excludes", Text.join "," l.source.excludes)])

/-- What the reply to a lookup gives. An answer that something is not known is about the
document. -/
def lookupOutcome (l : Lookup) : Except Fault (List Char) → Except Fault Hit
  | .error f =>
    .error (if f.kind = "metadata_lookup_failure" then .failure (missing l) else f)
  | .ok body =>
    match decodeLookup body with
    | .error e => .error (decoding "get" e)
    | .ok none => .error (.failure (missing l))
    | .ok (some hit) => .ok hit

/-- Looks a document up at an address. -/
def runLookup (base : String) (cancel : Bool) (l : Lookup) (w : Wire) : Except Fault Hit × Wire :=
  let (reply, w) := w.send base cancel (lookupCommand l)
  (lookupOutcome l reply, w)

def faultOf : Except Fault α → Option Fault
  | .ok _ => none
  | .error f => some f

namespace Store

/-- Leaves a sample of a call, if the store is metered. -/
def meter (st : Store) (index method : String) (fault : Option Fault) (s : Session) : Session :=
  if st.metered then s.record (Sample.search s.environment index method fault) else s

def search (st : Store) (cancel : Bool) (r : Request) (s : Session) : Except Fault Page × Session :=
  let (result, w) :=
    match st.base with
    | none => (.ok {}, s.wire)
    | some base => runSearch base cancel r s.wire
  (result, st.meter r.index "search" (faultOf result) { s with wire := w })

def lookup (st : Store) (cancel : Bool) (l : Lookup) (s : Session) : Except Fault Hit × Session :=
  let (result, w) :=
    match st.base with
    | none => (.error (.failure (missing l)), s.wire)
    | some base => runLookup base cancel l s.wire
  (result, st.meter l.index "get" (faultOf result) { s with wire := w })

/-- The next page of a scroll. -/
def nextPage (st : Store) (cancel : Bool) (c : Scroll) (s : Session) :
    Option (List Hit) × Scroll × Session :=
  let (hits, c, w) :=
    match st.base with
    | none => (none, c, s.wire)
    | some base => c.next base cancel s.wire
  (hits, c, st.meter c.request.index "scroll_next" c.fault { s with wire := w })

def closeScroll (st : Store) (cancel : Bool) (c : Scroll) (s : Session) :
    Except Fault Unit × Scroll × Session :=
  let (result, c, w) :=
    match st.base with
    | none => (.ok (), c, s.wire)
    | some base => c.close base cancel s.wire
  (result, c, st.meter c.request.index "scroll_close" (faultOf result) { s with wire := w })

theorem wire_meter (st : Store) (index method : String) (fault : Option Fault) (s : Session) :
    (st.meter index method fault s).wire = s.wire := by
  unfold meter
  split <;> rfl

/-- The pages of a scroll as a source of batches: every page uses up a reply. -/
def pages (st : Store) (cancel : Bool) : Batches (Scroll × Session) where
  next
    | (c, s) => st.nextPage cancel c s
  fault
    | (c, _) => c.fault
  left
    | (_, s) => s.wire.replies.length
  left_lt
    | (c, s), batch, (c', s'), h => by
      unfold nextPage at h
      cases hb : st.base with
      | none => simp [hb] at h
      | some base =>
        rw [hb] at h
        simp only [Prod.mk.injEq] at h
        obtain ⟨h1, h2, h3⟩ := h
        subst h3
        simp only [wire_meter]
        exact Scroll.length_replies_of_next (Prod.ext h1 (Prod.ext h2 rfl))

/-- The scrolls of a store. Opening one makes no call yet, and closing is never cancelled. -/
def scrolling (st : Store) (cancel : Bool) : Scrolling Session (Scroll × Session) where
  start r s := .ok (Scroll.start r, s)
  pages := st.pages cancel
  close
    | (c, s) =>
      let (result, _, s) := st.closeScroll false c s
      (result, s)

end Store

end SearchGateway.Backend
