import SearchGateway.Backend.FacetCounts
import SearchGateway.Backend.Store
import SearchGateway.Http.Binding
import SearchGateway.Http.Connection
import SearchGateway.Json.WellFormed
import SearchGateway.Query.Compile

/-!
# Handlers

A request is bound, compiled and carried out; the first step that fails is answered with its
failure. A stream sends its head with the first batch, so a failure before that still gets a status
of its own, and a failure after it only cuts the stream short.
-/

namespace SearchGateway.Http

open SearchGateway.Backend (Hit Page FacetCount Scrolling Session Store)
open SearchGateway.Index (Registry)
open SearchGateway.Metrics (Sample)

/-- What a handler did: the events it sent and the fault it reports. -/
structure Answer where
  events : List Event
  fault : Option Fault := none

namespace Answer

def document (j : Json) : Answer where
  events := Event.document 200 j

/-- Whatever stopped a handler, the client is told of a failure. -/
def failure (f : Fault) : Answer where
  events := Event.failure f.toFailure
  fault := some (.failure f.toFailure)

/-- A failure sent over a connection. -/
def refusal (c : Connection γ) (o : Outgoing γ) (f : Fault) : Answer where
  events := (o.sendAll c (failure f).events).events
  fault := (failure f).fault

/-- The answer of a stream that ended. What stopped it is told to the client only if the head was
not sent yet. -/
def ofStream (c : Connection γ) (l : LazyResponse γ) : Option Fault → Answer
  | some f => if l.started then ⟨l.response.events, some f⟩ else refusal c l.response f
  | none => ⟨(l.start c).events, none⟩

end Answer

/-- A document in an answer; a score of zero and an absent source are left out. -/
def hitJson (h : Hit) : Json :=
  .object ([("id", .string h.id)] ++
    (if h.score.isZero then [] else [("score", .float h.score)]) ++
    (match h.source with
      | some text => [("source", Json.embed text)]
      | none => []))

def facetJson (counts : List FacetCount) : Json :=
  .object [("counts", .array (counts.map FacetCount.json))]

/-- A page in an answer; facets are there when they were asked for. -/
def pageJson (r : Request) (p : Page) : Json :=
  let facets := Backend.facets r.aggregations (p.aggregations.getD [])
  .object ([("total", .int p.total.toInt), ("hits", .array (p.hits.map hitJson))] ++
    (if facets.isEmpty then []
      else [("facets", .object (facets.map fun (name, counts) => (name, facetJson counts)))]))

/-- Opens the scroll of a search, if it was compiled. -/
def openScroll (sc : Scrolling ρ σ) : Except Fault Request × ρ → Except (Fault × ρ) σ
  | (.error f, s) => .error (f, s)
  | (.ok r, s) => sc.start r s

/-- Streams the matches of a search over a connection. A scroll that was opened is closed whatever
happens. -/
def streamOver (c : Connection γ) (sc : Scrolling ρ σ) (compiled : Except Fault Request × ρ)
    (link : γ) : Answer × ρ :=
  match openScroll sc compiled with
  | .error (f, s) => (.refusal c { link } f, s)
  | .ok scroll =>
    let l : LazyResponse γ := { response := { link } }
    let (o, scroll, l) := Stream.writeTo sc.pages (LazyResponse.sink c) scroll l
    (.ofStream c l o.fault, (sc.close scroll).2)

/-- What handlers work with. -/
structure Service where
  registry : Registry
  store : Store

namespace Service

/-- Binds and compiles a search. A compilation leaves a sample, a request that cannot be bound does
not. -/
def compileSearch (sv : Service) (params : Params) (index : String) (s : Session) :
    Except Fault Request × Session :=
  match params.searchRequest index with
  | .error f => (.error (.failure f), s)
  | .ok r =>
    let result := (Query.compile sv.registry r).mapError fun e => Fault.failure e.failure
    (result, s.record (Sample.compile s.environment index "search" (Backend.faultOf result)))

def compileLookup (sv : Service) (params : Params) (index id : String) (s : Session) :
    Except Fault Lookup × Session :=
  let result := (Query.compileLookup sv.registry (params.documentRequest index id)).mapError
    fun e => Fault.failure e.failure
  (result, s.record (Sample.compile s.environment index "get" (Backend.faultOf result)))

def search (sv : Service) (params : Params) (index : String) (cancel : Bool) (s : Session) :
    Answer × Session :=
  match sv.compileSearch params index s with
  | (.error f, s) => (.failure f, s)
  | (.ok r, s) =>
    match sv.store.search cancel r s with
    | (.error f, s) => (.failure f, s)
    | (.ok page, s) => (.document (pageJson r page), s)

def document (sv : Service) (params : Params) (index id : String) (cancel : Bool) (s : Session) :
    Answer × Session :=
  match sv.compileLookup params index id s with
  | (.error f, s) => (.failure f, s)
  | (.ok l, s) =>
    match sv.store.lookup cancel l s with
    | (.error f, s) => (.failure f, s)
    | (.ok hit, s) => (.document (hitJson hit), s)

/-- Streams all matches. -/
def stream (sv : Service) (params : Params) (index : String) (cancel : Bool) (s : Session) :
    Answer × Session :=
  streamOver .reliable (sv.store.scrolling cancel) (sv.compileSearch params index s) ()

end Service

end SearchGateway.Http
