import SearchGateway.Http.Handler
import SearchGateway.Http.Route

/-!
# The server

Every request passes the same stations in order: the rules for foreign origins, which answer a
preflight by themselves; the request id; the routes; and, for the search routes only, the rate
limit, the measurement and the compression.
-/

namespace SearchGateway.Http

open SearchGateway.Backend (Session)
open SearchGateway.Metrics (Sample)

structure HttpRequest where
  method : String := "GET"
  target : String
  headers : Headers := []
  /-- The client has gone away. -/
  cancel : Bool := false

structure Server where
  service : Service
  /-- Requests that are still let through, unlimited when absent. -/
  tokens : Option Nat := none
  session : Session := {}

namespace Server

/-- The tokens of a rate limit: at least the rate itself, and none are kept when there is no
limit. -/
def tokensOf (rate burst : Int) : Option Nat :=
  if rate ≤ 0 then none else some (max rate burst).toNat

/-- The methods the router knows. -/
def knownMethods : List String :=
  ["CONNECT", "DELETE", "GET", "HEAD", "OPTIONS", "PATCH", "POST", "PUT", "TRACE"]

/-- The methods foreign origins may use. -/
def sharedMethods : List String := ["HEAD", "GET", "POST", "PUT", "PATCH", "DELETE", "OPTIONS"]

/-- What a foreign origin is told, if it asks with an allowed method. -/
def allowOrigin (headers : Headers) (method : String) : String :=
  if headers.get "Origin" ≠ "" ∧ method.map Text.capitalChar ∈ sharedMethods then "*" else ""

def requestId (headers : Headers) : RequestId :=
  match headers.get "X-Request-ID" with
  | "" => .fresh
  | id => .given id

/-- The handler of a search route. -/
def handle (sv : Service) (route : Route) (params : Params) (cancel : Bool) (s : Session) :
    Answer × Session :=
  match route with
  | .search index => sv.search params index cancel s
  | .stream index => sv.stream params index cancel s
  | .document index id => sv.document params index id cancel s
  | .health | .metrics => (⟨Event.notFound, none⟩, s)

/-- Runs a search route with its measurement. -/
def measured (sv : Service) (r : HttpRequest) (route : Route) (params : Params) (s : Session) :
    List Event × Session :=
  let (a, s) := handle sv route params r.cancel s
  (a.events, s.record (Sample.request s.environment r.method route.pattern (Event.status a.events)
    a.fault))

def limited : Failure := .exhausted "request rate limit exceeded"

/-- Serves a search route within the rate limit. -/
def serveLimited (srv : Server) (r : HttpRequest) (route : Route) (params : Params) :
    Response × Server :=
  match srv.tokens with
  | some 0 => (.ofEvents (Event.failure limited), srv)
  | tokens =>
    let (es, session) := measured srv.service r route params srv.session
    ((Response.ofEvents es).compress r.headers es,
      { srv with tokens := tokens.map (· - 1), session })

/-- Serves a request that is no preflight. -/
def serveRoute (srv : Server) (r : HttpRequest) : Response × Server :=
  let target := Target.parse r.target
  if r.method ∉ knownMethods then (.ofEvents Event.methodNotAllowed, srv)
  else
    match Route.find? target.path with
    | none => (.ofEvents Event.notFound, srv)
    | some route =>
      if r.method ≠ "GET" then (.ofEvents Event.methodNotAllowed, srv)
      else
        match route with
        | .health =>
          (.ofEvents (Event.document 200 (.object [("status", .string "ok")])), srv)
        | .metrics => (.ofEvents Event.notFound, srv)
        | route => srv.serveLimited r route target.params

def isPreflight (r : HttpRequest) : Bool :=
  r.method == "OPTIONS" && r.headers.get "Access-Control-Request-Method" != ""

def serve (srv : Server) (r : HttpRequest) : Response × Server :=
  if isPreflight r then
    let origin := allowOrigin r.headers (r.headers.get "Access-Control-Request-Method")
    ({ status := 200, allowOrigin := origin }, srv)
  else
    let (response, srv) := srv.serveRoute r
    ({ response with
      allowOrigin := allowOrigin r.headers r.method
      requestId := requestId r.headers }, srv)

end Server

end SearchGateway.Http
