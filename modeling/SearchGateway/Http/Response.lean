import SearchGateway.Http.Encoding
import SearchGateway.Json.Value
import SearchGateway.Failure

/-!
# Responses

A handler answers by events: one head, then pieces of text, some of them flushed at once. The
response that reaches the client is put together from the events and from what the client asked
for in its headers.
-/

namespace SearchGateway.Http

/-- Headers by name; names are compared without regard to case. -/
abbrev Headers := List (String × String)

namespace Headers

/-- The value of a header, empty when it is absent. -/
def get (h : Headers) (name : String) : String :=
  ((h.find? fun kv => kv.1.map Char.toLower = name.map Char.toLower).map (·.2)).getD ""

end Headers

/-- What a handler sends. -/
inductive Event
  | head (status : Nat) (contentType : String)
  | text (cs : List Char)
  | flush
  deriving DecidableEq

namespace Event

/-- A whole document under a status. A document that cannot be written leaves the body empty. -/
def document (status : Nat) (j : Json) : List Event :=
  head status "application/json" ::
    match j.write true with
    | .ok s => [text (s.toList ++ ['\n'])]
    | .error _ => []

/-- A failure as the caller sees it. -/
def failure (f : Failure) : List Event := document f.status.http f.json

def notFound : List Event :=
  [head 404 "text/plain; charset=utf-8", text "404 page not found\n".toList]

def methodNotAllowed : List Event := [head 405 ""]

/-- The text of events. -/
def body (es : List Event) : List Char :=
  es.flatMap fun
    | text cs => cs
    | _ => []

/-- The status of events, 200 when no head was sent. -/
def status (es : List Event) : Nat :=
  (es.findSome? fun
    | head status _ => some status
    | _ => none).getD 200

def contentType (es : List Event) : String :=
  (es.findSome? fun
    | head _ contentType => some contentType
    | _ => none).getD ""

end Event

/-- The id a response carries. -/
inductive RequestId
  | absent
  /-- The id the client gave. -/
  | given (id : String)
  /-- A new id. -/
  | fresh
  deriving DecidableEq

structure Response where
  status : Nat
  contentType : String := ""
  gzip : Bool := false
  requestId : RequestId := .absent
  allowOrigin : String := ""
  /-- Before compression. -/
  body : List Char := []
  deriving DecidableEq

namespace Response

/-- The response of events. -/
def ofEvents (es : List Event) : Response where
  status := Event.status es
  contentType := Event.contentType es
  body := Event.body es

/-- Compresses for a client that takes it: a large body, or one that was flushed. -/
def compress (headers : Headers) (es : List Event) (r : Response) : Response :=
  { r with
    gzip := Encoding.acceptsGzip (headers.get "Accept-Encoding") &&
      (Encoding.minimumSize ≤ Text.byteLength r.body || es.contains .flush) }

end Response

end SearchGateway.Http
