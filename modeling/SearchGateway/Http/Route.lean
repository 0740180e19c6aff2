import SearchGateway.Text.Blank

/-!
# Routes

The paths that are served. The index of a path may be empty, its last segment may not; the last
segment `stream` asks for a stream, any other is the id of a document.
-/

namespace SearchGateway.Http

open SearchGateway.Text

inductive Route
  | health
  | metrics
  | search (index : String)
  | stream (index : String)
  | document (index id : String)
  deriving DecidableEq

namespace Route

/-- The route of the segments under `/v2/`. -/
def ofSegments? : List (List Char) → Option Route
  | [index] => if index = [] then none else some (search (String.ofList index))
  | [index, last] =>
    if last = [] then none
    else if last = "stream".toList then some (stream (String.ofList index))
    else some (document (String.ofList index) (String.ofList last))
  | _ => none

def find? (path : String) : Option Route :=
  if path = "/health" then some health
  else if path = "/metrics" then some metrics
  else
    match path.toList with
    | '/' :: 'v' :: '2' :: '/' :: rest => ofSegments? (splitChars '/' rest)
    | _ => none

/-- The pattern a route is counted under. -/
def pattern : Route → String
  | health => "/health"
  | metrics => "/metrics"
  | search _ => "/v2/\x7bindex\x7d"
  | stream _ => "/v2/\x7bindex\x7d/stream"
  | document _ _ => "/v2/\x7bindex\x7d/\x7bid\x7d"

end Route

end SearchGateway.Http
