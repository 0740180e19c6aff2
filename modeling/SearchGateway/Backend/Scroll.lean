import SearchGateway.Backend.Hit
import SearchGateway.Backend.Wire
import SearchGateway.Query.Request
import SearchGateway.Stream

/-!
# Scrolls

A scroll walks all matches of a request page by page. The first page opens it, every later page is
asked for under the id the backend gave last, and closing releases that id. A scroll that has
stopped, by a page without documents or by a failure, stays stopped.
-/

namespace SearchGateway.Backend

/-- How long the backend keeps a scroll between two pages. -/
def keepAlive : String := "1m"

structure Scroll where
  request : Request
  /-- The id to continue and to release, empty when there is none. -/
  id : String := ""
  done : Bool := false
  fault : Option Fault := none

namespace Scroll

/-- A scroll always begins at the first match. -/
def start (r : Request) : Scroll where
  request := { r with start := 0 }

def searchPath (index : String) : String := "/" ++ Text.escapeSegment index ++ "/_search"

/-- The command for the next page. -/
def pageCommand (s : Scroll) : Command :=
  if s.id = "" then
    { method := .post
      path := searchPath s.request.index
      params := [("scroll", keepAlive)]
      body := some s.request.json }
  else
    { method := .post
      path := "/_search/scroll"
      body := some (.object [("scroll", .string keepAlive), ("scroll_id", .string s.id)]) }

def releaseCommand (s : Scroll) : Command where
  method := .delete
  path := "/_search/scroll"
  body := some (.object [("scroll_id", Json.strings [s.id])])

def isStopped (s : Scroll) : Bool := s.done || s.fault.isSome

/-- What the reply to a page's command gives: its documents, if there are any. -/
def receive (s : Scroll) : Except Fault (List Char) → Option (List Hit) × Scroll
  | .error f => (none, { s with fault := some f })
  | .ok body =>
    match Page.decode body with
    | .error e =>
      (none, { s with
        fault := some (.failure (.internal ("decoding scroll response: " ++ e.message))) })
    | .ok page =>
      let id := scrollIdOf body
      let s := if id = "" then s else { s with id }
      if page.hits.isEmpty then (none, { s with done := true }) else (some page.hits, s)

/-- The next page. -/
def next (s : Scroll) (base : String) (cancel : Bool) (w : Wire) :
    Option (List Hit) × Scroll × Wire :=
  if s.isStopped then (none, s, w)
  else
    let (r, w) := w.send base cancel s.pageCommand
    let (hits, s) := s.receive r
    (hits, s, w)

/-- Releases the scroll, if the backend holds one. -/
def close (s : Scroll) (base : String) (cancel : Bool) (w : Wire) :
    Except Fault Unit × Scroll × Wire :=
  if s.id = "" then (.ok (), s, w)
  else
    let (r, w) := w.send base cancel s.releaseCommand
    (r.map fun _ => (), { s with id := "", done := true }, w)

theorem length_replies_of_next {s s' : Scroll} {base : String} {cancel : Bool} {w w' : Wire}
    {hits : List Hit} (h : s.next base cancel w = (some hits, s', w')) :
    w'.replies.length < w.replies.length := by
  unfold next at h
  split at h
  · simp at h
  · match hs : w.send base cancel s.pageCommand with
    | (.error f, v) => simp [hs, receive] at h
    | (.ok body, v) =>
      have := Wire.length_replies_of_send_ok hs
      simp [hs] at h
      simpa [h.2.2] using this

end Scroll

end SearchGateway.Backend
