import SearchGateway.Backend.Address
import SearchGateway.Failure
import SearchGateway.Json.Seek

/-!
# The wire to the backend

A wire holds the replies the backend will give and keeps the calls that were made. A call takes the
next reply:

* an **answer** below 300 is a success, any other is turned into a failure by its status;
* a **cut** is an answer whose body could not be read to its end;
* a **loss** is a call that got no answer at all.

A call that is cancelled, whose body cannot be written or whose address cannot be read is never
made.
-/

namespace SearchGateway.Backend

open SearchGateway.Json (getString)

inductive Method
  | get | post | delete
  deriving DecidableEq

namespace Method

def name : Method → String
  | get => "GET"
  | post => "POST"
  | delete => "DELETE"

/-- The name in messages. -/
def verb : Method → String
  | get => "Get"
  | post => "Post"
  | delete => "Delete"

end Method

/-- What is asked of the backend. -/
structure Command where
  method : Method
  /-- Escaped. -/
  path : String
  params : List (String × String) := []
  body : Option Json := none

/-- The path with its parameters in the order of their names. -/
def Command.target (c : Command) : String :=
  if c.params.isEmpty then c.path
  else
    let params := c.params.mergeSort fun a b => !(b.1 < a.1)
    c.path ++ "?" ++ Text.join "&" (params.map fun (k, v) =>
      Text.escapeQuery k ++ "=" ++ Text.escapeQuery v)

/-- A call as it went out. -/
structure Call where
  method : Method
  url : String
  body : Option String
  deriving DecidableEq

def Call.contentType (c : Call) : String := if c.body.isSome then "application/json" else ""

inductive Reply
  | answer (status : Int) (body : List Char)
  | cut (status : Int) (body : List Char) (message : String)
  | loss (message : String)
  deriving DecidableEq

structure Wire where
  replies : List Reply := []
  /-- The calls made, in order. -/
  calls : List Call := []
  /-- What a call meets when no reply is left. -/
  dead : String := ""

/-- The phrase of an HTTP status, empty for a status without one. -/
def statusPhrase (status : Int) : String :=
  let phrases : List (Int × String) := [
    (100, "Continue"), (101, "Switching Protocols"), (102, "Processing"), (103, "Early Hints"),
    (200, "OK"), (201, "Created"), (202, "Accepted"), (203, "Non-Authoritative Information"),
    (204, "No Content"), (205, "Reset Content"), (206, "Partial Content"), (207, "Multi-Status"),
    (208, "Already Reported"), (226, "IM Used"),
    (300, "Multiple Choices"), (301, "Moved Permanently"), (302, "Found"), (303, "See Other"),
    (304, "Not Modified"), (305, "Use Proxy"), (307, "Temporary Redirect"),
    (308, "Permanent Redirect"),
    (400, "Bad Request"), (401, "Unauthorized"), (402, "Payment Required"), (403, "Forbidden"),
    (404, "Not Found"), (405, "Method Not Allowed"), (406, "Not Acceptable"),
    (407, "Proxy Authentication Required"), (408, "Request Timeout"), (409, "Conflict"),
    (410, "Gone"), (411, "Length Required"), (412, "Precondition Failed"),
    (413, "Request Entity Too Large"), (414, "Request URI Too Long"),
    (415, "Unsupported Media Type"), (416, "Requested Range Not Satisfiable"),
    (417, "Expectation Failed"), (418, "I'm a teapot"), (421, "Misdirected Request"),
    (422, "Unprocessable Entity"), (423, "Locked"), (424, "Failed Dependency"),
    (425, "Too Early"), (426, "Upgrade Required"), (428, "Precondition Required"),
    (429, "Too Many Requests"), (431, "Request Header Fields Too Large"),
    (451, "Unavailable For Legal Reasons"),
    (500, "Internal Server Error"), (501, "Not Implemented"), (502, "Bad Gateway"),
    (503, "Service Unavailable"), (504, "Gateway Timeout"), (505, "HTTP Version Not Supported"),
    (506, "Variant Also Negotiates"), (507, "Insufficient Storage"), (508, "Loop Detected"),
    (510, "Not Extended"), (511, "Network Authentication Required")]
  (phrases.lookup status).getD ""

/-- What the backend says about a failed call. -/
def reason (status : Int) (body : List Char) : String :=
  match getString body ["error", "reason"] with
  | .ok s => s
  | .error _ =>
    match getString body ["error"] with
    | .ok s => s
    | .error _ => statusPhrase status

/-- The failure of an answer that is no success. -/
def refusal (status : Int) (body : List Char) : Failure :=
  let why := reason status body
  if status = 404 then .notFound ("search backend: " ++ why)
  else if status = 429 ∨ status = 502 ∨ status = 503 ∨ status = 504 then
    .unavailable ("search backend: " ++ why)
  else .internal ("search backend returned " ++ toString status ++ ": " ++ why)

def unreachable (message : String) : Failure :=
  .unavailable ("search backend unreachable: " ++ message)

/-- What a reply means for the call that got it. -/
def Reply.outcome (call : Call) : Reply → Except Fault (List Char)
  | answer status body => if status < 300 then .ok body else .error (.failure (refusal status body))
  | cut _ _ message => .error (.failure (unreachable message))
  | loss message =>
    .error (.failure (unreachable (call.method.verb ++ " " ++ Text.quoted call.url ++ ": " ++
      message)))

namespace Wire

/-- Makes a call. -/
def exchange (w : Wire) (call : Call) : Except Fault (List Char) × Wire :=
  match w.replies with
  | [] => ((Reply.loss w.dead).outcome call, { w with calls := w.calls ++ [call] })
  | r :: rs => (r.outcome call, { w with replies := rs, calls := w.calls ++ [call] })

def canceled : Fault := .plain "context canceled"

/-- Sends a command to the backend at `base`. -/
def send (w : Wire) (base : String) (cancel : Bool) (c : Command) :
    Except Fault (List Char) × Wire :=
  match c.body.mapM fun b => b.write false with
  | .error x =>
    (.error (.failure (.internal ("encoding search request: " ++ Json.unwritable x))), w)
  | .ok body =>
    match Address.read (base ++ c.target) with
    | .error e => (.error (.failure (.internal ("building search request: " ++ e))), w)
    | .ok address =>
      if cancel then (.error canceled, w) else w.exchange ⟨c.method, address.text, body⟩

theorem length_replies_of_exchange_ok {w w' : Wire} {call : Call} {body : List Char}
    (h : w.exchange call = (.ok body, w')) : w'.replies.length < w.replies.length := by
  unfold exchange at h
  split at h
  · simp [Reply.outcome] at h
  · next hr => simp at h; simp [hr, ← h.2]

/-- A command that succeeds has used up a reply. -/
theorem length_replies_of_send_ok {w w' : Wire} {base : String} {cancel : Bool} {c : Command}
    {body : List Char} (h : w.send base cancel c = (.ok body, w')) :
    w'.replies.length < w.replies.length := by
  unfold send at h
  split at h
  · simp at h
  · split at h
    · simp at h
    · split at h
      · simp at h
      · exact length_replies_of_exchange_ok h

end Wire

end SearchGateway.Backend
