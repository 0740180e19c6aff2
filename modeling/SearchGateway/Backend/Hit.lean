import SearchGateway.Json.Seek

/-!
# Documents and pages

What the backend answers: a page of documents with the number of all matches, or one document. The
source of a document and the aggregations of a page are kept as the text the backend sent.
-/

namespace SearchGateway.Backend

open SearchGateway.Json

structure Hit where
  id : String
  score : Binary64 := Binary64.zero
  /-- The text of an object, absent when the backend sent none. -/
  source : Option (List Char) := none
  deriving DecidableEq

structure Page where
  total : Int64 := 0
  hits : List Hit := []
  aggregations : Option (List Char) := none
  deriving DecidableEq

/-- Why a response is not understood. -/
inductive DecodeError
  | total (e : SeekError)
  | hits (e : SeekError)
  | id (e : SeekError)
  deriving DecidableEq

def DecodeError.message : DecodeError → String
  | total e => "reading hits total: " ++ e.message
  | hits e => "reading hits: " ++ e.message
  | id e => "reading hit id: " ++ e.message

/-- The object at a path, as its text. -/
def objectAt? (text : List Char) (path : List String) : Option (List Char) :=
  match get text path with
  | .ok ⟨.object, found⟩ => some found
  | _ => none

/-- A document needs an id; a score or source that cannot be read is taken as absent. -/
def Hit.decode (text : List Char) : Except DecodeError Hit := do
  let id ← (getString text ["_id"]).mapError .id
  return {
    id
    score := (getFloat text ["_score"]).toOption.getD Binary64.zero
    source := objectAt? text ["_source"] }

/-- The number of all matches: an object with a value, or a bare number, or nothing at all. -/
def decodeTotal (body : List Char) : Except DecodeError Int64 :=
  match getInt body ["hits", "total", "value"] with
  | .ok n => .ok n
  | .error .pathNotFound =>
    match getInt body ["hits", "total"] with
    | .ok n => .ok n
    | .error .pathNotFound => .ok 0
    | .error e => .error (.total e)
  | .error e => .error (.total e)

/-- The documents of a page. A flaw of the array itself comes before a flaw of a document. -/
def decodeHits (body : List Char) : Except DecodeError (List Hit) :=
  let (items, e) := getArray body ["hits", "hits"]
  match e with
  | none | some .pathNotFound => items.mapM fun v => Hit.decode v.text
  | some e => .error (.hits e)

/-- The page of a search response. -/
def Page.decode (body : List Char) : Except DecodeError Page := do
  let total ← decodeTotal body
  let hits ← decodeHits body
  return { total, hits, aggregations := objectAt? body ["aggregations"] }

/-- The id under which the backend keeps a scroll open, empty when it names none. -/
def scrollIdOf (body : List Char) : String :=
  (getString body ["_scroll_id"]).toOption.getD ""

/-- The document of a lookup response, `none` when the backend says that there is none. -/
def decodeLookup (body : List Char) : Except DecodeError (Option Hit) :=
  match getBool body ["found"] with
  | .ok false => .ok none
  | _ => (Hit.decode body).map some

end SearchGateway.Backend
