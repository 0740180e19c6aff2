import SearchGateway.Failure
import SearchGateway.Text.Blank
import SearchGateway.Json.Value

/-!
# Requests of callers

Everything a caller can ask of a search, and the lookup of one document. Only the index is
required of a search, and index and id of a lookup.
-/

namespace SearchGateway

open SearchGateway.Text

structure SearchRequest where
  index : String := ""
  includeFields : List String := []
  excludeFields : List String := []
  /-- A condition in the filter language. -/
  filter : String := ""
  /-- Free text to search for. -/
  text : String := ""
  minimumShouldMatch : String := ""
  /-- The fields to search the text in, each with a boost or without. -/
  fields : List String := []
  sort : List String := []
  facets : List String := []
  facetSize : Int := 0
  start : Int := 0
  /-- Zero stands for the default of the index. -/
  size : Int := 0
  deriving DecidableEq

structure DocumentRequest where
  index : String := ""
  id : String := ""
  includeFields : List String := []
  excludeFields : List String := []
  deriving DecidableEq

/-- Why a request is refused before any index is looked at. -/
inductive RequestFault
  | indexName
  | start (got : Int)
  | size (got : Int)
  | facetSize (got : Int)
  | idRequired
  deriving DecidableEq

def RequestFault.failure : RequestFault → Failure
  | indexName => .invalid "invalid index name"
  | start n => .invalid s!"from must be a positive number, got '{n}'"
  | size n => .invalid s!"size must be a positive number, got '{n}'"
  | facetSize n => .invalid s!"facet size must be a positive number, got '{n}'"
  | idRequired => .invalid "id is a required field"

namespace SearchRequest

def hasFilter (r : SearchRequest) : Bool := !isBlankText r.filter

def hasText (r : SearchRequest) : Bool := !isBlankText r.text

def hasSort (r : SearchRequest) : Bool := r.sort.any (!isBlankText ·)

def hasFacets (r : SearchRequest) : Bool := !r.facets.isEmpty

def hasFields (r : SearchRequest) : Bool := !r.fields.isEmpty

def check (r : SearchRequest) : Except RequestFault Unit :=
  if isBlankText r.index then .error .indexName
  else if r.start < 0 then .error (.start r.start)
  else if r.size < 0 then .error (.size r.size)
  else if r.facetSize < 0 then .error (.facetSize r.facetSize)
  else .ok ()

/-- The request as a document; options that were not set are left out. -/
def json (r : SearchRequest) : Json :=
  let list (xs : List String) : Option Json := Json.list? (xs.map .string)
  let number (n : Int) : Option Json := if n = 0 then none else some (.int n)
  .record [("index", some (.string r.index)), ("include_fields", list r.includeFields),
    ("exclude_fields", list r.excludeFields), ("filter", Json.text? r.filter),
    ("q", Json.text? r.text), ("mm", Json.text? r.minimumShouldMatch), ("fields", list r.fields),
    ("sort", list r.sort), ("facets", list r.facets), ("facet_size", number r.facetSize),
    ("from", number r.start), ("size", number r.size)]

end SearchRequest

namespace DocumentRequest

def check (r : DocumentRequest) : Except RequestFault Unit :=
  if isBlankText r.index then .error .indexName
  else if isBlankText r.id then .error .idRequired
  else .ok ()

end DocumentRequest

end SearchGateway
