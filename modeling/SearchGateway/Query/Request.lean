import SearchGateway.Query.Clause

/-!
# Compiled requests

A search request is a page of a query with its ordering, facets and source selection; a lookup
names one document. The index is part of the address, so it is not in the body.
-/

namespace SearchGateway

/-- A facet asked of the backend: the most frequent terms of a field, or facets on the objects of
a nested field. -/
inductive Aggregation
  | terms (field : String) (size shardSize : Int)
  | nested (path : String) (aggregations : List (String × Aggregation))
  deriving Inhabited

namespace Aggregation

mutual

def json : Aggregation → Json
  | terms field size shardSize =>
    .object [("terms", .object [("field", .string field), ("size", .int size),
      ("shard_size", .int shardSize)])]
  | nested path aggregations =>
    .object [("nested", .object [("path", .string path)]),
      ("aggs", .object (membersJson aggregations))]

def membersJson : List (String × Aggregation) → List (String × Json)
  | [] => []
  | (name, a) :: more => (name, json a) :: membersJson more

end

end Aggregation

/-- One key of the ordering sent to the backend. `nestedPath` is empty outside nested objects. -/
structure SortClause where
  field : String
  order : String
  nestedPath : String := ""
  deriving DecidableEq

def SortClause.json (s : SortClause) : Json :=
  .object [(s.field, .record [("order", some (.string s.order)),
    ("nested", (Json.text? s.nestedPath).map fun path => .object [("path", path)])])]

/-- The document fields returned with every hit. -/
structure SourceFilter where
  includes : List String := []
  excludes : List String := []
  deriving DecidableEq, Inhabited

namespace SourceFilter

def isEmpty (s : SourceFilter) : Bool := s.includes.isEmpty && s.excludes.isEmpty

def json (s : SourceFilter) : Json :=
  .record [("includes", Json.list? (s.includes.map .string)),
    ("excludes", Json.list? (s.excludes.map .string))]

end SourceFilter

/-- A search ready to be sent. -/
structure Request where
  index : String
  query : Option Query.Body := none
  start : Int := 0
  size : Int := 0
  sort : List SortClause := []
  aggregations : List (String × Aggregation) := []
  source : SourceFilter := {}
  /-- Nanoseconds; nothing is sent unless it is positive. -/
  queryTimeout : Int := 0
  deriving Inhabited

namespace Request

/-- A time limit in whole milliseconds, at least one. -/
def timeoutText (ns : Int) : String :=
  let ms := ns / 1000000
  toString (if ms = 0 then 1 else ms) ++ "ms"

def json (r : Request) : Json :=
  .record [("from", some (.int r.start)), ("size", some (.int r.size)),
    ("timeout", if 0 < r.queryTimeout then some (.string (timeoutText r.queryTimeout)) else none),
    ("query", r.query.map fun b => b.toQuery.json),
    ("sort", Json.list? (r.sort.map SortClause.json)),
    ("aggs", if r.aggregations.isEmpty then none
      else some (.object (Aggregation.membersJson r.aggregations))),
    ("_source", if r.source.isEmpty then none else some r.source.json)]

/-- The body sent to the backend. -/
def body (r : Request) : Except Binary64 String := r.json.write false

end Request

/-- A lookup ready to be sent. -/
structure Lookup where
  index : String
  id : String
  source : SourceFilter := {}
  deriving DecidableEq, Inhabited

end SearchGateway
