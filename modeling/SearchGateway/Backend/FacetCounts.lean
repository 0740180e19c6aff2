import SearchGateway.Json.Seek
import SearchGateway.Query.Request
import SearchGateway.Text.NameSet

/-!
# Facet counts

The counts of a facet stand in the response under the names of its aggregation: directly for a
field of the document, one level down for a field of a nested object. A facet the response does not
mention has no counts.
-/

namespace SearchGateway.Backend

open SearchGateway.Json

/-- How many documents hold a value. -/
structure FacetCount where
  value : String
  count : Int64
  deriving DecidableEq

namespace FacetCount

def json (c : FacetCount) : Json :=
  .object [("value", .string c.value), ("count", .int c.count.toInt)]

/-- The value a bucket counts. The readable form of its key comes first; a key that is null counts
nothing. -/
def valueOf? (bucket : List Char) : Option String :=
  match getString bucket ["key_as_string"] with
  | .ok s => some s
  | .error _ =>
    match get bucket ["key"] with
    | .error _ => none
    | .ok ⟨.null, _⟩ => none
    | .ok ⟨.string, key⟩ => some (String.ofList ((unescape key).getD key))
    | .ok ⟨_, key⟩ => some (String.ofList key)

/-- The count of a bucket, if the bucket has both a number of documents and a value. -/
def ofBucket? (bucket : List Char) : Option FacetCount := do
  let count ← (getInt bucket ["doc_count"]).toOption
  return ⟨← valueOf? bucket, count⟩

end FacetCount

/-- The facet fields of aggregations, each with the names that lead to its counts. -/
def facetPaths (aggregations : List (String × Aggregation)) : List (String × List String) :=
  aggregations.flatMap fun
    | (name, .terms field _ _) => [(field, [name])]
    | (name, .nested _ subs) => subs.filterMap fun
      | (sub, .terms field _ _) => some (field, [name, sub])
      | (_, .nested _ _) => none

/-- The path asked for last for a field. -/
def facetPath? (paths : List (String × List String)) (field : String) : Option (List String) :=
  paths.reverse.lookup field

/-- The counts at a path of the aggregations of a response. -/
def facetCounts (response : List Char) (path : List String) : List FacetCount :=
  if response = [] then []
  else (getArray response (path ++ ["buckets"])).1.filterMap fun b => FacetCount.ofBucket? b.text

/-- The facets of a response, in the order of their fields. -/
def facets (aggregations : List (String × Aggregation)) (response : List Char) :
    List (String × List FacetCount) :=
  let paths := facetPaths aggregations
  (NameSet.ofList (paths.map (·.1))).toList.map fun field =>
    (field, facetCounts response ((facetPath? paths field).getD []))

end SearchGateway.Backend
