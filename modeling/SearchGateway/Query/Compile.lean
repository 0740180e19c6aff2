import SearchGateway.Index.Registry
import SearchGateway.Ordering
import SearchGateway.Query.Facets
import SearchGateway.Query.FreeText
import SearchGateway.Query.Lowering
import SearchGateway.SearchRequest

/-!
# Compiling requests

A caller's request becomes the request sent to the backend, by the metadata of its index. Nothing
is returned unless every part of the request is valid; of several faults the first is reported, in
the order index, page, minimum, filter, free text, sort, facets, source.
-/

namespace SearchGateway.Query

open SearchGateway.Text
open SearchGateway.Index (Metadata Registry LookupFault)

namespace Compile

inductive Fault
  | index (f : LookupFault)
  | request (f : RequestFault)
  | oversized (size max : Int) (index : String)
  | filter (text : String) (e : Filter.ParseError)
  | lowering (f : Lowering.Fault)
  | freeText (f : FreeText.Fault)
  | ordering (f : Ordering.Fault)
  | sortField (field index : String)
  | facets (f : Facets.Fault)
  | sourceField (field index : String)
  deriving DecidableEq

def Fault.failure : Fault → Failure
  | index f => f.failure
  | request f => f.failure
  | oversized size max name =>
    .invalid s!"size {size} is over the maximum of {max} for index '{name}'"
  | filter text e => e.failure text
  | lowering f => f.failure
  | freeText f => f.failure
  | ordering f => f.failure
  | sortField field name => .notFound s!"sort field '{field}' not found in index '{name}'"
  | facets f => f.failure
  | sourceField field name => .notFound s!"field '{field}' not found in index '{name}'"

/-- The page size, by default that of the index. -/
def pageSize (m : Metadata) (r : SearchRequest) : Except Fault Int := do
  r.check.mapError .request
  let size := if r.size = 0 then m.defaultSize else r.size
  if m.maxSize < size then .error (.oversized size m.maxSize m.name) else return size

/-- How much of a free text has to match. It is checked even without a free text. -/
def minimum (m : Metadata) (r : SearchRequest) : Except Fault String := do
  let asked := trim r.minimumShouldMatch
  if asked = "" ∧ !r.hasText then return ""
  else
    let text := if asked = "" then m.minimumShouldMatch else asked
    (FreeText.checkMinimum text).mapError .freeText
    return text

/-- The query of the filter alone. -/
def filterBody (m : Metadata) (r : SearchRequest) : Except Fault Body :=
  if r.hasFilter then do
    let n ← (Filter.parse r.filter).mapError (.filter r.filter)
    (ofFilter m n).mapError .lowering
  else .ok {}

/-- The clause of the free text. -/
def textClause (m : Metadata) (r : SearchRequest) (minimum : String) : Except Fault Query := do
  let fields ← (FreeText.fields m r.fields).mapError .freeText
  return .leaf (.queryString (trim r.text) fields "OR" minimum)

/-- The whole query: the free text is the first alternative beside the filter. -/
def query (m : Metadata) (r : SearchRequest) (minimum : String) : Except Fault Body := do
  let b ← filterBody m r
  if r.hasText then
    let clause ← textClause m r minimum
    return { b with should := clause :: b.should }
  else return b

def sortClause (m : Metadata) (c : Ordering.Clause) : Except Fault SortClause :=
  let name := c.field.name
  if m.hasField name then
    .ok ⟨name, c.order, if m.isNested name then c.field.first else ""⟩
  else .error (.sortField name m.name)

def sort (m : Metadata) (r : SearchRequest) : Except Fault (List SortClause) := do
  let text := Text.join "," (r.sort.filter fun s => !isBlankText s)
  let clauses ← (Ordering.parse text).mapError .ordering
  clauses.mapM (sortClause m)

/-- The source fields of the index and of the request together; what is included is never
excluded. Of several unknown fields the first by its bytes is reported. -/
def source (m : Metadata) (includes excludes : List String) : Except Fault SourceFilter :=
  let inc := (NameSet.ofList m.sourceIncludes).insertMany (items includes)
  let exc := (NameSet.ofList (items excludes)).insertMany m.sourceExcludes
  let unknown := fun s : NameSet => (s.toList.filter fun f => !m.hasField f).mergeSort Text.le
  match (unknown inc ++ unknown exc).head? with
  | some f => .error (.sourceField f m.name)
  | none => .ok ⟨inc.toList, (exc.eraseMany inc.toList).toList⟩

/-- Compiles a request for the index of the metadata. -/
def search (m : Metadata) (r : SearchRequest) : Except Fault Request := do
  let size ← pageSize m r
  let minimum ← minimum m r
  let body ← query m r minimum
  let sort ← sort m r
  let aggregations ← (facets m r.facetSize r.facets).mapError .facets
  let source ← source m r.includeFields r.excludeFields
  return {
    index := m.name
    query := some body
    start := r.start
    size, sort, aggregations, source
    queryTimeout := m.queryTimeout }

/-- Compiles a lookup for the index of the metadata. -/
def document (m : Metadata) (r : DocumentRequest) : Except Fault Lookup := do
  r.check.mapError .request
  let source ← source m r.includeFields r.excludeFields
  return ⟨m.name, trim r.id, source⟩

end Compile

/-- Compiles a search. -/
def compile (registry : Registry) (r : SearchRequest) : Except Compile.Fault Request := do
  let m ← (registry.find r.index).mapError .index
  Compile.search m r

/-- Compiles a lookup. -/
def compileLookup (registry : Registry) (r : DocumentRequest) : Except Compile.Fault Lookup := do
  let m ← (registry.find r.index).mapError .index
  Compile.document m r

end SearchGateway.Query
