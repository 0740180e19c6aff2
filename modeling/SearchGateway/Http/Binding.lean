import SearchGateway.Http.Target
import SearchGateway.Number.Numeral
import SearchGateway.SearchRequest

/-!
# Requests from parameters

List parameters may be repeated, divided by commas, or both. A number may have blanks around it,
and an empty one is zero.
-/

namespace SearchGateway.Http

open SearchGateway.Text

namespace Params

/-- The items of a list parameter. -/
def items (p : Params) (name : String) : List String := Text.items (p.all name)

/-- A whole number of 64 bits. -/
def integer (p : Params) (name : String) : Except Failure Int :=
  let value := trim (p.first name)
  if value = "" then .ok 0
  else
    match readInt64? value with
    | some i => .ok i.toInt
    | none => .error (.invalid s!"parameter '{name}' must be an integer, got '{value}'")

/-- The search that the parameters ask of an index. -/
def searchRequest (p : Params) (index : String) : Except Failure SearchRequest := do
  let start ← p.integer "from"
  let size ← p.integer "size"
  let facetSize ← p.integer "facetSize"
  return {
    index
    filter := p.first "filter"
    text := p.first "q"
    minimumShouldMatch := p.first "mm"
    fields := p.items "fields"
    sort := p.items "sort"
    facets := p.items "facets"
    includeFields := p.items "includeFields"
    excludeFields := p.items "excludeFields"
    start, size, facetSize }

/-- The lookup that the parameters ask for. -/
def documentRequest (p : Params) (index id : String) : DocumentRequest where
  index := index
  id := id
  includeFields := p.items "includeFields"
  excludeFields := p.items "excludeFields"

end Params

end SearchGateway.Http
