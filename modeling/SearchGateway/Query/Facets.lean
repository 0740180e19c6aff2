import SearchGateway.Filter.Parser
import SearchGateway.Index.Metadata
import SearchGateway.Query.Request

/-!
# Facet requests

One aggregation per first segment of the requested fields. The fields of a nested object share a
nested aggregation; two other fields may not share a first segment.
-/

namespace SearchGateway.Query

open SearchGateway.Text
open SearchGateway.Filter (Field ParseError)
open SearchGateway.Index (Metadata)

namespace Facets

inductive Fault
  | field (text : String) (e : ParseError)
  | unknownField (field index : String)
  | bareNested (field : String)
  | shared (first second parent : String)
  deriving DecidableEq

def Fault.failure : Fault → Failure
  | field text e => e.failure text
  | unknownField name index => .notFound s!"facet field '{name}' not found in index '{index}'"
  | bareNested name => .invalid s!"facet on nested field '{name}' requires a sub-field"
  | shared first second parent =>
    .invalid s!"facet fields '{first}' and '{second}' share the aggregation name '{parent}'"

/-- The field of one entry. -/
def facetField (m : Metadata) (text : String) : Except Fault Field := do
  let f ← (Field.parse text).mapError (.field text)
  if !m.hasField f.name then .error (.unknownField f.name m.name)
  else if m.isNested f.name && f.path.length == 1 then .error (.bareNested f.name)
  else return f

/-- The fields asked for under one first segment, in the order asked. -/
abbrev Family := String × List String

/-- Adds a field to its family, unless it is there already. -/
def join (m : Metadata) (f : Field) : List Family → Except Fault (List Family)
  | [] => .ok [(f.first, [f.name])]
  | (parent, names) :: more =>
    if parent = f.first then
      if f.name ∈ names then .ok ((parent, names) :: more)
      else if m.isNested f.name then .ok ((parent, names ++ [f.name]) :: more)
      else .error (.shared (names.headD "") f.name parent)
    else do return (parent, names) :: (← join m f more)

/-- Adds the entries in turn. -/
def families (m : Metadata) : List Family → List String → Except Fault (List Family)
  | fs, [] => .ok fs
  | fs, text :: texts => do families m (← join m (← facetField m text) fs) texts

/-- The aggregation of a family. -/
def aggregation (m : Metadata) (size : Int) (family : Family) : String × Aggregation :=
  let terms (name : String) : Aggregation := .terms name size m.shards
  if m.isNested family.1 then
    (family.1, .nested family.1 (family.2.map fun name => (name, terms name)))
  else (family.1, terms (family.2.headD ""))

end Facets

/-- The aggregations of the requested facets, in the order of their names. -/
def facets (m : Metadata) (size : Int) (entries : List String) :
    Except Facets.Fault (List (String × Aggregation)) := do
  let size := if size = 0 then m.facetSize else size
  let families ← Facets.families m [] (items entries)
  return (families.mergeSort fun a b => a.1 ≤ b.1).map (Facets.aggregation m size)

end SearchGateway.Query
