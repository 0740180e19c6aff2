import SearchGateway.Filter.Literal
import SearchGateway.Json.Value

/-!
# Compiled queries

The query language of the backend: leaf clauses that test one field, boolean combinations, and
nested scopes. A `Query` is what a filter is lowered to; its document is what is sent.
-/

namespace SearchGateway

open SearchGateway.Filter (Literal Point)

namespace Query

/-- A clause that tests documents by itself. -/
inductive Leaf
  | matching (field : String) (value : Literal) (operator : String)
  | present (field : String)
  /-- A null bound is left out. -/
  | range (field : String) (gt gte lt lte : Literal)
  /-- A list that was never given is `none`, here and below. -/
  | terms (field : String) (values : Option (List Literal))
  | ids (values : Option (List String))
  | wildcard (field : String) (pattern : String)
  | geoBox (field : String) (topLeft bottomRight : Point)
  | geoPolygon (field : String) (points : Option (List Point))
  | queryString (query : String) (fields : List String) (operator minimum : String)
  deriving Inhabited

end Query

/-- A query: all of `must`, none of `mustNot`, and as many of `should` as `minimum` asks for. -/
inductive Query
  | leaf (l : Query.Leaf)
  | bool (must mustNot should : List Query) (minimum : String)
  | nested (path : String) (query : Query)
  deriving Inhabited

namespace Query

/-- The parts of a boolean query. -/
structure Body where
  must : List Query := []
  mustNot : List Query := []
  should : List Query := []
  minimum : String := ""
  deriving Inhabited

namespace Body

def toQuery (b : Body) : Query := .bool b.must b.mustNot b.should b.minimum

def isEmpty (b : Body) : Bool := b.must.isEmpty && b.mustNot.isEmpty && b.should.isEmpty

end Body

mutual

def literalJson : Literal → Json
  | .null => .null
  | .bool b => .bool b
  | .int i => .int i.toInt
  | .float x => .float x
  | .string s => .string s
  | .list items => .array (literalsJson items)

def literalsJson : List Literal → List Json
  | [] => []
  | v :: vs => literalJson v :: literalsJson vs

end

def pointJson (p : Point) : Json := .object [("lat", .float p.lat), ("lon", .float p.lon)]

/-- A bound, unless it is null. -/
def bound? (v : Literal) : Option Json := if v.isNull then none else some (literalJson v)

/-- A list, or null when none was given. -/
def listOrNull : Option (List Json) → Json
  | some items => .array items
  | none => .null

def Leaf.json : Leaf → Json
  | .matching field value operator =>
    .object [("match", .object [(field,
      .object [("query", literalJson value), ("operator", .string operator)])])]
  | .present field => .object [("exists", .object [("field", .string field)])]
  | .range field gt gte lt lte =>
    .object [("range", .object [(field,
      .record [("gt", bound? gt), ("gte", bound? gte), ("lt", bound? lt), ("lte", bound? lte)])])]
  | .terms field values =>
    .object [("terms", .object [(field, listOrNull (values.map literalsJson))])]
  | .ids values =>
    .object [("ids", .object [("values", listOrNull (values.map fun vs => vs.map .string))])]
  | .wildcard field pattern =>
    .object [("wildcard", .object [(field, .object [("value", .string pattern)])])]
  | .geoBox field topLeft bottomRight =>
    .object [("geo_bounding_box", .object [(field,
      .object [("top_left", pointJson topLeft), ("bottom_right", pointJson bottomRight)])])]
  | .geoPolygon field points =>
    .object [("geo_polygon", .object [(field,
      .object [("points", listOrNull (points.map fun ps => ps.map pointJson))])])]
  | .queryString query fields operator minimum =>
    .object [("query_string", .record [("query", some (.string query)),
      ("fields", Json.list? (fields.map .string)), ("default_operator", some (.string operator)),
      ("minimum_should_match", Json.text? minimum)])]

mutual

/-- The document of a query. -/
def json : Query → Json
  | leaf l => l.json
  | bool must mustNot should minimum =>
    .object [("bool", .record [("must", Json.list? (jsons must)),
      ("must_not", Json.list? (jsons mustNot)), ("should", Json.list? (jsons should)),
      ("minimum_should_match", Json.text? minimum)])]
  | nested path query =>
    .object [("nested", .object [("path", .string path), ("query", json query)])]

def jsons : List Query → List Json
  | [] => []
  | q :: qs => json q :: jsons qs

end

end Query

end SearchGateway
