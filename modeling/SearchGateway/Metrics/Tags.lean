import SearchGateway.Failure

/-!
# Tags

A measurement is told apart by its tags. The value `unknown` carries no information: it gives way
to any other value, and it stands for a value that is missing or empty.
-/

namespace SearchGateway.Metrics

/-- Values by key, every key once. -/
abbrev Tags := List (String × String)

def unknown : String := "unknown"

namespace Tags

/-- Adds a value, unless the key has one that carries information. -/
def add : Tags → String × String → Tags
  | [], kv => [kv]
  | (k, v) :: more, kv =>
    if k = kv.1 then (if v = unknown then kv else (k, v)) :: more
    else (k, v) :: add more kv

/-- Every key with its first value that carries information. -/
def merge (sets : List Tags) : Tags :=
  sets.flatten.foldl add []

/-- Sets a value, whatever the key had before. -/
def set (t : Tags) (k v : String) : Tags :=
  (t.filter fun kv => kv.1 ≠ k) ++ [(k, v)]

/-- Exactly the given keys, each with a value that is not empty. -/
def standardize (t : Tags) (keys : List String) : Tags :=
  keys.eraseDups.map fun k =>
    match t.lookup k with
    | some v => (k, if v = "" then unknown else v)
    | none => (k, unknown)

/-- The tags in braces, ordered by their texts. -/
def text (t : Tags) : String :=
  let items := (t.map fun (k, v) => k ++ "=" ++ v).mergeSort Text.le
  "\x7b" ++ String.intercalate "," items ++ "\x7d"

/-- What a fault adds. -/
def ofFault : Fault → Tags
  | .failure f => [("error_kind", f.kind), ("error_code", f.status.name)]
  | .plain _ => [("error_kind", "internal_error"), ("error_code", unknown)]

def service : String := "search-api"

/-- The tags of every measurement made in an environment. -/
def ofEnvironment (environment : String) : Tags :=
  [("service", service), ("env", if environment = "" then unknown else environment),
    ("version", "dev")]

end Tags

end SearchGateway.Metrics
