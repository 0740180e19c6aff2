import SearchGateway.Text.Blank
import SearchGateway.Text.LowerCase
import SearchGateway.Yaml.Value

/-!
# Trees of settings

Settings are named by dotted paths without regard to case. A document is flattened to the paths of
its values and built up again from them: a dot in a key divides it, and what holds no value at all
disappears.
-/

namespace SearchGateway.Config

open SearchGateway.Yaml (Value)

mutual

/-- All keys in lower case; of two keys that become equal the later one counts. -/
def lowerKeys : Value → Value
  | .map members => .map (lowerMembers members)
  | .list items => .list (lowerItems items)
  | v => v

def lowerItems : List Value → List Value
  | [] => []
  | v :: vs => lowerKeys v :: lowerItems vs

def lowerMembers : List (String × Value) → List (String × Value)
  | [] => []
  | (k, v) :: ms =>
    let rest := lowerMembers ms
    if (rest.lookup (Text.lower k)).isSome then rest else (Text.lower k, lowerKeys v) :: rest

end

mutual

/-- The paths of all values below a path, each path as one text. -/
def pathsIn (path : List String) : Value → List String
  | .map members => pathsOfMembers path members
  | _ => [Text.join "." path]

def pathsOfMembers (path : List String) : List (String × Value) → List String
  | [] => []
  | (k, v) :: ms => pathsIn (path ++ [k]) v ++ pathsOfMembers path ms

end

/-- The most parts that a key has. -/
def longestKey (members : List (String × Value)) : Nat :=
  members.foldl (fun n m => max n (Text.split '.' m.1).length) 0

/-- The value at a path; the longest key that begins the path comes first. `n` counts the parts
that a key is tried with, and `fuel` the depth. -/
def valueAt (fuel : Nat) (members : List (String × Value)) (path : List String) : Nat → Option Value
  | 0 => none
  | n + 1 =>
    let found :=
      match members.lookup (Text.join "." (path.take (n + 1))), path.drop (n + 1) with
      | some .null, [] => none
      | some v, [] => some v
      | some (.map inner), rest =>
        match fuel with
        | 0 => none
        | fuel + 1 => valueAt fuel inner rest (min rest.length (longestKey inner))
      | _, _ => none
    found <|> valueAt fuel members path n

/-- Sets the value at a path. A value in the way gives place to the object the path needs. -/
def insertAt (value : Value) : List String → List (String × Value) → List (String × Value)
  | [], ms => ms
  | [k], ms => ms.filter (·.1 ≠ k) ++ [(k, value)]
  | k :: path, ms =>
    let inner :=
      match ms.lookup k with
      | some (.map inner) => inner
      | _ => []
    ms.filter (·.1 ≠ k) ++ [(k, .map (insertAt value path inner))]

/-- The settings of a document. -/
def settingsOf (members : List (String × Value)) : List (String × Value) :=
  let longest := longestKey members
  (pathsOfMembers [] members).foldl (fun tree key =>
    let path := Text.split '.' key
    match valueAt path.length members path (min path.length longest) with
    | some v => insertAt v path tree
    | none => tree) []

end SearchGateway.Config
