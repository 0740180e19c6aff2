import SearchGateway.Text.Blank
import SearchGateway.Text.Percent

/-!
# Targets

The target of a request is a path and a query. A path is routed by its decoded form when it is
escaped in the one canonical way, and as written otherwise, so that an escaped slash divides
nothing. Parameters that are malformed are dropped.
-/

namespace SearchGateway.Http

open SearchGateway.Text

/-- Parameters by name, in the order given; a name may come more than once. -/
abbrev Params := List (String × String)

namespace Params

/-- All values of a parameter. -/
def all (p : Params) (name : String) : List String :=
  (p.filter fun kv => kv.1 = name).map (·.2)

/-- The first value of a parameter, empty when there is none. -/
def first (p : Params) (name : String) : String := (p.all name).headD ""

end Params

structure Target where
  path : String
  params : Params
  deriving DecidableEq

namespace Target

/-- The text before the first separator and the text after it. -/
def cut (sep : Char) (cs : List Char) : List Char × List Char :=
  (cs.takeWhile (· ≠ sep), (cs.dropWhile (· ≠ sep)).drop 1)

/-- The form of a path that is routed. -/
def routedPath (cs : List Char) : List Char :=
  match unescapeBytes false cs with
  | some bytes => if escapeBytes isPathChar bytes = cs then ofBytes bytes else cs
  | none => cs

/-- One parameter of a query. -/
def param? (cs : List Char) : Option (String × String) := do
  if cs = [] ∨ cs.contains ';' then none
  else
    let (k, v) := cut '=' cs
    return (String.ofList (← unescape true k), String.ofList (← unescape true v))

/-- The most parameters that a query may have. -/
def maxParams : Nat := 10000

/-- The parameters of a query; one that has too many has none. -/
def query (cs : List Char) : Params :=
  let parts := splitChars '&' cs
  if maxParams < parts.length then [] else parts.filterMap param?

def parse (text : String) : Target :=
  let (path, q) := cut '?' text.toList
  ⟨String.ofList (routedPath path), query q⟩

end Target

end SearchGateway.Http
