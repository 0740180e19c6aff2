import SearchGateway.Failure
import SearchGateway.Text.NameSet
import SearchGateway.Index.Metadata

/-!
# The registry of indexes

A registry holds the metadata of every index. A refresh builds all metadata first and takes it
over as a whole; when any index has a flaw the registry stays as it is.
-/

namespace SearchGateway.Index

structure Registry where
  indexes : List (String × Metadata)

/-- Why an index cannot be looked up. -/
inductive LookupFault
  | nameRequired
  | notFound (name : String)
  deriving DecidableEq

def LookupFault.failure : LookupFault → Failure
  | nameRequired => .invalid "index is required"
  | notFound name => .notFound s!"index '{name}' not found"

namespace Registry

/-- The metadata of all indexes, and the flaws of all that have any. -/
def build : List (String × Settings) → List (String × Metadata) × List Flaw
  | [] => ([], [])
  | (name, settings) :: more =>
    let (metas, flaws) := build more
    match Metadata.make name settings with
    | .ok m => ((name, m) :: metas, flaws)
    | .error es => (metas, es ++ flaws)

/-- A registry of the configured indexes. -/
def make (configs : List (String × Settings)) : Except (List Flaw) Registry :=
  match build configs with
  | (metas, []) => .ok ⟨metas⟩
  | (_, flaws) => .error flaws

/-- Replaces the content, or reports the flaws and keeps it. -/
def refresh (r : Registry) (configs : List (String × Settings)) : Registry × List Flaw :=
  match make configs with
  | .ok next => (next, [])
  | .error flaws => (r, flaws)

def find (r : Registry) (name : String) : Except LookupFault Metadata :=
  if name = "" then .error .nameRequired
  else
    match r.indexes.find? (·.1 = name) with
    | some (_, m) => .ok m
    | none => .error (.notFound name)

/-- The names of the indexes in ascending order. -/
def names (r : Registry) : List String := (NameSet.ofList (r.indexes.map (·.1))).toList

end Registry

end SearchGateway.Index
