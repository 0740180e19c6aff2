import SearchGateway.Metrics.Tags

/-!
# Samples

Each measured call leaves one sample: it counts once, as a success or as a failure, and its
duration is recorded once. The tags of a sample have the same keys for every call of a scope with
the same outcome.
-/

namespace SearchGateway.Metrics

/-- What is measured. -/
inductive Scope
  | requests | compiler | search
  deriving DecidableEq

namespace Scope

def name : Scope → String
  | requests => "requests"
  | compiler => "compiler"
  | search => "search"

def okKeys : Scope → List String
  | requests => ["env", "route", "method", "status"]
  | compiler => ["env", "index", "compile_method"]
  | search => ["env", "index", "search_method"]

def errorKeys (s : Scope) : List String := s.okKeys ++ ["error_kind", "error_code"]

end Scope

structure Sample where
  scope : Scope
  /-- What was done, in words. -/
  resource : String
  tags : Tags
  fault : Option Fault := none

namespace Sample

/-- A compilation. -/
def compile (environment index method : String) (fault : Option Fault) : Sample where
  scope := .compiler
  resource := method
  tags := Tags.merge [[("index", index)], [("compile_method", method)],
    Tags.ofEnvironment environment]
  fault := fault

/-- A call to the backend. -/
def search (environment index method : String) (fault : Option Fault) : Sample where
  scope := .search
  resource := method
  tags := Tags.merge [[("index", index), ("search_method", method)],
    Tags.ofEnvironment environment]
  fault := fault

/-- A request served over HTTP. -/
def request (environment method route : String) (status : Int) (fault : Option Fault) : Sample where
  scope := .requests
  resource := method ++ " " ++ route
  tags := (Tags.merge [[("route", route), ("method", method)],
    Tags.ofEnvironment environment]).set "status" (toString status)
  fault := fault

/-- The tags that are recorded. -/
def recorded (s : Sample) : Tags :=
  match s.fault with
  | some f => (Tags.merge [s.tags, Tags.ofFault f]).standardize s.scope.errorKeys
  | none => s.tags.standardize s.scope.okKeys

/-- The counter a sample adds one to. -/
def counter (s : Sample) : String :=
  "counter " ++ s.scope.name ++ (if s.fault.isSome then ".error" else ".ok") ++ s.recorded.text

/-- The timer a sample adds one duration to. -/
def timer (s : Sample) : String :=
  "timer " ++ s.scope.name ++ (if s.fault.isSome then ".error" else ".response") ++ ".time" ++
    s.recorded.text

end Sample

/-- Every counter and timer with its number of entries, in order. -/
def report (samples : List Sample) : List String :=
  let entries := samples.map Sample.counter ++ samples.map Sample.timer
  (entries.eraseDups.map fun e => e ++ " " ++ toString (entries.count e)).mergeSort Text.le

end SearchGateway.Metrics
