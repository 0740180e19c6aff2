import SearchGateway.Config.Tree
import SearchGateway.Config.Weak
import SearchGateway.Index.Metadata
import SearchGateway.Yaml.Value

/-!
# Configuration

The options of the server and of its indexes. A document sets the options it mentions, all others
keep their defaults. What it says beside the known options is ignored, and so is a section that is
not a map.
-/

namespace SearchGateway.Config

open SearchGateway.Index (Settings FieldSetting)
open SearchGateway.Yaml (Value)

structure LogOptions where
  level : String := "info"
  format : String := "console"
  sampleRate : Nat := 0
  deriving DecidableEq

structure ServerOptions where
  host : String := "0.0.0.0"
  port : Int := 8080
  readHeaderTimeout : Int := 5000000000
  /-- Requests per second, unlimited when zero. -/
  rateLimit : Int := 0
  rateBurst : Int := 100
  deriving DecidableEq

structure SearchOptions where
  host : String := "localhost"
  port : Int := 9200
  timeout : Int := 2000000000
  deriving DecidableEq

structure TracingOptions where
  enabled : Bool := false
  sampleRate : Binary64 := (Binary64.ofDecimal? false 1 (-2)).getD Binary64.zero
  agentAddress : String := ""
  deriving DecidableEq

structure Options where
  log : LogOptions := {}
  server : ServerOptions := {}
  search : SearchOptions := {}
  metricsEnabled : Bool := true
  tracing : TracingOptions := {}
  indexes : List (String × Settings) := []
  deriving DecidableEq

/-- Why a configuration is refused. -/
inductive Error
  | unreadable
  | wrongType
  deriving DecidableEq

def Error.message : Error → String
  | unreadable => "error reading config"
  | wrongType => "error unmarshalling config"

/-- A member of a map, or what it is when the map does not set it. -/
def option (members : List (String × Value)) (name : String) (read : Value → Option α)
    (default : α) : Option α :=
  match members.lookup name with
  | none | some .null => some default
  | some v => read v

/-- A member whose name may also be written with other characters that fold to its own. -/
def foldedOption (members : List (String × Value)) (name : String) (read : Value → Option α)
    (default : α) : Option α :=
  match members.lookup name, members.find? fun m => Text.foldsTo name m.1 with
  | none, some (key, _) => option members key read default
  | _, _ => option members name read default

/-- The members of a section. -/
def sectionOf (tree : List (String × Value)) (name : String) : List (String × Value) :=
  match tree.lookup name with
  | some (.map members) => members
  | _ => []

def logOptions (m : List (String × Value)) : Option LogOptions := do
  let d : LogOptions := {}
  return {
    level := ← option m "level" text? d.level
    format := ← option m "format" text? d.format
    sampleRate := ← option m "sample_rate" (natural? 32) d.sampleRate }

def serverOptions (m : List (String × Value)) : Option ServerOptions := do
  let d : ServerOptions := {}
  return {
    host := ← option m "host" text? d.host
    port := ← option m "port" (integer? 16) d.port
    readHeaderTimeout := ← option m "read_header_timeout" duration? d.readHeaderTimeout
    rateLimit := ← option m "rate_limit" (integer? 64) d.rateLimit
    rateBurst := ← option m "rate_burst" (integer? 64) d.rateBurst }

def searchOptions (m : List (String × Value)) : Option SearchOptions := do
  let d : SearchOptions := {}
  return {
    host := ← option m "host" text? d.host
    port := ← option m "port" (integer? 16) d.port
    timeout := ← option m "timeout" duration? d.timeout }

def tracingOptions (m : List (String × Value)) : Option TracingOptions := do
  let d : TracingOptions := {}
  return {
    enabled := ← option m "enabled" truth? d.enabled
    sampleRate := ← option m "sample_rate" double? d.sampleRate
    agentAddress := ← option m "agent_addr" text? d.agentAddress }

/-- A declared field. A point in time is a structure without members. -/
def fieldSetting? : Value → Option FieldSetting
  | .null | .time _ => some ⟨"", ""⟩
  | .map m => do return ⟨← foldedOption m "name" text? "", ← foldedOption m "type" text? ""⟩
  | _ => none

def fieldSettings? : Value → Option (List FieldSetting)
  | .string s => if s = "" then some [] else none
  | .list vs => vs.mapM fieldSetting?
  | .map [] => some []
  | v => (fieldSetting? v).map ([·])

/-- The settings of an index, as they are written. -/
def indexSettings? : Value → Option Settings
  | .map m => do
    return {
      shards := ← foldedOption m "shards" (integer? 64) 0
      idField := ← foldedOption m "id_field" text? ""
      defaultSize := ← foldedOption m "default_size" (integer? 64) 0
      maxSize := ← foldedOption m "max_size" (integer? 64) 0
      facetSize := ← foldedOption m "facet_size" (integer? 64) 0
      minimumShouldMatch := ← foldedOption m "mm" text? ""
      defaultFields := ← foldedOption m "default_fields" texts? []
      sourceIncludes := ← foldedOption m "source_includes" texts? []
      sourceExcludes := ← foldedOption m "source_excludes" texts? []
      fields := ← foldedOption m "fields" fieldSettings? []
      queryTimeout := ← foldedOption m "query_timeout" duration? 0 }
  | .time _ => some {}
  | _ => none

/-- The sections of a configuration. -/
def sections : List String := ["log", "server", "search", "metrics", "tracing", "indexes"]

/-- Sections that are not maps say nothing. -/
def knownShape : String × Value → Bool
  | (_, .map _) => true
  | (name, _) => name ∉ sections

/-- The options that a tree of settings sets. -/
def ofTree (tree : List (String × Value)) : Option Options := do
  return {
    log := ← logOptions (sectionOf tree "log")
    server := ← serverOptions (sectionOf tree "server")
    search := ← searchOptions (sectionOf tree "search")
    metricsEnabled := ← option (sectionOf tree "metrics") "enabled" truth? true
    tracing := ← tracingOptions (sectionOf tree "tracing")
    indexes := ← (sectionOf tree "indexes").mapM fun (name, v) => do
      return (name, ← indexSettings? v) }

/-- Reads a configuration. -/
def read (text : String) : Except Error Options :=
  match Yaml.read? text with
  | none => .error .unreadable
  | some members =>
    match ofTree (settingsOf ((lowerMembers members).filter knownShape)) with
    | some options => .ok options
    | none => .error .wrongType

end SearchGateway.Config
