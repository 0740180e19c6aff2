import SearchGateway.Admin.Help
import SearchGateway.Admin.Table
import SearchGateway.Json.Pretty
import SearchGateway.Ordering
import SearchGateway.Query.Compile

/-!
# Running commands

A command either prints one text or fails and prints nothing.
-/

namespace SearchGateway.Admin

open SearchGateway.Index (Registry Metadata)

/-- A row for every index. -/
def indexTable (r : Registry) : Except Fault String := do
  let rows ← r.names.mapM fun name => do
    let m ← (r.find name).mapError fun e => Fault.failure e.failure
    return [name, toString m.shards, toString m.defaultSize, toString m.maxSize,
      toString m.fields.length]
  return Table.render (["INDEX", "SHARDS", "DEFAULT SIZE", "MAX SIZE", "FIELDS"] :: rows)

/-- A row for every field of an index. -/
def fieldTable (m : Metadata) : String :=
  let names := (m.fields.map (·.1)).mergeSort fun a b => !(b < a)
  Table.render (["FIELD", "TYPE"] :: names.map fun name =>
    [name, ((m.kindOf? name).getD .unknown).name])

def runIndexes (r : Registry) : List String → Except Fault String
  | [] => indexTable r
  | name :: _ => ((r.find name).mapError fun e => Fault.failure e.failure).map fieldTable

/-- Prints an expression in full: a filter, or sort clauses. -/
def runParse (sort : Bool) (text : String) : Except Fault String :=
  if sort then do
    let clauses ← (Ordering.parse text).mapError fun e => Fault.failure e.failure
    return String.join (clauses.map fun c => c.field.name ++ " " ++ c.order ++ "\n")
  else do
    let f ← (Filter.parse text).mapError fun e => Fault.failure (e.failure text)
    return f.text ++ "\n"

def searchRequestOf (v : FlagValues) (index : String) : SearchRequest where
  index := index
  filter := v.text "filter"
  text := v.text "q"
  minimumShouldMatch := v.text "mm"
  fields := v.list "fields"
  sort := v.list "sort"
  facets := v.list "facets"
  facetSize := v.integer "facet-size"
  start := v.integer "from"
  size := v.integer "size"
  includeFields := v.list "include"
  excludeFields := v.list "exclude"

/-- Prints the body that would be sent. -/
def runCompile (r : Registry) (v : FlagValues) (index : String) : Except Fault String := do
  let c ← (Query.compile r (searchRequestOf v index)).mapError fun e => Fault.failure e.failure
  let body ← c.body.mapError fun x => Fault.plain (Json.unwritable x)
  return body ++ "\n"

/-- A lookup as a document. The selection of fields keeps the layout it has on its own. -/
def lookupJson (l : Lookup) : Json :=
  .object ((if l.source.isEmpty then [] else [("_source", .raw (l.source.json.pretty 0))]) ++
    [("id", .string l.id), ("index", .string l.index)])

/-- Prints the lookup that would be made. -/
def runGet (r : Registry) (v : FlagValues) (index id : String) : Except Fault String := do
  let l ← (Query.compileLookup r {
      index, id, includeFields := v.list "include", excludeFields := v.list "exclude" }).mapError
    fun e => Fault.failure e.failure
  return String.ofList ((lookupJson l).pretty 0) ++ "\n"

/-- Runs a command with its own arguments. -/
def runCommand (r : Registry) (c : Command) (args : List String) : Except Fault String :=
  match FlagValues.parse c.allFlags {} args with
  | .error e => .error (.plain e.message)
  | .ok (v, operands) =>
    if v.switch "help" then .ok (Help.commandPage c)
    else
      match c.arity.complaint? operands.length with
      | some complaint => .error (.plain complaint)
      | none =>
        match c, operands with
        | .indexes, names => runIndexes r names
        | .parse, text :: _ => runParse (v.switch "sort") text
        | .compile, index :: _ => runCompile r v index
        | .get, index :: id :: _ => runGet r v index id
        | _, _ => .ok ""

/-- Shows a page, if no flag but the one for help is set. -/
def showPage (name page : String) (args : List String) : Except Fault String :=
  match FlagValues.parse [helpFlag name] {} args with
  | .error e => .error (.plain e.message)
  | .ok _ => .ok page

/-- Answers a question about topics. -/
def runHelp (args : List String) : Except Fault String :=
  match FlagValues.parse [helpFlag "help"] {} args with
  | .error e => .error (.plain e.message)
  | .ok (v, topics) => .ok (if v.switch "help" then Help.helpPage else Help.answer topics)

/-- The part of the program about a shell. Only its page is written here. -/
def runShell (s : Shell) (args : List String) : Except Fault String :=
  match FlagValues.parse s.flags {} args with
  | .error e => .error (.plain e.message)
  | .ok (v, operands) =>
    match v.switch "help", operands with
    | false, name :: _ =>
      .error (.plain ("unknown command " ++ Text.quoted name ++ " for " ++
        Text.quoted (program ++ " completion " ++ s.name)))
    | _, _ => .ok (Help.shellPage s)

/-- Completion in shells: the page about it, or one shell's part. -/
def runCompletion (args : List String) : Except Fault String :=
  match (operandsOf args).head?.bind Shell.ofName? with
  | some s => runShell s (dropOperand s.name args)
  | none => showPage "completion" Help.completionPage args

def unknownCommand (name : String) : Fault :=
  .plain ("unknown command " ++ Text.quoted name ++ " for " ++ Text.quoted program ++
    Similar.question name offeredNames)

/-- Runs the program with its arguments. -/
def run (r : Registry) (args : List String) : Except Fault String :=
  match operandsOf args with
  | [] => showPage program Help.programPage args
  | name :: _ =>
    if name = "help" then runHelp (dropOperand name args)
    else if name = "completion" then runCompletion (dropOperand name args)
    else
      match Command.ofName? name with
      | some c => runCommand r c (dropOperand name args)
      | none => .error (unknownCommand name)

end SearchGateway.Admin
