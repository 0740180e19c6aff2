import SearchGateway.Admin.Run
import SearchGateway.Config.Options

/-!
# The admin program

Reads the configuration from the first place that has one and runs a command on its indexes.
-/

namespace SearchGateway.Admin

/-- Where a configuration is looked for, in order. -/
def configDirectories (home : String) : List String :=
  ["/etc/search-api/", home ++ "/.search-api/", "./config/", "./"]

/-- The name of the configuration, which may depend on the environment. -/
def configName (environment : String) : String :=
  "search-api" ++ (if environment = "" then "" else "." ++ environment) ++ ".yaml"

/-- The first of the files that can be read; none counts as an empty configuration. -/
def readFirst : List String → IO String
  | [] => return ""
  | path :: paths => do
    try IO.FS.readFile path
    catch _ => readFirst paths

/-- The environment the program runs in. -/
def environment : IO String := do
  match ← IO.getEnv "search_api_environment" with
  | some "" | none => return (← IO.getEnv "SEARCH_API_ENVIRONMENT").getD ""
  | some name => return name

end SearchGateway.Admin

open SearchGateway in
def main (args : List String) : IO UInt32 := do
  let home := (← IO.getEnv "HOME").getD ""
  let name := Admin.configName (← Admin.environment)
  let text ← Admin.readFirst ((Admin.configDirectories home).map (· ++ name))
  match Config.read (Text.ofUnicode text) with
  | .error e =>
    IO.eprintln e.message
    return 1
  | .ok options =>
    match Index.Registry.make options.indexes with
    | .error flaws =>
      IO.eprint (Text.toUnicode (Index.Flaw.report (flaws.map Index.Flaw.message)))
      return 1
    | .ok registry =>
      match Admin.run registry (args.map Text.ofUnicode) with
      | .error f =>
        IO.eprintln (Text.toUnicode f.message)
        return 1
      | .ok out =>
        IO.print (Text.toUnicode out)
        return 0
