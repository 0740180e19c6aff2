import SearchGateway.Admin.Command

/-!
# Help

The page about the program lists its commands, the page about a command its flags in alphabetical
order.
-/

namespace SearchGateway.Admin.Help

/-- The word for the value of a flag. -/
def valueWord : FlagKind → String
  | .text => " string"
  | .list => " strings"
  | .integer => " int"
  | .switch => ""

/-- The left side of a flag's line. -/
def flagHead (f : Flag) : String :=
  (if f.short.isSome then "  " else "      ") ++ f.label ++ valueWord f.kind

def flagLines (flags : List Flag) : String :=
  let flags := flags.mergeSort fun a b => a.name ≤ b.name
  let width := flags.foldl (fun w f => max w (flagHead f).length) 0
  String.join (flags.map fun f =>
    flagHead f ++ "".pushn ' ' (width - (flagHead f).length) ++ "   " ++ f.usage ++ "\n")

/-- The page about a command. -/
def commandPage (c : Command) : String :=
  c.summary ++ "\n\nUsage:\n  " ++ program ++ " " ++ c.name ++ " " ++ c.operands ++
    " [flags]\n\nFlags:\n" ++ flagLines c.allFlags

/-- How something with commands of its own is used. -/
def usageOf (path name : String) (listed : List (String × String)) : String :=
  "Usage:\n  " ++ path ++ " [command]\n\nAvailable Commands:\n" ++
    String.join (listed.map fun (name, summary) =>
      "  " ++ name ++ "".pushn ' ' (12 - name.length) ++ summary ++ "\n") ++
    "\nFlags:\n" ++ flagLines [helpFlag name] ++
    "\nUse \"" ++ path ++ " [command] --help\" for more information about a command.\n"

/-- The commands of the program's page. -/
def listed : List (String × String) :=
  let all := Command.all.map (fun c => (c.name, c.summary)) ++
    [("completion", "Generate the autocompletion script for the specified shell"),
      ("help", "Help about any command")]
  all.mergeSort fun a b => a.1 ≤ b.1

/-- How the program is used. -/
def usage : String := usageOf program program listed

/-- The page about the program. -/
def programPage : String :=
  "Inspect index configuration and compile filters offline\n\n" ++ usage

/-- The page about completion in shells. -/
def completionPage : String :=
  "Generate the autocompletion script for " ++ program ++ " for the specified shell.\n" ++
    "See each sub-command's help for details on how to use the generated script.\n\n" ++
    usageOf (program ++ " completion") "completion" (Shell.all.map fun s => (s.name, s.summary))

/-- The page about completion in a shell. -/
def shellPage (s : Shell) : String :=
  s.description ++ "\n\nUsage:\n  " ++ program ++ " completion " ++ s.name ++ "\n\nFlags:\n" ++
    flagLines s.flags

/-- The page about help itself. -/
def helpPage : String :=
  "Help provides help for any command in the application.\nSimply type " ++ program ++
    " help [path to command] for full details.\n\nUsage:\n  " ++ program ++
    " help [command] [flags]\n\nFlags:\n" ++ flagLines [helpFlag "help"]

/-- The answer to a question about a topic. -/
def answer (topics : List String) : String :=
  match operandsOf topics with
  | [] => programPage
  | name :: _ =>
    if name = "help" then helpPage
    else if name = "completion" then
      match (operandsOf (dropOperand name topics)).head?.bind Shell.ofName? with
      | some shell => shellPage shell
      | none => completionPage
    else
      match Command.ofName? name with
      | some c => commandPage c
      | none =>
        "Unknown help topic [" ++ String.intercalate " " (topics.map Text.backquoted) ++ "]\n" ++
          usage

end SearchGateway.Admin.Help
