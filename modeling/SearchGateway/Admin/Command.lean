import SearchGateway.Admin.Flags
import SearchGateway.Admin.Similar

/-!
# Commands

A command has a name, a line about its arguments, the flags it takes and a rule for the number of
its arguments. The first argument that is no flag names the command.
-/

namespace SearchGateway.Admin

/-- How many positional arguments a command takes. -/
inductive Arity
  | exactly (n : Nat)
  | atMost (n : Nat)
  deriving DecidableEq

namespace Arity

/-- What is wrong with a number of arguments, if anything is. -/
def complaint? : Arity → Nat → Option String
  | exactly n, m => if m = n then none else some s!"accepts {n} arg(s), received {m}"
  | atMost n, m => if m ≤ n then none else some s!"accepts at most {n} arg(s), received {m}"

end Arity

def program : String := "search-admin"

def includeFlag : Flag := ⟨"include", .list, "source fields to include", none⟩

def excludeFlag : Flag := ⟨"exclude", .list, "source fields to exclude", none⟩

def helpFlag (name : String) : Flag := ⟨"help", .switch, "help for " ++ name, some 'h'⟩

/-- The commands that do the work. -/
inductive Command
  | indexes
  | parse
  | compile
  | get
  deriving DecidableEq

namespace Command

/-- All commands, in the order of their introduction. -/
def all : List Command := [indexes, parse, compile, get]

def name : Command → String
  | indexes => "indexes"
  | parse => "parse"
  | compile => "compile"
  | get => "get"

def ofName? (name : String) : Option Command := all.find? fun c => c.name = name

/-- The arguments in the line about its use. -/
def operands : Command → String
  | indexes => "[index]"
  | parse => "<expression>"
  | compile => "<index>"
  | get => "<index> <id>"

def summary : Command → String
  | indexes => "List the configured indexes, or the fields of one index"
  | parse => "Parse a filter and print it fully parenthesized with canonical operator names"
  | compile => "Print the backend search request compiled from the given parameters"
  | get => "Print the backend lookup compiled for a document id"

def arity : Command → Arity
  | indexes => .atMost 1
  | parse | compile => .exactly 1
  | get => .exactly 2

/-- The flags of its own. -/
def flags : Command → List Flag
  | indexes => []
  | parse => [⟨"sort", .switch, "parse the expression as sort clauses", none⟩]
  | compile => [excludeFlag, ⟨"facet-size", .integer, "number of values per facet", none⟩,
    ⟨"facets", .list, "facet fields", none⟩,
    ⟨"fields", .list, "free text fields, field[:boost]", none⟩,
    ⟨"filter", .text, "filter expression", none⟩,
    ⟨"from", .integer, "offset of the first result", none⟩, includeFlag,
    ⟨"mm", .text, "minimum should match of the free text query", none⟩,
    ⟨"q", .text, "free text query", none⟩, ⟨"size", .integer, "page size", none⟩,
    ⟨"sort", .list, "sort clauses, field [ASC|DESC]", none⟩]
  | get => [excludeFlag, includeFlag]

/-- All flags of a command. -/
def allFlags (c : Command) : List Flag := helpFlag c.name :: c.flags

@[simp] theorem mem_all (c : Command) : c ∈ all := by cases c <;> decide

@[simp] theorem ofName?_name (c : Command) : ofName? c.name = some c := by cases c <;> decide

end Command

/-- The shells that can be taught to complete arguments. -/
inductive Shell
  | bash | fish | powershell | zsh
  deriving DecidableEq

namespace Shell

/-- All shells, by name. -/
def all : List Shell := [bash, fish, powershell, zsh]

def name : Shell → String
  | bash => "bash"
  | fish => "fish"
  | powershell => "powershell"
  | zsh => "zsh"

def ofName? (name : String) : Option Shell := all.find? fun s => s.name = name

def summary (s : Shell) : String := "Generate the autocompletion script for " ++ s.name

def flags (s : Shell) : List Flag :=
  [helpFlag s.name, ⟨"no-descriptions", .switch, "disable completion descriptions", none⟩]

/-- How a shell is taught. -/
def description : Shell → String
  | bash =>
    "Generate the autocompletion script for the bash shell.\n\n" ++
    "This script depends on the 'bash-completion' package.\n" ++
    "If it is not installed already, you can install it via your OS's package manager.\n\n" ++
    "To load completions in your current shell session:\n\n" ++
    "\tsource <(" ++ program ++ " completion bash)\n\n" ++
    "To load completions for every new session, execute once:\n\n#### Linux:\n\n" ++
    "\t" ++ program ++ " completion bash > /etc/bash_completion.d/" ++ program ++ "\n\n" ++
    "#### macOS:\n\n\t" ++ program ++
    " completion bash > $(brew --prefix)/etc/bash_completion.d/" ++ program ++ "\n\n" ++
    "You will need to start a new shell for this setup to take effect."
  | fish =>
    "Generate the autocompletion script for the fish shell.\n\n" ++
    "To load completions in your current shell session:\n\n" ++
    "\t" ++ program ++ " completion fish | source\n\n" ++
    "To load completions for every new session, execute once:\n\n" ++
    "\t" ++ program ++ " completion fish > ~/.config/fish/completions/" ++ program ++ ".fish\n\n" ++
    "You will need to start a new shell for this setup to take effect."
  | powershell =>
    "Generate the autocompletion script for powershell.\n\n" ++
    "To load completions in your current shell session:\n\n" ++
    "\t" ++ program ++ " completion powershell | Out-String | Invoke-Expression\n\n" ++
    "To load completions for every new session, add the output of the above command\n" ++
    "to your powershell profile."
  | zsh =>
    "Generate the autocompletion script for the zsh shell.\n\n" ++
    "If shell completion is not already enabled in your environment you will need\n" ++
    "to enable it.  You can execute the following once:\n\n" ++
    "\techo \"autoload -U compinit; compinit\" >> ~/.zshrc\n\n" ++
    "To load completions in your current shell session:\n\n" ++
    "\tsource <(" ++ program ++ " completion zsh); compdef _" ++ program ++ " " ++ program ++
    "\n\nTo load completions for every new session, execute once:\n\n#### Linux:\n\n" ++
    "\t" ++ program ++ " completion zsh > \"$\x7bfpath[1]\x7d/_" ++ program ++ "\"\n\n" ++
    "#### macOS:\n\n\t" ++ program ++
    " completion zsh > $(brew --prefix)/share/zsh/site-functions/_" ++ program ++ "\n\n" ++
    "You will need to start a new shell for this setup to take effect."

end Shell

/-- The names offered to someone who mistyped one. -/
def offeredNames : List String := Command.all.map Command.name ++ ["completion"]

/-- A flag that takes the next argument as its value, as far as can be told without knowing the
command. -/
def takesNext (arg : String) : Bool :=
  let cs := arg.toList
  !cs.contains '=' &&
    (['-', '-'].isPrefixOf cs || (['-'].isPrefixOf cs && Text.byteLength cs == 2))

/-- The arguments that are neither flags nor taken by one. -/
def operandsOf : List String → List String
  | [] => []
  | arg :: args =>
    if arg = "--" then []
    else if takesNext arg then
      match args with
      | _ :: next :: more => operandsOf (next :: more)
      | _ => []
    else if arg ≠ "" ∧ arg.toList.head? ≠ some '-' then arg :: operandsOf args
    else operandsOf args

/-- The arguments without the first operand of the given text. -/
def dropOperand (name : String) : List String → List String
  | [] => []
  | arg :: args =>
    if arg = "--" then arg :: args
    else if takesNext arg then
      match args with
      | value :: more => arg :: value :: dropOperand name more
      | [] => [arg]
    else if arg = name then args
    else arg :: dropOperand name args

end SearchGateway.Admin
