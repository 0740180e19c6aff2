import SearchGateway.Admin.ListOption
import SearchGateway.Number.Integer
import SearchGateway.Text.Quoted

/-!
# Flags

Arguments that begin with a dash set flags; all others, and all after a lone `--`, are positional.
A switch needs no value, any other flag takes the text after `=` or the next argument. A list flag
may be given more than once and collects its items.
-/

namespace SearchGateway.Admin

inductive FlagKind
  | text | list | integer | switch
  deriving DecidableEq

structure Flag where
  name : String
  kind : FlagKind
  usage : String
  short : Option Char := none
  deriving DecidableEq

namespace Flag

/-- The flag as messages name it. -/
def label (f : Flag) : String :=
  match f.short with
  | some c => "-" ++ String.ofList [c] ++ ", --" ++ f.name
  | none => "--" ++ f.name

end Flag

inductive FlagError
  | syntactic (arg : String)
  | unknown (name : String)
  /-- Short flags are single bytes. -/
  | unknownShort (byte : UInt8) (rest : String)
  | missing (arg : String)
  | invalid (value : String) (flag : Flag) (reason : String)
  deriving DecidableEq

namespace FlagError

def message : FlagError → String
  | syntactic arg => "bad flag syntax: " ++ arg
  | unknown name => "unknown flag: --" ++ name
  | unknownShort byte rest =>
    "unknown shorthand flag: " ++ String.ofList (Text.quotedMark (Char.ofNat byte.toNat)) ++
      " in -" ++ rest
  | missing arg => "flag needs an argument: " ++ arg
  | invalid value flag reason =>
    "invalid argument " ++ Text.quoted value ++ " for " ++ Text.quoted flag.label ++ " flag: " ++
      reason

end FlagError

/-- The flags that were set. -/
structure FlagValues where
  texts : List (String × String) := []
  lists : List (String × List String) := []
  integers : List (String × Int) := []
  switches : List (String × Bool) := []
  deriving DecidableEq

namespace FlagValues

/-- The last text set. -/
def text (v : FlagValues) (name : String) : String := (v.texts.reverse.lookup name).getD ""

/-- All items set, in order. -/
def list (v : FlagValues) (name : String) : List String :=
  (v.lists.filter fun kv => kv.1 = name).flatMap (·.2)

def integer (v : FlagValues) (name : String) : Int := (v.integers.reverse.lookup name).getD 0

def switch (v : FlagValues) (name : String) : Bool := (v.switches.reverse.lookup name).getD false

/-- The spellings of a truth value. -/
def truth? (value : String) : Option Bool :=
  if value ∈ ["1", "t", "T", "TRUE", "true", "True"] then some true
  else if value ∈ ["0", "f", "F", "FALSE", "false", "False"] then some false
  else none

/-- Why a value is not of the kind that is read by the named reader. -/
def unreadable (reader value reason : String) : String :=
  "strconv." ++ reader ++ ": parsing " ++ Text.quoted value ++ ": " ++ reason

/-- Sets a flag. -/
def set (v : FlagValues) (f : Flag) (value : String) : Except FlagError FlagValues :=
  match f.kind with
  | .text => .ok { v with texts := v.texts ++ [(f.name, value)] }
  | .list =>
    match ListOption.read value with
    | .ok items => .ok { v with lists := v.lists ++ [(f.name, items)] }
    | .error e => .error (.invalid value f e.message)
  | .integer =>
    match Integer.read 64 value with
    | .ok i => .ok { v with integers := v.integers ++ [(f.name, i)] }
    | .error e => .error (.invalid value f (unreadable "ParseInt" value e.message))
  | .switch =>
    match truth? value with
    | some b => .ok { v with switches := v.switches ++ [(f.name, b)] }
    | none => .error (.invalid value f (unreadable "ParseBool" value "invalid syntax"))

/-- The name of a long argument and the value after its first `=`. -/
def splitLong (cs : List Char) : String × Option String :=
  let name := cs.takeWhile (· ≠ '=')
  match cs.dropWhile (· ≠ '=') with
  | _ :: value => (String.ofList name, some (String.ofList value))
  | [] => (String.ofList name, none)

/-- Sets the flags of one argument of short flags. Only switches have short forms, and what belongs
to a test runner is passed over. -/
def setShort (flags : List Flag) (v : FlagValues) : List Char → Except FlagError FlagValues
  | [] => .ok v
  | 't' :: 'e' :: 's' :: 't' :: '.' :: _ => .ok v
  | c :: cs =>
    match flags.find? fun f => f.short = some c with
    | none => .error (.unknownShort ((Text.charBytes c).headD 0) (String.ofList (c :: cs)))
    | some f =>
      match cs with
      | '=' :: d :: value => v.set f (String.ofList (d :: value))
      | cs => do setShort flags (← v.set f "true") cs

/-- Reads arguments: the flags they set and the positional ones. -/
def parse (flags : List Flag) (v : FlagValues) :
    List String → Except FlagError (FlagValues × List String)
  | [] => .ok (v, [])
  | arg :: args =>
    match arg.toList with
    | ['-', '-'] => .ok (v, args)
    | '-' :: '-' :: cs =>
      if cs.head? = some '-' ∨ cs.head? = some '=' then .error (.syntactic arg)
      else
        let (name, given) := splitLong cs
        match flags.find? fun f => f.name = name with
        | none => .error (.unknown name)
        | some f =>
          match given with
          | some value => do parse flags (← v.set f value) args
          | none =>
            if f.kind = .switch then do parse flags (← v.set f "true") args
            else
              match args with
              | value :: more => do parse flags (← v.set f value) more
              | [] => .error (.missing arg)
    | '-' :: c :: cs => do parse flags (← setShort flags v (c :: cs)) args
    | _ => do
      let (v, positional) ← parse flags v args
      return (v, arg :: positional)

end FlagValues

end SearchGateway.Admin
