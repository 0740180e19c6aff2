import SearchGateway.Number.Numeral
import SearchGateway.Text.Blank
import SearchGateway.Text.LowerCase

/-!
# The log

A logger keeps the lines of its level and above. It may thin out debug lines, keeping the first of
every group of a given size.
-/

namespace SearchGateway.Log

/-- How severe a line is; the greater, the more severe. -/
structure Level where
  number : Int
  deriving DecidableEq

namespace Level

def trace : Level := ⟨-1⟩
def debug : Level := ⟨0⟩
def info : Level := ⟨1⟩
def warn : Level := ⟨2⟩
def error : Level := ⟨3⟩
def fatal : Level := ⟨4⟩
def severest : Level := ⟨5⟩
def unnamed : Level := ⟨6⟩
def disabled : Level := ⟨7⟩

/-- The levels that have names. -/
def names : List (String × Level) :=
  [("trace", trace), ("debug", debug), ("info", info), ("warn", warn), ("error", error),
    ("fatal", fatal), ("panic", severest), ("disabled", disabled), ("", unnamed)]

/-- The name of a level, its number when it has none. -/
def name (l : Level) : String :=
  match names.find? fun n => n.2 = l with
  | some (name, _) => name
  | none => toString l.number

inductive ParseError
  | unknown (text : String)
  | outOfBounds (number : Int)
  deriving DecidableEq

def ParseError.message : ParseError → String
  | unknown text => s!"Unknown Level String: '{text}', defaulting to NoLevel"
  | outOfBounds n => s!"Out-Of-Bounds Level: '{n}', defaulting to NoLevel"

/-- A level by its name or by its number, which has eight bits. -/
def parse (text : String) : Except ParseError Level :=
  match names.find? fun n => n.1 = Text.lower text with
  | some (_, l) => .ok l
  | none =>
    match readInt64? text with
    | none => .error (.unknown text)
    | some i =>
      if i.toInt < -128 ∨ 127 < i.toInt then .error (.outOfBounds i.toInt) else .ok ⟨i.toInt⟩

end Level

structure Line where
  level : String
  /-- Empty when there is nothing to say. -/
  message : String
  error : Option String := none
  deriving DecidableEq

/-- The members of the line as it is written; a line without a message leaves it out. -/
def Line.members (l : Line) : List (String × String) :=
  [("level", l.level)] ++ (if l.message = "" then [] else [("message", l.message)]) ++
    l.error.toList.map fun e => ("error", e)

structure Logger where
  level : Level
  /-- The size of the groups of debug lines of which one is kept; all are kept up to one. -/
  sampleRate : Nat := 0
  /-- Debug lines seen so far. -/
  debugSeen : Nat := 0
  deriving DecidableEq

namespace Logger

/-- A logger of the given level, and what is said about a level that cannot be used: it becomes
`info`. -/
def configure (level : String) (sampleRate : Nat) : Logger × List Line :=
  let complaint (e : Option String) : Line :=
    ⟨level, "error parsing log level. defaulting to info level", e⟩
  match Level.parse level with
  | .error e => (⟨.info, sampleRate, 0⟩, [complaint (some e.message)])
  | .ok l =>
    if level = "" then (⟨.info, sampleRate, 0⟩, [complaint none]) else (⟨l, sampleRate, 0⟩, [])

/-- Writes a line, unless its level or the sampling drops it. -/
def log (lg : Logger) (level : Level) (message : String) (error : Option String) :
    List Line × Logger :=
  let line : Line := ⟨level.name, message, error⟩
  if level.number < lg.level.number then ([], lg)
  else if level = .debug ∧ 1 < lg.sampleRate then
    let kept := lg.debugSeen % lg.sampleRate = 0
    (if kept then [line] else [], { lg with debugSeen := lg.debugSeen + 1 })
  else ([line], lg)

/-- Reports an error. -/
def logError (lg : Logger) (text : String) : List Line × Logger :=
  lg.log .error "error" (some text)

end Logger

/-- The last two parts of a path, divided by slashes. -/
def callerName (path : String) : String :=
  match (Text.split '/' path).reverse with
  | file :: dir :: _ => dir ++ "/" ++ file
  | _ => path

end SearchGateway.Log
