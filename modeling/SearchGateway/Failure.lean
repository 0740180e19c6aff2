import SearchGateway.Json.Value

/-!
# Failures

What a caller is told when a call fails: a status, a kind for programs and a message for people.
The status alone decides the HTTP answer.
-/

namespace SearchGateway

/-- The outcome classes of a call. A number without a class of its own is kept as it is. -/
inductive Status
  | ok | canceled | unknown | invalidArgument | deadlineExceeded | notFound | alreadyExists
  | permissionDenied | resourceExhausted | failedPrecondition | aborted | outOfRange
  | unimplemented | internal | unavailable | dataLoss | unauthenticated
  | other (number : Nat)
  deriving DecidableEq

namespace Status

/-- The named classes, each at the place of its number. -/
def named : List Status :=
  [ok, canceled, unknown, invalidArgument, deadlineExceeded, notFound, alreadyExists,
    permissionDenied, resourceExhausted, failedPrecondition, aborted, outOfRange, unimplemented,
    internal, unavailable, dataLoss, unauthenticated]

def ofNumber (n : Nat) : Status := named[n]?.getD (other n)

def number : Status → Nat
  | ok => 0
  | canceled => 1
  | unknown => 2
  | invalidArgument => 3
  | deadlineExceeded => 4
  | notFound => 5
  | alreadyExists => 6
  | permissionDenied => 7
  | resourceExhausted => 8
  | failedPrecondition => 9
  | aborted => 10
  | outOfRange => 11
  | unimplemented => 12
  | internal => 13
  | unavailable => 14
  | dataLoss => 15
  | unauthenticated => 16
  | other n => n

def name : Status → String
  | ok => "OK"
  | canceled => "CANCELED"
  | unknown => "UNKNOWN"
  | invalidArgument => "INVALID_ARGUMENT"
  | deadlineExceeded => "DEADLINE_EXCEEDED"
  | notFound => "NOT_FOUND"
  | alreadyExists => "ALREADY_EXISTS"
  | permissionDenied => "PERMISSION_DENIED"
  | resourceExhausted => "RESOURCE_EXHAUSTED"
  | failedPrecondition => "FAILED_PRECONDITION"
  | aborted => "ABORTED"
  | outOfRange => "OUT_OF_RANGE"
  | unimplemented => "UNIMPLEMENTED"
  | internal => "INTERNAL"
  | unavailable => "UNAVAILABLE"
  | dataLoss => "DATA_LOSS"
  | unauthenticated => "UNAUTHENTICATED"
  | other n => s!"CODE({n})"

/-- The HTTP status that answers a call of this outcome. -/
def http : Status → Nat
  | ok => 200
  | canceled => 499
  | invalidArgument | failedPrecondition | outOfRange => 400
  | deadlineExceeded => 504
  | notFound => 404
  | alreadyExists | aborted => 409
  | permissionDenied => 403
  | unauthenticated => 401
  | resourceExhausted => 429
  | unimplemented => 501
  | unavailable => 503
  | unknown | internal | dataLoss | other _ => 500

end Status

structure Failure where
  status : Status
  kind : String
  message : String
  deriving DecidableEq

namespace Failure

/-- The text does not follow the language. -/
def malformed (message : String) : Failure := ⟨.invalidArgument, "syntax_error", message⟩

/-- The text is well formed but its content is refused. -/
def invalid (message : String) : Failure := ⟨.invalidArgument, "validation_error", message⟩

/-- Something named is not known. -/
def notFound (message : String) : Failure := ⟨.notFound, "metadata_lookup_failure", message⟩

def internal (message : String) : Failure := ⟨.internal, "internal_error", message⟩

def unavailable (message : String) : Failure := ⟨.unavailable, "internal_error", message⟩

def exhausted (message : String) : Failure := ⟨.resourceExhausted, "limit_exceeded", message⟩

/-- A failure of the given parts; a call that went well has none. -/
def make? (status : Status) (kind message : String) : Option Failure :=
  if status = .ok then none else some ⟨status, kind, message⟩

/-- The document a caller is sent; an empty kind or message is left out. -/
def json (f : Failure) : Json :=
  .object [("error", .object ([("code", .string f.status.name)] ++
    (if f.kind = "" then [] else [("kind", .string f.kind)]) ++
    (if f.message = "" then [] else [("message", .string f.message)])))]

end Failure

/-- What can stop a call: a failure meant for the caller, or the bare text of something outside. -/
inductive Fault
  | failure (f : Failure)
  | plain (text : String)
  deriving DecidableEq

namespace Fault

def message : Fault → String
  | .failure f => f.message
  | .plain text => text

/-- A bare text counts as an internal error. -/
def kind : Fault → String
  | .failure f => f.kind
  | .plain _ => "internal_error"

/-- The failure a caller is told of. -/
def toFailure : Fault → Failure
  | .failure f => f
  | .plain text => .internal text

end Fault

end SearchGateway
