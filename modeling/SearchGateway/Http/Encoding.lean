import SearchGateway.Number.Numeral
import SearchGateway.Text.Blank
import SearchGateway.Text.LowerCase

/-!
# Compression

A client lists the encodings it takes, each with an optional weight between 0 and 1. The first
mention of gzip decides: it is taken unless its weight is zero or unreadable.
-/

namespace SearchGateway.Http

open SearchGateway.Text

namespace Encoding

/-- The weight a parameter of an encoding gives is positive; any parameter but `q` counts as
weight one. -/
def isPositive (param : String) : Bool :=
  match param.toList with
  | 'q' :: '=' :: weight =>
    (Binary64.readSaturated? (String.ofList weight)).any fun w =>
      !w.isNaN && !w.isZero && !w.negative
  | _ => true

/-- An entry of the list: the name of the encoding, and whether its last parameter lets it be
used. -/
def entry (text : String) : String × Bool :=
  match (split ';' text).map trim with
  | [] => ("", true)
  | name :: params => (lower name, (params.getLast?.map isPositive).getD true)

def acceptsGzip (header : String) : Bool :=
  match ((split ',' (trim header)).map entry).find? fun e => e.1 = "gzip" with
  | some (_, ok) => ok
  | none => false

/-- The least body worth compressing, in bytes. -/
def minimumSize : Nat := 1024

end Encoding

end SearchGateway.Http
