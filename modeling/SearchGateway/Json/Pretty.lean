import SearchGateway.Json.Value

/-!
# Documents over several lines

Every item and member stands on a line of its own, two blanks deeper than what holds it.
-/

namespace SearchGateway.Json

def step : Nat := 2

def newLine (indent : Nat) : List Char := '\n' :: List.replicate indent ' '

mutual

/-- A document whose first line is already indented by `indent`. -/
def pretty (indent : Nat) : Json → List Char
  | array [] => ['[', ']']
  | array (v :: vs) => '[' :: (prettyItems (indent + step) (v :: vs) ++ newLine indent ++ [']'])
  | object [] => ['\x7b', '\x7d']
  | object (m :: ms) =>
    '\x7b' :: (prettyMembers (indent + step) (m :: ms) ++ newLine indent ++ ['\x7d'])
  | null => print true null
  | bool b => print true (bool b)
  | int i => print true (int i)
  | float x => print true (float x)
  | string s => print true (string s)
  | raw text => text

def prettyItems (indent : Nat) : List Json → List Char
  | [] => []
  | [v] => newLine indent ++ pretty indent v
  | v :: vs => newLine indent ++ pretty indent v ++ ',' :: prettyItems indent vs

def prettyMembers (indent : Nat) : List (String × Json) → List Char
  | [] => []
  | [(k, v)] => newLine indent ++ quote true k.toList ++ ':' :: ' ' :: pretty indent v
  | (k, v) :: ms =>
    newLine indent ++ quote true k.toList ++ ':' :: ' ' :: pretty indent v ++
      ',' :: prettyMembers indent ms

end

end SearchGateway.Json
