import SearchGateway.Text.Blank

/-!
# List options

The value of a list option is one line of fields divided by commas. A field in quotes may hold
commas and line ends, and a quote inside it is written twice. An empty value is an empty list.
-/

namespace SearchGateway.Admin.ListOption

open SearchGateway.Text (charSize)

/-- A place in the value: a line and a byte of it, both counted from one. -/
structure Place where
  line : Nat
  column : Nat
  deriving DecidableEq

inductive ReadError
  | bareQuote (at_ : Place)
  | strayQuote (start : Nat) (at_ : Place)
  | nothing
  deriving DecidableEq

def ReadError.message : ReadError → String
  | bareQuote p =>
    s!"parse error on line {p.line}, column {p.column}: bare \" in non-quoted-field"
  | strayQuote start p =>
    (if start = p.line then "" else s!"record on line {start}; ") ++
      s!"parse error on line {p.line}, column {p.column}: " ++
      "extraneous or missing \" in quoted-field"
  | nothing => "EOF"

/-- Line ends of two characters become one, and a return at the very end is dropped. -/
def normalizeLineEnds : List Char → List Char
  | [] => []
  | ['\r'] => []
  | '\r' :: '\n' :: cs => '\n' :: normalizeLineEnds cs
  | c :: cs => c :: normalizeLineEnds cs

/-- Drops empty lines in front and counts them. -/
def skipEmptyLines : Nat → List Char → Nat × List Char
  | n, '\n' :: cs => skipEmptyLines (n + 1) cs
  | n, cs => (n, cs)

/-- Puts a character in front of the first field. -/
def consChar (c : Char) : List (List Char) → List (List Char)
  | [] => [[c]]
  | f :: fs => (c :: f) :: fs

/-- Where reading stands: before a field, inside a bare one, or inside a quoted one. -/
inductive Mode
  | before | bare | quoted
  deriving DecidableEq

/-- The fields from a place on; the first of them is the one being read. -/
def fieldsFrom (start : Nat) (mode : Mode) (p : Place) : List Char →
    Except ReadError (List (List Char))
  | [] =>
    if mode = .quoted then .error (.strayQuote start p) else .ok [[]]
  | c :: cs =>
    match mode with
    | .quoted =>
      if c = '"' then
        match cs with
        | [] => .ok [[]]
        | '\n' :: _ => .ok [[]]
        | '"' :: rest =>
          (fieldsFrom start .quoted ⟨p.line, p.column + 2⟩ rest).map (consChar '"')
        | ',' :: rest => (fieldsFrom start .before ⟨p.line, p.column + 2⟩ rest).map ([] :: ·)
        | _ => .error (.strayQuote start p)
      else if c = '\n' ∧ cs ≠ [] then
        (fieldsFrom start .quoted ⟨p.line + 1, 1⟩ cs).map (consChar c)
      else (fieldsFrom start .quoted ⟨p.line, p.column + charSize c⟩ cs).map (consChar c)
    | mode =>
      if c = '"' then
        if mode = .before then fieldsFrom start .quoted ⟨p.line, p.column + 1⟩ cs
        else .error (.bareQuote p)
      else if c = '\n' then .ok [[]]
      else if c = ',' then
        (fieldsFrom start .before ⟨p.line, p.column + 1⟩ cs).map ([] :: ·)
      else (fieldsFrom start .bare ⟨p.line, p.column + charSize c⟩ cs).map (consChar c)

/-- The items of a value. -/
def read (value : String) : Except ReadError (List String) :=
  if value = "" then .ok []
  else
    match skipEmptyLines 1 (normalizeLineEnds value.toList) with
    | (_, []) => .error .nothing
    | (line, cs) => (fieldsFrom line .before ⟨line, 1⟩ cs).map (List.map String.ofList)

end SearchGateway.Admin.ListOption
