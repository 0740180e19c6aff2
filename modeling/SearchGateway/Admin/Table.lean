import SearchGateway.Text.Blank

/-!
# Tables

A table is text whose cells are ended by tabs and whose lines are ended by line feeds; the last cell
of a line is ended by the line. Cells that stand under each other in consecutive lines form a
column, as wide as its widest cell and two blanks more; a line without the cell ends the column. A
form feed ends a line too, and all columns with it.
-/

namespace SearchGateway.Admin.Table

open SearchGateway.Text (glyphs joinChars)

def padding : Nat := 2

/-- A line while its cells are set: the text so far and the cells still to come. -/
structure Line where
  text : List Char := []
  cells : List (List Char)
  deriving DecidableEq

namespace Line

/-- Whether a cell follows that is not the last one. -/
def hasColumn (l : Line) : Bool := 1 < l.cells.length

/-- The characters of the next cell. -/
def width (l : Line) : Nat := (glyphs (l.cells.headD [])).length

/-- Sets the next cell in a column. -/
def setCell (w : Nat) (l : Line) : Line where
  text := l.text ++ l.cells.headD [] ++ List.replicate (w - l.width) ' '
  cells := l.cells.tail

/-- A line with all its cells but the last set. -/
def finish (l : Line) : List Char := l.text ++ l.cells.headD []

end Line

/-- Sets the next cell of consecutive lines that all have one, or of none. -/
def setColumn (run : List Line) : List Line :=
  if run.all Line.hasColumn then
    let w := run.foldl (fun w l => max w l.width) 0
    run.map (Line.setCell (w + padding))
  else run

/-- Sets the cells of lines, column by column. -/
def setColumns : Nat → List Line → List Line
  | 0, lines => lines
  | n + 1, lines =>
    setColumns n ((lines.splitBy fun a b => a.hasColumn == b.hasColumn).flatMap setColumn)

/-- The text of lines that share their columns. -/
def block (lines : List (List (List Char))) : List Char :=
  let columns := lines.foldl (fun n cells => max n cells.length) 0
  (setColumns columns (lines.map fun cells => { cells })).flatMap fun l => l.finish ++ ['\n']

/-- Both tabs end a cell. -/
def cellsOf (line : List Char) : List (List Char) :=
  Text.splitChars '\t' (line.map fun c => if c = '\x0b' then '\t' else c)

/-- The lines of a text, each with its line feed left out. -/
def linesOf (text : List Char) : List (List Char) := (Text.splitChars '\n' text).dropLast

/-- The table of a text whose lines are all ended. A form feed ends a line as a line feed does. -/
def layout (text : List Char) : List Char :=
  match (Text.splitChars '\x0c' text).reverse with
  | [] => []
  | last :: before =>
    (before.reverse.map fun part => part ++ ['\n']).flatMap (fun part =>
      block ((linesOf part).map cellsOf)) ++ block ((linesOf last).map cellsOf)

/-- The text of rows of cells. -/
def render (rows : List (List String)) : String :=
  String.ofList (layout (rows.flatMap fun row =>
    joinChars ['\t'] (row.map String.toList) ++ ['\n']))

end SearchGateway.Admin.Table
