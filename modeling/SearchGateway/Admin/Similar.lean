import SearchGateway.Text.Bytes
import SearchGateway.Text.LowerCase

/-!
# Similar names

A mistyped name is answered with the names it may have meant: those at most two edits away, and
those it begins.
-/

namespace SearchGateway.Admin.Similar

/-- The next row of distances. `left` is the distance to its left, `diagonal` the one above that. -/
def nextRow (c : UInt8) (left diagonal : Nat) : List UInt8 → List Nat → List Nat
  | d :: ds, up :: ups =>
    let here := if c = d then diagonal else min (min up left) diagonal + 1
    here :: nextRow c here up ds ups
  | _, _ => []

/-- The distances of a text to all beginnings of `target`, row by row. `row` holds the distances
of the empty text or of what was read so far. -/
def distances (target : List UInt8) : Nat → List Nat → List UInt8 → Nat × List Nat
  | first, row, [] => (first, row)
  | first, row, c :: cs => distances target (first + 1) (nextRow c (first + 1) first target row) cs

/-- The least number of insertions, deletions and replacements of bytes between two texts. -/
def editDistance (s t : List UInt8) : Nat :=
  let (first, row) := distances t 0 (List.range' 1 t.length) s
  row.getLast?.getD first

def maxDistance : Nat := 2

/-- Bytes of a text without regard to case. -/
def foldedBytes (s : String) : List UInt8 :=
  Text.bytes (Text.lower s).toList

def isSimilar (typed name : String) : Bool :=
  let t := foldedBytes typed
  let n := foldedBytes name
  editDistance t n ≤ maxDistance || t.isPrefixOf n

/-- The question about what was meant, empty when no name is similar. -/
def question (typed : String) (names : List String) : String :=
  match names.filter (isSimilar typed) with
  | [] => ""
  | found => "\n\nDid you mean this?\n" ++ String.join (found.map fun n => "\t" ++ n ++ "\n")

end SearchGateway.Admin.Similar
