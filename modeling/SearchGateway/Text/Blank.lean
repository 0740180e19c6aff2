import SearchGateway.Text.Bytes

/-!
# Blank characters and words

Two notions of blank: the four layout characters that separate the tokens of a filter, and the
white space of Unicode, which is trimmed from list options. Splitting and trimming work on
`List Char`; the `String` forms wrap them.
-/

namespace SearchGateway.Text

/-- Space, tab, line feed and carriage return separate the tokens of a filter. -/
def isLayout (c : Char) : Bool :=
  c == ' ' || c == '\t' || c == '\n' || c == '\r'

/-- The white space of Unicode. -/
def isBlank (c : Char) : Bool :=
  let n := c.toNat
  (9 ≤ n && n ≤ 13) || n == 0x20 || n == 0x85 || n == 0xA0 || n == 0x1680 ||
  (0x2000 ≤ n && n ≤ 0x200A) || n == 0x2028 || n == 0x2029 || n == 0x202F || n == 0x205F ||
  n == 0x3000

/-- Drops the layout characters in front. -/
def skipLayout (cs : List Char) : List Char :=
  cs.dropWhile isLayout

theorem length_skipLayout_le (cs : List Char) : (skipLayout cs).length ≤ cs.length :=
  (List.dropWhile_sublist _).length_le

/-- Drops blanks at both ends. -/
def trimChars (cs : List Char) : List Char :=
  ((cs.dropWhile isBlank).reverse.dropWhile isBlank).reverse

def trim (s : String) : String :=
  String.ofList (trimChars s.toList)

/-- A text of blanks only. -/
def isBlankText (s : String) : Bool :=
  s.toList.all isBlank

/-- The parts between separators: one more than there are separators. -/
def splitChars (sep : Char) : List Char → List (List Char)
  | [] => [[]]
  | c :: cs =>
    if c = sep then [] :: splitChars sep cs
    else
      match splitChars sep cs with
      | [] => [[c]]
      | part :: parts => (c :: part) :: parts

def split (sep : Char) (s : String) : List String :=
  (splitChars sep s.toList).map String.ofList

/-- The maximal runs of characters that are not blank. -/
def wordsChars : List Char → List (List Char)
  | [] => []
  | c :: cs =>
    if isBlank c then wordsChars cs
    else
      match cs with
      | [] => [[c]]
      | d :: _ =>
        if isBlank d then [c] :: wordsChars cs
        else
          match wordsChars cs with
          | [] => [[c]]
          | w :: ws => (c :: w) :: ws

def words (s : String) : List String :=
  (wordsChars s.toList).map String.ofList

/-- The items of a list option: every entry may itself hold several items divided by commas, and
blank items are dropped. -/
def items (entries : List String) : List String :=
  (entries.flatMap fun e => (split ',' e).map trim).filter (· ≠ "")

/-- Characters joined with a separator between the parts. -/
def joinChars (sep : List Char) : List (List Char) → List Char
  | [] => []
  | [part] => part
  | part :: parts => part ++ sep ++ joinChars sep parts

def join (sep : String) (parts : List String) : String :=
  String.ofList (joinChars sep.toList (parts.map String.toList))

end SearchGateway.Text
