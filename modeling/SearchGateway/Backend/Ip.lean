import SearchGateway.Number.Numeral
import SearchGateway.Text.Quoted

/-!
# IP addresses

An address in brackets is checked before it is used. Four numbers with points between them are an
address of the old kind; eight groups of hexadecimal digits with colons between them are one of the
new kind, where `::` stands for groups of zeros left out, the last two groups may be written in the
old way, and a zone may follow a percent sign.
-/

namespace SearchGateway.Backend.Ip

inductive Problem
  | noAddress
  | unreadable
  | emptyZone
  | longGroup
  | emptyGroup
  | misplacedNumbers
  | noRoomForNumbers
  | wantColon
  | openColon
  | secondGap
  | garbage
  | tooShort
  | idleGap
  | leadingZero
  | largeNumber
  | emptyNumber
  | tooManyNumbers
  | unexpected
  | tooFewNumbers
  deriving DecidableEq

def Problem.message : Problem → String
  | noAddress => "missing IPv6 address"
  | unreadable => "unable to parse IP"
  | emptyZone => "zone must be a non-empty string"
  | longGroup => "each group must have 4 or less digits"
  | emptyGroup => "each colon-separated field must have at least one digit"
  | misplacedNumbers => "embedded IPv4 address must replace the final 2 fields of the address"
  | noRoomForNumbers =>
    "too many hex fields to fit an embedded IPv4 at the end of the address"
  | wantColon => "unexpected character, want colon"
  | openColon => "colon must be followed by more characters"
  | secondGap => "multiple :: in address"
  | garbage => "trailing garbage after address"
  | tooShort => "address string too short"
  | idleGap => "the :: must expand to at least one field of zeros"
  | leadingZero => "IPv4 field has octet with leading zero"
  | largeNumber => "IPv4 field has value >255"
  | emptyNumber => "IPv4 field must have at least one digit"
  | tooManyNumbers => "IPv4 address too long"
  | unexpected => "unexpected character"
  | tooFewNumbers => "IPv4 address too short"

/-- A problem and the text it was met at, empty when the place does not matter. -/
structure Fault where
  problem : Problem
  place : List Char := []
  deriving DecidableEq

/-- The message about a text that is no address. -/
def Fault.message (f : Fault) (text : List Char) : String :=
  "ParseAddr(" ++ Text.quoted (String.ofList text) ++ "): " ++ f.problem.message ++
    if f.place = [] then "" else " (at " ++ Text.quoted (String.ofList f.place) ++ ")"

/-- Checks numbers with points between them. `count` numbers are complete, and `digits` have been
read of the next. -/
def checkNumbers (count : Nat) (digits : List Char) : List Char → Except Fault Unit
  | [] => if count < 3 then .error ⟨.tooFewNumbers, []⟩ else .ok ()
  | c :: cs =>
    if c.isDigit then
      if digits = ['0'] then .error ⟨.leadingZero, []⟩
      else if 255 < digitsValue (digits ++ [c]) then .error ⟨.largeNumber, []⟩
      else checkNumbers count (digits ++ [c]) cs
    else if c = '.' then
      if digits = [] ∨ cs = [] then .error ⟨.emptyNumber, c :: cs⟩
      else if count = 3 then .error ⟨.tooManyNumbers, []⟩
      else checkNumbers (count + 1) [] cs
    else .error ⟨.unexpected, c :: cs⟩

/-- Checks groups with colons between them. There is room for `room` more groups, and `gap` tells
whether `::` has been seen. -/
def checkGroups (room : Nat) (gap : Bool) (s : List Char) : Except Fault Unit :=
  match room with
  | 0 =>
    if s ≠ [] then .error ⟨.garbage, s⟩ else if gap then .error ⟨.idleGap, []⟩ else .ok ()
  | room + 1 =>
    let digits := s.takeWhile isHexDigit
    if 4 < digits.length then .error ⟨.longGroup, s⟩
    else if digits = [] then .error ⟨.emptyGroup, s⟩
    else
      match s.dropWhile isHexDigit with
      | [] => if room = 0 then checkGroups room gap [] else ended gap
      | '.' :: _ =>
        if !gap && room ≠ 1 then .error ⟨.misplacedNumbers, s⟩
        else if room = 0 then .error ⟨.noRoomForNumbers, s⟩
        else do
          checkNumbers 0 [] s
          if room = 1 ∧ gap then .error ⟨.idleGap, []⟩ else return
      | [':'] => .error ⟨.openColon, [':']⟩
      | ':' :: ':' :: rest =>
        if gap then .error ⟨.secondGap, ':' :: rest⟩
        else if rest = [] then if room = 0 then .error ⟨.idleGap, []⟩ else return
        else checkGroups room true rest
      | ':' :: rest => checkGroups room gap rest
      | rest => .error ⟨.wantColon, rest⟩
where
  /-- An address that ends before its last group needs a gap. -/
  ended (gap : Bool) : Except Fault Unit := if gap then .ok () else .error ⟨.tooShort, []⟩

/-- Checks an address of the new kind. -/
def checkNew (s : List Char) : Except Fault Unit :=
  let body := s.takeWhile (· ≠ '%')
  if s.dropWhile (· ≠ '%') = ['%'] then .error ⟨.emptyZone, []⟩
  else
    match body with
    | [':', ':'] => .ok ()
    | ':' :: ':' :: rest => checkGroups 8 true rest
    | body => checkGroups 8 false body

/-- The two kinds of address. -/
inductive Kind
  | old | new
  deriving DecidableEq

/-- The kind of an address. The first point, colon or percent sign tells what is meant. -/
def check (s : List Char) : Except Fault Kind :=
  match s.find? fun c => c == '.' || c == ':' || c == '%' with
  | some '.' => (checkNumbers 0 [] s).map fun _ => .old
  | some ':' => (checkNew s).map fun _ => .new
  | some _ => .error ⟨.noAddress, []⟩
  | none => .error ⟨.unreadable, []⟩

end SearchGateway.Backend.Ip
