import SearchGateway.Backend.Ip
import SearchGateway.Text.Blank
import SearchGateway.Text.Percent

/-!
# Addresses

The address of a call is read before the call is made: what stands before the path is a host with
its port, and perhaps a name of a user; what follows is a path, a query and a fragment. Escapes in
a host are for characters outside ASCII only. An address is written back with a canonical host, and
with path and fragment as they were wherever that is a valid way to write them.
-/

namespace SearchGateway.Backend

open SearchGateway.Text

inductive AddressError
  | control
  | escape (text : List Char)
  | hostCharacter (c : Char)
  | port (text : List Char)
  | openBracket
  | lateBracket
  | ip (text : List Char) (f : Ip.Fault)
  | oldIp
  | user
  deriving DecidableEq

def AddressError.message : AddressError → String
  | control => "net/url: invalid control character in URL"
  | escape text => "invalid URL escape " ++ quoted (String.ofList text)
  | hostCharacter c => "invalid character " ++ quoted (String.ofList [c]) ++ " in host name"
  | port text => "invalid port " ++ quoted (String.ofList text) ++ " after host"
  | openBracket => "missing ']' in host"
  | lateBracket => "invalid IP-literal"
  | ip text f => "invalid host: " ++ f.message text
  | oldIp => "invalid IP-literal"
  | user => "net/url: invalid userinfo"

/-- An address of a call, its escapes resolved. -/
structure Address where
  user : Option (List Char) := none
  host : List Char
  path : List Char
  /-- The path as it was written. -/
  writtenPath : List Char
  /-- The query as it was written, with its question mark. -/
  query : List Char := []
  fragment : List Char := []
  /-- The fragment as it was written. -/
  writtenFragment : List Char := []
  deriving DecidableEq

namespace Address

/-! ### Characters -/

/-- Characters that stand for themselves in a host. -/
def isHostChar (c : Char) : Bool := isUnreserved c || "!$&'()*+,;=:[]<>\"".toList.contains c

/-- Characters that may stand in the name of a user. -/
def mayNameUser (c : Char) : Bool := isUnreserved c || ":!$&'()*+,;=%@".toList.contains c

/-- Characters that stand for themselves in the name of a user. -/
def isUserChar (c : Char) : Bool := isUnreserved c || "$&+,;=".toList.contains c

/-- Characters that stand for themselves in a fragment. -/
def isFragmentChar (c : Char) : Bool := isUnreserved c || "$&+,/:;=?@!()*".toList.contains c

/-- Characters that may be left as they are in a path or a fragment that was written so. -/
def mayStand (c : Char) : Bool := "!$&'()*+,;=:@[]%".toList.contains c

/-- A part of an address, as far as escapes go. -/
inductive Part
  | host
  /-- The zone of a host. -/
  | zone
  | other
  deriving DecidableEq

/-- Whether a byte may be escaped in a part. -/
def mayEscape (p : Part) (byte : Nat) : Bool :=
  match p with
  | .host => 0x80 ≤ byte || byte == 0x25
  | .zone => byte == 0x25 || byte == 0x20 || (byte < 0x80 && isHostChar (Char.ofNat byte))
  | .other => true

/-- Checks the escapes of a part, and in a host also the other characters. -/
def checkEscapes (p : Part) : List Char → Except AddressError Unit
  | [] => .ok ()
  | c :: cs =>
    if c = '%' then
      match cs with
      | a :: b :: rest =>
        if isHexDigit a && isHexDigit b then
          if mayEscape p (hexValue a * 16 + hexValue b) then checkEscapes p rest
          else .error (.escape [c, a, b])
        else .error (.escape (ofBytes ((bytes (c :: cs)).take 3)))
      | _ => .error (.escape (ofBytes ((bytes (c :: cs)).take 3)))
    else if p ≠ .other ∧ c.toNat < 0x80 ∧ !isHostChar c then .error (.hostCharacter c)
    else checkEscapes p cs

/-- A part with its escapes resolved. -/
def resolve (p : Part) (cs : List Char) : Except AddressError (List Char) := do
  checkEscapes p cs
  return (unescape false cs).getD cs

/-! ### Reading -/

/-- The text before the last separator and the text after it, if there is one. -/
def cutLast? (sep : Char) (cs : List Char) : Option (List Char × List Char) :=
  if cs.contains sep then
    some (((cs.reverse.dropWhile (· ≠ sep)).drop 1).reverse,
      (cs.reverse.takeWhile (· ≠ sep)).reverse)
  else none

/-- A port is a colon and digits, or nothing at all. -/
def isPort : List Char → Bool
  | [] => true
  | ':' :: ds => ds.all Char.isDigit
  | _ => false

/-- Where `%25` begins the zone of a host. -/
def cutZone : List Char → List Char × List Char
  | [] => ([], [])
  | c :: cs =>
    if ['%', '2', '5'].isPrefixOf (c :: cs) then ([], c :: cs)
    else
      let (host, zone) := cutZone cs
      (c :: host, zone)

/-- A host in brackets with its port. -/
def readBracketed (inner port : List Char) : Except AddressError (List Char) := do
  let port ← resolve .host port
  let (host, zone) := cutZone inner
  let name := (← resolve .host host) ++ (← resolve .zone zone)
  match Ip.check name with
  | .error f => .error (.ip name f)
  | .ok .old => .error .oldIp
  | .ok .new => return ['['] ++ name ++ [']'] ++ port

/-- A host with its port. A bracket can only begin it. -/
def readHost (cs : List Char) : Except AddressError (List Char) :=
  match cutLast? '[' cs with
  | some (_ :: _, _) => .error .lateBracket
  | some ([], _) =>
    match cutLast? ']' cs with
    | none => .error .openBracket
    | some (inside, port) =>
      if isPort port then readBracketed (inside.drop 1) port else .error (.port port)
  | none =>
    match cutLast? ':' cs with
    | some (_, port) =>
      if isPort (':' :: port) then resolve .host cs else .error (.port (':' :: port))
    | none => resolve .host cs

/-- The name of a user, if there is one, and the host. -/
def readAuthority (cs : List Char) : Except AddressError (Option (List Char) × List Char) :=
  match cutLast? '@' cs with
  | none => do return (none, ← readHost cs)
  | some (user, host) => do
    let host ← readHost host
    if user.all mayNameUser then return (some (← resolve .other user), host) else .error .user

def isControl (c : Char) : Bool := c.toNat < 0x20 || c.toNat == 0x7F

/-- Reads an address without a fragment, which begins with `http://`. -/
def readMain (cs : List Char) : Except AddressError Address := do
  if cs.any isControl then .error .control
  else
    let rest := cs.drop 7
    let (place, query) := (rest.takeWhile (· ≠ '?'), rest.dropWhile (· ≠ '?'))
    let (user, host) ← readAuthority (place.takeWhile (· ≠ '/'))
    let written := place.dropWhile (· ≠ '/')
    return { user, host, path := ← resolve .other written, writtenPath := written, query }

/-- The message about a text that cannot be read as an address. -/
def complaint (text : List Char) (e : AddressError) : String :=
  "parse " ++ quoted (String.ofList text) ++ ": " ++ e.message

/-- Reads an address that begins with `http://`. A fault before the fragment is reported without
it. -/
def read (text : String) : Except String Address := do
  let cs := text.toList
  let main := cs.takeWhile (· ≠ '#')
  let a ← (readMain main).mapError (complaint main)
  let written := (cs.dropWhile (· ≠ '#')).drop 1
  let fragment ← (resolve .other written).mapError (complaint cs)
  return { a with fragment, writtenFragment := written }

/-! ### Writing -/

/-- A part as it was written, where that is valid, else in escaped form. -/
def writePart (keep : Char → Bool) (resolved written : List Char) : List Char :=
  if written.all fun c => mayStand c || keep c then written else escape keep resolved

/-- The text of an address. -/
def text (a : Address) : String :=
  String.ofList ("http://".toList ++
    (match a.user with
      | some user => escape isUserChar user ++ ['@']
      | none => []) ++
    escape isHostChar a.host ++ writePart isPathChar a.path a.writtenPath ++ a.query ++
    (if a.fragment = [] then []
      else '#' :: writePart isFragmentChar a.fragment a.writtenFragment))

end Address

end SearchGateway.Backend
