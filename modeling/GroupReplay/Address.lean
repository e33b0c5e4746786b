import GroupReplay.Bytes
import GroupReplay.Service.Error

/-!
Addresses of the protocol service: paths of local sockets and endpoints that are reached over a
network.  What follows an endpoint's scheme has to be an authority and a path as in an address of
the web.
-/

namespace GroupReplay

/-- How an address is reached. -/
inductive Target where
  /-- Over a network; the text begins with a scheme. -/
  | tcp (uri : String)
  /-- Through the socket at a path. -/
  | uds (path : String)
  deriving DecidableEq, Repr

/-- Tells apart paths, addresses with a scheme, and those without one, which get the common one. -/
def Target.ofAddress (address : String) : Target :=
  if address.startsWith "/" || address.startsWith "./" then .uds address
  else if address.startsWith "http://" || address.startsWith "https://" then .tcp address
  else .tcp ("http://" ++ address)

namespace Endpoint

/-- What is wrong with the text of an endpoint. -/
inductive Flaw where
  | tooLong
  | empty
  | character
  | authority
  | form
  deriving DecidableEq, Repr

/-- The wording of a flaw. -/
def Flaw.message : Flaw → String
  | tooLong => "uri too long"
  | empty => "empty string"
  | character => "invalid uri character"
  | authority => "invalid authority"
  | form => "invalid format"

/-- The number of bytes an endpoint may have. -/
def longest : Nat := 65534

/-- How many colons may stand in an authority, those inside brackets included. -/
def mostColons : Nat := 8

/-- Whether a byte may stand in an authority. -/
def isAuthorityByte (byte : UInt8) : Bool :=
  let c := Char.ofNat byte.toNat
  byte < 128 && (c.isAlphanum || "!#$&'()*+,-./:;=?@[]_~".toList.contains c)

/-- Whether a byte ends an authority. -/
def endsAuthority (byte : UInt8) : Bool :=
  let c := Char.ofNat byte.toNat
  c = '/' || c = '?' || c = '#'

/-- What was seen of an authority. -/
structure Authority where
  colons : Nat := 0
  opened : Bool := false
  closed : Bool := false
  percent : Bool := false
  /-- Whether the last byte parts a user from a host. -/
  endsInUser : Bool := false
  length : Nat := 0

/-- Takes the next byte of an authority.  What stands before an at sign or inside brackets may hold
colons and percent signs; the rest may hold one colon. -/
def Authority.next (seen : Authority) (byte : UInt8) : Except Flaw Authority :=
  let c := Char.ofNat byte.toNat
  let seen := { seen with length := seen.length + 1, endsInUser := c = '@' }
  if c = ':' then
    if mostColons ≤ seen.colons then .error .authority
    else .ok { seen with colons := seen.colons + 1 }
  else if c = '[' then
    if seen.percent || seen.opened then .error .authority else .ok { seen with opened := true }
  else if c = ']' then
    if !seen.opened || seen.closed then .error .authority
    else .ok { seen with closed := true, colons := 0, percent := false }
  else if c = '@' then .ok { seen with colons := 0, percent := false }
  else if c = '%' then .ok { seen with percent := true }
  else if isAuthorityByte byte then .ok seen
  else .error .character

/-- Whether an authority is whole. -/
def Authority.isWhole (seen : Authority) : Bool :=
  seen.opened = seen.closed && seen.colons ≤ 1 && !seen.endsInUser && !seen.percent

/-- Whether a byte may stand in a path. -/
def isPathByte (byte : UInt8) : Bool :=
  byte = 0x21 || byte = 0x22 || (0x24 ≤ byte && byte ≤ 0x3b) || byte = 0x3d ||
    (0x40 ≤ byte && byte ≤ 0x5f) || 0x61 ≤ byte

/-- Whether a byte may stand in a query. -/
def isQueryByte (byte : UInt8) : Bool :=
  byte = 0x21 || (0x24 ≤ byte && byte ≤ 0x3b) || byte = 0x3d || 0x3f ≤ byte

/-- Whether every byte of a path, and of a query after it, may stand there.  What follows a number
sign is not looked at. -/
def isPath (bytes : Bytes) : Bool :=
  let looked := bytes.takeWhile (· ≠ 0x23)
  (looked.takeWhile (· ≠ 0x3f)).all isPathByte &&
    ((looked.dropWhile (· ≠ 0x3f)).drop 1).all isQueryByte

/-- Checks what follows the scheme of an endpoint. -/
def checkRest (bytes : Bytes) : Except Flaw Unit := do
  if bytes.isEmpty then throw .empty
  let authority ← (bytes.takeWhile (!endsAuthority ·)).foldlM Authority.next {}
  if !authority.isWhole then throw .authority
  if authority.length = 0 then throw .form
  if !isPath (bytes.drop authority.length) then throw .character

/-- Checks an endpoint, which begins with a scheme. -/
def check (uri : String) : Except Flaw Unit :=
  let bytes := Bytes.ofText uri
  if longest < bytes.length then .error .tooLong
  else checkRest (bytes.drop (if uri.startsWith "https://" then 8 else 7))

end Endpoint

/-- What keeps an address that nobody listens on from being reached. -/
def Target.unreachable : Target → Service.Error
  | .uds _ => .transport
  | .tcp uri =>
    match Endpoint.check uri with
    | .error flaw => .invalidEndpoint uri flaw.message
    | .ok () => .transport

end GroupReplay
