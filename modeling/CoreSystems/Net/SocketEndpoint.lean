import CoreSystems.Net.IPAddress

/-!
# CoreSystems.Net.SocketEndpoint

`net::SocketEndpoint`: an address, a port and, for IPv6, a scope, with the text format
`a.b.c.d:port`, `[address]:port` and `[address%scope]:port`.

`Parse` is `noexcept`, so a `substr` offset past the end of the text would end the
program; that is a `Trap` here.

The two forms of `Parse` are kept apart as in the source, down to the offsets of the cuts.
What they share at their end, the address of the right version and the port, is `parseParts`;
a bracketed text can carry a scope, and there `parseScope` comes before it.
-/

namespace CoreSystems

open Buffer (Bytes Trap)
open StringView

namespace Net

/-! ### The type -/

/-- `net::SocketEndpoint`. The constructor drops the scope of an IPv4 endpoint. -/
@[ext]
structure SocketEndpoint where
  address : IPAddress
  port : UInt16
  scopeId : UInt32
  unscoped : address.version = .IPv4 → scopeId = 0

namespace SocketEndpoint

/-- `SocketEndpoint(address, port, scopeId)`. -/
def construct (address : IPAddress) (port : UInt16) (scopeId : UInt32) : SocketEndpoint where
  address := address
  port := port
  scopeId := if address.version = .IPv6 then scopeId else 0
  unscoped h := by rw [h]; rfl

/-- `SocketEndpoint()`. -/
def default : SocketEndpoint := construct (IPAddress.any .IPv4) 0 0

/-- `ToString`. -/
def toString (inet : Inet) (e : SocketEndpoint) : Bytes :=
  if e.address.version = .IPv6 then
    let scope := if e.scopeId = 0 then [] else percent :: toDecimal e.scopeId.toNat
    openBracket :: (e.address.toString inet ++ scope ++ [closeBracket, colon] ++
      toDecimal e.port.toNat)
  else e.address.toString inet ++ [colon] ++ toDecimal e.port.toNat

/-! ### Reading a text -/

/-- The test on the result of `std::from_chars` that the whole part was read. -/
def rejects (r : FromChars) (part : Bytes) : Prop := r.ec ≠ .none ∨ r.ptr ≠ part.length

instance (r : FromChars) (part : Bytes) : Decidable (rejects r part) :=
  inferInstanceAs (Decidable (_ ∨ _))

/-- The scope and the address part inside the brackets, or a rejection. -/
def parseScope (ipPart : Bytes) : Except Trap (Option (Bytes × UInt32)) := do
  match find percent ipPart with
  | none => return some (ipPart, 0)
  | some pos =>
    let scopePart ← substrFrom ipPart (pos + 1)
    let ipPart ← substr ipPart 0 pos
    let scopeId := fromChars 4294967295 scopePart
    if rejects scopeId scopePart then return none
    return some (ipPart, UInt32.ofNat scopeId.value)

/-- The port behind an address that has been read, or a rejection. -/
def parsePort (portPart : Bytes) : Option UInt16 :=
  let port := fromChars 65535 portPart
  if rejects port portPart then none else some (UInt16.ofNat port.value)

/-- The end of both forms of `Parse`: an address of the right version, and the port. -/
def parseParts (inet : Inet) (version : IPVersion) (ipPart portPart : Bytes) (scopeId : UInt32) :
    Except Trap (Option SocketEndpoint) := do
  match ← IPAddress.parse inet ipPart with
  | none => return none
  | some ip =>
    if ip.version ≠ version then
      return none
    match parsePort portPart with
    | none => return none
    | some port => return some (construct ip port scopeId)

/-- `Parse` of a text that starts with a bracket. -/
def parseBracketed (inet : Inet) (str : Bytes) : Except Trap (Option SocketEndpoint) := do
  match find closeBracket str with
  | none => return none
  | some pos =>
    -- behind the bracket there has to be a colon
    if str.length ≤ pos + 1 ∨ str[pos + 1]? ≠ some colon then
      return none
    let ipPart ← substr str 1 (pos - 1)
    let portPart ← substrFrom str (pos + 2)
    match ← parseScope ipPart with
    | none => return none
    | some (ipPart, scopeId) => parseParts inet .IPv6 ipPart portPart scopeId

/-- `Parse` of a text that does not. -/
def parseUnbracketed (inet : Inet) (str : Bytes) : Except Trap (Option SocketEndpoint) := do
  match rfind colon str with
  | none => return none
  | some pos =>
    -- neither the address nor the port may be missing
    if pos = 0 ∨ str.length ≤ pos + 1 then
      return none
    let ipPart ← substr str 0 pos
    let portPart ← substrFrom str (pos + 1)
    parseParts inet .IPv4 ipPart portPart 0

/-- `Parse`. -/
def parse (inet : Inet) (str : Bytes) : Except Trap (Option SocketEndpoint) :=
  match str with
  | [] => return none
  | c :: _ => if c = openBracket then parseBracketed inet str else parseUnbracketed inet str

end SocketEndpoint

end Net

end CoreSystems
