import CoreSystems.Net.KernelSpecs

/-!
# CoreSystems.Net.Post

The UDP sockets of one host that talks to itself.

A socket is a mailbox. It gets the datagrams that are sent to the endpoint it is bound to,
and a socket that sends without being bound is bound first. A datagram may get lost.

A call may fail, and then it changes nothing, but that a `sendto` may have bound its socket.
`close` always frees its descriptor. `postEnv` accepts no receiving call that could wait for
ever: there has to be a datagram, or a timeout.

Where a datagram comes from and where it gets is not known exactly: a socket that is bound to
every address of the host gets what is sent to any of them, and what it sends may come from
any of them. `Reaches` relates an endpoint that a socket is bound to and an endpoint by which
it is known.
-/

namespace CoreSystems

open Buffer (Bytes)
open Calls (Env wp)

namespace Net

open SocketHandle

/-! ### Mailboxes

What a socket has received waits in order. A timeout is a flag, as nothing depends on how long
it is. -/

/-- A datagram in a queue. -/
structure Letter where
  payload : Bytes
  source : SocketEndpoint

/-- A UDP socket: where it is bound, what waits to be received, and whether a receiving call
gives up after a while. -/
structure Mailbox where
  bound : Option SocketEndpoint
  letters : List Letter
  timeout : Bool

/-- A socket that has just been made. -/
def Mailbox.new : Mailbox := ⟨none, [], false⟩

/-- The UDP sockets of the host. -/
abbrev Post := Nat → Option Mailbox

/-! ### Endpoints -/

/-- What is sent to `endpoint` gets to a socket that is bound to `bound`, and what such a
socket sends may come from `endpoint`. -/
def Reaches (bound endpoint : SocketEndpoint) : Prop :=
  endpoint.address.version = bound.address.version ∧ endpoint.port = bound.port ∧
    (bound.address = .any bound.address.version ∨
      endpoint.address = bound.address ∧ endpoint.scopeId = bound.scopeId)

theorem Reaches.refl (endpoint : SocketEndpoint) : Reaches endpoint endpoint :=
  ⟨rfl, rfl, .inr ⟨rfl, rfl⟩⟩

/-- A socket bound to an address of its own is known by one endpoint only. -/
theorem Reaches.eq {bound endpoint : SocketEndpoint} (h : Reaches bound endpoint)
    (hbound : bound.address ≠ .any bound.address.version) : endpoint = bound := by
  obtain ⟨-, hport, hany | ⟨haddress, hscope⟩⟩ := h
  · exact absurd hany hbound
  · exact SocketEndpoint.ext haddress hport hscope

namespace Post

/-- No socket gets what is sent to a socket that is bound to `bound`. -/
def Unshared (o : Post) (bound : SocketEndpoint) : Prop :=
  ∀ fd box other, o fd = some box → box.bound = some other → ∀ endpoint,
    Reaches other endpoint → ¬ Reaches bound endpoint

/-- The socket that sends is bound, or has just been bound for it. -/
def Settles (o : Post) (fd : Nat) (bound : SocketEndpoint) (o' : Post) : Prop :=
  ∃ box, o fd = some box ∧ (box.bound = some bound ∧ o' = o ∨
    box.bound = none ∧ o.Unshared bound ∧
      o' = Function.update o fd (some { box with bound := some bound }))

/-- A datagram is lost, or gets to a socket that is bound to where it was sent. -/
def Delivers (o : Post) (letter : Letter) (destination : SocketEndpoint) (o' : Post) : Prop :=
  o' = o ∨ ∃ fd box bound, o fd = some box ∧ box.bound = some bound ∧
    Reaches bound destination ∧
    o' = Function.update o fd (some { box with letters := box.letters ++ [letter] })

/-- The first datagram of a queue is taken. -/
def Collects (p : Platform) (o : Post) (handle : NativeHandle) (r : Reply) (o' : Post) : Prop :=
  ∃ fd box letter rest, handle = some fd ∧ o fd = some box ∧ box.letters = letter :: rest ∧
    r.bytes = letter.payload.take r.room ∧
    r.truncated = decide (r.room < letter.payload.length) ∧
    Names p.layout r.name letter.source ∧
    o' = Function.update o fd (some { box with letters := rest })

/-! ### Calls

Besides UDP only what the example asks for is answered: `bind`, `getsockname`, a timeout,
`sendto`, the receiving calls and `close`. -/

/-- How a call may be answered, and what it does. -/
def Answers (p : Platform) (SO_RCVTIMEO : Nat) (o : Post) (c : Call) (a : Except Errno c.Value)
    (o' : Post) : Prop :=
  match c, a with
  | .socket _ _ _, .ok fd => o fd = none ∧ o' = Function.update o fd (some .new)
  | .bind handle name length, .ok _ => ∃ fd box asked bound, handle = some fd ∧
      o fd = some box ∧ box.bound = none ∧ (name, length) = asked.toNative p.layout ∧
      Kernel.Assigned asked bound ∧ o.Unshared bound ∧
      o' = Function.update o fd (some { box with bound := some bound })
  | .setsockopt handle level option value, .ok _ => ∃ fd box, handle = some fd ∧
      o fd = some box ∧ o' = Function.update o fd (some { box with
        timeout := if level = p.SOL_SOCKET ∧ option = SO_RCVTIMEO then decide (0 < value)
          else box.timeout })
  | .sendto handle data _ name length, .ok count => ∃ fd destination bound source o₁,
      handle = some fd ∧ (name, length) = destination.toNative p.layout ∧
      o.Settles fd bound o₁ ∧ Reaches bound source ∧ count = data.length ∧
      o₁.Delivers ⟨data, source⟩ destination o'
  | .sendto handle _ _ _ _, .error _ =>
      o' = o ∨ ∃ fd bound, handle = some fd ∧ o.Settles fd bound o'
  | .recvmsg handle _ _ _, .ok r => o.Collects p handle r.reply o'
  | .recvfrom handle _ _ _, .ok r => o.Collects p handle r.reply o'
  | .getsockname handle _, .ok name => o' = o ∧ ∀ fd box bound, handle = some fd →
      o fd = some box → box.bound = some bound → Names p.layout name.bytes bound
  | .close handle, _ => o' = (handle.map fun fd => Function.update o fd none).getD o
  | _, _ => o' = o

/-- The socket could wait for ever. -/
def Waits (o : Post) (handle : NativeHandle) : Prop :=
  ∃ fd box, handle = some fd ∧ o fd = some box ∧ box.letters = [] ∧ box.timeout = false

/-- A call that could have to wait for ever. -/
def Blocks (o : Post) : Call → Prop
  | .recvmsg handle _ _ _ => o.Waits handle
  | .recvfrom handle _ _ _ => o.Waits handle
  | _ => False

end Post

/-- The host as the environment of a single thread, which may not wait for ever. -/
def postEnv (p : Platform) (SO_RCVTIMEO : Nat) : Env os Process Post where
  accepts r _ o := ¬ o.Blocks r.call
  answers o r a o' := o.Answers p SO_RCVTIMEO r.call a o'

end Net

end CoreSystems
