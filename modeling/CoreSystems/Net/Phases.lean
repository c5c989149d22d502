import CoreSystems.Lib.Sessions
import CoreSystems.Net.DescriptorRuns
import CoreSystems.Net.TcpOpening

/-!
# CoreSystems.Net.Phases

What a descriptor may be used for, and that the classes use it for nothing else.

A socket is made, named or connected, and closed; after a `connect` or `bind` that failed it
can only be closed. `Permits` says which calls a descriptor stands in each phase. A `send` has
to keep `SIGPIPE` away as well: by a flag, or by an option of its descriptor on platforms that
have no such flag.

A program that owns objects of the three classes, and calls their members in any order, makes
only calls that are permitted: the type of an object and its being valid say which phase its
descriptor is in.

This module says what is permitted and what a program may do; that programs stay within it is
proved in `CoreSystems.Net.PhaseRuns`. The tables are those of the operating system and not of
the library, which keeps no record of phases: it has to know the phase from the class of the
object and from its being valid.
-/

namespace CoreSystems

open Buffer (Bytes)
open Calls (Client Env wp)

namespace Net

open SocketHandle

namespace Phases

/-! ### Descriptors

A phase is entered by a call that succeeds, or by one that fails for good: a `connect` that
has failed leaves the socket in a state that POSIX does not specify. -/

/-- What has been done with a descriptor, as far as it decides what may be done next. -/
inductive Phase
  /-- A new stream socket. -/
  | stream
  /-- A stream socket with a name. -/
  | bound
  | listening
  | connected
  /-- A datagram socket without a name. -/
  | datagram
  /-- A datagram socket with a name. -/
  | named
  /-- `bind` or `connect` has failed. -/
  | uncertain
  deriving DecidableEq, Repr

/-- A descriptor: its phase, and whether `SO_NOSIGPIPE` is set. -/
structure Descriptor where
  phase : Phase
  quiet : Bool
  deriving DecidableEq, Repr

/-- The open descriptors. -/
abbrev Table := Nat → Option Descriptor

/-- What `bind` makes of a descriptor. -/
def Descriptor.name (d : Descriptor) : Descriptor :=
  { d with phase := if d.phase = .datagram then .named else .bound }

/-- `SO_NOSIGPIPE` is set, if that is the only way. -/
def Quiet (p : Platform) (d : Descriptor) : Prop := ∀ option, noSigPipe p = some option →
  d.quiet = true

/-- A call that may be made on a descriptor in its phase. `close` is permitted in all of them. -/
def Permits (p : Platform) (d : Descriptor) : Call → Prop
  | .socket _ _ _ => True
  | .setsockopt _ _ _ _ => d.phase = .stream ∨ d.phase = .connected
  | .connect _ _ _ => d.phase = .stream
  | .bind _ _ _ => d.phase = .stream ∨ d.phase = .datagram
  | .listen _ _ => d.phase = .bound ∨ d.phase = .listening
  | .accept _ => d.phase = .bound ∨ d.phase = .listening
  | .send _ _ flags => d.phase = .connected ∧ Quiet p d ∧
      (p.windows = false → ∀ flag, p.MSG_NOSIGNAL = some flag → flags = flag)
  | .recv _ _ _ => d.phase = .connected
  | .shutdown _ _ => d.phase = .connected
  | .getpeername _ _ => d.phase = .connected
  | .sendto _ _ _ _ _ => d.phase = .datagram ∨ d.phase = .named
  | .recvmsg _ _ _ _ => d.phase = .named
  | .recvfrom _ _ _ _ => d.phase = .named
  | .getsockname _ _ => d.phase ≠ .stream ∧ d.phase ≠ .datagram ∧ d.phase ≠ .uncertain
  | .close _ => True

namespace Table

/-- The descriptor of the call is open, and the call may be made on it. -/
def Legal (p : Platform) (t : Table) (c : Call) : Prop :=
  ∀ handle, c.target = some handle → ∃ fd d, handle = some fd ∧ t fd = some d ∧ Permits p d c

/-- Change what is known of a descriptor. -/
def change (t : Table) (handle : NativeHandle) (f : Descriptor → Descriptor) : Table :=
  match handle with
  | none => t
  | some fd => Function.update t fd ((t fd).map f)

/-- A descriptor enters a phase. -/
def enter (t : Table) (handle : NativeHandle) (phase : Phase) : Table :=
  t.change handle fun d => { d with phase := phase }

/-- How a call may be answered, and what it does to the phases. A new descriptor is one that
was not open. -/
def Answers (p : Platform) (t : Table) (c : Call) (a : Except Errno c.Value) (t' : Table) : Prop :=
  match c, a with
  | .socket _ type _, .ok fd => t fd = none ∧ t' = Function.update t fd
      (some ⟨if type = p.SOCK_DGRAM then .datagram else .stream, false⟩)
  | .accept _, .ok fd => t fd = none ∧ t' = Function.update t fd (some ⟨.connected, false⟩)
  | .setsockopt handle level option value, .ok _ => t' = t.change handle fun d =>
      if level = p.SOL_SOCKET ∧ p.SO_NOSIGPIPE = some option then
        { d with quiet := decide (value ≠ 0) }
      else d
  | .connect handle _ _, .ok _ => t' = t.enter handle .connected
  | .connect handle _ _, .error _ => t' = t.enter handle .uncertain
  | .bind handle _ _, .ok _ => t' = t.change handle Descriptor.name
  | .bind handle _ _, .error _ => t' = t.enter handle .uncertain
  | .listen handle _, .ok _ => t' = t.enter handle .listening
  | .sendto handle _ _ _ _, .ok _ => t' = t.enter handle .named
  | .sendto handle _ _ _ _, .error _ => t' = t ∨ t' = t.enter handle .named
  | .close handle, _ => t' = (handle.map fun fd => Function.update t fd none).getD t
  | _, _ => t' = t

theorem change_some {t : Table} {fd : Nat} {d : Descriptor} (h : t fd = some d)
    (f : Descriptor → Descriptor) : t.change (some fd) f = Function.update t fd (some (f d)) := by
  rw [change, h]
  rfl

theorem enter_some {t : Table} {fd : Nat} {d : Descriptor} (h : t fd = some d) (phase : Phase) :
    t.enter (some fd) phase = Function.update t fd (some { d with phase := phase }) :=
  change_some h _

end Table

/-- The operating system, which is only asked for what is permitted. A proof against it is a
proof that nothing else is asked. -/
def phaseEnv (p : Platform) : Env os Process Table where
  accepts r _ t := t.Legal p r.call
  answers t r a t' := t.Answers p r.call a t'

/-! ### Programs

Objects have classes here, unlike in `CoreSystems.Net.DescriptorRuns`, since a member is
called on objects of its class only. -/

/-- The classes. -/
inductive Kind
  | tcpSocket
  | tcpListener
  | udpSocket
  deriving DecidableEq, Repr

/-- The public members of the classes, on objects that are named by numbers. -/
inductive Operation
  | construct (x : Nat)
  | moveConstruct (x other : Nat)
  | moveAssign (x other : Nat)
  | destroy (x : Nat)
  | close (x : Nat)
  | getEndpoint (x : Nat) (peer : Bool)
  | connect (x : Nat) (endpoint : SocketEndpoint)
  | send (rounds x : Nat) (buffer : Bytes)
  | receive (rounds x : Nat) (buffer : Bytes)
  | shutdown (x : Nat) (direction : SocketShutdown)
  | bindListener (x : Nat) (endpoint : SocketEndpoint)
  | listen (x : Nat) (backlog : Int)
  | accept (rounds result x : Nat)
  | bindUdp (x : Nat) (endpoint : SocketEndpoint)
  | sendTo (rounds x : Nat) (buffer : Bytes) (destination : SocketEndpoint)
  | receiveFrom (rounds x : Nat) (buffer : Bytes)

namespace Operation

/-- The library code of a member. -/
def code (p : Platform) : Operation → N Unit
  | construct x => SocketHandle.construct (.user x) none
  | moveConstruct x other => SocketHandle.moveConstruct (.user x) (.user other)
  | moveAssign x other => SocketHandle.moveAssign (.user x) (.user other)
  | destroy x => SocketHandle.destroy (.user x)
  | close x => SocketHandle.close (.user x)
  | getEndpoint x peer => do let _ ← queryEndpoint p (.user x) (← get (.user x)) peer
  | connect x endpoint => do let _ ← TcpSocket.connect p (.user x) endpoint
  | send rounds x buffer => do let _ ← TcpSocket.send p rounds (.user x) buffer
  | receive rounds x buffer => do let _ ← TcpSocket.receive p rounds (.user x) buffer
  | shutdown x direction => do let _ ← TcpSocket.shutdown p (.user x) direction
  | bindListener x endpoint => do let _ ← TcpListener.bind p (.user x) endpoint
  | listen x backlog => do let _ ← TcpListener.listen p (.user x) backlog
  | accept rounds result x => do let _ ← TcpListener.accept p rounds (.user result) (.user x)
  | bindUdp x endpoint => do let _ ← UdpSocket.bind p (.user x) endpoint
  | sendTo rounds x buffer destination => do
    let _ ← UdpSocket.sendTo p rounds (.user x) buffer destination
  | receiveFrom rounds x buffer => do let _ ← UdpSocket.receiveFrom p rounds (.user x) buffer

/-- An object of a class is alive. -/
def Live (kind : Nat → Kind) (s : Process) (k : Kind) (x : Nat) : Prop :=
  kind x = k ∧ ∃ h, s.handles (.user x) = some h

/-- What the language asks for: an object that is used is alive and of a class with that
member, and an object that is constructed is not alive. -/
def Typed (kind : Nat → Kind) (s : Process) : Operation → Prop
  | construct x => s.handles (.user x) = none
  | moveConstruct x other => s.handles (.user x) = none ∧ Live kind s (kind x) other
  | moveAssign x other => Live kind s (kind x) x ∧ Live kind s (kind x) other
  | destroy x => Live kind s (kind x) x
  | close x => Live kind s (kind x) x
  | getEndpoint x peer => Live kind s (kind x) x ∧ (peer = true → kind x = .tcpSocket)
  | connect x _ => Live kind s .tcpSocket x
  | send _ x _ => Live kind s .tcpSocket x
  | receive _ x _ => Live kind s .tcpSocket x
  | shutdown x _ => Live kind s .tcpSocket x
  | bindListener x _ => Live kind s .tcpListener x
  | listen x _ => Live kind s .tcpListener x
  | accept _ result x => s.handles (.user result) = none ∧ kind result = .tcpSocket ∧
      Live kind s .tcpListener x
  | bindUdp x _ => Live kind s .udpSocket x
  | sendTo _ x _ _ => Live kind s .udpSocket x
  | receiveFrom _ x _ => Live kind s .udpSocket x

end Operation

/-- A program that uses the three classes. Other code may open and close descriptors that no
object owns. -/
def program (p : Platform) (kind : Nat → Kind) : Client os Process Exit Table Operation where
  env := phaseEnv p
  code op := op.code p
  allowed s _ op := op.Typed kind s
  drifts s t t' := ∀ n fd, s.handles (.user n) = some (some fd) → t' fd = t fd

/-- What the descriptor of a valid object has been through, for each of the classes. -/
def Suits (p : Platform) (d : Descriptor) : Kind → Prop
  | .tcpSocket => d.phase = .connected ∧ Quiet p d
  | .tcpListener => d.phase = .bound ∨ d.phase = .listening
  | .udpSocket => d.phase = .named

/-- No operation is going on, the descriptor of an object suits its class, and no two objects
have the same. -/
structure Lawful (p : Platform) (kind : Nat → Kind) (s : Process) (t : Table) : Prop where
  idle : s.Idle
  suits : ∀ n fd, s.handles (.user n) = some (some fd) → ∃ d, t fd = some d ∧ Suits p d (kind n)
  unique : ∀ m n fd, s.handles (.user m) = some (some fd) → s.handles (.user n) = some (some fd) →
    m = n

end Phases

end Net

end CoreSystems
