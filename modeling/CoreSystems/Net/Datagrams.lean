import CoreSystems.Net.UdpRules

/-!
# CoreSystems.Net.Datagrams

Calls of `UdpSocket::SendTo` and `ReceiveFrom` over a network that delays, reorders and
drops datagrams.

The network is the list of all datagrams it has ever accepted, each with the place where
it is: in flight, in the queue of a descriptor, lost, or taken off by a call. A system
call fails without touching the network, or accepts one whole datagram, or takes exactly
one off the queue of its descriptor.

Any number of threads of any number of processes make the calls, one after another on
each thread. A call may be made on any object, in whatever state the process is; that
objects keep their descriptors from one call to the next is not used.

The last part is about one call: its log of answered system calls, which system calls it may
make next (`UdpCall.Accepts`), and what its log is when it returns (`UdpCall.Returns`).
`CoreSystems.Net.DatagramSpecs` proves the code right for these, and
`CoreSystems.Net.MessageIntegrity` puts the calls of all threads together.
-/

namespace CoreSystems

open Buffer (Bytes)
open Calls (Code Env Prog Rules System wp)

namespace Net

open SocketHandle

/-! ### The calls

A call starts on a process of its own choice and takes that along: what other threads do to
objects in the meantime is not seen by it. -/

/-- A thread of a process. -/
structure Thread where
  process : Nat
  number : Nat
  deriving DecidableEq, Repr

/-- A thread and how many calls it made before, which together name a call. -/
abbrev CallId := Thread × Nat

/-- `SendTo` and `ReceiveFrom`. -/
inductive UdpCall
  | sendTo (buffer : Bytes) (destination : SocketEndpoint)
  | receiveFrom (buffer : Bytes)

/-- What the caller gets: a result and, from `ReceiveFrom`, what is then in the whole buffer. -/
inductive UdpResult
  | sent (result : SocketResult Nat)
  | received (result : SocketResult UdpReceiveResult) (buffer : Bytes)

/-- A call on the object `socket` of a process. -/
structure UdpTask where
  entry : Process
  socket : Nat
  rounds : Nat
  call : UdpCall

namespace UdpTask

/-- The library code the call runs. -/
def body (p : Platform) (t : UdpTask) : N UdpResult := do
  match t.call with
  | .sendTo buffer destination =>
    return .sent (← UdpSocket.sendTo p t.rounds (.user t.socket) buffer destination)
  | .receiveFrom buffer =>
    let (result, buffer) ← UdpSocket.receiveFrom p t.rounds (.user t.socket) buffer
    return .received result buffer

/-- The object is alive and the thread is in no other library function. -/
def Valid (t : UdpTask) : Prop := t.entry.Idle ∧ ∃ h, t.entry.handles (.user t.socket) = some h

end UdpTask

/-! ### The network

Datagrams keep their numbers, so that a datagram that was taken can be told from one that was
sent twice. -/

/-- Where a datagram is. It is in one place at a time, and stays where it was taken. -/
inductive Place
  | flight
  /-- In the queue of a descriptor. -/
  | queued (process fd : Nat)
  | lost
  /-- Taken off its queue by a call. -/
  | taken (call : CallId)
  deriving DecidableEq, Repr

/-- A datagram, with the call it was accepted from. -/
structure Datagram where
  payload : Bytes
  source : SocketEndpoint
  sender : CallId
  place : Place

/-- The datagrams accepted so far, the oldest first. -/
abbrev Network := List Datagram

/-- What datagrams do by themselves, in any order: arrive in some queue, or get lost. -/
inductive Moves : Place → Place → Prop
  | arrive {process fd : Nat} : Moves .flight (.queued process fd)
  | drop : Moves .flight .lost
  | discard {process fd : Nat} : Moves (.queued process fd) .lost

/-- `name` is a native address of `source`: the bytes that carry the endpoint are those of
`ToNative`, the others may be anything. -/
def Names (l : Layout) (name : Bytes) (source : SocketEndpoint) : Prop :=
  name.length = (source.toNative l).2 ∧
    ∀ i, SocketEndpoint.Carries l source.address.version i → name[i]? = (source.toNative l).1[i]?

/-- What a system call with room for `room` bytes says about the datagram it took. -/
structure Reply where
  room : Nat
  bytes : Bytes
  name : Bytes
  truncated : Bool

def Received.reply {size nameSize : Nat} (r : Received size nameSize) : Reply :=
  ⟨size, r.bytes, r.name.bytes, r.truncated⟩

/-- The reply is right for a datagram: as many bytes as there is room for, and whether
there were more. -/
def Reply.Describes (l : Layout) (r : Reply) (d : Datagram) : Prop :=
  r.bytes = d.payload.take r.room ∧ r.truncated = decide (r.room < d.payload.length) ∧
    Names l r.name d.source

/-- `call` takes one datagram off the queue of its descriptor. -/
def Takes (p : Platform) (call : CallId) (handle : NativeHandle) (net : Network)
    (r : Reply) (net' : Network) : Prop :=
  ∃ k d fd, handle = some fd ∧ net[k]? = some d ∧ d.place = .queued call.1.process fd ∧
    r.Describes p.layout d ∧ net' = net.set k { d with place := .taken call }

/-- How system calls are answered. Winsock has one more error for a datagram that was
taken, so a call that takes none never fails with it. -/
def serves (p : Platform) (thread : Thread) (n : Nat) (net : Network) (r : Request)
    (a : os.Answer r) (net' : Network) : Prop :=
  match r, a with
  | ⟨_, .sendto _ data _ _ _⟩, .ok count => count = data.length ∧
      ∃ source, net' = net ++ [⟨data, source, (thread, n), .flight⟩]
  | ⟨_, .recvmsg handle _ _ _⟩, .ok r => Takes p (thread, n) handle net r.reply net'
  | ⟨_, .recvfrom handle _ _ _⟩, .ok r => Takes p (thread, n) handle net r.reply net'
  | ⟨_, .recvfrom _ _ _ _⟩, .error e => e.1 ≠ p.WSAEMSGSIZE ∧ net' = net
  | _, _ => net' = net

/-- Threads that call `SendTo` and `ReceiveFrom`. -/
def udpRules (p : Platform) : Rules os Process Exit UdpResult UdpTask Thread Network where
  code t := t.body p t.entry
  allowed _ t := t.Valid
  serves := serves p
  drifts net net' := ∃ k d place, net[k]? = some d ∧ Moves d.place place ∧
    net' = net.set k { d with place := place }

/-- A state of the threads and the network. -/
abbrev UdpSystem := System os Process Exit UdpResult UdpTask Thread Network

/-! ### What a call has done so far

A call moves at most one datagram: it hands one over or takes one, and its log says which. -/

/-- The datagram that was taken off a queue. -/
def Event.reply : Event → Option Reply
  | ⟨⟨_, .recvmsg _ _ _ _⟩, .ok r⟩ => some r.reply
  | ⟨⟨_, .recvfrom _ _ _ _⟩, .ok r⟩ => some r.reply
  | _ => none

/-- The datagram that was accepted. -/
def Event.accepted : Event → Option Bytes
  | ⟨⟨_, .sendto _ data _ _ _⟩, .ok _⟩ => some data
  | _ => none

/-- The datagrams a call has taken. -/
def replies (log : List Event) : List Reply := log.filterMap Event.reply

/-- The datagrams a call has handed over. -/
def sent (log : List Event) : List Bytes := log.filterMap Event.accepted

/-- Nothing has been handed over or taken. -/
def Untouched (log : List Event) : Prop := sent log = [] ∧ replies log = []

theorem sent_snoc (log : List Event) (e : Event) :
    sent (log ++ [e]) = sent log ++ e.accepted.toList := by
  cases h : e.accepted <;> simp [sent, h]

theorem replies_snoc (log : List Event) (e : Event) :
    replies (log ++ [e]) = replies log ++ e.reply.toList := by
  cases h : e.reply <;> simp [replies, h]

/-- The first answer that moves a datagram is all that has been moved. -/
theorem Untouched.after {log : List Event} (h : Untouched log) (e : Event) :
    sent (log ++ [e]) = e.accepted.toList ∧ replies (log ++ [e]) = e.reply.toList := by
  rw [sent_snoc, h.1, replies_snoc, h.2]
  exact ⟨rfl, rfl⟩

theorem Untouched.snoc {log : List Event} {e : Event} (h : Untouched log)
    (ha : e.accepted = none) (hr : e.reply = none) : Untouched (log ++ [e]) := by
  rw [Untouched, (h.after e).1, (h.after e).2, ha, hr]
  exact ⟨rfl, rfl⟩

namespace UdpCall

/-- The system calls a call may make: it hands over nothing but its buffer, takes nothing
beyond the size of its buffer, and does neither after a datagram has been moved. -/
def Accepts (call : UdpCall) (r : Request) (log : List Event) : Prop :=
  Untouched log ∧ match call, r.call with
    | .sendTo buffer _, .sendto _ data _ _ _ => data = buffer
    | .sendTo _ _, .socket _ _ _ => True
    | .sendTo _ _, .close _ => True
    | .receiveFrom buffer, .recvmsg _ size _ _ => size = buffer.length
    | .receiveFrom buffer, .recvfrom _ size _ _ => size = buffer.length
    | _, _ => False

/-- What a call has done when it returns. -/
def Returns (p : Platform) (log : List Event) : UdpCall → UdpResult → Prop
  | sendTo buffer _, .sent (.success n) =>
    n = buffer.length ∧ sent log = [buffer] ∧ replies log = []
  | sendTo _ _, .sent (.failure _) => Untouched log
  | receiveFrom buffer, .received (.success r) buffer' => sent log = [] ∧
      ∃ reply, replies log = [reply] ∧ reply.room = buffer.length ∧ reply.truncated = false ∧
        r.bytesReceived = reply.bytes.length ∧ buffer'.take reply.bytes.length = reply.bytes ∧
        ∀ source, Names p.layout reply.name source → r.sender = source
  | receiveFrom buffer, .received (.failure error) _ => sent log = [] ∧
      ((∃ reply, replies log = [reply] ∧ reply.room = buffer.length ∧ reply.truncated = true ∧
          error = truncationError p) ∨
        replies log = [] ∧ (error = truncationError p → intMax < buffer.length))
  | _, _ => False

end UdpCall

/-- An answer that the network may give at some point, whatever happened before. -/
def Legal (p : Platform) (r : Request) (a : os.Answer r) : Prop :=
  ∃ thread n net net', serves p thread n net r a net'

/-- What one call sees of the rest of the world: its own log, and answers that are legal. -/
abbrev udpEnv (p : Platform) (call : UdpCall) : Env os Process (List Event) :=
  Calls.logEnv (fun r _ log => call.Accepts r log) (Legal p)

/-- A retry loop ran out of rounds before a datagram was moved. -/
def GaveUpUntouched (e : Exit) (_ : Process) (log : List Event) : Prop :=
  e = .gaveUp ∧ Untouched log

end Net

end CoreSystems
