import CoreSystems.Net.Sockets

/-!
# CoreSystems.Net.Streams

`TcpSocket::Send` and `Receive`, and the loops `SendAll` and `ReceiveExact` of the
benchmark over them, on both ends of byte streams.

A stream is a queue of bytes. A system call is interrupted or fails without touching it,
or puts some first bytes of what it was given at the end of it, or takes some first bytes
off it; `recv` takes none only when the stream has ended.

Every end of every stream makes one call after another. A full duplex connection is two
streams, and a program that uses both directions of a socket is one way of interleaving
their ends.

As for datagrams, the last part is about one call and its log: `StreamCall.Accepts` bounds
what each system call may ask for, `StreamCall.Returns` says what the log of a call is that
has returned. Both are stated by the bytes that were put on the stream or taken off it, and
not by counts.
-/

namespace CoreSystems

open Buffer (Bytes Trap)
open Calls (Code Env Prog Rules System wp)

namespace Net

/-! ### The loops of the benchmark

`SendAll` and `ReceiveExact` pass on what `Send` and `Receive` report, and fail with
`io_error` if that is no progress. -/

/-- `std::span::subspan(offset)`. -/
def subspan (bytes : Bytes) (offset : Nat) : Except Trap Bytes :=
  if offset ≤ bytes.length then .ok (bytes.drop offset) else .error .outOfBounds

/-- One round of `SendAll`. -/
def sendAllRound (p : Platform) (rounds : Nat) (socket : HandleId) (bytes : Bytes) :
    N (Bytes ⊕ SocketError) := do
  if bytes = [] then
    return .inr .success
  else
    match ← TcpSocket.send p rounds socket bytes with
    | .failure error => return .inr error
    | .success count =>
      if count = 0 then
        return .inr (.ofErrc p .ioError)
      else
        return .inl (← checked (subspan bytes count))

/-- `SendAll`. The rounds are enough: every round but the last sends something. -/
def sendAll (p : Platform) (rounds : Nat) (socket : HandleId) (bytes : Bytes) : N SocketError :=
  Code.loopN .gaveUp (sendAllRound p rounds socket) (bytes.length + 1) bytes

/-- One round of `ReceiveExact`. `filled` is what lies in front of the span `bytes`. -/
def receiveExactRound (p : Platform) (rounds : Nat) (socket : HandleId) :
    Bytes × Bytes → N ((Bytes × Bytes) ⊕ SocketError × Bytes)
  | (filled, bytes) => do
    if bytes = [] then
      return .inr (.success, filled)
    else
      let (result, bytes) ← TcpSocket.receive p rounds socket bytes
      match result with
      | .failure error => return .inr (error, filled ++ bytes)
      | .success count =>
        if count = 0 then
          return .inr (.ofErrc p .ioError, filled ++ bytes)
        else
          let rest ← checked (subspan bytes count)
          return .inl (filled ++ bytes.take count, rest)

/-- `ReceiveExact`, with what is then in the buffer. -/
def receiveExact (p : Platform) (rounds : Nat) (socket : HandleId) (bytes : Bytes) :
    N (SocketError × Bytes) :=
  Code.loopN .gaveUp (receiveExactRound p rounds socket) (bytes.length + 1) ([], bytes)

/-! ### The calls

An end of a stream sends only, or receives only, so each stream has one sender and one
receiver. -/

/-- An end of a stream: the one that sends, or the one that receives. -/
inductive End
  | sender
  | receiver
  deriving DecidableEq, Repr

/-- What an end may call. -/
inductive StreamCall
  | send (buffer : Bytes)
  | sendAll (buffer : Bytes)
  | receive (buffer : Bytes)
  | receiveExact (buffer : Bytes)

/-- What the caller gets: a result and, when receiving, what is then in the buffer. -/
inductive StreamResult
  | sent (result : SocketResult Nat)
  | sentAll (error : SocketError)
  | received (result : SocketResult Nat) (buffer : Bytes)
  | receivedExact (error : SocketError) (buffer : Bytes)

namespace StreamCall

/-- The end that makes a call. -/
def side : StreamCall → End
  | send _ => .sender
  | sendAll _ => .sender
  | receive _ => .receiver
  | receiveExact _ => .receiver

/-- The code a call runs. -/
def body (p : Platform) (rounds : Nat) (socket : HandleId) : StreamCall → N StreamResult
  | send buffer => do return .sent (← TcpSocket.send p rounds socket buffer)
  | sendAll buffer => do return .sentAll (← Net.sendAll p rounds socket buffer)
  | receive buffer => do
    let (result, buffer) ← TcpSocket.receive p rounds socket buffer
    return .received result buffer
  | receiveExact buffer => do
    let (error, buffer) ← Net.receiveExact p rounds socket buffer
    return .receivedExact error buffer

end StreamCall

/-- A call on the object `socket` of a process. -/
structure StreamTask where
  entry : Process
  socket : HandleId
  rounds : Nat
  call : StreamCall

/-- The object has a descriptor. -/
def StreamTask.Valid (t : StreamTask) : Prop := ∃ fd, t.entry.handles t.socket = some (some fd)

/-! ### The streams

A queue may be served in pieces of any size, and an end of the stream is seen only when
everything before it has been taken. -/

/-- A stream: what has been sent and not yet received, and whether more can come. -/
structure Pipe where
  queue : Bytes
  ended : Bool

/-- All streams. -/
abbrev Pipes := Nat → Pipe

/-- How the system calls of an end of the stream `d` are answered. -/
def pipeServes (slot : Nat × End) (_ : Nat) (pipes : Pipes) (r : Request) (a : os.Answer r)
    (pipes' : Pipes) : Prop :=
  match r, a with
  | ⟨_, .send _ data _⟩, .ok count => slot.2 = .sender ∧ (pipes slot.1).ended = false ∧
      pipes' = Function.update pipes slot.1
        { pipes slot.1 with queue := (pipes slot.1).queue ++ data.take count.1 }
  | ⟨_, .recv _ _ _⟩, .ok bytes => slot.2 = .receiver ∧
      (bytes.1 = [] → (pipes slot.1).queue = [] ∧ (pipes slot.1).ended = true) ∧
      ∃ rest, (pipes slot.1).queue = bytes.1 ++ rest ∧
        pipes' = Function.update pipes slot.1 { pipes slot.1 with queue := rest }
  | _, _ => pipes' = pipes

/-- Ends of streams that send and receive. -/
def streamRules (p : Platform) :
    Rules os Process Exit StreamResult StreamTask (Nat × End) Pipes where
  code t := t.call.body p t.rounds t.socket t.entry
  allowed slot t := t.call.side = slot.2 ∧ ∃ h, t.entry.handles t.socket = some h
  serves := pipeServes
  drifts pipes pipes' := ∃ d, pipes' = Function.update pipes d { pipes d with ended := true }

/-- A state of the ends and the streams. -/
abbrev StreamSystem := System os Process Exit StreamResult StreamTask (Nat × End) Pipes

/-! ### What a call has done so far

Bytes are counted where system calls were answered, so they are those of the stream and not
those a caller was told about. -/

/-- The bytes an answer has put on the stream. -/
def Event.put : Event → Bytes
  | ⟨⟨_, .send _ data _⟩, .ok count⟩ => data.take count.1
  | _ => []

/-- The bytes an answer has taken off the stream. -/
def Event.got : Event → Bytes
  | ⟨⟨_, .recv _ _ _⟩, .ok bytes⟩ => bytes.1
  | _ => []

/-- The bytes that were put on the stream. -/
def bytesPut (log : List Event) : Bytes := log.flatMap Event.put

/-- The bytes that were taken off the stream. -/
def bytesGot (log : List Event) : Bytes := log.flatMap Event.got

@[simp] theorem bytesPut_nil : bytesPut [] = [] := rfl

@[simp] theorem bytesGot_nil : bytesGot [] = [] := rfl

theorem bytesPut_snoc (log : List Event) (e : Event) :
    bytesPut (log ++ [e]) = bytesPut log ++ e.put := by
  simp [bytesPut]

theorem bytesGot_snoc (log : List Event) (e : Event) :
    bytesGot (log ++ [e]) = bytesGot log ++ e.got := by
  simp [bytesGot]

/-- A call that failed has transferred nothing. -/
theorem bytesPut_error (log : List Event) (r : Request) (e : Errno) :
    bytesPut (log ++ [⟨r, .error e⟩]) = bytesPut log := by
  have hnone : Event.put ⟨r, .error e⟩ = [] := by
    rcases r with ⟨x, c⟩
    cases c <;> rfl
  rw [bytesPut_snoc, hnone, List.append_nil]

theorem bytesGot_error (log : List Event) (r : Request) (e : Errno) :
    bytesGot (log ++ [⟨r, .error e⟩]) = bytesGot log := by
  have hnone : Event.got ⟨r, .error e⟩ = [] := by
    rcases r with ⟨x, c⟩
    cases c <;> rfl
  rw [bytesGot_snoc, hnone, List.append_nil]

namespace StreamCall

/-- The system calls a call may make: each asks for what is left, and no more than an `int`
can say. -/
def Accepts (call : StreamCall) (r : Request) (log : List Event) : Prop :=
  match call with
  | send buffer => bytesPut log = [] ∧ buffer ≠ [] ∧
      ∃ handle flags, r.call = .send handle (buffer.take intMax) flags
  | sendAll buffer => ∃ rest, buffer = bytesPut log ++ rest ∧ rest ≠ [] ∧
      ∃ handle flags, r.call = .send handle (rest.take intMax) flags
  | receive buffer => bytesGot log = [] ∧ buffer ≠ [] ∧
      ∃ handle flags, r.call = .recv handle (min buffer.length intMax) flags
  | receiveExact buffer => (bytesGot log).length < buffer.length ∧
      ∃ handle flags,
        r.call = .recv handle (min (buffer.length - (bytesGot log).length) intMax) flags

/-- What a call has done when it returns, where `valid` says that its socket has a descriptor.
Such a call has asked the operating system, unless its buffer is empty. -/
def Returns (valid : Prop) (log : List Event) : StreamCall → StreamResult → Prop
  | send buffer, .sent (.success n) => n ≤ min buffer.length intMax ∧
    bytesPut log = buffer.take n ∧ (buffer ≠ [] → log ≠ [])
  | send _, .sent (.failure _) => bytesPut log = [] ∧ (valid → log ≠ [])
  | sendAll buffer, .sentAll error =>
    bytesPut log <+: buffer ∧ (error.hasError = false ↔ bytesPut log = buffer) ∧
      (valid → buffer ≠ [] → log ≠ [])
  | receive buffer, .received (.success n) buffer' =>
    n ≤ min buffer.length intMax ∧ n = (bytesGot log).length ∧
      buffer' = Buffer.patch buffer 0 (bytesGot log) ∧ (buffer ≠ [] → log ≠ [])
  | receive buffer, .received (.failure _) buffer' =>
    bytesGot log = [] ∧ buffer' = buffer ∧ (valid → log ≠ [])
  | receiveExact buffer, .receivedExact error buffer' =>
    (bytesGot log).length ≤ buffer.length ∧ buffer' = Buffer.patch buffer 0 (bytesGot log) ∧
      (error.hasError = false ↔ (bytesGot log).length = buffer.length) ∧
      (valid → buffer ≠ [] → log ≠ [])
  | _, _ => False

/-- What a call has done when a retry loop ran out of rounds: less than it was asked for, and
in order. -/
def GaveUp (log : List Event) : StreamCall → Prop
  | send _ => bytesPut log = []
  | sendAll buffer => bytesPut log <+: buffer
  | receive _ => bytesGot log = []
  | receiveExact buffer => (bytesGot log).length < buffer.length

end StreamCall

/-- What one call sees of the rest of the world: its own log, and answers it knows nothing
about. -/
abbrev streamEnv (call : StreamCall) : Env os Process (List Event) :=
  Calls.logEnv (fun r _ log => call.Accepts r log) fun _ _ => True

end Net

end CoreSystems
