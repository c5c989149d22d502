import CoreSystems.Net.SocketHandle

/-!
# CoreSystems.Net.Sockets

`net::TcpSocket`, `net::TcpListener` and `net::UdpSocket`, with the helpers of
`net::detail`.

Each of the three owns a `SocketHandle` and nothing else, so an object is named by where
its `SocketHandle` lives. A `SocketResult<SocketHandle>` or `SocketResult<TcpSocket>` that
succeeded holds such an object too: the functions that return one are told where it is.

A `for (;;)` is given the number of rounds it may make.

The two platforms differ in a few places, and there the functions branch on `p.windows` or on
whether the platform has a flag, as the sources do with `#if`: the flags of `send`, the option
that suppresses `SIGPIPE`, and the receiving call of `ReceiveFrom`. Buffers are values: a
function that writes to one returns what is then in it.
-/

namespace CoreSystems

open Buffer (Bytes)
open Calls (Code)

namespace Net

open SocketHandle

/-- `std::numeric_limits<int>::max()`. -/
def intMax : Nat := 2147483647

/-- `static_cast<int>` of a size. -/
def castInt (n : Nat) : Int := (n : Int).bmod (2 ^ 32)

/-- A size that an `int` can hold is not narrowed. -/
theorem toNat_castInt {n : Nat} (h : n ≤ intMax) : (castInt n).toNat = n := by
  have hn : n ≤ 2147483647 := h
  have hcast : castInt n = n := Int.bmod_eq_of_le (by omega) (by omega)
  rw [hcast, Int.toNat_natCast]

/-! ### Helpers

The free functions of `net::detail` and the shape that `Connect` and both `Bind`s share. -/

/-- `detail::InvalidSocket`. -/
def invalidSocket (p : Platform) : SocketError := .ofErrc p .badFileDescriptor

/-- `detail::InvalidArgument`. -/
def invalidArgument (p : Platform) : SocketError := .ofErrc p .invalidArgument

/-- `detail::CreateSocket`. -/
def createSocket (p : Platform) (result : HandleId) (version : IPVersion)
    (type protocol : Nat) : N (SocketResult Unit) := do
  if version ≠ .IPv4 ∧ version ≠ .IPv6 then
    failure (invalidArgument p)
  else
    let family := if version = .IPv4 then p.layout.AF_INET else p.layout.AF_INET6
    let opened ← sys (.handle .createSocket) (.socket family type protocol)
    construct (.handle .createSocket) opened.toOption
    leaving (.handle .createSocket) do
      if ← isValid (.handle .createSocket) then
        success result (.handle .createSocket)
        return .success ()
      else
        failure (← last)

/-- `detail::ConfigureTcpSocket`: `SO_NOSIGPIPE` where sends have no flag for it. -/
def configureTcpSocket (p : Platform) (caller : HandleId) (handle : NativeHandle) :
    N (SocketResult Unit) := do
  match p.windows, p.SO_NOSIGPIPE, p.MSG_NOSIGNAL with
  | false, some option, none =>
    match ← sys caller (.setsockopt handle p.SOL_SOCKET option 1) with
    | .error _ => failure (← last)
    | .ok _ => return .success ()
  | _, _, _ => return .success ()

/-- `detail::CreateTcpSocket`. -/
def createTcpSocket (p : Platform) (result : HandleId) (version : IPVersion) :
    N (SocketResult Unit) := do
  match ← createSocket p (.created .createTcpSocket) version p.SOCK_STREAM p.IPPROTO_TCP with
  | .failure error => return .failure error
  | .success _ =>
    leaving (.created .createTcpSocket) do
      moveConstruct (.handle .createTcpSocket) (.created .createTcpSocket)
      leaving (.handle .createTcpSocket) do
        match ← configureTcpSocket p (.handle .createTcpSocket)
            (← get (.handle .createTcpSocket)) with
        | .failure error => failure error
        | .success _ =>
          success result (.handle .createTcpSocket)
          return .success ()

/-- The call of `detail::QueryEndpoint`. -/
def queryName (caller : HandleId) (handle : NativeHandle) (peer : Bool) (size : Nat) :
    N (Except Errno (NativeName size)) :=
  if peer then sys caller (.getpeername handle size) else sys caller (.getsockname handle size)

/-- `detail::QueryEndpoint`. -/
def queryEndpoint (p : Platform) (caller : HandleId) (handle : NativeHandle) (peer : Bool) :
    N (SocketResult SocketEndpoint) := do
  if handle = none then
    failure (invalidSocket p)
  else
    let size := p.layout.sizeofStorage
    match ← queryName caller handle peer size with
    | .error _ => failure (← last)
    | .ok name =>
      let storage := Buffer.patch (List.replicate size 0) 0 name.bytes
      match ← checked (SocketEndpoint.fromNative p.layout (some storage) name.bytes.length) with
      | none => failure (invalidArgument p)
      | some endpoint => return .success endpoint

/-- The body of `Connect` and of both `Bind`s: refuse an object that is in use; create a
socket; call `attach` on it; keep it. -/
def openWith (p : Platform) (refusal : SocketError)
    (create : HandleId → IPVersion → N (SocketResult Unit))
    (attach : NativeHandle → Bytes → Nat → Call) (this : HandleId) (endpoint : SocketEndpoint) :
    N (SocketResult Unit) := do
  if ← isValid this then
    failure refusal
  else
    match ← create (.created .operation) endpoint.address.version with
    | .failure error => failure error
    | .success _ =>
      leaving (.created .operation) do
        moveConstruct (.handle .operation) (.created .operation)
        leaving (.handle .operation) do
          let (storage, length) := endpoint.toNative p.layout
          match ← sys (.handle .operation)
              (attach (← get (.handle .operation)) storage length) with
          | .error _ => failure (← last)
          | .ok _ =>
            moveAssign this (.handle .operation)
            return .success ()

/-- The loop around a call that is made again when it was interrupted. `SocketError::Last` is
asked for the error, so the condition is that of the platform. -/
def untilAnswered {α : Type} (p : Platform) (rounds : Nat) (call : N (Except Errno α)) :
    N (SocketResult α) :=
  retry rounds do
    match ← call with
    | .ok value => return .inr (.success value)
    | .error _ =>
      let error ← last
      if error.isInterrupted p then
        return .inl ()
      else
        return .inr (← failure error)

/-! ### `TcpSocket`

`Send` and `Receive` are the only members that touch data. They make one call each, made again
while it is interrupted, and leave loops over a whole buffer to others. -/

namespace TcpSocket

/-- `Connect`. -/
def connect (p : Platform) (this : HandleId) (endpoint : SocketEndpoint) :
    N (SocketResult Unit) :=
  openWith p (.ofErrc p .alreadyConnected) (createTcpSocket p) .connect this endpoint

/-- `TransferLength`: the length that one call is given, which an `int` can hold. -/
def transferLength (length : Nat) : Int := castInt (min length intMax)

theorem toNat_transferLength (length : Nat) :
    (transferLength length).toNat = min length intMax :=
  toNat_castInt (Nat.min_le_right length intMax)

/-- `Send`. -/
def send (p : Platform) (rounds : Nat) (this : HandleId) (buffer : Bytes) :
    N (SocketResult Nat) := do
  if ← isValid this then
    if buffer = [] then
      return .success 0
    else
      let length := transferLength buffer.length
      let flags := if p.windows then 0 else p.MSG_NOSIGNAL.getD 0
      match ← untilAnswered p rounds do
          sys this (.send (← get this) (buffer.take length.toNat) flags) with
      | .success count => return .success count
      | .failure error => failure error
  else
    failure (invalidSocket p)

/-- `Receive`, with what is then in the buffer. -/
def receive (p : Platform) (rounds : Nat) (this : HandleId) (buffer : Bytes) :
    N (SocketResult Nat × Bytes) := do
  if ← isValid this then
    if buffer = [] then
      return (.success 0, buffer)
    else
      let length := transferLength buffer.length
      match ← untilAnswered p rounds do sys this (.recv (← get this) length.toNat 0) with
      | .success bytes => return (.success bytes.1.length, Buffer.patch buffer 0 bytes.1)
      | .failure error => return (← failure error, buffer)
  else
    return (← failure (invalidSocket p), buffer)

/-- The `switch` of `Shutdown`. -/
def shutdownHow (p : Platform) : SocketShutdown → Option Nat
  | .receive => some p.SHUT_RD
  | .send => some p.SHUT_WR
  | .both => some p.SHUT_RDWR
  | .other _ => none

/-- `Shutdown`. -/
def shutdown (p : Platform) (this : HandleId) (direction : SocketShutdown) :
    N (SocketResult Unit) := do
  if ← isValid this then
    match shutdownHow p direction with
    | none => failure (invalidArgument p)
    | some how =>
      match ← sys this (.shutdown (← get this) how) with
      | .error _ => failure (← last)
      | .ok _ => return .success ()
  else
    failure (invalidSocket p)

/-- `TcpSocket(SocketHandle handle)`, the parameter taken from `other`. -/
def construct (this other : HandleId) : N Unit := do
  moveConstruct (.handle .tcpSocket) other
  leaving (.handle .tcpSocket) (moveConstruct this (.handle .tcpSocket))

/-- `SocketResult<TcpSocket>::Success(TcpSocket{ std::move(other) })`, with the result in
`result`. The temporary is the parameter of `Success`. -/
def success (result other : HandleId) : N Unit := do
  construct .value other
  leaving .value (moveConstruct result .value)

end TcpSocket

/-! ### `TcpListener` -/

namespace TcpListener

/-- `Bind`. -/
def bind (p : Platform) (this : HandleId) (endpoint : SocketEndpoint) :
    N (SocketResult Unit) :=
  openWith p (invalidArgument p) (createTcpSocket p) .bind this endpoint

/-- `Listen`. -/
def listen (p : Platform) (this : HandleId) (backlog : Int) : N (SocketResult Unit) := do
  if ← isValid this then
    if backlog ≤ 0 then
      failure (invalidArgument p)
    else
      match ← sys this (.listen (← get this) backlog) with
      | .error _ => failure (← last)
      | .ok _ => return .success ()
  else
    failure (invalidSocket p)

/-- One round of `Accept`. A connection that cannot be configured is closed, and its error is
returned. -/
def acceptRound (p : Platform) (result this : HandleId) : N (Unit ⊕ SocketResult Unit) := do
  let accepted ← sys this (.accept (← get this))
  SocketHandle.construct (.handle .operation) accepted.toOption
  leaving (.handle .operation) do
    if ← isValid (.handle .operation) then
      match ← configureTcpSocket p (.handle .operation) (← get (.handle .operation)) with
      | .failure error => return .inr (← failure error)
      | .success _ =>
        TcpSocket.success result (.handle .operation)
        return .inr (.success ())
    else
      let error ← last
      if error.isInterrupted p then
        return .inl ()
      else
        return .inr (← failure error)

/-- `Accept`, with the `TcpSocket` in `result`. -/
def accept (p : Platform) (rounds : Nat) (result this : HandleId) : N (SocketResult Unit) := do
  if ← isValid this then
    retry rounds (acceptRound p result this)
  else
    failure (invalidSocket p)

end TcpListener

/-! ### `UdpSocket`

`SendTo` opens a socket if the object has none. It is kept in `pending` until the datagram has
been sent, so that a failure leaves the object without one. -/

/-- `UdpReceiveResult`. -/
structure UdpReceiveResult where
  bytesReceived : Nat
  sender : SocketEndpoint

namespace UdpSocket

/-- `Bind`. -/
def bind (p : Platform) (this : HandleId) (endpoint : SocketEndpoint) :
    N (SocketResult Unit) :=
  openWith p (invalidArgument p)
    (fun result version => createSocket p result version p.SOCK_DGRAM p.IPPROTO_UDP)
    .bind this endpoint

/-- `MaxTransferLength`. -/
def maxTransferLength : Nat := intMax

/-- `MessageSizeError`. -/
def messageSizeError (p : Platform) : SocketError := .ofErrc p .messageSize

/-- The end of `SendTo`: send the datagram with `sender`'s descriptor, and keep `pending`
if that was it. -/
def transmit (p : Platform) (rounds : Nat) (this sender : HandleId) (buffer : Bytes)
    (destination : SocketEndpoint) : N (SocketResult Nat) := do
  let handle ← get sender
  let (storage, length) := destination.toNative p.layout
  let data := buffer.take (castInt buffer.length).toNat
  match ← untilAnswered p rounds (sys sender (.sendto handle data 0 storage length)) with
  | .failure error => failure error
  | .success count =>
    if count ≠ buffer.length then
      failure (messageSizeError p)
    else
      if ← isValid .pending then
        moveAssign this .pending
      return .success count

/-- `SendTo`. -/
def sendTo (p : Platform) (rounds : Nat) (this : HandleId) (buffer : Bytes)
    (destination : SocketEndpoint) : N (SocketResult Nat) := do
  if buffer.length > maxTransferLength then
    failure (messageSizeError p)
  else
    SocketHandle.construct .pending none
    leaving .pending do
      if ← isValid this then
        transmit p rounds this this buffer destination
      else
        match ← createSocket p (.created .operation) destination.address.version
            p.SOCK_DGRAM p.IPPROTO_UDP with
        | .failure error => failure error
        | .success _ =>
          leaving (.created .operation) (moveAssign .pending (.created .operation))
          transmit p rounds this .pending buffer destination

/-- What a receiving call left: the bytes it wrote, and on success the sender's address
and the `MSG_TRUNC` flag. -/
structure ReceiveCall (nameSize : Nat) where
  written : Bytes
  outcome : Option (NativeName nameSize × Bool)

/-- `::recvmsg`: a datagram that did not fit is flagged. -/
def recvmsg (this : HandleId) (handle : NativeHandle) (size nameSize : Nat) :
    N (ReceiveCall nameSize) := do
  match ← sys this (.recvmsg handle size nameSize 0) with
  | .error _ => return ⟨[], none⟩
  | .ok received => return ⟨received.bytes, some (received.name, received.truncated)⟩

/-- `::recvfrom` of Winsock: a datagram that did not fit is lost to `WSAEMSGSIZE`. -/
def recvfrom (p : Platform) (this : HandleId) (handle : NativeHandle) (size nameSize : Nat) :
    N (ReceiveCall nameSize) := do
  match ← sys this (.recvfrom handle size 0 nameSize) with
  | .error _ => return ⟨[], none⟩
  | .ok received =>
    if received.truncated then
      Code.modify fun s => { s with errno := p.WSAEMSGSIZE }
      return ⟨received.bytes, none⟩
    else
      return ⟨received.bytes, some (received.name, false)⟩

/-- The call of `ReceiveFrom`. -/
def receiveCall (p : Platform) (this : HandleId) (handle : NativeHandle) (size nameSize : Nat) :
    N (ReceiveCall nameSize) :=
  if p.windows then recvfrom p this handle (castInt size).toNat nameSize
  else recvmsg this handle size nameSize

/-- One round of `ReceiveFrom`. Truncation comes before the sender's address: an address is
looked at only for a datagram that fits. -/
def receiveRound (p : Platform) (this : HandleId) (buffer : Bytes) :
    N (Bytes ⊕ SocketResult UdpReceiveResult × Bytes) := do
  let size := p.layout.sizeofStorage
  let result ← receiveCall p this (← get this) buffer.length size
  let buffer := Buffer.patch buffer 0 result.written
  match result.outcome with
  | none =>
    let error ← last
    if error.isInterrupted p then
      return .inl buffer
    else
      return .inr (← failure error, buffer)
  | some (name, truncated) =>
    if truncated then
      return .inr (← failure (messageSizeError p), buffer)
    else
      let storage := Buffer.patch (List.replicate size 0) 0 name.bytes
      match ← checked (SocketEndpoint.fromNative p.layout (some storage) name.bytes.length) with
      | none => return .inr (← failure (invalidArgument p), buffer)
      | some sender => return .inr (.success ⟨result.written.length, sender⟩, buffer)

/-- `ReceiveFrom`, with what is then in the buffer. -/
def receiveFrom (p : Platform) (rounds : Nat) (this : HandleId) (buffer : Bytes) :
    N (SocketResult UdpReceiveResult × Bytes) := do
  if ← isValid this then
    if buffer.length > maxTransferLength then
      return (← failure (messageSizeError p), buffer)
    else
      Code.loopN .gaveUp (receiveRound p this) rounds buffer
  else
    return (← failure (invalidSocket p), buffer)

end UdpSocket

end Net

end CoreSystems
