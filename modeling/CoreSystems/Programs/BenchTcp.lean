import CoreSystems.Net.Streams

/-!
# CoreSystems.Programs.BenchTcp

The TCP benchmark: a connected pair of sockets, and the two threads of each of its
measurements. `SendAll` and `ReceiveExact` are in `CoreSystems.Net.Streams`.

What is measured and what is printed is left out; which of its messages a measurement ends
with is its `Verdict`.

Objects are named by numbers that differ from function to function, so that a local, a
parameter and a result that live at one time are different objects. The loops are given their
counts as in the sources: rounds count down, bytes count up to a total.
-/

namespace CoreSystems

open Buffer (Bytes)
open Calls (Code)

namespace Net

open SocketHandle

/-- Constants of the platform's headers that only programs use. -/
structure Options where
  SOMAXCONN : Int
  SO_RCVTIMEO : Nat
  SO_SNDTIMEO : Nat
  TCP_NODELAY : Nat
  somaxconn_pos : 0 < SOMAXCONN

namespace BenchTcp

/-! ### Constants -/

/-- `MessageBytes`. -/
def messageBytes : Nat := 64

/-- `ChunkBytes`. -/
def chunkBytes : Nat := 64 * 1024

/-- `MiB`. -/
def mib : Nat := 1024 * 1024

/-- `WarmupRounds`. -/
def warmupRounds : Nat := 256

/-! ### The connection

A pair of sockets is an object with two members, and is moved member by member. -/

/-- `ConnectionPair`: where its two sockets live. -/
structure ConnectionPair where
  client : HandleId
  server : HandleId

namespace ConnectionPair

/-- `ConnectionPair()`. -/
def construct (pair : ConnectionPair) : N Unit := do
  SocketHandle.construct pair.client none
  SocketHandle.construct pair.server none

/-- `ConnectionPair(ConnectionPair&&)`. -/
def moveConstruct (pair other : ConnectionPair) : N Unit := do
  SocketHandle.moveConstruct pair.client other.client
  SocketHandle.moveConstruct pair.server other.server

/-- The rest of the scope of a local. Members are destroyed in reverse order. -/
def leaving {α : Type} (pair : ConnectionPair) (body : N α) : N α :=
  SocketHandle.leaving pair.client (SocketHandle.leaving pair.server body)

end ConnectionPair

/-- `listener` of `ConnectPair`. -/
def listener : HandleId := .user 0

/-- `pair` of `ConnectPair`. -/
def pair : ConnectionPair := ⟨.user 1, .user 2⟩

/-- The socket in `accepted` of `ConnectPair`. -/
def accepted : HandleId := .user 3

/-- The parameter of `SocketResult<ConnectionPair>::Success`. -/
def value : ConnectionPair := ⟨.user 4, .user 5⟩

/-- The pair in the result of `ConnectPair`. -/
def connected : ConnectionPair := ⟨.user 6, .user 7⟩

/-- `Configure`. The timeouts are in milliseconds. The first option that cannot be set ends
it. -/
def configure (p : Platform) (o : Options) (socket : HandleId) (noDelay : Bool) :
    N SocketError := do
  let handle ← get socket
  match ← sys socket (.setsockopt handle p.SOL_SOCKET o.SO_RCVTIMEO 5000) with
  | .error _ => last
  | .ok _ =>
    match ← sys socket (.setsockopt handle p.SOL_SOCKET o.SO_SNDTIMEO 5000) with
    | .error _ => last
    | .ok _ =>
      let enabled := if noDelay then 1 else 0
      match ← sys socket (.setsockopt handle p.IPPROTO_TCP o.TCP_NODELAY enabled) with
      | .error _ => last
      | .ok _ => return .success

/-- The loop over the two sockets at the end of `ConnectPair`, with the error it returns. -/
def configureEach (p : Platform) (o : Options) (noDelay : Bool) : List HandleId → N SocketError
  | [] => return .success
  | socket :: sockets => do
    let error ← configure p o socket noDelay
    if error.hasError then
      return error
    else
      configureEach p o noDelay sockets

/-- `ConnectPair` inside the scope of `accepted`. -/
def finishPair (p : Platform) (o : Options) (noDelay : Bool) : N (SocketResult Unit) := do
  moveAssign pair.server accepted
  let error ← configureEach p o noDelay [pair.client, pair.server]
  if error.hasError then
    failure error
  else
    value.moveConstruct pair
    value.leaving (connected.moveConstruct value)
    return .success ()

/-- `ConnectPair` inside the scope of `pair`. -/
def connectTo (p : Platform) (o : Options) (rounds : Nat) (noDelay : Bool)
    (endpoint : SocketEndpoint) : N (SocketResult Unit) := do
  match ← TcpSocket.connect p pair.client endpoint with
  | .failure error => failure error
  | .success _ =>
    match ← TcpListener.accept p rounds accepted listener with
    | .failure error => failure error
    | .success _ => leaving accepted (finishPair p o noDelay)

/-- `ConnectPair`, with the pair in `connected`. -/
def connectPair (p : Platform) (o : Options) (rounds : Nat) (noDelay : Bool) :
    N (SocketResult Unit) := do
  construct listener none
  leaving listener do
    match ← TcpListener.bind p listener (.construct (.loopback .IPv4) 0 0) with
    | .failure error => failure error
    | .success _ =>
      match ← TcpListener.listen p listener o.SOMAXCONN with
      | .failure error => failure error
      | .success _ =>
        match ← queryEndpoint p listener (← get listener) false with
        | .failure error => failure error
        | .success endpoint =>
          pair.construct
          pair.leaving (connectTo p o rounds noDelay endpoint)

/-! ### `RoundTrips`

Each thread is a function of its socket and its buffers. What they share is the connection. -/

/-- The worker of `RoundTrips`, with `rounds` left to do: echo a message, and shut the
connection down on failure. It ends with `serverError`. -/
def echoWorker (p : Platform) (retries : Nat) (server : HandleId) :
    Nat → SocketError → Bytes → N SocketError
  | 0, serverError, _ => return serverError
  | rounds + 1, _, echo => do
    let (serverError, echo) ← receiveExact p retries server echo
    let serverError ←
      if serverError.hasError then pure serverError else sendAll p retries server echo
    if serverError.hasError then
      let _ ← TcpSocket.shutdown p server .both
      return serverError
    else
      echoWorker p retries server rounds serverError echo

/-- `exchange`, with `count` exchanges left, and what is then in `reply`. -/
def exchange (p : Platform) (retries : Nat) (client : HandleId) (request : Bytes) :
    Nat → Bytes → N (SocketError × Bytes)
  | 0, reply => return (.success, reply)
  | count + 1, reply => do
    let error ← sendAll p retries client request
    let (error, reply) ←
      if error.hasError then pure (error, reply) else receiveExact p retries client reply
    if error.hasError then
      return (error, reply)
    else
      exchange p retries client request count reply

/-- What the main thread of `RoundTrips` does with the connection: the warm-up, the measured
exchanges, and a shutdown if either failed. It ends with `clientError` and `reply`. -/
def roundTripsClient (p : Platform) (retries : Nat) (client : HandleId) (request reply : Bytes)
    (rounds : Nat) : N (SocketError × Bytes) := do
  let (clientError, reply) ← exchange p retries client request warmupRounds reply
  let (clientError, reply) ←
    if clientError.hasError then pure (clientError, reply)
    else exchange p retries client request rounds reply
  if clientError.hasError then
    let _ ← TcpSocket.shutdown p client .both
    return (clientError, reply)
  else
    return (clientError, reply)

/-- How a measurement ends. What is printed of it besides is a matter of time and is left out. -/
inductive Verdict
  /-- `ReportErrors` has something to report. -/
  | failed
  /-- `Echo payload mismatch`, or `Stream byte count mismatch`. -/
  | mismatch
  | measured
  deriving DecidableEq, Repr

/-- `ReportErrors`: neither side failed. -/
def reportErrors (client server : SocketError) : Bool := !client.hasError && !server.hasError

/-- The end of `RoundTrips`. -/
def roundTripsVerdict (clientError serverError : SocketError) (request reply : Bytes) : Verdict :=
  if !reportErrors clientError serverError then .failed
  else if reply ≠ request then .mismatch
  else .measured

/-! ### `Throughput`

The client counts what it has sent and the worker what it has received, each up to the same
total. -/

/-- The loop of the worker of `Throughput`: receive until `total` bytes have arrived. It ends
with `serverError` and `received`. -/
def countReceived (p : Platform) (retries : Nat) (server : HandleId) (total : Nat) :
    Nat × Bytes → N ((Nat × Bytes) ⊕ SocketError × Nat)
  | (received, receiveBuffer) => do
    if received < total then
      let (result, receiveBuffer) ← TcpSocket.receive p retries server receiveBuffer
      match result with
      | .failure error => return .inr (error, received)
      | .success count =>
        if count = 0 then
          return .inr (.ofErrc p .ioError, received)
        else
          return .inl (received + count, receiveBuffer)
    else
      return .inr (.success, received)

/-- The worker of `Throughput`. The rounds are enough: every round but the last receives
something. Running out of them would show as a failed assertion. -/
def throughputWorker (p : Platform) (retries : Nat) (server : HandleId) (total : Nat)
    (receiveBuffer : Bytes) : N (SocketError × Nat) := do
  let (serverError, received) ← Code.loopN .assertion (countReceived p retries server total)
    (total + 1) (0, receiveBuffer)
  if serverError.hasError then
    let _ ← TcpSocket.shutdown p server .both
    return (serverError, received)
  else
    return (serverError, received)

/-- A round of the loop of the main thread of `Throughput`, in which `sent` counts up to
`total`. -/
def sendChunk (p : Platform) (retries : Nat) (client : HandleId) (sendBuffer : Bytes)
    (total sent : Nat) : N (Nat ⊕ SocketError) := do
  if sent < total then
    let clientError ← sendAll p retries client sendBuffer
    if clientError.hasError then
      return .inr clientError
    else
      return .inl (sent + chunkBytes)
  else
    return .inr .success

/-- What the main thread of `Throughput` does with the connection. It ends with `clientError`.
The rounds are enough, as for the worker. -/
def throughputClient (p : Platform) (retries : Nat) (client : HandleId) (sendBuffer : Bytes)
    (total : Nat) : N SocketError := do
  let clientError ← Code.loopN .assertion (sendChunk p retries client sendBuffer total)
    (total + 1) 0
  if clientError.hasError then
    let _ ← TcpSocket.shutdown p client .both
    return clientError
  else
    return clientError

/-- The end of `Throughput`. -/
def throughputVerdict (clientError serverError : SocketError) (received total : Nat) : Verdict :=
  if !reportErrors clientError serverError then .failed
  else if received ≠ total then .mismatch
  else .measured

end BenchTcp

end Net

end CoreSystems
