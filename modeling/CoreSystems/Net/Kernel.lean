import CoreSystems.Net.Datagrams
import CoreSystems.Net.TcpOpening

/-!
# CoreSystems.Net.Kernel

The TCP sockets of one host that talks to itself.

A descriptor is an unbound socket, one that is bound to an endpoint, a listener with the
connections that wait to be accepted, or one end of a connection. A connection is two
channels, one for each direction.

Every call may fail, and a call that fails changes nothing; `close` always frees its
descriptor. `connect` reaches the listener that is bound to the endpoint it names.

`Kernel.Blocks` says which calls have to wait for somebody else. `kernelEnv` accepts the
others only: a single thread that makes no other calls never waits for itself.

The model is of what calls do to sockets, and leaves out when they do it. `capacity` is the
number of bytes that fit into one direction of a connection, and is a parameter: what is
proved of programs says what they need of it.
-/

namespace CoreSystems

open Buffer (Bytes)
open Calls (Env)

namespace Net

/-! ### Connections

A channel belongs to the end that sends. It is finished when that end has stopped sending, and
refused when the other end has stopped receiving. -/

/-- The ends of a connection. -/
inductive Side
  | client
  | server
  deriving DecidableEq, Repr

namespace Side

/-- The other end of a connection. -/
def peer : Side → Side
  | client => server
  | server => client

@[simp] theorem peer_client : client.peer = server := rfl

@[simp] theorem peer_server : server.peer = client := rfl

@[simp] theorem peer_peer (side : Side) : side.peer.peer = side := by
  cases side <;> rfl

@[simp] theorem peer_ne (side : Side) : side.peer ≠ side := by
  cases side <;> decide

@[simp] theorem ne_peer (side : Side) : side ≠ side.peer := (peer_ne side).symm

end Side

/-- One direction of a connection: what is on its way, and whether the end that sends and
the end that receives have been shut down. -/
@[ext]
structure Channel where
  queue : Bytes
  finished : Bool
  refused : Bool
  deriving DecidableEq

namespace Channel

/-- The direction of a connection that has just been made. -/
def new : Channel := ⟨[], false, false⟩

/-- Either end is shut down. -/
def shut (c : Channel) (sender receiver : Bool) : Channel :=
  { c with finished := c.finished || sender, refused := c.refused || receiver }

/-- Nothing is there, and something may still come. -/
def Dry (c : Channel) : Prop := c.queue = [] ∧ c.finished = false ∧ c.refused = false

/-- There is no room, and there may still be some. -/
def Full (capacity : Nat) (c : Channel) : Prop :=
  capacity ≤ c.queue.length ∧ c.finished = false ∧ c.refused = false

end Channel

/-! ### Sockets

The connections of a host are numbered in the order in which they were made, and their
channels are kept apart from the descriptors of their ends. -/

/-- What a descriptor stands for. A listener knows its backlog and the connections that wait. -/
inductive Socket
  | unbound
  | bound (endpoint : SocketEndpoint)
  | listening (endpoint : SocketEndpoint) (limit : Int) (pending : List Nat)
  | connected (connection : Nat) (side : Side)

/-- The endpoint a socket is bound to. -/
def Socket.name : Socket → Option SocketEndpoint
  | unbound => none
  | bound endpoint => some endpoint
  | listening endpoint _ _ => some endpoint
  | connected _ _ => none

/-- The sockets of the host, the channels of its connections by the end that sends, and how
many connections have been made. -/
@[ext]
structure Kernel where
  sockets : Nat → Option Socket
  channels : Nat → Side → Channel
  connections : Nat

namespace Kernel

/-- The descriptor `fd` stands for `socket`. -/
def put (k : Kernel) (fd : Nat) (socket : Option Socket) : Kernel :=
  { k with sockets := Function.update k.sockets fd socket }

/-- A new connection: both of its channels are empty and open. -/
def join (k : Kernel) : Kernel :=
  { k with
    channels := Function.update k.channels k.connections fun _ => .new
    connections := k.connections + 1 }

/-- What is on its way from one end of a connection. -/
def carry (k : Kernel) (n : Nat) (side : Side) (queue : Bytes) : Kernel :=
  { k with
    channels := Function.update k.channels n (Function.update (k.channels n) side
      { k.channels n side with queue := queue }) }

/-- An end of a connection stops sending or receiving. -/
def shut (k : Kernel) (n : Nat) (side : Side) (send receive : Bool) : Kernel :=
  { k with
    channels := Function.update k.channels n fun side' =>
      (k.channels n side').shut (send && side' = side) (receive && side' = side.peer) }

/-- A descriptor is freed. Whatever it stands for ends with it, and so do connections that
nobody has accepted. -/
def free (k : Kernel) (fd : Nat) : Kernel :=
  match k.sockets fd with
  | some (.connected n side) => (k.shut n side true true).put fd none
  | some (.listening _ _ pending) =>
    (pending.foldl (fun k n => k.shut n .server true true) k).put fd none
  | _ => k.put fd none

/-- The endpoint a socket gets that asks for `asked`: port zero leaves the choice of the
port. -/
structure Assigned (asked endpoint : SocketEndpoint) : Prop where
  address : endpoint.address = asked.address
  scopeId : endpoint.scopeId = asked.scopeId
  port : if asked.port = 0 then endpoint.port ≠ 0 else endpoint.port = asked.port

/-- No socket is bound to an endpoint. -/
def Unnamed (k : Kernel) (endpoint : SocketEndpoint) : Prop :=
  ∀ fd socket, k.sockets fd = some socket → socket.name ≠ some endpoint

/-! ### Calls

`Answers` is what may become of a call, and `Blocks` says when a thread may have to wait for
it. A call that blocks may still be interrupted or fail. -/

/-- How a call may be answered, and what it does. -/
def Answers (p : Platform) (k : Kernel) (c : Call) (a : Except Errno c.Value) (k' : Kernel) :
    Prop :=
  match c, a with
  | .socket _ _ _, .ok fd => k.sockets fd = none ∧ k' = k.put fd (some .unbound)
  | .bind handle name length, .ok _ => ∃ fd asked endpoint, handle = some fd ∧
      k.sockets fd = some .unbound ∧ (name, length) = asked.toNative p.layout ∧
      Assigned asked endpoint ∧ k.Unnamed endpoint ∧
      k' = k.put fd (some (.bound endpoint))
  | .listen handle backlog, .ok _ => ∃ fd endpoint, handle = some fd ∧
      k.sockets fd = some (.bound endpoint) ∧
      k' = k.put fd (some (.listening endpoint backlog []))
  | .connect handle name length, .ok _ => ∃ fd listener endpoint limit pending,
      handle = some fd ∧ k.sockets fd = some .unbound ∧
      (name, length) = endpoint.toNative p.layout ∧
      k.sockets listener = some (.listening endpoint limit pending) ∧
      k' = (k.join.put listener (some (.listening endpoint limit
        (pending ++ [k.connections])))).put fd (some (.connected k.connections .client))
  | .accept handle, .ok fd' => ∃ fd endpoint limit n pending, handle = some fd ∧
      k.sockets fd = some (.listening endpoint limit (n :: pending)) ∧ k.sockets fd' = none ∧
      k' = (k.put fd (some (.listening endpoint limit pending))).put fd'
        (some (.connected n .server))
  | .send handle data _, .ok count => ∃ fd n side, handle = some fd ∧
      k.sockets fd = some (.connected n side) ∧ (k.channels n side).finished = false ∧
      k' = k.carry n side ((k.channels n side).queue ++ data.take count.1)
  | .recv handle size _, .ok bytes => ∃ fd n side rest, handle = some fd ∧
      k.sockets fd = some (.connected n side) ∧
      (k.channels n side.peer).queue = bytes.1 ++ rest ∧
      (bytes.1 = [] → size = 0 ∨ (k.channels n side.peer).refused = true ∨
        (k.channels n side.peer).queue = [] ∧ (k.channels n side.peer).finished = true) ∧
      k' = k.carry n side.peer rest
  | .shutdown handle how, .ok _ => ∃ fd n side, handle = some fd ∧
      k.sockets fd = some (.connected n side) ∧
      k' = k.shut n side (how = p.SHUT_WR ∨ how = p.SHUT_RDWR)
        (how = p.SHUT_RD ∨ how = p.SHUT_RDWR)
  | .getsockname handle _, .ok name => k' = k ∧ ∀ fd socket endpoint, handle = some fd →
      k.sockets fd = some socket → socket.name = some endpoint →
      Names p.layout name.bytes endpoint
  | .close handle, _ => k' = (handle.map k.free).getD k
  | _, _ => k' = k

/-- A call that has to wait for another thread or process: for room, for data, or for a
connection. -/
def Blocks (p : Platform) (capacity : Nat) (k : Kernel) : Call → Prop
  | .send handle _ _ => ∃ fd n side, handle = some fd ∧
      k.sockets fd = some (.connected n side) ∧ (k.channels n side).Full capacity
  | .recv handle _ _ => ∃ fd n side, handle = some fd ∧
      k.sockets fd = some (.connected n side) ∧ (k.channels n side.peer).Dry
  | .accept handle => ∃ fd endpoint limit, handle = some fd ∧
      k.sockets fd = some (.listening endpoint limit [])
  | .connect _ name length => ∃ listener endpoint limit pending,
      (name, length) = endpoint.toNative p.layout ∧
      k.sockets listener = some (.listening endpoint limit pending) ∧ limit ≤ pending.length
  | _ => False

end Kernel

/-- The host as the environment of a single thread, which may not wait: nobody would ever end
that. -/
def kernelEnv (p : Platform) (capacity : Nat) : Env os Process Kernel where
  accepts r _ k := ¬ k.Blocks p capacity r.call
  answers k r a k' := k.Answers p r.call a k'

end Net

end CoreSystems
