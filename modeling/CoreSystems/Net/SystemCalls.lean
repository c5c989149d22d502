import CoreSystems.Lib.Calls
import CoreSystems.Net.SocketError

/-!
# CoreSystems.Net.SystemCalls

The socket calls of the operating system, and programs that make them.

A call fails with a nonzero error number or returns a value whose type says what the
call may return: `send` never more than it was given, `recv` never more than was asked
for. `sendto` may return any count. What the operating system then does is the
environment's business.

A program works on a `Process`: the `SocketHandle` objects that are alive — those of the
client and those that are locals of a library function — and `errno`.

Objects are named by `HandleId`, because who owns a descriptor is the question of several
modules. An object of the client is named by a number, and a local of a library function by
the function and the variable. Functions that are not recursive have at most one such local
alive at a time, so the names suffice. Using an object that is not alive ends a run with
`Exit.lifetime`; the modules on descriptors prove that this never happens.
-/

namespace CoreSystems

open Buffer (Bytes Trap)
open Calls (Code Env Interface wp)

namespace Net

/-! ### Calls

What a call returns depends on its arguments, so `Call.Value` is a family of types: an answer
that the documentation of the call rules out cannot be written down. -/

/-- `SocketHandle::NativeHandle`: a descriptor, or `InvalidHandle`. -/
abbrev NativeHandle := Option Nat

/-- The error number of a call that failed. -/
abbrev Errno := { e : Int // e ≠ 0 }

/-- The functions that have `SocketHandle` locals. -/
inductive Frame
  /-- The member function the client called. -/
  | operation
  /-- `detail::CreateTcpSocket`. -/
  | createTcpSocket
  /-- `detail::CreateSocket`. -/
  | createSocket
  /-- The constructor `TcpSocket(SocketHandle)`. -/
  | tcpSocket
  deriving DecidableEq, Repr

/-- Where a `SocketHandle` lives: by itself or as the member of a client's object, or in
a local of a library function. -/
inductive HandleId
  | user (name : Nat)
  /-- `created`, the result of a creating function. -/
  | created (frame : Frame)
  /-- `handle`. -/
  | handle (frame : Frame)
  /-- `pending` of `UdpSocket::SendTo`. -/
  | pending
  /-- The parameter of `SocketResult::Success`. -/
  | value
  deriving DecidableEq, Repr

/-- The calls of the operating system, with the arguments that the library passes. Output
buffers are given by their size. -/
inductive Call
  | socket (family type protocol : Nat)
  | setsockopt (handle : NativeHandle) (level option : Nat) (value : Int)
  | connect (handle : NativeHandle) (name : Bytes) (length : Nat)
  | bind (handle : NativeHandle) (name : Bytes) (length : Nat)
  | listen (handle : NativeHandle) (backlog : Int)
  | accept (handle : NativeHandle)
  | send (handle : NativeHandle) (data : Bytes) (flags : Nat)
  | recv (handle : NativeHandle) (size flags : Nat)
  | sendto (handle : NativeHandle) (data : Bytes) (flags : Nat) (name : Bytes) (length : Nat)
  | recvmsg (handle : NativeHandle) (size nameSize flags : Nat)
  | recvfrom (handle : NativeHandle) (size flags nameSize : Nat)
  | shutdown (handle : NativeHandle) (how : Nat)
  | getsockname (handle : NativeHandle) (nameSize : Nat)
  | getpeername (handle : NativeHandle) (nameSize : Nat)
  | close (handle : NativeHandle)
  deriving DecidableEq

/-- The descriptor a call is made on. `socket` is made on none. -/
def Call.target : Call → Option NativeHandle
  | socket .. => none
  | setsockopt h .. => some h
  | connect h .. => some h
  | bind h .. => some h
  | listen h .. => some h
  | accept h => some h
  | send h .. => some h
  | recv h .. => some h
  | sendto h .. => some h
  | recvmsg h .. => some h
  | recvfrom h .. => some h
  | shutdown h .. => some h
  | getsockname h .. => some h
  | getpeername h .. => some h
  | close h => some h

/-- A native address written to a buffer of `size` bytes. -/
structure NativeName (size : Nat) where
  bytes : Bytes
  length_le : bytes.length ≤ size

/-- A datagram taken off a queue: what was copied to a buffer of `size` bytes, the
address it came from, and whether it was longer. -/
structure Received (size nameSize : Nat) where
  bytes : Bytes
  length_le : bytes.length ≤ size
  name : NativeName nameSize
  truncated : Bool

/-- What a call returns when it succeeds. -/
abbrev Call.Value : Call → Type
  | socket .. => Nat
  | accept _ => Nat
  | send _ data _ => Fin (data.length + 1)
  | recv _ size _ => { bytes : Bytes // bytes.length ≤ size }
  | sendto .. => Nat
  | recvmsg _ size nameSize _ => Received size nameSize
  | recvfrom _ size _ nameSize => Received size nameSize
  | getsockname _ nameSize => NativeName nameSize
  | getpeername _ nameSize => NativeName nameSize
  | setsockopt .. => Unit
  | connect .. => Unit
  | bind .. => Unit
  | listen .. => Unit
  | shutdown .. => Unit
  | close _ => Unit

/-- A call and the object whose member function makes it. -/
structure Request where
  caller : HandleId
  call : Call
  deriving DecidableEq

/-- The operating system as programs see it. -/
abbrev os : Interface where
  Call := Request
  Answer r := Except Errno r.call.Value

/-- An answered call. -/
abbrev Event := Calls.Event os

/-! ### Processes

Only what the library reads and writes is kept: the handles of its objects, and `errno`.
Buffers are passed to the functions and returned by them. -/

/-- The memory of a process. -/
@[ext]
structure Process where
  handles : HandleId → Option NativeHandle
  errno : Int

namespace Process

variable {s : Process} {x y : HandleId} {h : NativeHandle}

/-- The object `x` begins to live, or changes its handle. -/
def put (s : Process) (x : HandleId) (h : NativeHandle) : Process :=
  { s with handles := Function.update s.handles x (some h) }

/-- The object `x` ceases to live. -/
def drop (s : Process) (x : HandleId) : Process :=
  { s with handles := Function.update s.handles x none }

/-- `errno` after a call: a call that succeeds leaves it as it was. -/
def noted {α : Type} (s : Process) : Except Errno α → Process
  | .error e => { s with errno := e }
  | .ok _ => s

@[simp] theorem handles_put :
    (s.put x h).handles y = if y = x then some h else s.handles y := by
  simp [put, Function.update_apply]

@[simp] theorem handles_drop :
    (s.drop x).handles y = if y = x then none else s.handles y := by
  simp [drop, Function.update_apply]

@[simp] theorem errno_put : (s.put x h).errno = s.errno := rfl

@[simp] theorem errno_drop : (s.drop x).errno = s.errno := rfl

@[simp] theorem handles_noted {α : Type} (a : Except Errno α) :
    (s.noted a).handles = s.handles := by
  cases a <;> rfl

@[simp] theorem noted_ok {α : Type} (v : α) : s.noted (.ok v) = s := rfl

@[simp] theorem noted_error {α : Type} (e : Errno) :
    s.noted (.error e : Except Errno α) = { s with errno := e } := rfl

end Process

/-! ### Programs

The statements of which library functions are made. Each has a rule for `wp` below, so that a
proof about a function never unfolds them. -/

/-- Why a program stops. -/
inductive Exit
  /-- A retry loop ran out of the rounds it was given. -/
  | gaveUp
  /-- An `assert` failed. -/
  | assertion
  /-- An object was used that is not alive. -/
  | lifetime
  | trap (t : Trap)
  deriving DecidableEq, Repr

/-- Library code: it asks the operating system, works on a process, and returns or stops. -/
abbrev N := Code os Process Exit

/-- Make a call on behalf of an object. -/
def sys (caller : HandleId) (c : Call) : N (Except Errno c.Value) := do
  let a ← Code.ask (I := os) ⟨caller, c⟩
  Code.modify fun s => s.noted a
  return a

/-- The handle of an object that is alive. -/
def get (x : HandleId) : N NativeHandle := do
  match (← Code.get).handles x with
  | some h => return h
  | none => Code.leave .lifetime

/-- Write the handle of an object. -/
def put (x : HandleId) (h : NativeHandle) : N Unit := Code.modify fun s => s.put x h

/-- `SocketError::Last`. -/
def last : N SocketError := do return .ofCode (← Code.get).errno

/-- `SocketResult::Failure`. -/
def failure {α : Type} (error : SocketError) : N (SocketResult α) :=
  if error.hasError then return .failure error else Code.leave .assertion

/-- A checked access to memory. -/
def checked {α : Type} : Except Trap α → N α
  | .ok a => return a
  | .error t => Code.leave (.trap t)

/-- `for (;;)` with a body that goes on or returns. A run is given a number of rounds, which
no result depends on: a loop that needs more ends with `Exit.gaveUp`. -/
def retry {α : Type} (rounds : Nat) (body : N (Unit ⊕ α)) : N α :=
  Code.loopN .gaveUp (fun _ => body) rounds ()

section Rules

variable {ω α : Type} {env : Env os Process ω} {s : Process} {w : ω}
variable {E : Exit → Process → ω → Prop}

@[simp] theorem wp_sys {x : HandleId} {c : Call}
    {Q : Except Errno c.Value → Process → ω → Prop} :
    -- the type of the answer would not match once the call is known
    wp (α := no_index (Except Errno c.Value)) env (sys x c) Q E s w ↔
      env.accepts ⟨x, c⟩ s w ∧
        ∀ a w', env.answers w ⟨x, c⟩ a w' → Q a (s.noted a) w' := Iff.rfl

@[simp] theorem wp_getHandle {x : HandleId} {h : NativeHandle}
    {Q : NativeHandle → Process → ω → Prop} (hx : s.handles x = some h) :
    wp env (get x) Q E s w ↔ Q h s w := by
  simp [get, hx]

@[simp] theorem wp_put {x : HandleId} {h : NativeHandle} {Q : Unit → Process → ω → Prop} :
    wp env (put x h) Q E s w ↔ Q () (s.put x h) w := Iff.rfl

@[simp] theorem wp_last {Q : SocketError → Process → ω → Prop} :
    wp env last Q E s w ↔ Q (.ofCode s.errno) s w := Iff.rfl

theorem wp_failure {error : SocketError} {Q : SocketResult α → Process → ω → Prop}
    (he : error.hasError = true) :
    wp env (failure error) Q E s w ↔ Q (.failure error) s w := by
  rw [failure, if_pos he]
  rfl

/-- Failing with a fixed condition passes the assertion. -/
@[simp] theorem wp_failure_ofErrc {p : Platform} {c : Errc}
    {Q : SocketResult α → Process → ω → Prop} :
    wp env (failure (.ofErrc p c)) Q E s w ↔ Q (.failure (.ofErrc p c)) s w :=
  wp_failure (SocketError.hasError_ofErrc p c)

/-- So does failing with what a failed call has left. -/
@[simp] theorem wp_failure_ofCode {e : Errno} {Q : SocketResult α → Process → ω → Prop} :
    wp env (failure (.ofCode e)) Q E s w ↔ Q (.failure (.ofCode e)) s w :=
  wp_failure (decide_eq_true e.2)

theorem wp_checked {x : Except Trap α} {a : α} {Q : α → Process → ω → Prop}
    (hx : x = .ok a) : wp env (checked x) Q E s w ↔ Q a s w := by
  subst hx
  rfl

/-- A retry loop whose invariant counts the rounds, so that a rule can say what becomes of a
call that is never interrupted. -/
theorem wp_retry {rounds : Nat} {body : N (Unit ⊕ α)} {Q : α → Process → ω → Prop}
    (inv : Nat → Process → ω → Prop)
    (hbody : ∀ k s w, inv k s w → wp env body (fun r s' w' =>
      match r with
      | .inl () => inv (k + 1) s' w'
      | .inr a => Q a s' w') E s w)
    (hout : ∀ s w, inv rounds s w → E .gaveUp s w) (hinv : inv 0 s w) :
    wp env (retry rounds body) Q E s w := by
  apply Calls.wp_loopN_counted (fun k (_ : Unit) s w => inv k s w) rounds 0 _ _ hinv
  · intro k _ b s w h
    apply (hbody k s w h).imp
    intro r s' w' hr
    rcases r with ⟨⟨⟩⟩ | a <;> exact hr
  · intro b s w h
    exact hout s w (by rwa [Nat.zero_add] at h)

end Rules

end Net

end CoreSystems
