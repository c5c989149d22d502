import CoreSystems.Net.OperationSpecs

/-!
# CoreSystems.Net.DescriptorRuns

Descriptor ownership over whole runs of a client.

A client creates, moves, resets and destroys objects and calls their operations in any
order, with any answers of the operating system; between operations other code opens and
closes descriptors the library does not answer for. A run is looked at between
operations and at every system call inside one.

Objects are untyped: an operation may be called on any object, which gives more runs than
the classes allow. A `SocketResult` that carries a socket is an object like any other.

The result is `descriptors_owned`. One operation keeps the invariant `Good` and makes only
calls that a guarded operating system accepts (`Operation.keeps`); from there the induction
over a run is that of `CoreSystems.Lib.Calls`, where a moment inside an operation is described
by what is still to be executed. What the library answers for changes when an operation is
called or has returned, in `Operation.begin` and `Operation.settle`: a client that hands over
a descriptor or takes one away does so without a call.
-/

namespace CoreSystems

open Buffer (Bytes)
open Calls (Code Env Prog wp)

namespace Net

open SocketHandle

/-! ### Clients

A client may do anything that C++ allows with live objects, in any order. The few conditions
on it are in `Operation.Valid`. -/

/-- What a client can do with its objects. -/
inductive Operation
  | construct (x : Nat) (handle : NativeHandle)
  | moveConstruct (x other : Nat)
  | moveAssign (x other : Nat)
  | reset (x : Nat) (handle : NativeHandle)
  | release (x : Nat)
  | swap (x other : Nat)
  | close (x : Nat)
  | destroy (x : Nat)
  | connect (x : Nat) (endpoint : SocketEndpoint)
  | bindListener (x : Nat) (endpoint : SocketEndpoint)
  | listen (x : Nat) (backlog : Int)
  | accept (rounds result x : Nat)
  | send (rounds x : Nat) (buffer : Bytes)
  | receive (rounds x : Nat) (buffer : Bytes)
  | shutdown (x : Nat) (direction : SocketShutdown)
  | bindUdp (x : Nat) (endpoint : SocketEndpoint)
  | sendTo (rounds x : Nat) (buffer : Bytes) (destination : SocketEndpoint)
  | receiveFrom (rounds x : Nat) (buffer : Bytes)
  | getEndpoint (x : Nat) (peer : Bool)

namespace Operation

/-- The library code an operation runs. The client sees the result; what it does next is
up to it. -/
def code (p : Platform) : Operation → N Unit
  | construct x handle => SocketHandle.construct (.user x) handle
  | moveConstruct x other => SocketHandle.moveConstruct (.user x) (.user other)
  | moveAssign x other => SocketHandle.moveAssign (.user x) (.user other)
  | reset x handle => SocketHandle.reset (.user x) handle
  | release x => do let _ ← SocketHandle.release (.user x)
  | swap x other => SocketHandle.swap (.user x) (.user other)
  | close x => SocketHandle.close (.user x)
  | destroy x => SocketHandle.destroy (.user x)
  | connect x endpoint => do let _ ← TcpSocket.connect p (.user x) endpoint
  | bindListener x endpoint => do let _ ← TcpListener.bind p (.user x) endpoint
  | listen x backlog => do let _ ← TcpListener.listen p (.user x) backlog
  | accept rounds result x => do
    let _ ← TcpListener.accept p rounds (.user result) (.user x)
  | send rounds x buffer => do let _ ← TcpSocket.send p rounds (.user x) buffer
  | receive rounds x buffer => do let _ ← TcpSocket.receive p rounds (.user x) buffer
  | shutdown x direction => do let _ ← TcpSocket.shutdown p (.user x) direction
  | bindUdp x endpoint => do let _ ← UdpSocket.bind p (.user x) endpoint
  | sendTo rounds x buffer destination => do
    let _ ← UdpSocket.sendTo p rounds (.user x) buffer destination
  | receiveFrom rounds x buffer => do let _ ← UdpSocket.receiveFrom p rounds (.user x) buffer
  | getEndpoint x peer => do let _ ← queryEndpoint p (.user x) (← get (.user x)) peer

/-- An object of the client is alive. -/
def Live (s : Process) (x : Nat) : Prop := ∃ h, s.handles (.user x) = some h

/-- A descriptor that an object may adopt: open, and owned by no object. -/
def Adoptable (s : Process) (o : OS) (handle : NativeHandle) : Prop :=
  ∀ fd, handle = some fd → fd ∈ o.openFds ∧ ∀ y, s.handles y ≠ some (some fd)

/-- What the client has to see to: objects that are used are alive, objects that are
constructed are not, and a descriptor that is handed over is open and not owned. -/
def Valid (s : Process) (o : OS) : Operation → Prop
  | construct x handle => s.handles (.user x) = none ∧ Adoptable s o handle
  | moveConstruct x other => s.handles (.user x) = none ∧ Live s other
  | moveAssign x other => Live s x ∧ Live s other
  | reset x handle => Live s x ∧ (s.handles (.user x) = some handle ∨ Adoptable s o handle)
  | release x => Live s x
  | swap x other => Live s x ∧ Live s other
  | close x => Live s x
  | destroy x => Live s x
  | connect x _ => Live s x
  | bindListener x _ => Live s x
  | listen x _ => Live s x
  | accept _ result x => s.handles (.user result) = none ∧ Live s x
  | send _ x _ => Live s x
  | receive _ x _ => Live s x
  | shutdown x _ => Live s x
  | bindUdp x _ => Live s x
  | sendTo _ x _ _ => Live s x
  | receiveFrom _ x _ => Live s x
  | getEndpoint x _ => Live s x

/-- What the library answers for while an operation runs. A move assignment has the
source release its descriptor, and closes another one before it takes that over. -/
def begin (s : Process) (o : OS) : Operation → OS
  | moveAssign x other =>
    if x = other then o else o.giveAway ((s.handles (.user other)).getD none)
  | _ => o

/-- What the library answers for once an operation on the process `s` has ended in `o`. -/
def settle (s : Process) (o : OS) : Operation → OS
  | construct _ handle => o.adopt handle
  | moveAssign x other =>
    if x = other then o else o.adopt ((s.handles (.user other)).getD none)
  | reset _ handle => o.adopt handle
  | release x => o.giveAway ((s.handles (.user x)).getD none)
  | _ => o

end Operation

/-- A moment of a run: between operations, or inside one that was called on `entry`. -/
inductive Moment
  | idle (s : Process) (o : OS)
  | busy (op : Operation) (entry : Process) (x : Prog os Process Exit Unit) (o : OS)

namespace Moment

/-- A step of a run. -/
inductive Step (p : Platform) : Moment → Moment → Prop
  /-- The client calls an operation. -/
  | call {s : Process} {o : OS} (op : Operation) (h : op.Valid s o) :
      Step p (idle s o) (busy op s (op.code p s) (op.begin s o))
  /-- The operating system answers a call. -/
  | answer {op : Operation} {entry seen : Process} {o o' : OS} {r : Request}
      {k : os.Answer r → Prog os Process Exit Unit} {a : os.Answer r}
      (h : (osEnv True).answers o r a o') :
      Step p (busy op entry (.call r seen k) o) (busy op entry (k a) o')
  /-- The operation returns. -/
  | finish {op : Operation} {entry s : Process} {o : OS} :
      Step p (busy op entry (.ret () s) o) (idle s (op.settle entry o))
  /-- Other code opens and closes descriptors of its own. -/
  | others {s : Process} {o : OS} (openFds : Finset Nat) (h : o.managed ⊆ openFds) :
      Step p (idle s o) (idle s (o.become openFds h))

/-- The moments of the runs that start without objects, with any descriptors open. -/
def Reachable (p : Platform) (openFds : Finset Nat) (m : Moment) : Prop :=
  Relation.ReflTransGen (Step p)
    (idle ⟨fun _ => none, 0⟩ ⟨openFds, ∅, Finset.empty_subset _, []⟩) m

/-- What holds of every moment of a run: no local is alive between operations, and inside one
the rest of its code keeps the ownership invariant. -/
def Invariant : Moment → Prop
  | idle s o => Good s o ∧ s.Idle
  | busy op entry x o =>
    x.wp (osEnv True) (fun _ s' o' => Good s' (op.settle entry o') ∧ s'.Idle) OnlyGaveUp o

end Moment

/-! ### One operation

Opening and transferring are covered by the specifications of the operations; what remains
here are the members that move descriptors between objects. -/

section Operations

variable {s s' : Process} {o o' : OS} {p : Platform} {x y : HandleId} {h g : NativeHandle}

theorem Process.Idle.kept (hidle : s.Idle) (hk : Kept s o s' o') : s'.Idle :=
  fun z hz => by rw [hk.handles, hidle z hz]

/-- `Reset` closes what the object has, unless it is told to keep it. -/
theorem wp_reset_os {name : Nat} (hg : Good s o) (hidle : s.Idle)
    (hx : s.handles (.user name) = some g)
    (hh : g = h ∨ ∀ fd, h = some fd → fd ∈ o.openFds ∧ ∀ y, s.handles y ≠ some (some fd)) :
    wp (osEnv True) (reset (.user name) h) (fun _ s' o' => Good s' (o'.adopt h) ∧ s'.Idle)
      OnlyGaveUp s o := by
  rw [wp_reset hx]
  split
  case isTrue heq => exact ⟨hg.adopt_owned (heq ▸ hx), hidle⟩
  case isFalse hne =>
    have hadopt := hh.resolve_left hne
    cases g with
    | none =>
        rw [wp_close_invalid hx]
        exact ⟨hg.adopt (by simp [hx]) hadopt, hidle.put⟩
    | some d =>
        apply wp_close_os (fun _ => hg) hx
        intro s₁ o₁ hlost
        refine ⟨(hg.lost hx hlost).adopt (by simp [hlost.handles]) ?_,
          (hidle.update hlost.handles).put⟩
        intro fd hfd
        obtain ⟨hopen, hfree⟩ := hadopt fd hfd
        refine ⟨?_, ?_⟩
        · rw [hlost.openFds]
          exact Finset.mem_erase.mpr ⟨fun heq => hne (by rw [hfd, heq]), hopen⟩
        · intro y
          rw [hlost.handles, Function.update_apply]
          split
          · simp
          · exact hfree y

/-- `Close` keeps the invariant and leaves the object without a descriptor. -/
theorem wp_close_keeps {name : Nat} (hg : Good s o) (hidle : s.Idle)
    (hx : s.handles (.user name) = some h) :
    wp (osEnv True) (close (.user name)) (fun _ s' o' => (Good s' o' ∧ s'.Idle) ∧
      s'.handles (.user name) = some none) OnlyGaveUp s o := by
  cases h with
  | none => exact (wp_close_invalid hx).mpr ⟨⟨hg, hidle⟩, hx⟩
  | some fd =>
      apply wp_close_os (fun _ => hg) hx
      intro s' o' hlost
      exact ⟨⟨hg.lost hx hlost, hidle.update hlost.handles⟩, by simp [hlost.handles]⟩

/-- The destructor keeps the invariant: the descriptor of the object is closed before the
object is gone. -/
theorem wp_destroy_keeps {name : Nat} (hg : Good s o) (hidle : s.Idle)
    (hx : s.handles (.user name) = some h) :
    wp (osEnv True) (destroy (.user name)) (fun _ s' o' => Good s' o' ∧ s'.Idle)
      OnlyGaveUp s o := by
  apply (Calls.wp_bind _ _).mpr
  apply (wp_close_keeps hg hidle hx).imp
  intro _ s' o' hclosed
  obtain ⟨⟨hg', hidle'⟩, hnone⟩ := hclosed
  refine ⟨hg'.same ?_, hidle'.update rfl⟩
  intro z fd
  by_cases hz : z = .user name <;> simp [hz, hnone]

/-- Move assignment between two objects: what the other has is given away, what the
object has is closed, and what was given away is taken over. -/
theorem wp_moveAssign_keeps {x other : Nat} (hg : Good s o) (hidle : s.Idle) (hne : x ≠ other)
    (hx : s.handles (.user x) = some g) (hother : s.handles (.user other) = some h) :
    wp (osEnv True) (moveAssign (.user x) (.user other))
      (fun _ s' o' => Good s' (o'.adopt h) ∧ s'.Idle) OnlyGaveUp s (o.giveAway h) := by
  have hx' : (s.put (.user other) none).handles (.user x) = some g := by simp [hne, hx]
  have hfree : ∀ fd, h = some fd → fd ∈ (o.giveAway h).openFds ∧
      ∀ y, (s.put (.user other) none).handles y ≠ some (some fd) := by
    intro fd hfd
    subst hfd
    refine ⟨hg.isOpen hother, ?_⟩
    intro y hy
    rw [Process.handles_put] at hy
    split at hy
    · cases hy
    · exact ‹y ≠ .user other› (hg.unique y _ fd hy hother)
  have hreset := wp_reset_os (hg.giveAway hother) hidle.put hx' (.inr hfree)
  simpa [moveAssign, hne, hother] using hreset

/-- `Swap` keeps the invariant: each descriptor has one owner as before, but another one. -/
theorem wp_swap_keeps {x other : Nat} (hg : Good s o) (hidle : s.Idle)
    (hx : s.handles (.user x) = some g) (hother : s.handles (.user other) = some h) :
    wp (osEnv True) (swap (.user x) (.user other)) (fun _ s' o' => Good s' o' ∧ s'.Idle)
      OnlyGaveUp s o := by
  have hswap : wp (osEnv True) (swap (.user x) (.user other))
      (fun _ s' o' => s' = (s.put (.user x) h).put (.user other) g ∧ o' = o) OnlyGaveUp s o := by
    simp [swap, hx, hother]
  apply hswap.imp
  intro _ s' o' hs'
  obtain ⟨rfl, rfl⟩ := hs'
  refine ⟨hg.exchange (.user x) (.user other) ?_, hidle.put.put⟩
  intro z fd
  by_cases hzx : z = .user x
  · subst hzx
    simp [hx]
  · by_cases hzo : z = .user other
    · subst hzo
      simp [Ne.symm hzx, hother]
    · simp [Equiv.swap_apply_of_ne_of_ne hzx hzo, hzx, hzo]

/-- An operation whose result the client has seen. -/
theorem wp_seen {α : Type} {code : N α} {Q : α → Process → OS → Prop}
    (hcode : wp (osEnv True) code Q OnlyGaveUp s o)
    (hQ : ∀ a s' o', Q a s' o' → Good s' o' ∧ s'.Idle) :
    wp (osEnv True) (do let _ ← code) (fun _ s' o' => Good s' o' ∧ s'.Idle) OnlyGaveUp s o :=
  hcode.bind hQ

/-- What changes no handle and no descriptor keeps the invariant. -/
theorem Kept.keeps (hk : Kept s o s' o') (hg : Good s o) (hidle : s.Idle) :
    Good s' o' ∧ s'.Idle :=
  ⟨hg.kept hk, hidle.kept hk⟩

/-- So does a new descriptor for an object that had none. -/
theorem Gained.keeps {name fd : Nat} (hgain : Gained (.user name) fd s o s' o') (hg : Good s o)
    (hidle : s.Idle) (hx : ∀ d, s.handles (.user name) ≠ some (some d)) :
    Good s' o' ∧ s'.Idle :=
  ⟨hg.gained hx hgain, hidle.update hgain.handles⟩

theorem Attached.keeps {refusal : SocketError} {name : Nat} {r : SocketResult Unit}
    (hr : Attached refusal name h s o r s' o') (hg : Good s o) (hidle : s.Idle)
    (hx : s.handles (.user name) = some h) : Good s' o' ∧ s'.Idle := by
  cases r with
  | success v =>
      obtain ⟨rfl, fd, hgain⟩ := hr
      exact hgain.keeps hg hidle (by simp [hx])
  | failure error =>
      dsimp only [Attached] at hr
      exact hr.kept.keeps hg hidle

/-- **One operation.** Called under the ownership invariant it makes calls on descriptors of
the calling object only, and ends under the invariant. -/
theorem Operation.keeps (op : Operation) (hg : Good s o) (hidle : s.Idle) (hop : op.Valid s o) :
    wp (osEnv True) (op.code p) (fun _ s' o' => Good s' (op.settle s o') ∧ s'.Idle) OnlyGaveUp
      s (op.begin s o) := by
  have hg' : True → Good s o := fun _ => hg
  cases op with
  | construct x handle =>
      exact ⟨hg.adopt (by simp [hop.1]) hop.2, hidle.put⟩
  | moveConstruct x other =>
      obtain ⟨hx, h, hother⟩ := hop
      apply (wp_moveConstruct hother).mpr
      have hne : HandleId.user x ≠ .user other := by
        intro heq
        rw [heq, hother] at hx
        cases hx
      exact ⟨hg.move hne (by simp [hx]) hother, hidle.put.put⟩
  | moveAssign x other =>
      obtain ⟨⟨g, hx⟩, h, hother⟩ := hop
      by_cases hxo : x = other
      · -- an object that is moved to itself is left alone
        simpa [Operation.code, SocketHandle.moveAssign, Operation.begin, Operation.settle, hxo]
          using ⟨hg, hidle⟩
      · have hmove := wp_moveAssign_keeps hg hidle hxo hx hother
        simpa [Operation.code, Operation.begin, Operation.settle, hxo, hother] using hmove
  | reset x handle =>
      -- the handle is the object's own, or one that nobody owns
      obtain ⟨⟨g, hx⟩, hh⟩ := hop
      exact wp_reset_os hg hidle hx (hh.imp_left fun heq => by rw [hx] at heq; cases heq; rfl)
  | release x =>
      obtain ⟨h, hx⟩ := hop
      apply (Calls.wp_bind _ _).mpr
      rw [wp_release hx]
      exact ⟨by simpa [Operation.settle, Operation.begin, hx] using hg.giveAway hx, hidle.put⟩
  | swap x other =>
      obtain ⟨⟨a, hx⟩, b, hother⟩ := hop
      exact wp_swap_keeps hg hidle hx hother
  | close x =>
      obtain ⟨h, hx⟩ := hop
      exact (wp_close_keeps hg hidle hx).imp fun _ _ _ hclosed => hclosed.1
  | destroy x =>
      obtain ⟨h, hx⟩ := hop
      exact wp_destroy_keeps hg hidle hx
  | connect x endpoint =>
      obtain ⟨h, hx⟩ := hop
      exact wp_seen (wp_connect hidle hx hg') fun _ _ _ hr => hr.keeps hg hidle hx
  | bindListener x endpoint =>
      obtain ⟨h, hx⟩ := hop
      exact wp_seen (wp_bindListener hidle hx hg') fun _ _ _ hr => hr.keeps hg hidle hx
  | listen x backlog =>
      obtain ⟨h, hx⟩ := hop
      exact wp_seen (wp_listen hx hg') fun _ _ _ hr => hr.kept.keeps hg hidle
  | accept rounds result x =>
      obtain ⟨hresult, h, hx⟩ := hop
      apply wp_seen (wp_accept hidle hx hg')
      intro r s' o' hr
      cases r with
      | success v =>
          obtain ⟨-, fd, hgain, -⟩ := hr
          exact hgain.keeps hg hidle (by simp [hresult])
      | failure error => exact hr.kept.keeps hg hidle
  | send rounds x buffer =>
      obtain ⟨h, hx⟩ := hop
      exact wp_seen (wp_send hx hg') fun _ _ _ hk => hk.keeps hg hidle
  | receive rounds x buffer =>
      obtain ⟨h, hx⟩ := hop
      exact wp_seen (wp_receive hx hg') fun _ _ _ hk => hk.keeps hg hidle
  | shutdown x direction =>
      obtain ⟨h, hx⟩ := hop
      exact wp_seen (wp_shutdown hx hg') fun _ _ _ hr => hr.kept.keeps hg hidle
  | bindUdp x endpoint =>
      obtain ⟨h, hx⟩ := hop
      exact wp_seen (wp_bindUdp hidle hx hg') fun _ _ _ hr => hr.keeps hg hidle hx
  | sendTo rounds x buffer destination =>
      obtain ⟨h, hx⟩ := hop
      apply wp_seen (wp_sendTo_os hidle hx hg')
      intro r s' o' hr
      cases r with
      | failure error => exact Kept.keeps hr hg hidle
      | success count =>
          obtain ⟨-, hr⟩ := hr
          -- an object without a descriptor now owns the one that was made for sending
          split at hr
          case isTrue hsome => exact hr.keeps hg hidle
          case isFalse hnone =>
            obtain ⟨fd, hgain⟩ := hr
            obtain rfl : h = none := by simpa using hnone
            exact hgain.keeps hg hidle (by simp [hx])
  | receiveFrom rounds x buffer =>
      obtain ⟨h, hx⟩ := hop
      exact wp_seen (wp_receiveFrom_os hx hg') fun _ _ _ hk => hk.keeps hg hidle
  | getEndpoint x peer =>
      obtain ⟨h, hx⟩ := hop
      apply (Calls.wp_bind _ _).mpr
      rw [wp_getHandle hx]
      exact wp_seen (wp_queryEndpoint hx hg') fun _ _ _ hk => hk.keeps hg hidle

end Operations

/-! ### Whole runs

Between operations the invariant is `Good`; inside one it is that the rest of the code is safe
and ends under `Good`. -/

namespace Moment

variable {p : Platform} {m m' : Moment}

/-- Every step keeps the invariant. Inside an operation this is what its specification says of
the next call. -/
theorem Invariant.step (h : m.Invariant) (hstep : Step p m m') : m'.Invariant := by
  cases hstep with
  | call op hop => exact op.keeps h.1 h.2 hop
  | answer ha => exact h.2 _ _ ha
  | finish => exact h
  | others openFds hle => exact ⟨⟨h.1.managed, h.1.unique⟩, h.2⟩

/-- The invariant holds at every moment of every run. -/
theorem Reachable.invariant {openFds : Finset Nat} (h : Reachable p openFds m) :
    m.Invariant := by
  induction h with
  | refl =>
      refine ⟨⟨?_, ?_⟩, ?_⟩
      · intro fd
        simp
      · intro x y fd hx
        cases hx
      · intro x _
        rfl
  | tail _ hstep ih => exact ih.step hstep

/-- Each descriptor that the library answers for has exactly one owner, and what an object
owns is open. -/
structure OwnedOnce (s : Process) (o : OS) : Prop where
  owner : ∀ fd ∈ o.managed, ∃! x, s.handles x = some (some fd)
  isOpen : ∀ x fd, s.handles x = some (some fd) → fd ∈ o.openFds

theorem ownedOnce_of_good {s : Process} {o : OS} (hg : Good s o) :
    OwnedOnce s o where
  owner fd hfd := by
    obtain ⟨x, hx⟩ := (hg.managed fd).mp hfd
    exact ⟨x, hx, fun y hy => hg.unique y x fd hy hx⟩
  isOpen x fd hx := hg.isOpen hx

/-- What is to be shown of a moment: descriptors are owned once, and a call that is being
made — a `close` as much as any other — is made on an open descriptor that the calling
object owns. A call in which an operation stops for good is none of these. -/
def Safe : Moment → Prop
  | idle s o => OwnedOnce s o
  | busy _ _ (.call r seen _) o => OwnedOnce seen o ∧ r.Owned seen o
  | busy _ _ (.exit e _) _ => e = .gaveUp
  | busy _ _ (.ret _ _) _ => True

theorem Invariant.safe (h : m.Invariant) : m.Safe := by
  cases m with
  | idle s o => exact ownedOnce_of_good h.1
  | busy op entry x o =>
      cases x with
      | ret v s => trivial
      | exit e s => exact h
      | call r seen k =>
          have haccepts := h.1 trivial
          exact ⟨ownedOnce_of_good haccepts.1, haccepts.2⟩

end Moment

/-- **Descriptor ownership.** At every moment of every run, whatever the operating system
answers, every descriptor the library created or adopted and has not closed or given away
is owned by exactly one live object, every owned descriptor is open, and every call is
made on an open descriptor by the object that owns it. -/
theorem descriptors_owned {p : Platform} {openFds : Finset Nat} {m : Moment}
    (h : m.Reachable p openFds) : m.Safe :=
  h.invariant.safe

/-- An object adopts the descriptor 5 and is then closed: the moment of the `close`. -/
theorem descriptors_owned_close :
    let s := (⟨fun _ => none, 0⟩ : Process).put (.user 0) (some 5)
    let o := (⟨{5}, ∅, Finset.empty_subset _, []⟩ : OS).adopt (some 5)
    (Moment.busy (.close 0) s ((Operation.close 0).code .linux s) o).Safe := by
  intro s o
  have hadopt : (Operation.construct 0 (some 5)).Valid ⟨fun _ => none, 0⟩
      ⟨{5}, ∅, Finset.empty_subset _, []⟩ := by
    refine ⟨rfl, ?_⟩
    rintro fd ⟨⟩
    exact ⟨Finset.mem_singleton_self 5, fun y => by simp⟩
  have hclose : (Operation.close 0).Valid s o := ⟨some 5, by simp [s]⟩
  have h₁ : Moment.Reachable .linux {5} (.idle s o) :=
    (Relation.ReflTransGen.refl.tail (.call (.construct 0 (some 5)) hadopt)).tail .finish
  exact descriptors_owned (h₁.tail (.call (.close 0) hclose))

end Net

end CoreSystems
