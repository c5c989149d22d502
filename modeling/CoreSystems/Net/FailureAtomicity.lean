import CoreSystems.Net.OperationSpecs

/-!
# CoreSystems.Net.FailureAtomicity

The operations that open, configure and shut down connections either do what they are for
or leave no trace.

The statement is about every run of one operation, with any answers, on any process: the
ownership invariant is not assumed. What the operation has called is the log; a `close`
on the way out may fail too and overwrite `errno`, but it does not change the error that
is returned.

`ConnectionOp` is the list of these operations, and `Outcome` what each of them has done when
it returns. `failure_atomic` is proved for all at once from the specifications of the
operations, with the operating system that accepts every call: so nothing depends on who owned
which descriptor before.
-/

namespace CoreSystems

open Calls (Steps wp)

namespace Net

/-! ### Outcomes

A guard refuses before any call is made, so a refusal has an empty log; any other failure is
that of the last call but the closing ones. -/

/-- `TcpSocket::Connect` and `Shutdown`, `TcpListener::Bind`, `Listen` and `Accept`, and
`UdpSocket::Bind`. -/
inductive ConnectionOp
  | connect (endpoint : SocketEndpoint)
  | shutdown (direction : SocketShutdown)
  | bindListener (endpoint : SocketEndpoint)
  | listen (backlog : Int)
  | accept (rounds result : Nat)
  | bindUdp (endpoint : SocketEndpoint)

namespace ConnectionOp

/-- The member function on the object `x`. -/
def code (p : Platform) (x : Nat) : ConnectionOp → N (SocketResult Unit)
  | connect endpoint => TcpSocket.connect p (.user x) endpoint
  | shutdown direction => TcpSocket.shutdown p (.user x) direction
  | bindListener endpoint => TcpListener.bind p (.user x) endpoint
  | listen backlog => TcpListener.listen p (.user x) backlog
  | accept rounds result => TcpListener.accept p rounds (.user result) (.user x)
  | bindUdp endpoint => UdpSocket.bind p (.user x) endpoint

/-- The errors with which the guards refuse a call on an object that holds `h`. -/
def Refusal (p : Platform) (h : NativeHandle) (error : SocketError) : ConnectionOp → Prop
  | connect _ => h.isSome ∧ error = .ofErrc p .alreadyConnected
  | shutdown direction => h = none ∧ error = .ofErrc p .badFileDescriptor ∨
      (∃ n, direction = .other n) ∧ error = .ofErrc p .invalidArgument
  | bindListener _ => h.isSome ∧ error = .ofErrc p .invalidArgument
  | listen backlog => h = none ∧ error = .ofErrc p .badFileDescriptor ∨
      backlog ≤ 0 ∧ error = .ofErrc p .invalidArgument
  | accept _ _ => h = none ∧ error = .ofErrc p .badFileDescriptor
  | bindUdp _ => h.isSome ∧ error = .ofErrc p .invalidArgument

/-- The object `y` got the one descriptor that was opened between `o` and `o'`; nothing
else changed. -/
def NewOwner (y : Nat) (fd : Nat) (s : Process) (o : OS) (s' : Process) (o' : OS) : Prop :=
  fd ∉ o.openFds ∧ o'.openFds = insert fd o.openFds ∧
    (∃ e ∈ o.since o', Event.created e = some fd) ∧
    s'.handles = Function.update s.handles (.user y) (some (some fd))

/-- What it means that the operation on `x`, which held `h`, succeeded. -/
def Success (x : Nat) (h : NativeHandle) (s : Process) (o : OS) (s' : Process) (o' : OS) :
    ConnectionOp → Prop
  | connect _ => h = none ∧ ∃ fd, NewOwner x fd s o s' o'
  | bindListener _ => h = none ∧ ∃ fd, NewOwner x fd s o s' o'
  | bindUdp _ => h = none ∧ ∃ fd, NewOwner x fd s o s' o'
  | accept _ result => s'.handles (.user x) = some h ∧ ∃ fd, NewOwner result fd s o s' o' ∧
      (⟨⟨.user x, .accept h⟩, .ok fd⟩ : Event) ∈ o.since o'
  | shutdown _ => s'.handles = s.handles ∧ o'.openFds = o.openFds
  | listen _ => s'.handles = s.handles ∧ o'.openFds = o.openFds

/-- What it means that the operation failed: every handle and the set of open descriptors
are what they were, and the error is the guard's, if no call was made, or else the one
set by the last call that was not a `close`, which failed. -/
def Failure (p : Platform) (h : NativeHandle) (s : Process) (o : OS) (error : SocketError)
    (s' : Process) (o' : OS) (op : ConnectionOp) : Prop :=
  s'.handles = s.handles ∧ o'.openFds = o.openFds ∧
    (op.Refusal p h error ∧ o.since o' = [] ∨
      ∃ before r e closes, o.since o' = before ++ (⟨r, .error e⟩ : Event) :: closes ∧
        ¬ Event.IsClose ⟨r, .error e⟩ ∧ (∀ c ∈ closes, Event.IsClose c) ∧ error = .ofCode e)

/-- What it means that the operation on `x`, which held `h`, returned `r`. -/
def Outcome (p : Platform) (x : Nat) (h : NativeHandle) (s : Process) (o : OS)
    (op : ConnectionOp) (r : SocketResult Unit) (s' : Process) (o' : OS) : Prop :=
  match r with
  | .success _ => op.Success x h s o s' o'
  | .failure error => op.Failure p h s o error s' o'

/-- The result that `Accept` writes to is not an object yet. -/
def Fresh (s : Process) : ConnectionOp → Prop
  | accept _ result => s.handles (.user result) = none
  | _ => True

end ConnectionOp

/-! ### From specifications to outcomes -/

section Specs

variable {p : Platform} {s s' : Process} {o o' : OS} {h : NativeHandle} {x y fd : Nat}

theorem Reports.since {error : SocketError} (hr : Reports o o' error) :
    ∃ before r e closes, o.since o' = before ++ (⟨r, .error e⟩ : Event) :: closes ∧
      ¬ Event.IsClose ⟨r, .error e⟩ ∧ (∀ c ∈ closes, Event.IsClose c) ∧ error = .ofCode e := by
  obtain ⟨before, r, e, closes, hlog, hr, hcloses, rfl⟩ := hr
  exact ⟨before, r, e, closes, by rw [OS.since, hlog, List.append_assoc, List.drop_left], hr,
    hcloses, rfl⟩

theorem Gained.newOwner (hgain : Gained (.user y) fd s o s' o') :
    ConnectionOp.NewOwner y fd s o s' o' :=
  ⟨hgain.fresh, hgain.openFds, hgain.created, hgain.handles⟩

theorem FailedWith.failure {guards : SocketError → Prop} {error : SocketError}
    {op : ConnectionOp} (hf : FailedWith guards s o error s' o')
    (hguards : guards error → op.Refusal p h error) : op.Failure p h s o error s' o' := by
  rcases hf with ⟨hs, rfl, hguard⟩ | ⟨hkept, hreports⟩
  · exact ⟨hs, rfl, .inl ⟨hguards hguard, by simp [OS.since]⟩⟩
  · exact ⟨hkept.handles, hkept.openFds, .inr hreports.since⟩

/-- `Connect` and both `Bind`s, whose guard is that the object is in use. -/
theorem Attached.outcome {refusal : SocketError} {op : ConnectionOp} {r : SocketResult Unit}
    (hsuccess : (h = none ∧ ∃ fd, ConnectionOp.NewOwner x fd s o s' o') →
      op.Success x h s o s' o')
    (hrefusal : ∀ error, h.isSome ∧ error = refusal → op.Refusal p h error)
    (hr : Attached refusal x h s o r s' o') : op.Outcome p x h s o r s' o' := by
  cases r with
  | success v =>
      obtain ⟨hnone, fd, hgain⟩ := hr
      exact hsuccess ⟨hnone, fd, hgain.newOwner⟩
  | failure error =>
      dsimp only [Attached] at hr
      exact hr.failure fun hguard => hrefusal error hguard.symm

/-- `Listen` and `Shutdown`, whose success changes nothing either. -/
theorem Managed.outcome {guards : SocketError → Prop} {op : ConnectionOp}
    {r : SocketResult Unit}
    (hsuccess : (s'.handles = s.handles ∧ o'.openFds = o.openFds) → op.Success x h s o s' o')
    (hguards : ∀ error, guards error → op.Refusal p h error)
    (hr : Managed guards h s o r s' o') : op.Outcome p x h s o r s' o' := by
  cases r with
  | success v => exact hsuccess ⟨hr.2.handles, hr.2.openFds⟩
  | failure error => exact FailedWith.failure hr (hguards error)

/-- One operation, from what is known of its code. -/
theorem ConnectionOp.atomic (op : ConnectionOp) (hidle : s.Idle)
    (hx : s.handles (.user x) = some h) (hfresh : op.Fresh s) :
    wp (osEnv False) (op.code p x) (op.Outcome p x h s o) OnlyGaveUp s o := by
  have hg : False → Good s o := False.elim
  cases op with
  | connect endpoint =>
      exact (wp_connect hidle hx hg).imp fun _ _ _ => Attached.outcome id fun _ => id
  | shutdown direction =>
      refine (wp_shutdown hx hg).imp fun _ _ _ hr => hr.outcome id ?_
      exact fun error hguard => hguard.imp And.symm And.symm
  | bindListener endpoint =>
      exact (wp_bindListener hidle hx hg).imp fun _ _ _ => Attached.outcome id fun _ => id
  | listen backlog =>
      refine (wp_listen hx hg).imp fun _ _ _ hr => hr.outcome id ?_
      exact fun error hguard => hguard.imp And.symm And.symm
  | accept rounds result =>
      apply (wp_accept hidle hx hg).imp
      intro r s' o' hr
      cases r with
      | success v =>
          obtain ⟨-, fd, hgain, hcall⟩ := hr
          have hne : HandleId.user x ≠ .user result := by
            intro heq
            rw [heq, show s.handles (.user result) = none from hfresh] at hx
            cases hx
          refine ⟨?_, fd, hgain.newOwner, hcall⟩
          rw [hgain.handles, Function.update_of_ne hne, hx]
      | failure error => exact FailedWith.failure hr fun hguard => hguard.symm
  | bindUdp endpoint =>
      exact (wp_bindUdp hidle hx hg).imp fun _ _ _ => Attached.outcome id fun _ => id

end Specs

/-- **Failure atomicity.** Whatever the operating system answers, an operation that returns
a failure has left every handle and every descriptor as it was, and reports the guard that
refused it or the call that failed; one that returns success has done what it is for. -/
theorem failure_atomic (p : Platform) (op : ConnectionOp) {x : Nat} {h : NativeHandle}
    {s s' : Process} {o o' : OS} {r : SocketResult Unit} (hidle : s.Idle)
    (hx : s.handles (.user x) = some h) (hfresh : op.Fresh s)
    (hrun : Steps (osEnv False) (op.code p x s) o (.ret r s') o') :
    op.Outcome p x h s o r s' o' :=
  (op.atomic hidle hx hfresh).steps hrun

/-- `connect` is refused by the peer, and the `close` on the way out fails with another
error: the first is reported. -/
theorem failure_atomic_connect :
    let s := (⟨fun _ => none, 0⟩ : Process).put (.user 0) none
    let o := (⟨∅, ∅, Finset.empty_subset _, []⟩ : OS)
    ∃ s' o', (ConnectionOp.connect .default).Outcome .linux 0 none s o
      (.failure (.ofCode 111)) s' o' := by
  intro s o
  have hidle : s.Idle := fun z hz => by simp [s, hz 0]
  have hrun : ∃ s' o', Steps (osEnv False) ((ConnectionOp.connect .default).code .linux 0 s) o
      (.ret (.failure (.ofCode 111)) s') o' := by
    apply Exists.intro
    apply Exists.intro
    apply Steps.answer (I := os) (c := ⟨.handle .createSocket, .socket 2 1 6⟩) (r := .ok (3 : Nat))
    · exact ⟨by simp [o], rfl⟩
    apply Steps.answer (I := os) (c := ⟨.handle .operation, .connect (some 3)
      (SocketEndpoint.default.toNative .linux).1 (SocketEndpoint.default.toNative .linux).2⟩)
      (r := .error ⟨111, by decide⟩)
    · exact ⟨by simp [Event.created], rfl⟩
    apply Steps.answer (I := os) (c := ⟨.handle .operation, .close (some 3)⟩)
      (r := .error ⟨5, by decide⟩)
    · exact ⟨by simp [Event.created], rfl⟩
    exact .refl
  obtain ⟨s', o', hrun⟩ := hrun
  exact ⟨s', o', failure_atomic .linux (.connect .default) hidle (by simp [s]) trivial hrun⟩

end Net

end CoreSystems
