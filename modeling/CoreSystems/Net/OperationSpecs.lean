import CoreSystems.Net.SocketSpecs
import CoreSystems.Net.TcpRules

/-!
# CoreSystems.Net.OperationSpecs

What the operations on a socket that exists do to objects and descriptors.

All of them make their calls on the descriptor of the object, so under the ownership
invariant every call is accepted. `Accept` and the first `SendTo` open a descriptor; the
others keep every object and every descriptor as it was. As for `Connect` and `Bind`, this
is what the rules of the operations say of the operating system as a set of descriptors.

`Send` and `Receive` are treated together with `Listen` and `Shutdown`: one call, made again
while it is interrupted, on a descriptor that stays where it is.
-/

namespace CoreSystems

open Buffer (Bytes)
open Calls (Env wp)

namespace Net

open SocketHandle

section Operations

variable {guarded : Prop} {s s' : Process} {o o' : OS} {p : Platform} {x y : HandleId} {fd : Nat}
variable {name : Nat} {h : NativeHandle} {rounds : Nat} {buffer : Bytes}

/-! ### One call

A guard refuses without a call; a call that fails is what is reported. -/

/-- What `Listen` and `Shutdown` do: no object and no descriptor changes. -/
def Managed (guards : SocketError → Prop) (h : NativeHandle) (s : Process) (o : OS)
    (r : SocketResult Unit) (s' : Process) (o' : OS) : Prop :=
  match r with
  | .success _ => h.isSome ∧ Kept s o s' o'
  | .failure error => FailedWith guards s o error s' o'

theorem Managed.held {guards : SocketError → Prop} {r : SocketResult Unit}
    (hr : Managed guards h s o r s o') (hs : s'.handles = s.handles) :
    Managed guards h s o r s' o' := by
  cases r with
  | success v => exact ⟨hr.1, hr.2.held hs⟩
  | failure error =>
      dsimp only [Managed] at hr ⊢
      exact hr.held hs

theorem Managed.kept {guards : SocketError → Prop} {r : SocketResult Unit}
    (hr : Managed guards h s o r s' o') : Kept s o s' o' := by
  cases r with
  | success v => exact hr.2
  | failure error => exact FailedWith.kept hr

/-- `Listen`. Both guards, an invalid socket and a backlog that is not positive, refuse before
a call is made. -/
theorem wp_listen {backlog : Int} (hx : s.handles x = some h) (hg : guarded → Good s o) :
    wp (osEnv guarded) (TcpListener.listen p x backlog) (Managed (fun e =>
      e = invalidSocket p ∧ h = none ∨ e = invalidArgument p ∧ backlog ≤ 0) h s o)
      OnlyGaveUp s o := by
  refine (wp_listen_asks (Q := fun r o' => Managed (fun e =>
    e = invalidSocket p ∧ h = none ∨ e = invalidArgument p ∧ backlog ≤ 0) h s o r s o') hx
    ?_ ?_ ?_).imp fun r s' o' hr => hr.2.held hr.1
  · exact fun hnone => .inl ⟨rfl, rfl, .inl ⟨rfl, hnone⟩⟩
  · exact fun _ hneg => .inl ⟨rfl, rfl, .inr ⟨rfl, hneg⟩⟩
  · intro fd heq hpos
    subst heq
    refine Asks.plain hg hx ⟨fun _ _ => rfl, fun _ _ => rfl, by simp⟩ rfl ?_ ?_
    · exact fun v o' hkept => ⟨rfl, hkept⟩
    · exact fun e o' hkept hreports => .inr ⟨hkept, hreports⟩

/-- `Shutdown`. A direction that is no enumerator is refused like an invalid socket, without a
call. -/
theorem wp_shutdown {direction : SocketShutdown} (hx : s.handles x = some h)
    (hg : guarded → Good s o) :
    wp (osEnv guarded) (TcpSocket.shutdown p x direction) (Managed (fun e =>
      e = invalidSocket p ∧ h = none ∨ e = invalidArgument p ∧ ∃ n, direction = .other n) h s o)
      OnlyGaveUp s o := by
  refine (wp_shutdown_asks (Q := fun r o' => Managed (fun e =>
    e = invalidSocket p ∧ h = none ∨ e = invalidArgument p ∧ ∃ n, direction = .other n) h s o r
      s o') hx ?_ ?_ ?_).imp fun r s' o' hr => hr.2.held hr.1
  · exact fun hnone => .inl ⟨rfl, rfl, .inl ⟨rfl, hnone⟩⟩
  · intro _ hnone
    have hother : ∃ n, direction = .other n := by
      cases direction <;> simp_all [TcpSocket.shutdownHow]
    exact .inl ⟨rfl, rfl, .inr ⟨rfl, hother⟩⟩
  · intro fd how heq _
    subst heq
    refine Asks.plain hg hx ⟨fun _ _ => rfl, fun _ _ => rfl, by simp⟩ rfl ?_ ?_
    · exact fun v o' hkept => ⟨rfl, hkept⟩
    · exact fun e o' hkept hreports => .inr ⟨hkept, hreports⟩

/-- `GetLocalEndpoint` and `GetPeerEndpoint`. Nothing changes, whether or not the address can
be read. -/
theorem wp_queryEndpoint {peer : Bool} (hx : s.handles x = some h) (hg : guarded → Good s o) :
    wp (osEnv guarded) (queryEndpoint p x h peer) (fun _ s' o' => Kept s o s' o')
      OnlyGaveUp s o := by
  refine (wp_queryEndpoint_asks (Q := fun _ o' => Kept s o s o') (fun _ => Kept.refl) ?_).imp
    fun r s' o' hr => hr.2.held hr.1
  intro fd heq
  subst heq
  rw [Queries]
  split
  all_goals
    refine Asks.plain hg hx ⟨fun _ _ => rfl, fun _ _ => rfl, by simp⟩ rfl ?_ ?_
    · exact fun name o' hkept _ _ => hkept
    · exact fun e o' hkept _ => hkept

/-! ### Calls that are made again

Neither an interruption nor the answer that ends the loop opens or frees anything. -/

/-- `Send`, with its retries: no object and no descriptor changes, however often it is
interrupted. -/
theorem wp_send (hx : s.handles x = some h) (hg : guarded → Good s o) :
    wp (osEnv guarded) (TcpSocket.send p rounds x buffer) (fun _ s' o' => Kept s o s' o')
      OnlyGaveUp s o := by
  refine (wp_send_asks (E := fun e _ => e = .gaveUp) (Q := fun _ o' => Kept s o s o') hx
    (fun _ => Kept.refl) (fun _ _ => Kept.refl) ?_).imp fun r s' o' hr => hr.2.held hr.1
  intro fd heq _
  subst heq
  refine Repeats.plain hg hx ⟨fun _ _ => rfl, fun _ _ => rfl, by simp⟩ rfl ?_
  intro r o' hkept
  cases r <;> exact hkept

/-- `Receive`. What arrives is not looked at here, only that nothing else changes. -/
theorem wp_receive (hx : s.handles x = some h) (hg : guarded → Good s o) :
    wp (osEnv guarded) (TcpSocket.receive p rounds x buffer) (fun _ s' o' => Kept s o s' o')
      OnlyGaveUp s o := by
  refine (wp_receive_asks (E := fun e _ => e = .gaveUp) (Q := fun _ o' => Kept s o s o') hx
    (fun _ => Kept.refl) (fun _ _ => Kept.refl) ?_).imp fun r s' o' hr => hr.2.held hr.1
  intro fd heq _
  subst heq
  refine Repeats.plain hg hx ⟨fun _ _ => rfl, fun _ _ => rfl, by simp⟩ rfl ?_
  intro r o' hkept
  cases r <;> exact hkept

/-! ### `Accept`

The new object gets the descriptor that was accepted, or it is closed again. -/

/-- What `Accept` has done that returns a descriptor or an error. -/
def Accepted (guards : SocketError → Prop) (result : Nat) (x : HandleId) (h : NativeHandle)
    (s : Process) (o : OS) (r : SocketResult Nat) (o' : OS) : Prop :=
  match r with
  | .success fd => h.isSome ∧
      Gained (.user result) fd s o (s.put (.user result) (some fd)) o' ∧
      (⟨⟨x, .accept h⟩, .ok fd⟩ : Event) ∈ o.since o'
  | .failure error => FailedWith guards s o error s o'

/-- `Accept`. On success the result owns the descriptor that the last `accept` returned; on
failure that descriptor, if there was one, is closed again. -/
theorem wp_accept {result : Nat} (hidle : s.Idle) (hx : s.handles x = some h)
    (hg : guarded → Good s o) :
    wp (osEnv guarded) (TcpListener.accept p rounds (.user result) x) (fun r s' o' =>
      match r with
      | .success _ => h.isSome ∧ ∃ fd, Gained (.user result) fd s o s' o' ∧
          (⟨⟨x, .accept h⟩, .ok fd⟩ : Event) ∈ o.since o'
      | .failure error => FailedWith (fun e => e = invalidSocket p ∧ h = none)
          s o error s' o') OnlyGaveUp s o := by
  refine (wp_accept_asks (E := fun e _ => e = .gaveUp)
    (Q := Accepted (fun e => e = invalidSocket p ∧ h = none) result x h s o) hidle hx
    (fun hnone => .inl ⟨rfl, rfl, rfl, hnone⟩) ?_).imp ?_
  · intro fd heq
    subst heq
    -- an interrupted `accept` keeps everything, so the invariant need not count the rounds
    refine ⟨fun _ o' => Kept s o s o', Kept.refl, fun _ _ => rfl, ?_⟩
    intro k o₁ hkept
    refine Asks.os (fun h => (hg h).kept hkept) hx rfl ?_
    intro a o₂ ho
    cases a with
    | error e =>
        have hkept₂ : Kept s o s o₂ := hkept.trans (Kept.answer rfl rfl rfl ho)
        exact ⟨fun _ => hkept₂,
          fun _ => .inr ⟨hkept₂, (Reports.answer (by simp) ho).extend hkept.log⟩⟩
    | ok fd' =>
        -- from here on the local owns the descriptor, until it is closed or the result has it
        have hgain : Gained (.handle .operation) fd' s o
            (s.put (.handle .operation) (some fd')) o₂ := hkept.gained (Gained.accept ho)
        have hhandle := hidle (.handle .operation) (by simp)
        refine Prepares.os (s := s.put (.handle .operation) (some fd'))
          (fun h => (hg h).gained (by simp [hhandle]) hgain) (by simp) hgain ?_ ?_
        · intro o₃ hkept₃
          refine ⟨rfl, hgain.moved hkept₃ fun z => by rw [Process.handles_put], ?_⟩
          refine OS.since_mono hkept.log (List.prefix_append ..) (ho.2 ▸ hkept₃.log) ?_
          exact OS.mem_since_after
        · exact fun error o₃ hkept₃ hreports => .inr ⟨hkept₃, hreports⟩
  · intro r s' o' hr
    cases r with
    | success v =>
        obtain ⟨fd, hs', hsome, hgain, hcall⟩ := hr
        exact ⟨hsome, fd, hgain.held hs', hcall⟩
    | failure error => exact FailedWith.held hr.2 hr.1

/-! ### `SendTo` and `ReceiveFrom`

The rules of UDP, with the same reading of the calls. -/

/-- A `sendto` by the owner of its descriptor opens and frees nothing. -/
theorem transmits_os (s : Process) {destination : SocketEndpoint} {y : HandleId}
    (hy : s.handles y = some (some fd)) (hg : guarded → Good s o) :
    Transmits (osEnv guarded) p rounds y fd buffer destination OnlyGaveUp s.handles
      (fun r s' o' => Kept s o s' o' ∧ ∀ n, r = .success n → n = buffer.length) o := by
  refine ⟨fun _ o' => Kept s o s o', Kept.refl, fun _ _ _ => rfl, ?_⟩
  intro k s₁ o₁ hs₁ hkept
  have hkept₁ : Kept s o s₁ o₁ := ⟨hs₁, hkept.openFds, hkept.managed, hkept.log⟩
  refine ⟨accepts_owned (fun h => (hg h).kept hkept₁) (by rw [hs₁, hy]) rfl, ?_⟩
  intro a o₂ ha
  have hkept₂ : ∀ s₂ : Process, s₂.handles = s.handles → Kept s o s₂ o₂ := fun s₂ hs₂ =>
    hkept₁.trans (Kept.answer rfl rfl (hs₂.trans hs₁.symm) ha)
  cases a with
  | error e => exact ⟨fun _ => hkept₂ s rfl, fun _ s₂ hs₂ => ⟨hkept₂ s₂ hs₂, nofun⟩⟩
  | ok count =>
      intro s₂ hs₂
      refine ⟨hkept₂ s₂ hs₂, ?_⟩
      intro n hn
      split at hn
      case isTrue hcount => rw [← SocketResult.success.inj hn, hcount]
      case isFalse hcount => cases hn

/-- `SendTo`. An object that has a socket keeps it; one that has none gets one if the datagram
was sent, and after a failure the host is as before. -/
theorem wp_sendTo_os {destination : SocketEndpoint} (hidle : s.Idle)
    (hx : s.handles (.user name) = some h) (hg : guarded → Good s o) :
    wp (osEnv guarded) (UdpSocket.sendTo p rounds (.user name) buffer destination)
      (fun r s' o' =>
        match r with
        | .failure _ => Kept s o s' o'
        | .success count => count = buffer.length ∧
            if h.isSome then Kept s o s' o' else ∃ fd, Gained (.user name) fd s o s' o')
      OnlyGaveUp s o := by
  have hdead := hidle .pending (by simp)
  have hg₀ : guarded → Good (s.put .pending none) o := fun hguard =>
    (hg hguard).same (by
      intro z fd
      by_cases hz : z = .pending <;> simp [hz, hdead])
  apply wp_sendTo hidle hx
  · intro hlong
    exact Kept.refl
  · intro fd hfd
    apply (transmits_os _ (by simp [hx, hfd]) hg₀).imp
    intro r s₁ o₁ hs₁ hr s' hs'
    have hkept : Kept s o s' o₁ := ⟨hs', hr.1.openFds, hr.1.managed, hr.1.log⟩
    cases r with
    | failure error => exact hkept
    | success n => exact ⟨hr.2 n rfl, by simpa [hfd] using hkept⟩
  · intro hnone family
    subst hnone
    refine ⟨fun seen hseen hguard => ⟨(hg₀ hguard).held hseen, nofun⟩, ?_⟩
    intro a o₁ ha
    cases a with
    | error e =>
        intro s₁ hs₁
        exact Kept.answer rfl rfl hs₁ ha
    | ok fd =>
        have hgain : Gained .pending fd s o (s.put .pending (some fd)) o₁ := Gained.socket ha
        have hgood : guarded → Good (s.put .pending (some fd)) o₁ := fun hguard =>
          (hg hguard).gained (by simp [hdead]) hgain
        apply (transmits_os _ (by simp) hgood).imp
        intro r s₂ o₂ hs₂ hr
        obtain ⟨hkept, hcount⟩ := hr
        cases r with
        | success n =>
            intro s₃ hs₃
            refine ⟨hcount n rfl, fd, hgain.moved hkept ?_⟩
            intro z
            rw [hs₃, Function.update_apply]
        | failure error =>
            -- `pending` is the owner, so it may close the descriptor
            have hown : s₂.handles .pending = some (some fd) := by
              rw [hs₂]
              simp
            refine Closes.os (fun hguard => (hgood hguard).kept hkept) hown ?_
            intro o₃ e _ _ hlost s₃ hs₃
            exact hgain.lost (hkept.lost hlost) hs₃

/-- `ReceiveFrom`. Neither body opens or closes anything. -/
theorem wp_receiveFrom_os (hx : s.handles x = some h) (hg : guarded → Good s o) :
    wp (osEnv guarded) (UdpSocket.receiveFrom p rounds x buffer) (fun _ s' o' => Kept s o s' o')
      OnlyGaveUp s o := by
  apply wp_receiveFrom (fun _ o' => Kept s o s o') hx (fun _ => Kept.refl) (fun _ _ => Kept.refl)
    (fun _ _ => Kept.refl) fun _ _ _ => rfl
  intro fd hfd k hk s₁ o₁ hs₁ hkept
  have hkept₁ : Kept s o s₁ o₁ := ⟨hs₁, hkept.openFds, hkept.managed, hkept.log⟩
  rw [Receives]
  split
  all_goals
    refine ⟨accepts_owned (fun h => (hg h).kept hkept₁) (by rw [hs₁, hx, hfd]) rfl, ?_⟩
    intro a o₂ ha
    have hkept₂ : ∀ s₂ : Process, s₂.handles = s.handles → Kept s o s₂ o₂ := fun s₂ hs₂ =>
      hkept₁.trans (Kept.answer rfl rfl (hs₂.trans hs₁.symm) ha)
    cases a with
    | error e => exact ⟨fun _ => hkept₂ s rfl, fun _ => hkept₂⟩
    | ok r => exact fun _ s₂ _ hs₂ => hkept₂ s₂ hs₂

end Operations

end Net

end CoreSystems
