import CoreSystems.Net.Duplex
import CoreSystems.Programs.BenchTcp
import CoreSystems.Programs.Loopback

/-!
# CoreSystems.Programs.ConnectPair

`ConnectPair` of the benchmark, on a host where nobody else connects to its listener.

It is `listening` and `joining` of `CoreSystems.Programs.Loopback`, with a pair of sockets
that is filled, configured and moved to the result. Its scopes are treated one after another
from the inside: what is left when `pair` is destroyed (`Connecting`) is either in the result
or still in `pair`, and then it is closed.

`connectPair_connects` says what the measurements rely on: two ends of one connection on which
nothing has been sent, or an error and nothing changed.
-/

namespace CoreSystems

open Calls (Env wp)

namespace Net

open SocketHandle

namespace BenchTcp

variable {p : Platform} {o : Options} {capacity rounds : Nat} {noDelay : Bool} {s : Process}
variable {k k₀ : Kernel} {x : HandleId} {E : Exit → Process → Kernel → Prop}

/-- `Configure` only sets options, which the kernel model has no use for; it may fail, with
any of them. -/
theorem wp_configure_kernel {h : NativeHandle} (hx : s.handles x = some h) :
    wp (kernelEnv p capacity) (configure p o x noDelay) (fun _ s' k' =>
      s'.handles = s.handles ∧ k' = k) E s k := by
  have hset : ∀ {level option : Nat} {v : Int} {s₁ : Process}
      {Q : Except Errno Unit → Process → Kernel → Prop}, s₁.handles = s.handles →
      (∀ a s₂, s₂.handles = s.handles → Q a s₂ k) →
      wp (kernelEnv p capacity) (sys x (.setsockopt h level option v)) Q E s₁ k := by
    intro level option v s₁ Q hs₁ hQ
    apply wp_once
    apply Asks.kernel id
    intro a k' ha s₂ hs₂ _
    obtain rfl : k' = k := by cases a <;> exact ha
    exact hQ a s₂ (hs₂.trans hs₁)
  rw [configure, Calls.wp_bind, wp_getHandle hx, Calls.wp_bind]
  apply hset rfl
  intro a s₁ hs₁
  cases a with
  | error e => exact ⟨hs₁, rfl⟩
  | ok _ =>
      dsimp only
      rw [Calls.wp_bind]
      apply hset hs₁
      intro a s₂ hs₂
      cases a with
      | error e => exact ⟨hs₂, rfl⟩
      | ok _ =>
          dsimp only
          rw [Calls.wp_bind]
          apply hset hs₂
          intro a s₃ hs₃
          cases a <;> exact ⟨hs₃, rfl⟩

theorem wp_configureEach_kernel {sockets : List HandleId}
    (hsockets : ∀ x ∈ sockets, ∃ h, s.handles x = some h) :
    wp (kernelEnv p capacity) (configureEach p o noDelay sockets) (fun _ s' k' =>
      s'.handles = s.handles ∧ k' = k) E s k := by
  induction sockets generalizing s with
  | nil => exact ⟨rfl, rfl⟩
  | cons x sockets ih =>
      obtain ⟨h, hx⟩ := hsockets x List.mem_cons_self
      rw [configureEach, Calls.wp_bind]
      refine (wp_configure_kernel hx).imp ?_
      intro error s₁ k₁ hs₁
      obtain ⟨hs₁, rfl⟩ := hs₁
      split
      · exact ⟨hs₁, rfl⟩
      · rw [← hs₁]
        apply ih
        intro y hy
        rw [hs₁]
        exact hsockets y (List.mem_cons_of_mem _ hy)

/-- Both sockets are configured and moved to the result, or left where they are. -/
theorem wp_finishPair {c d : Nat} {h : HandleId → Option NativeHandle}
    (hdead : ∀ n, 1 ≤ n → n ≤ 7 → h (.user n) = none)
    (hs : s.handles = Function.update (Function.update (Function.update h (.user 1)
      (some (some c))) (.user 2) (some none)) (.user 3) (some (some d))) :
    wp (kernelEnv p capacity) (leaving accepted (finishPair p o noDelay)) (fun r s' k' =>
      k' = k ∧
        match r with
        | .failure error => error.hasError = true ∧ s'.handles =
            Function.update (Function.update h (.user 1) (some (some c))) (.user 2)
              (some (some d))
        | .success _ => s'.handles = Function.update (Function.update
            (Function.update (Function.update h (.user 6) (some (some c))) (.user 7)
              (some (some d))) (.user 1) (some none)) (.user 2) (some none)) E s k := by
  have hserver : s.handles pair.server = some none := by simp [hs, pair]
  have haccepted : s.handles accepted = some (some d) := by simp [hs, accepted]
  rw [wp_leaving, finishPair, Calls.wp_bind,
    wp_moveAssign_invalid (by simp [accepted, pair]) hserver haccepted, Calls.wp_bind]
  have hs₁ : ((s.put accepted none).put pair.server (some d)).handles =
      Function.update (Function.update (Function.update h (.user 1) (some (some c)))
        (.user 2) (some (some d))) (.user 3) (some none) := by
    rw [Process.put, Process.put, hs]
    exact Process.written_congr [(_, _), (_, _), (_, _), (_, _), (_, _)] [(_, _), (_, _), (_, _)]
      (by simp [Process.written, accepted, pair])
  apply (wp_configureEach_kernel _).imp
  · intro error s₂ k₂ hs₂
    obtain ⟨hs₂, rfl⟩ := hs₂
    rw [hs₁] at hs₂
    have haccepted₂ := hdead 3 (by decide) (by decide)
    split
    case isTrue herror =>
      rw [wp_failure herror, wp_destroy_invalid (by simp [hs₂, accepted])]
      refine ⟨rfl, herror, ?_⟩
      rw [Process.drop, hs₂]
      exact Process.written_congr [(_, _), (_, _), (_, _), (_, _)] [(_, _), (_, _)]
        (by simp [Process.written, accepted, haccepted₂])
    case isFalse hok =>
      -- each of the two passes through the parameter of `Success`
      have hclient : s₂.handles pair.client = some (some c) := by simp [hs₂, pair]
      rw [Calls.wp_bind, ConnectionPair.moveConstruct, Calls.wp_bind, wp_moveConstruct hclient,
        wp_moveConstruct (h := some d) (by simp [hs₂, pair, value]), Calls.wp_bind,
        ConnectionPair.leaving, wp_leaving, wp_leaving, ConnectionPair.moveConstruct, Calls.wp_bind,
        wp_moveConstruct (h := some c) (by simp [pair, value]),
        wp_moveConstruct (h := some d) (by simp [connected, pair, value]),
        wp_destroy_invalid (by simp [connected, value]),
        wp_destroy_invalid (by simp [connected, value]), Calls.wp_pure,
        wp_destroy_invalid (by simp [hs₂, accepted, connected, value, pair])]
      refine ⟨rfl, ?_⟩
      simp only [Process.put, Process.drop, hs₂]
      have hvalue₁ := hdead 4 (by decide) (by decide)
      have hvalue₂ := hdead 5 (by decide) (by decide)
      exact Process.written_congr [(_, _), (_, _), (_, _), (_, _), (_, _), (_, _), (_, _), (_, _),
        (_, _), (_, _), (_, _), (_, _), (_, _), (_, _)] [(_, _), (_, _), (_, _), (_, _)]
        (by simp [Process.written, accepted, connected, value, pair, haccepted₂, hvalue₁, hvalue₂])
  · intro y hy
    rcases List.mem_cons.mp hy with rfl | hy
    · exact ⟨some c, by rw [hs₁]; simp [pair]⟩
    · obtain rfl := List.mem_singleton.mp hy
      exact ⟨some d, by rw [hs₁]; simp [pair]⟩

/-- What `ConnectPair` has done when `pair` is destroyed: a failure leaves in it what was
opened so far, success has moved both sockets to the result. -/
def Connecting (h : HandleId → Option NativeHandle) (k₀ k : Kernel) (listening : Nat)
    (r : SocketResult Unit) (s' : Process) (k' : Kernel) : Prop :=
  match r with
  | .failure error => error.hasError = true ∧ ∃ a b : NativeHandle,
      s'.handles = Function.update (Function.update h (.user 1) (some a)) (.user 2) (some b) ∧
      k₀.Beside (b.toList ++ (a.toList ++ [listening])) k'
  | .success _ => ∃ c d, Joined k c d k' ∧
      s'.handles = Function.update (Function.update
        (Function.update (Function.update h (.user 6) (some (some c))) (.user 7)
          (some (some d))) (.user 1) (some none)) (.user 2) (some none)

/-- `ConnectPair` inside the scope of `pair`. -/
theorem wp_connectTo {endpoint : SocketEndpoint} {l : Nat} {limit : Int} {s₁ : Process}
    (hidle : s.Idle) (hdead : ∀ n, 1 ≤ n → n ≤ 7 → s.handles (.user n) = none)
    (hs₁ : s₁.handles = Function.update (Function.update s.handles (.user 1) (some none))
      (.user 2) (some none)) (hlistener : s.handles listener = some (some l))
    (hk : k.sockets l = some (.listening endpoint limit [])) (honly : k.Only l endpoint)
    (hlimit : 0 < limit) (hbeside : k₀.Beside [l] k) :
    wp (kernelEnv p capacity) (connectTo p o rounds noDelay endpoint)
      (Connecting s.handles k₀ k l) GaveUp s₁ k := by
  have hidle₁ : (s.put (.user 1) none).Idle := hidle.put
  have hclient : s₁.handles (.user 1) = some none := by simp [hs₁]
  have hclientAt : ∀ a, Function.update s₁.handles (.user 1) a =
      Function.update (Function.update s.handles (.user 1) a) (.user 2) (some none) := by
    intro a
    rw [hs₁, Function.update_comm (by simp), Function.update_idem]
  show wp (kernelEnv p capacity) (joining p rounds (.user 1) (.user 3) (.user 0) endpoint failure
    (leaving accepted (finishPair p o noDelay))) _ _ _ _
  refine wp_joining Yields.failure (hidle₁.update hs₁) (by simp) hclient ?_ hk honly hlimit
    hbeside ?_ ?_
  · rw [hs₁, Function.update_of_ne (by simp), Function.update_of_ne (by simp)]
    exact hlistener
  · intro error s₂ k₂ b herror hs₂ hk₂
    exact ⟨herror, b, none, hs₂.trans (hclientAt _), hk₂⟩
  · intro c d s₂ k₂ hjoined hk₂ hs₂
    rw [hclientAt] at hs₂
    refine (wp_finishPair hdead hs₂).imp ?_
    intro r s₃ k₃ hr
    obtain ⟨rfl, hr⟩ := hr
    cases r with
    | failure error => exact ⟨hr.1, some c, some d, hr.2, hk₂⟩
    | success v => exact ⟨c, d, hjoined, hr⟩

/-- The destructor of `pair`: it closes what has not been moved to the result. -/
theorem wp_leavePair {listening : Nat} {h : HandleId → Option NativeHandle}
    (hdead : ∀ n, 1 ≤ n → n ≤ 7 → h (.user n) = none) {body : N (SocketResult Unit)}
    (hbody : wp (kernelEnv p capacity) body (Connecting h k₀ k listening) GaveUp s k) :
    wp (kernelEnv p capacity) (pair.leaving body) (fun r s' k' =>
      match r with
      | .failure error => error.hasError = true ∧ s'.handles = h ∧ k₀.Beside [listening] k'
      | .success _ => ∃ c d, Joined k c d k' ∧ s'.handles = Function.update
          (Function.update h (.user 6) (some (some c))) (.user 7) (some (some d)))
      GaveUp s k := by
  have hclient := hdead 1 (by decide) (by decide)
  have hserver := hdead 2 (by decide) (by decide)
  rw [ConnectionPair.leaving, wp_leaving, wp_leaving]
  refine hbody.imp ?_
  intro r s₁ k₁ hr
  cases r with
  | failure error =>
      obtain ⟨herror, a, b, hs₁, hk₁⟩ := hr
      -- members are destroyed in reverse order
      refine (wp_destroy_kernel (x := pair.server) (h := b) (by simp [hs₁, pair])).imp ?_
      intro _ s₂ k₂ hs₂
      obtain ⟨hs₂, rfl⟩ := hs₂
      rw [hs₁] at hs₂
      refine (wp_destroy_kernel (x := pair.client) (h := a) (by simp [hs₂, pair])).imp ?_
      intro _ s₃ k₃ hs₃
      obtain ⟨hs₃, rfl⟩ := hs₃
      refine ⟨herror, ?_, hk₁.freed.freed⟩
      rw [hs₃, hs₂]
      exact Process.written_congr [(_, _), (_, _), (_, _), (_, _)] []
        (by simp [Process.written, pair, hclient, hserver])
  | success v =>
      obtain ⟨c, d, hk₁, hs₁⟩ := hr
      rw [wp_destroy_invalid (by simp [hs₁, pair]), wp_destroy_invalid (by simp [hs₁, pair])]
      refine ⟨c, d, hk₁, ?_⟩
      rw [Process.drop, Process.drop, hs₁]
      exact Process.written_congr [(_, _), (_, _), (_, _), (_, _), (_, _), (_, _)] [(_, _), (_, _)]
        (by simp [Process.written, pair, hclient, hserver])

/-- `ConnectPair` puts the ends of a new connection in `connected`, or leaves objects and
sockets as they were. -/
theorem wp_connectPair (hidle : s.Idle) (hdead : ∀ n ≤ 7, s.handles (.user n) = none) :
    wp (kernelEnv p capacity) (connectPair p o rounds noDelay) (fun r s' k' =>
      match r with
      | .failure error => error.hasError = true ∧ s'.handles = s.handles ∧ k'.sockets = k.sockets
      | .success _ => ∃ c d, Joined k c d k' ∧ s'.handles = Function.update
          (Function.update s.handles (.user 6) (some (some c))) (.user 7) (some (some d)))
      GaveUp s k := by
  show wp (kernelEnv p capacity) (listening p (.user 0) o.SOMAXCONN failure fun endpoint => do
    pair.construct
    pair.leaving (connectTo p o rounds noDelay endpoint)) _ _ _ _
  refine wp_listening Yields.failure hidle (hdead 0 (by decide)) o.somaxconn_pos ?_ ?_
  · exact fun error s' k' herror hs' hk' => ⟨herror, hs', hk'⟩
  · intro endpoint l s₁ k₁ hl hs₁ hk₁ honly
    have hk₁l : k₁.sockets l = some (.listening endpoint o.SOMAXCONN []) := by simp [hk₁]
    -- so far only the listener was opened
    have hbeside : k.Beside [l] k₁ := hk₁ ▸ Kernel.Beside.refl.new hl rfl
    have hdead₁ : ∀ n, 1 ≤ n → n ≤ 7 → s₁.handles (.user n) = none := by
      intro n hn hn'
      rw [hs₁, Function.update_of_ne (by simp; omega), hdead n hn']
    rw [Calls.wp_bind, ConnectionPair.construct, Calls.wp_bind, wp_construct, wp_construct]
    refine (wp_leavePair hdead₁ (wp_connectTo (hidle.update hs₁) hdead₁ rfl
      (by simp [hs₁, listener]) hk₁l honly o.somaxconn_pos hbeside)).imp ?_
    intro r s₂ k₂ hr
    cases r with
    | failure error =>
        obtain ⟨herror, hs₂, hk₂⟩ := hr
        refine (wp_destroy_kernel (h := some l) (by simp [hs₂, hs₁])).imp ?_
        intro _ s₃ k₃ hs₃
        obtain ⟨hs₃, rfl⟩ := hs₃
        refine ⟨herror, ?_, (Kernel.Beside.free hk₂).sockets⟩
        rw [hs₃, hs₂, hs₁, Function.update_idem,
          Function.update_eq_self_iff.mpr (hdead 0 (by decide)).symm]
    | success v =>
        obtain ⟨c, d, hk₂, hs₂⟩ := hr
        have hl₂ : s₂.handles (.user 0) = some (some l) := by
          rw [hs₂, Function.update_of_ne (by simp), Function.update_of_ne (by simp), hs₁,
            Function.update_self]
        -- nobody waits at the listener any more, so closing it ends no connection
        refine (wp_destroy_kernel hl₂).imp ?_
        intro _ s₃ k₃ hs₃
        obtain ⟨hs₃, rfl⟩ := hs₃
        refine ⟨c, d, hk₂.unlisten hl hk₁, ?_⟩
        rw [hs₃, hs₂, hs₁]
        have hlistener := hdead 0 (by decide)
        exact Process.written_congr [(_, _), (_, _), (_, _), (_, _)] [(_, _), (_, _)]
          (by simp [Process.written, hlistener])

/-- The two ends, where they are held by a pair. -/
def ConnectionPair.ends {c d : Nat} (pair : ConnectionPair) (k : Kernel) (s' : Process)
    (hclient : s'.handles pair.client = some (some c))
    (hserver : s'.handles pair.server = some (some d)) : Ends where
  wire := ⟨k.connections, fun side => match side with
    | .client => c
    | .server => d⟩
  socket side := match side with
    | .client => pair.client
    | .server => pair.server
  process _ := s'
  attached side := by
    cases side
    · exact hclient
    · exact hserver

theorem ConnectionPair.ends_fresh {c d : Nat} {k' : Kernel} (h : Joined k c d k')
    {pair : ConnectionPair} {s' : Process} (hclient : s'.handles pair.client = some (some c))
    (hserver : s'.handles pair.server = some (some d)) :
    (pair.ends k s' hclient hserver).wire.Fresh k' := by
  constructor
  · intro side
    cases side
    · exact h.sockets.1
    · exact h.sockets.2
  · exact h.channels

/-- What `ConnectPair` promises to the measurements: where it was free before there are now the
ends of a connection on which nothing has been sent, and only its result holds them. -/
structure Connects (s : Process) (k : Kernel) (s' : Process) (k' : Kernel) (ends : Ends) :
    Prop where
  fresh : ends.wire.Fresh k'
  socket : ends.socket .client = connected.client ∧ ends.socket .server = connected.server
  process : ∀ side, ends.process side = s'
  handles : s'.handles = Function.update (Function.update s.handles connected.client
    (some (some (ends.wire.fd .client)))) connected.server (some (some (ends.wire.fd .server)))
  sockets : k.Beside [ends.wire.fd .server, ends.wire.fd .client] k'

/-- **`ConnectPair`** returns the two ends of one new connection, on which nothing has been
sent, or leaves objects and sockets as they were. It never waits. -/
theorem connectPair_connects (hidle : s.Idle) (hdead : ∀ n ≤ 7, s.handles (.user n) = none) :
    wp (kernelEnv p capacity) (connectPair p o rounds noDelay) (fun r s' k' =>
      match r with
      | .failure error => error.hasError = true ∧ s'.handles = s.handles ∧ k'.sockets = k.sockets
      | .success _ => ∃ ends : Ends, Connects s k s' k' ends) GaveUp s k := by
  refine (wp_connectPair hidle hdead).imp ?_
  intro r s' k' hr
  cases r with
  | failure error => exact hr
  | success v =>
      obtain ⟨c, d, hjoined, hs'⟩ := hr
      have hclient : s'.handles connected.client = some (some c) := by simp [hs', connected]
      have hserver : s'.handles connected.server = some (some d) := by simp [hs', connected]
      refine ⟨connected.ends k s' hclient hserver,
        ConnectionPair.ends_fresh hjoined hclient hserver, ⟨rfl, rfl⟩, fun _ => rfl, hs',
        hjoined.beside⟩

/-- A host without sockets. -/
theorem connectPair_connects_first : wp (kernelEnv .linux 1)
    (connectPair .linux ⟨4096, 20, 21, 1, by decide⟩ 3 true) (fun r s' k' =>
      match r with
      | .failure error => error.hasError = true ∧ s'.handles = (fun _ => none) ∧
          k'.sockets = fun _ => none
      | .success _ => ∃ ends : Ends,
          Connects ⟨fun _ => none, 0⟩ ⟨fun _ => none, fun _ _ => .new, 0⟩ s' k' ends)
      GaveUp ⟨fun _ => none, 0⟩ ⟨fun _ => none, fun _ _ => .new, 0⟩ :=
  connectPair_connects (fun _ _ => rfl) fun _ _ => rfl

end BenchTcp

end Net

end CoreSystems
