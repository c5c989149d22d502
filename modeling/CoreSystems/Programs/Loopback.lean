import CoreSystems.Net.DescriptorRuns
import CoreSystems.Net.KernelSpecs

/-!
# CoreSystems.Programs.Loopback

How a program connects to itself: it listens on a port that the system chooses, asks for the
endpoint, connects to it, and accepts the connection.

The benchmark and the example begin with this text, and differ in what they make of an error
and of the connection.

Both parts are functions of what happens on failure (`fail`) and of what follows on success
(`body`). Their rules, `wp_listening` and `wp_joining`, are for a kernel where nobody else
connects: what is accepted is the connection that was made, since it is the only one that
waits.
-/

namespace CoreSystems

open Calls (wp)

namespace Net

open SocketHandle

variable {α : Type}

/-! ### The program text -/

/-- Listen within the scope of a listener, which is closed when the scope ends. -/
def listening (p : Platform) (listener : HandleId) (backlog : Int) (fail : SocketError → N α)
    (body : SocketEndpoint → N α) : N α := do
  construct listener none
  leaving listener do
    match ← TcpListener.bind p listener (.construct (.loopback .IPv4) 0 0) with
    | .failure error => fail error
    | .success _ =>
      match ← TcpListener.listen p listener backlog with
      | .failure error => fail error
      | .success _ =>
        match ← queryEndpoint p listener (← get listener) false with
        | .failure error => fail error
        | .success endpoint => body endpoint

/-- Connect to a listener, and accept the connection. -/
def joining (p : Platform) (rounds : Nat) (client accepted listener : HandleId)
    (endpoint : SocketEndpoint) (fail : SocketError → N α) (body : N α) : N α := do
  match ← TcpSocket.connect p client endpoint with
  | .failure error => fail error
  | .success _ =>
    match ← TcpListener.accept p rounds accepted listener with
    | .failure error => fail error
    | .success _ => body

/-! ### What it does

A failure closes what was opened so far; success leaves two descriptors more than there were. -/

/-- What is made of an error: a value, without further calls. -/
def Yields (fail : SocketError → N α) (v : SocketError → α) : Prop :=
  ∀ {ω : Type} {env : Calls.Env os Process ω} {Q : α → Process → ω → Prop}
    {E : Exit → Process → ω → Prop} {error : SocketError} {s : Process} {w : ω},
    error.hasError = true → Q (v error) s w → wp env (fail error) Q E s w

theorem Yields.failure : Yields (α := SocketResult α) failure .failure :=
  fun herror hQ => (wp_failure herror).mpr hQ

theorem Yields.pure (v : SocketError → α) : Yields (fun error => return v error) v :=
  fun _ hQ => hQ

/-- The descriptors `c` and `d` were free, and are now the ends of a new connection. -/
structure Joined (k : Kernel) (c d : Nat) (k' : Kernel) : Prop where
  ne : c ≠ d
  client : k.sockets c = none
  server : k.sockets d = none
  kernel : k' = (k.join.put c (some (.connected k.connections .client))).put d
    (some (.connected k.connections .server))

/-- An endpoint by which only one descriptor is known. -/
def Kernel.Only (k : Kernel) (l : Nat) (endpoint : SocketEndpoint) : Prop :=
  ∀ l' socket, k.sockets l' = some socket → socket.name = some endpoint → l' = l

variable {p : Platform} {capacity rounds l : Nat} {s : Process} {k k₀ : Kernel} {limit : Int}
variable {endpoint : SocketEndpoint} {x y z : Nat} {fail : SocketError → N α}
variable {v : SocketError → α} {R : α → Process → Kernel → Prop}

/-- The listener that the connection was made through is closed. -/
theorem Joined.unlisten {c d : Nat} {k₁ k₂ : Kernel} (h : Joined k₁ c d k₂)
    (hl : k.sockets l = none) (hk₁ : k₁ = k.put l (some (.listening endpoint limit []))) :
    Joined k c d (k₂.free l) := by
  obtain ⟨hne, hc, hd, hk₂⟩ := h
  subst hk₁
  have hfree : ∀ {fd}, (k.put l (some (.listening endpoint limit []))).sockets fd = none →
      fd ≠ l ∧ k.sockets fd = none := by
    intro fd hfd
    by_cases heq : fd = l
    · simp [heq] at hfd
    · exact ⟨heq, by simpa [heq] using hfd⟩
  obtain ⟨hcl, hc⟩ := hfree hc
  obtain ⟨hdl, hd⟩ := hfree hd
  have hk₂l : k₂.sockets l = some (.listening endpoint limit []) := by
    simp [hk₂, hcl.symm, hdl.symm]
  refine ⟨hne, hc, hd, ?_⟩
  have hlast : k₂.free l = k₂.put l none := by
    rw [Kernel.free, hk₂l]
    rfl
  rw [hlast, hk₂, Kernel.put_comm hdl, Kernel.put_comm hcl]
  show ((((k.join.put l _).put l none).put c _).put d _) = _
  rw [Kernel.put_put, Kernel.put_self (show k.join.sockets l = none from hl)]
  rfl

section Joined

variable {c d : Nat} {k' : Kernel}

theorem Joined.sockets (h : Joined k c d k') :
    k'.sockets c = some (.connected k.connections .client) ∧
      k'.sockets d = some (.connected k.connections .server) := by
  rw [h.kernel]
  simp [h.ne]

theorem Joined.channels (h : Joined k c d k') (side : Side) :
    k'.channels k.connections side = .new := by
  rw [h.kernel]
  simp [Kernel.join]

theorem Joined.beside (h : Joined k c d k') : k.Beside [d, c] k' := by
  have hone : k.Beside [c] (k.join.put c (some (.connected k.connections .client))) :=
    Kernel.Beside.refl.new h.client rfl
  rw [h.kernel]
  exact hone.new ((Function.update_of_ne h.ne.symm ..).trans h.server) rfl

end Joined

/-- Nothing is known to the listener before somebody connects to it. -/
theorem wp_listening {body : SocketEndpoint → N α} (hfail : Yields fail v) (hidle : s.Idle)
    (hx : s.handles (.user x) = none) (hlimit : 0 < limit)
    (hv : ∀ error s' k', error.hasError = true → s'.handles = s.handles →
      k'.sockets = k.sockets → R (v error) s' k')
    (hbody : ∀ endpoint l s' k', k.sockets l = none →
      s'.handles = Function.update s.handles (.user x) (some (some l)) →
      k' = k.put l (some (.listening endpoint limit [])) → k'.Only l endpoint →
      wp (kernelEnv p capacity) (body endpoint) (fun r s'' k'' =>
        wp (kernelEnv p capacity) (destroy (.user x)) (fun _ => R r) GaveUp s'' k'') GaveUp s' k') :
    wp (kernelEnv p capacity) (listening p (.user x) limit fail body) R GaveUp s k := by
  -- a failure leaves nothing but what the listener holds
  have hend : ∀ {error : SocketError} {s₁ : Process} {k₁ : Kernel} {a : NativeHandle},
      error.hasError = true → s₁.handles = Function.update s.handles (.user x) (some a) →
      k.Beside a.toList k₁ →
      wp (kernelEnv p capacity) (fail error) (fun r s'' k'' =>
        wp (kernelEnv p capacity) (destroy (.user x)) (fun _ => R r) GaveUp s'' k'') GaveUp
        s₁ k₁ := by
    intro error s₁ k₁ a herror hs₁ hk₁
    refine hfail herror ((wp_destroy_kernel (h := a) (by simp [hs₁])).imp ?_)
    intro _ s₂ k₂ hs₂
    obtain ⟨hs₂, rfl⟩ := hs₂
    refine hv error _ _ herror ?_ (Kernel.Beside.sockets (Kernel.Beside.freed (by simpa using hk₁)))
    rw [hs₂, hs₁, Function.update_idem, Function.update_eq_self_iff.mpr hx.symm]
  have hidle₀ : (s.put (.user x) none).Idle := hidle.put
  rw [listening, Calls.wp_bind, wp_construct, wp_leaving, Calls.wp_bind]
  refine (wp_bind_kernel hidle₀ (by simp)).imp ?_
  intro r s₁ k₁ hr
  cases r with
  | failure error =>
      obtain ⟨hs₁, rfl, herror⟩ := hr
      exact hend (a := none) herror hs₁ Kernel.Beside.refl
  | success _ =>
      obtain ⟨l, hl, hs₁, endpoint, -, hunnamed, hk₁⟩ := hr
      replace hs₁ : s₁.handles = Function.update s.handles (.user x) (some (some l)) := by
        rw [hs₁]
        exact Function.update_idem ..
      have hbeside : ∀ {socket : Socket}, k.Beside [l] (k.put l (some socket)) :=
        Kernel.Beside.refl.new hl rfl
      have hx₁ : s₁.handles (.user x) = some (some l) := by simp [hs₁]
      have hk₁l : k₁.sockets l = some (.bound endpoint) := by simp [hk₁]
      dsimp only
      rw [Calls.wp_bind]
      refine (wp_listen_kernel hx₁ hk₁l hlimit).imp ?_
      intro r s₂ k₂ hr
      cases r with
      | failure error =>
          obtain ⟨hs₂, rfl, herror⟩ := hr
          exact hend herror (hs₂.trans hs₁) (hk₁ ▸ hbeside)
      | success _ =>
          obtain ⟨hs₂, hk₂⟩ := hr
          rw [hk₁, Kernel.put_put] at hk₂
          rw [hs₁] at hs₂
          have hk₂l : k₂.sockets l = some (.listening endpoint limit []) := by simp [hk₂]
          dsimp only
          rw [Calls.wp_bind, wp_getHandle (h := some l) (by simp [hs₂]), Calls.wp_bind]
          refine (wp_localEndpoint_kernel hk₂l rfl).imp ?_
          intro r s₃ k₃ hr
          cases r with
          | failure error =>
              obtain ⟨hs₃, rfl, herror⟩ := hr
              exact hend herror (hs₃.trans hs₂) (hk₂ ▸ hbeside)
          | success found =>
              obtain ⟨hs₃, rfl, rfl⟩ := hr
              refine hbody found l s₃ k₃ hl (hs₃.trans hs₂) hk₂ ?_
              intro l' socket hl' hname
              by_contra hne
              rw [hk₂, Kernel.sockets_put, Function.update_of_ne hne] at hl'
              exact hunnamed l' socket hl' hname

/-- The connection that is accepted is the one that was made. -/
theorem wp_joining {body : N α} (hfail : Yields fail v) (hidle : s.Idle) (hyx : y ≠ x)
    (hclient : s.handles (.user y) = some none)
    (hlistener : s.handles (.user x) = some (some l))
    (hk : k.sockets l = some (.listening endpoint limit [])) (honly : k.Only l endpoint)
    (hlimit : 0 < limit) (hbeside : k₀.Beside [l] k)
    (hv : ∀ error s' k' (b : NativeHandle), error.hasError = true →
      s'.handles = Function.update s.handles (.user y) (some b) →
      k₀.Beside (b.toList ++ [l]) k' → R (v error) s' k')
    (hbody : ∀ c d s' k', Joined k c d k' → k₀.Beside [d, c, l] k' →
      s'.handles = Function.update (Function.update s.handles (.user y) (some (some c))) (.user z)
        (some (some d)) → wp (kernelEnv p capacity) body R GaveUp s' k') :
    wp (kernelEnv p capacity) (joining p rounds (.user y) (.user z) (.user x) endpoint fail body)
      R GaveUp s k := by
  rw [joining, Calls.wp_bind]
  refine (wp_connect_kernel hidle hclient hk honly (by simpa using hlimit)).imp ?_
  intro r s₁ k₁ hr
  cases r with
  | failure error =>
      obtain ⟨hs₁, rfl, herror⟩ := hr
      refine hfail herror (hv error s₁ k₁ none herror ?_ hbeside)
      rw [hs₁, Function.update_eq_self_iff.mpr hclient.symm]
  | success _ =>
      obtain ⟨c, hfree, hs₁, hk₁⟩ := hr
      have hne : c ≠ l := by
        rintro rfl
        simp [hfree] at hk
      have hk₁l : k₁.sockets l = some (.listening endpoint limit [k.connections]) := by
        simp [hk₁, hne.symm]
      have hbeside₁ : k₀.Beside [c, l] k₁ := by
        rw [hk₁]
        exact (hbeside.change (by simp) rfl).new (by simp [hne, hfree]) rfl
      have hlistener₁ : s₁.handles (.user x) = some (some l) := by
        rw [hs₁, Function.update_of_ne (by simpa using hyx.symm), hlistener]
      dsimp only
      rw [Calls.wp_bind]
      refine (wp_accept_kernel (hidle.update hs₁) hlistener₁ hk₁l).imp ?_
      intro r s₂ k₂ hr
      cases r with
      | failure error =>
          obtain ⟨hs₂, herror, waiting, hk₂⟩ := hr
          exact hfail herror (hv error s₂ k₂ (some c) herror (hs₂.trans hs₁)
            (hbeside₁.change (by simp) hk₂))
      | success _ =>
          obtain ⟨d, hfree', hs₂, hk₂⟩ := hr
          rw [hs₁] at hs₂
          -- the listener has no connection waiting, as before
          have hjoined : k₂ = (k.join.put c (some (.connected k.connections .client))).put d
              (some (.connected k.connections .server)) := by
            have hsame := Kernel.put_self (show k.join.sockets l = _ from hk)
            rw [hk₂, hk₁, Kernel.put_comm hne.symm, Kernel.put_put, ← Kernel.put_comm hne.symm,
              hsame]
          have hcd : c ≠ d := by
            rintro rfl
            simp [hk₁] at hfree'
          have hdl : d ≠ l := by
            rintro rfl
            simp [hk₁l] at hfree'
          have hdfree : k.sockets d = none := by
            simpa [hk₁, hcd.symm, hdl] using hfree'
          refine hbody c d s₂ k₂ ⟨hcd, hfree, hdfree, hjoined⟩ ?_ hs₂
          have hfree₂ : (k₁.put l (some (.listening endpoint limit []))).sockets d = none := by
            rw [Kernel.sockets_put, Function.update_of_ne hdl, hfree']
          rw [hk₂]
          exact (hbeside₁.change (by simp) rfl).new hfree₂ rfl

end Net

end CoreSystems
