import CoreSystems.Net.DatagramSpecs
import CoreSystems.Net.Kernel

/-!
# CoreSystems.Net.KernelSpecs

What the operations of `TcpSocket` and `TcpListener` do to the sockets of a host, one lemma
for each. An operation that fails leaves the objects and the sockets as they were.

They are for a single thread that may not wait, so each also shows that no call blocks: a
listener has room for the connection, and a connection waits that is to be accepted. The calls
are those of the rules of `CoreSystems.Net.TcpOpening`; `Beside` says that whatever
descriptors were opened and closed in between, the host has the sockets it had and the
descriptors that are held.
-/

namespace CoreSystems

open Buffer (Bytes)
open Calls (Env wp)

namespace Net

open SocketHandle

namespace Kernel

variable {k k' : Kernel} {fd fd' : Nat} {a b : Option Socket} {p : Platform}

@[simp] theorem sockets_put : (k.put fd a).sockets = Function.update k.sockets fd a := rfl

@[simp] theorem channels_put : (k.put fd a).channels = k.channels := rfl

@[simp] theorem connections_put : (k.put fd a).connections = k.connections := rfl

@[simp] theorem put_put : (k.put fd a).put fd b = k.put fd b := by
  simp [put]

theorem put_comm (hne : fd ≠ fd') : (k.put fd a).put fd' b = (k.put fd' b).put fd a := by
  simp [put, Function.update_comm hne]

theorem put_self (h : k.sockets fd = a) : k.put fd a = k := by
  simp [put, ← h]

@[simp] theorem sockets_shut (n : Nat) (side : Side) (send receive : Bool) :
    (k.shut n side send receive).sockets = k.sockets := rfl

@[simp] theorem sockets_carry (n : Nat) (side : Side) (queue : Bytes) :
    (k.carry n side queue).sockets = k.sockets := rfl

@[simp] theorem sockets_join : k.join.sockets = k.sockets := rfl

theorem channels_carry (k : Kernel) (n : Nat) (side side' : Side) (queue : Bytes) :
    (k.carry n side queue).channels n side' =
      if side' = side then { k.channels n side with queue := queue } else k.channels n side' := by
  simp only [carry, Function.update_self, Function.update_apply]

theorem channels_shut (k : Kernel) (n : Nat) (side side' : Side) (send receive : Bool) :
    (k.shut n side send receive).channels n side' =
      (k.channels n side').shut (send && side' = side) (receive && side' = side.peer) := by
  simp only [shut, Function.update_self]

/-- Freeing a descriptor frees no other. -/
@[simp] theorem sockets_free : (k.free fd).sockets = Function.update k.sockets fd none := by
  have hfold : ∀ (pending : List Nat) (k : Kernel),
      (pending.foldl (fun k n => k.shut n .server true true) k).sockets = k.sockets := by
    intro pending
    induction pending with
    | nil => exact fun _ => rfl
    | cons n pending ih => exact fun k => (ih _).trans (sockets_shut ..)
  rw [free]
  split
  · rfl
  · rw [sockets_put, hfold]
  · rfl

/-- A call that fails changes nothing, but for `close`. -/
theorem Answers.error {c : Call} {e : Errno} (hc : ∀ h, c ≠ .close h)
    (h : k.Answers p c (.error e) k') : k' = k := by
  cases c with
  | close handle => exact absurd rfl (hc handle)
  | _ => exact h

/-- A socket that is in no connection and no listener is freed without a trace. -/
theorem free_put (h : k.sockets fd = none) {socket : Socket}
    (hsocket : socket = .unbound ∨ ∃ endpoint, socket = .bound endpoint) :
    (k.put fd (some socket)).free fd = k := by
  rcases hsocket with rfl | ⟨endpoint, rfl⟩ <;>
    simp [free, put, ← h]

/-! ### Descriptors that are held

A descriptor that a function opens is added to the list and one that it closes is taken off
it, so the list at the end says what the function has kept. -/

/-- The descriptors `held` were free in `k`, and nothing else is different in `k'`. -/
def Beside (k : Kernel) (held : List Nat) (k' : Kernel) : Prop :=
  ∀ fd, (fd ∈ held → k.sockets fd = none) ∧ (fd ∉ held → k'.sockets fd = k.sockets fd)

variable {held : List Nat}

theorem Beside.refl : k.Beside [] k := fun _ => ⟨by simp, fun _ => rfl⟩

theorem Beside.sockets (h : k.Beside [] k') : k'.sockets = k.sockets :=
  funext fun fd => (h fd).2 (by simp)

/-- A descriptor that was not in use. -/
theorem Beside.of_free (h : k.Beside held k') (hfree : k'.sockets fd = none) :
    k.sockets fd = none := by
  by_cases hfd : fd ∈ held
  · exact (h fd).1 hfd
  · rw [← (h fd).2 hfd, hfree]

/-- A new descriptor. -/
theorem Beside.new {k'' : Kernel} {a : Option Socket} (h : k.Beside held k')
    (hfree : k'.sockets fd = none) (hk : k''.sockets = Function.update k'.sockets fd a) :
    k.Beside (fd :: held) k'' := by
  intro fd'
  by_cases hfd : fd' = fd
  · subst hfd
    exact ⟨fun _ => h.of_free hfree, fun hnot => absurd List.mem_cons_self hnot⟩
  · rw [hk, Function.update_of_ne hfd]
    simpa [hfd] using h fd'

/-- A descriptor that is held already changes. -/
theorem Beside.change {k'' : Kernel} {a : Option Socket} (h : k.Beside held k')
    (hfd : fd ∈ held) (hk : k''.sockets = Function.update k'.sockets fd a) :
    k.Beside held k'' := by
  intro fd'
  refine ⟨(h fd').1, fun hnot => ?_⟩
  have hne : fd' ≠ fd := by
    intro heq
    subst heq
    exact hnot hfd
  rw [hk, Function.update_of_ne hne, (h fd').2 hnot]

/-- A descriptor is freed. -/
theorem Beside.free (h : k.Beside (fd :: held) k') : k.Beside held (k'.free fd) := by
  intro fd'
  rw [sockets_free]
  by_cases hfd : fd' = fd
  · subst hfd
    exact ⟨fun _ => (h fd').1 List.mem_cons_self,
      fun _ => by rw [Function.update_self, (h fd').1 List.mem_cons_self]⟩
  · rw [Function.update_of_ne hfd]
    simpa [hfd] using h fd'

/-- What an object holds is freed, if it holds anything. -/
theorem Beside.freed {h : NativeHandle} (hk : k.Beside (h.toList ++ held) k') :
    k.Beside held ((h.map k'.free).getD k') := by
  cases h with
  | none => exact hk
  | some fd => exact Beside.free hk

end Kernel

section Calls

variable {p : Platform} {capacity rounds : Nat} {k : Kernel} {r : Request} {x : HandleId} {fd : Nat}
variable {handles : HandleId → Option NativeHandle}

theorem Asks.kernel {Q : os.Answer r → Kernel → Prop} (hblocks : ¬ k.Blocks p capacity r.call)
    (h : ∀ a k', k.Answers p r.call a k' → Q a k') :
    Asks (kernelEnv p capacity) handles r Q k :=
  ⟨fun _ _ => hblocks, h⟩

/-- Freeing a descriptor. -/
theorem Closes.kernel {Q : Kernel → Prop} (h : Q (k.free fd)) :
    Closes (kernelEnv p capacity) handles x fd Q k := by
  refine Asks.kernel id ?_
  intro a k' ha
  obtain rfl : k' = k.free fd := by cases a <;> exact ha
  exact h

/-- Options are none of the kernel's business. -/
theorem Configures.kernel {Q : SocketResult Unit → Kernel → Prop}
    (hfailure : ∀ error, error.hasError = true → Q (.failure error) k)
    (hsuccess : Q (.success ()) k) :
    Configures (kernelEnv p capacity) p handles x fd Q k := by
  rw [Configures]
  split
  · exact hsuccess
  · refine Asks.kernel id ?_
    intro a k' ha
    obtain rfl : k' = k := by cases a <;> exact ha
    cases a with
    | error e => exact hfailure _ (decide_eq_true e.2)
    | ok _ => exact hsuccess

/-- A descriptor that is configured, or closed again. -/
theorem Prepares.kernel {Q : SocketResult Nat → Kernel → Prop}
    (hfailure : ∀ error, error.hasError = true → Q (.failure error) (k.free fd))
    (hsuccess : Q (.success fd) k) : Prepares (kernelEnv p capacity) p handles x Q fd k :=
  Configures.kernel (fun error herror => Closes.kernel (hfailure error herror)) hsuccess

/-- A call that is made until it is not interrupted. -/
theorem Repeats.kernel {c : Call} {E : Exit → Kernel → Prop}
    {Q : SocketResult c.Value → Kernel → Prop} (hc : ∀ h, c ≠ .close h)
    (hblocks : ¬ k.Blocks p capacity c) (hout : E .gaveUp k)
    (hok : ∀ v k', k.Answers p c (.ok v) k' → Q (.success v) k')
    (hfailure : ∀ error, error.hasError = true → Q (.failure error) k) :
    Repeats (kernelEnv p capacity) p rounds handles ⟨x, c⟩ E Q k := by
  refine Repeats.of_inv (fun k' => k' = k) (fun k' => k' = k) (fun _ h => h) rfl ?_ ?_ ?_
  · intro _ heq
    subst heq
    exact hout
  · intro _ heq
    subst heq
    refine Asks.kernel hblocks ?_
    intro a k₂ ha
    cases a with
    | ok v => exact hok v k₂ ha
    | error e => exact Kernel.Answers.error hc ha
  · intro error _ herror heq
    subst heq
    exact hfailure error herror

/-- A new socket that is attached to an address, or closed again. -/
theorem Opens.kernel {attach : Nat → Call} {Q : SocketResult Nat → Kernel → Prop}
    (hattach : ∀ fd h, attach fd ≠ .close h)
    (hcall : ∀ fd, k.sockets fd = none →
      ¬ (k.put fd (some .unbound)).Blocks p capacity (attach fd) ∧
      ∀ v k', (k.put fd (some .unbound)).Answers p (attach fd) (.ok v) k' → Q (.success fd) k')
    (hfailure : ∀ error, error.hasError = true → Q (.failure error) k) :
    Opens (kernelEnv p capacity) p handles attach Q k := by
  intro family
  refine Asks.kernel id ?_
  intro a k₁ ha
  cases a with
  | error e =>
      obtain rfl : k₁ = k := ha
      exact hfailure _ (decide_eq_true e.2)
  | ok fd =>
      obtain ⟨hfree, rfl⟩ := ha
      obtain ⟨hblocks, hok⟩ := hcall fd hfree
      have hgone : (k.put fd (some .unbound)).free fd = k :=
        Kernel.free_put hfree (.inl rfl)
      refine Prepares.kernel ?_ ?_
      · intro error herror
        rw [hgone]
        exact hfailure error herror
      · refine Asks.kernel hblocks ?_
        intro a k₂ ha
        cases a with
        | ok v => exact hok v k₂ ha
        | error e =>
            obtain rfl := Kernel.Answers.error (hattach fd) ha
            refine Closes.kernel ?_
            rw [hgone]
            exact hfailure _ (decide_eq_true e.2)

end Calls

/-! ### Operations

Success says where the new descriptor is and what it stands for, failure that nothing is
different. -/

/-- An operation that failed and left everything as it was. -/
structure Unchanged (s : Process) (k : Kernel) (error : SocketError) (s' : Process)
    (k' : Kernel) : Prop where
  handles : s'.handles = s.handles
  kernel : k' = k
  hasError : error.hasError = true

/-- A retry loop ran out of rounds: the one way in which a thread that may not wait does not
return. -/
abbrev GaveUp (e : Exit) (_ : Process) (_ : Kernel) : Prop := e = .gaveUp

section Operations

variable {p : Platform} {capacity : Nat} {k : Kernel} {s : Process} {x : HandleId}
variable {E : Exit → Process → Kernel → Prop} {name fd rounds : Nat} {endpoint : SocketEndpoint}

/-- `ToNative` writes different endpoints differently. -/
theorem toNative_injective {l : Layout} {e e' : SocketEndpoint}
    (h : e.toNative l = e'.toNative l) : e = e' := by
  have hread := SocketEndpoint.fromNative_toNative l e (e.toNative l).2
    (Int.ofNat_le.mpr SocketEndpoint.toNative_length_le)
  have hread' := SocketEndpoint.fromNative_toNative l e' (e'.toNative l).2
    (Int.ofNat_le.mpr SocketEndpoint.toNative_length_le)
  rw [if_pos le_rfl] at hread hread'
  rw [h, hread'] at hread
  exact (Option.some.inj (Except.ok.inj hread)).symm

/-- `Connect` and `Bind` on a free object, for whatever their one call does to the new
descriptor. -/
theorem wp_openWith_kernel {refusal : SocketError} {attach : NativeHandle → Bytes → Nat → Call}
    {R : Nat → Kernel → Prop} (hrefusal : refusal.hasError = true) (hidle : s.Idle)
    (hx : s.handles (.user name) = some none)
    (hattach : ∀ h b n h', attach h b n ≠ .close h')
    (hcall : ∀ fd, k.sockets fd = none →
      ¬ (k.put fd (some .unbound)).Blocks p capacity (attach (some fd)
        (endpoint.toNative p.layout).1 (endpoint.toNative p.layout).2) ∧
      ∀ v k', (k.put fd (some .unbound)).Answers p (attach (some fd)
        (endpoint.toNative p.layout).1 (endpoint.toNative p.layout).2) (.ok v) k' → R fd k') :
    wp (kernelEnv p capacity)
      (openWith p refusal (createTcpSocket p) attach (.user name) endpoint) (fun r s' k' =>
        match r with
        | .failure error => Unchanged s k error s' k'
        | .success _ => ∃ fd, k.sockets fd = none ∧
            s'.handles = Function.update s.handles (.user name) (some (some fd)) ∧ R fd k')
      E s k := by
  apply (wp_openWith_asks (Q := fun r h' k' =>
    match r with
    | .failure error => h' = none ∧ k' = k ∧ error.hasError = true
    | .success _ => ∃ fd, h' = some fd ∧ k.sockets fd = none ∧ R fd k') hrefusal hidle hx
      (by simp) ?_).imp
  · intro r s' k' hr
    obtain ⟨h', hs', hr⟩ := hr
    cases r with
    | failure error =>
        obtain ⟨rfl, hk', herror⟩ := hr
        exact ⟨hs'.trans (Function.update_eq_self_iff.mpr hx.symm), hk', herror⟩
    | success v =>
        obtain ⟨fd, rfl, hfree, hR⟩ := hr
        exact ⟨fd, hfree, hs', hR⟩
  · intro _
    -- what the one call does to the new descriptor is all that the operations differ in
    apply Opens.kernel fun fd h => hattach _ _ _ _
    · intro fd hfree
      obtain ⟨hblocks, hok⟩ := hcall fd hfree
      exact ⟨hblocks, fun v k' ha => ⟨fd, rfl, hfree, hok v k' ha⟩⟩
    · intro error herror
      exact ⟨rfl, rfl, herror⟩

/-- `TcpListener::Bind`: a new descriptor is bound to an endpoint that only it has, or nothing
is different. -/
theorem wp_bind_kernel (hidle : s.Idle) (hx : s.handles (.user name) = some none) :
    wp (kernelEnv p capacity) (TcpListener.bind p (.user name) endpoint) (fun r s' k' =>
      match r with
      | .failure error => Unchanged s k error s' k'
      | .success _ => ∃ fd, k.sockets fd = none ∧
          s'.handles = Function.update s.handles (.user name) (some (some fd)) ∧
          ∃ assigned, Kernel.Assigned endpoint assigned ∧ k.Unnamed assigned ∧
            k' = k.put fd (some (.bound assigned))) E s k := by
  apply wp_openWith_kernel (SocketError.hasError_ofErrc ..) hidle hx (by simp)
  intro fd hfree
  refine ⟨id, ?_⟩
  intro v k' ha
  obtain ⟨fd', asked, assigned, hfd, -, hname, hassigned, hunnamed, rfl⟩ := ha
  cases hfd
  obtain rfl := toNative_injective hname
  refine ⟨assigned, hassigned, ?_, by rw [Kernel.put_put]⟩
  intro fd' socket hsocket
  apply hunnamed fd' socket
  rw [Kernel.sockets_put, Function.update_of_ne _ _ _]
  · exact hsocket
  · intro heq
    subst heq
    rw [hfree] at hsocket
    cases hsocket

/-- `Listen` on a bound socket. The backlog is what the listener has room for. -/
theorem wp_listen_kernel {backlog : Int} (hx : s.handles x = some (some fd))
    (hfd : k.sockets fd = some (.bound endpoint)) (hbacklog : 0 < backlog) :
    wp (kernelEnv p capacity) (TcpListener.listen p x backlog) (fun r s' k' =>
      match r with
      | .failure error => Unchanged s k error s' k'
      | .success _ => s'.handles = s.handles ∧
          k' = k.put fd (some (.listening endpoint backlog []))) E s k := by
  apply (wp_listen_asks (Q := fun r k' =>
    match r with
    | .failure error => k' = k ∧ error.hasError = true
    | .success _ => k' = k.put fd (some (.listening endpoint backlog []))) hx nofun
      (fun _ hneg => absurd hbacklog (Int.not_lt.mpr hneg)) ?_).imp
  · intro r s' k' hr
    cases r with
    | failure error => exact ⟨hr.1, hr.2.1, hr.2.2⟩
    | success v => exact hr
  · intro fd' hfd' _
    cases hfd'
    apply Asks.kernel id
    intro a k' ha
    cases a with
    | error e => exact ⟨ha, decide_eq_true e.2⟩
    | ok v =>
        obtain ⟨fd', endpoint', hfd', hbound, rfl⟩ := ha
        cases hfd'
        cases hfd.symm.trans hbound
        rfl

/-- `GetLocalEndpoint` of a socket that is bound: its endpoint, or an error. -/
theorem wp_localEndpoint_kernel {socket : Socket} (hfd : k.sockets fd = some socket)
    (hname : socket.name = some endpoint) :
    wp (kernelEnv p capacity) (queryEndpoint p x (some fd) false) (fun r s' k' =>
      match r with
      | .failure error => Unchanged s k error s' k'
      | .success found => s'.handles = s.handles ∧ k' = k ∧ found = endpoint) E s k := by
  apply (wp_queryEndpoint_asks (h := some fd) (Q := fun r k' =>
    match r with
    | .failure error => k' = k ∧ error.hasError = true
    | .success found => k' = k ∧ found = endpoint) nofun ?_).imp
  · intro r s' k' hr
    cases r with
    | failure error => exact ⟨hr.1, hr.2.1, hr.2.2⟩
    | success v => exact hr
  · intro fd' hfd'
    cases hfd'
    apply Asks.kernel id
    intro a k' ha
    cases a with
    | error e => exact ⟨ha, decide_eq_true e.2⟩
    | ok native =>
        obtain ⟨rfl, hnames⟩ := ha
        intro r hr
        -- what was written is read back
        rw [(hnames fd socket endpoint rfl hfd hname).fromNative] at hr
        cases hr
        exact ⟨rfl, rfl⟩

/-- `Connect` to a listener that has room for one more. The endpoint reaches that listener
only, so the new connection waits there. -/
theorem wp_connect_kernel {listener : Nat} {limit : Int} {pending : List Nat} (hidle : s.Idle)
    (hx : s.handles (.user name) = some none)
    (hlistener : k.sockets listener = some (.listening endpoint limit pending))
    (hunique : ∀ l socket, k.sockets l = some socket → socket.name = some endpoint → l = listener)
    (hroom : pending.length < limit) :
    wp (kernelEnv p capacity) (TcpSocket.connect p (.user name) endpoint) (fun r s' k' =>
      match r with
      | .failure error => Unchanged s k error s' k'
      | .success _ => ∃ fd, k.sockets fd = none ∧
          s'.handles = Function.update s.handles (.user name) (some (some fd)) ∧
          k' = (k.join.put listener (some (.listening endpoint limit
            (pending ++ [k.connections])))).put fd (some (.connected k.connections .client)))
      E s k := by
  apply wp_openWith_kernel (SocketError.hasError_ofErrc ..) hidle hx (by simp)
  intro fd hfree
  -- the new socket is unbound, so the only listener by that name is the one before
  have hfound : ∀ l endpoint' limit' pending',
      endpoint.toNative p.layout = endpoint'.toNative p.layout →
      (k.put fd (some .unbound)).sockets l = some (.listening endpoint' limit' pending') →
      l = listener ∧ endpoint' = endpoint ∧ limit' = limit ∧ pending' = pending := by
    intro l endpoint' limit' pending' hname hl
    obtain rfl := toNative_injective hname
    rw [Kernel.sockets_put, Function.update_apply] at hl
    split at hl
    · cases hl
    · obtain rfl := hunique l _ hl rfl
      cases hlistener.symm.trans hl
      exact ⟨rfl, rfl, rfl, rfl⟩
  constructor
  · intro hblocks
    obtain ⟨l, endpoint', limit', pending', hname, hl, hfull⟩ := hblocks
    obtain ⟨-, -, rfl, rfl⟩ := hfound l endpoint' limit' pending' hname hl
    omega
  · intro v k' ha
    obtain ⟨fd', l, endpoint', limit', pending', hfd, -, hname, hl, rfl⟩ := ha
    cases hfd
    obtain ⟨rfl, rfl, rfl, rfl⟩ := hfound l endpoint' limit' pending' hname hl
    have hne : fd ≠ l := by
      intro heq
      subst heq
      rw [hfree] at hlistener
      cases hlistener
    show (((k.join.put fd (some .unbound)).put l _).put fd _) = _
    rw [Kernel.put_comm hne, Kernel.put_put]
    rfl

/-- A waiting connection was accepted with a new descriptor, or there is none. -/
def Kernel.Accepted (k : Kernel) (fd n : Nat) (endpoint : SocketEndpoint) (limit : Int)
    (pending : List Nat) : SocketResult Nat → Kernel → Prop
  | .failure error, k' => error.hasError = true ∧ ∃ waiting, k'.sockets =
      Function.update k.sockets fd (some (.listening endpoint limit waiting))
  | .success fd', k' => k.sockets fd' = none ∧
      k' = (k.put fd (some (.listening endpoint limit pending))).put fd'
        (some (.connected n .server))

/-- `Accept` of a connection that waits. One that cannot be configured is closed. -/
theorem wp_accept_kernel {result n : Nat} {limit : Int} {pending : List Nat} (hidle : s.Idle)
    (hx : s.handles x = some (some fd))
    (hfd : k.sockets fd = some (.listening endpoint limit (n :: pending))) :
    wp (kernelEnv p capacity) (TcpListener.accept p rounds (.user result) x) (fun r s' k' =>
      match r with
      | .failure error => s'.handles = s.handles ∧ error.hasError = true ∧
          ∃ waiting, k'.sockets =
            Function.update k.sockets fd (some (.listening endpoint limit waiting))
      | .success _ => ∃ fd', k.sockets fd' = none ∧
          s'.handles = Function.update s.handles (.user result) (some (some fd')) ∧
          k' = (k.put fd (some (.listening endpoint limit pending))).put fd'
            (some (.connected n .server))) GaveUp s k := by
  apply Calls.Prog.wp.mono (wp_accept_asks (E := fun e _ => e = .gaveUp)
    (Q := k.Accepted fd n endpoint limit pending) hidle hx
    (fun h => absurd h (Option.some_ne_none _)) ?_)
  · intro r s' k' hr
    cases r with
    | failure error => exact hr
    | success v =>
        obtain ⟨fd', hs', hfree, hk'⟩ := hr
        exact ⟨fd', hfree, hs', hk'⟩
  · intro e s' k' he
    exact he
  · intro fd' hfd'
    cases hfd'
    have hsame : k.sockets =
        Function.update k.sockets fd (some (.listening endpoint limit (n :: pending))) :=
      (Function.update_eq_self_iff.mpr hfd.symm).symm
    apply Repeats.kernel (by simp)
    · intro hblocks
      obtain ⟨fd', endpoint', limit', hfd', hempty⟩ := hblocks
      cases hfd'
      cases hfd.symm.trans hempty
    · rfl
    · intro fd' k₁ ha
      obtain ⟨fd'', endpoint', limit', n', pending', hfd'', hl, hfree, rfl⟩ := ha
      cases hfd''
      cases hfd.symm.trans hl
      rw [Admits]
      apply Prepares.kernel
      · intro error herror
        refine ⟨herror, pending, ?_⟩
        -- the accepted descriptor was free before and is free again
        have hne : fd' ≠ fd := by
          intro heq
          simp [heq, hfd] at hfree
        funext d
        by_cases hd : d = fd'
        · simp [hd, hne, hfree]
        · simp [hd, Function.update_apply]
      · exact ⟨hfree, rfl⟩
    · intro error herror
      exact ⟨herror, _, hsame⟩

/-- The destructor frees what the object held, and with it whatever that stood for. -/
theorem wp_destroy_kernel {h : NativeHandle} (hx : s.handles x = some h) :
    wp (kernelEnv p capacity) (destroy x) (fun _ s' k' =>
      s'.handles = Function.update s.handles x none ∧ k' = (h.map k.free).getD k) E s k := by
  apply wp_destroy_asks hx
  · intro hnone
    rw [hnone]
    rfl
  · intro fd hfd
    apply Closes.kernel
    rw [hfd]
    rfl

end Operations

end Net

end CoreSystems
