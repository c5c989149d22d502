import CoreSystems.Net.UdpRules

/-!
# CoreSystems.Net.TcpOpening

`Connect`, `Bind`, `Listen`, `Accept`, `Shutdown` and `Close` in every environment.

The predicates say which calls a function makes, and where objects then hold what:
`Creates` is `CreateTcpSocket`, `Opens` the common body of `Connect` and
`TcpListener::Bind`, `Admits` the loop of `Accept`. In each of them whatever fails after a
descriptor was made is followed by its `close`, so a rule that is applied to an environment
says of every failure what has become of the descriptor.
-/

namespace CoreSystems

open Buffer (Bytes)
open Calls (Env wp)

namespace Net

open SocketHandle

/-! ### What is called

Each predicate is a function of the source with everything but its calls left out. -/

section Opening

variable {ω : Type}

/-- What follows from a call that says no more than that it failed. -/
def Once (Q : SocketResult Unit → ω → Prop) : Except Errno Unit → ω → Prop
  | .ok _ => Q (.success ())
  | .error e => Q (.failure (.ofCode e))

/-- A descriptor is closed, with whatever answer: the library does not look at what `close`
returns. -/
def Closes (env : Env os Process ω) (handles : HandleId → Option NativeHandle) (x : HandleId)
    (fd : Nat) (Q : ω → Prop) (w : ω) : Prop :=
  Asks env handles ⟨x, .close (some fd)⟩ (fun _ => Q) w

/-- The option that `ConfigureTcpSocket` sets, on platforms where it sets one: those that have
`SO_NOSIGPIPE`. -/
def noSigPipe (p : Platform) : Option Nat :=
  match p.windows, p.SO_NOSIGPIPE, p.MSG_NOSIGNAL with
  | false, some option, none => some option
  | _, _, _ => none

/-- `ConfigureTcpSocket` on a descriptor. -/
def Configures (env : Env os Process ω) (p : Platform) (handles : HandleId → Option NativeHandle)
    (x : HandleId) (fd : Nat) (Q : SocketResult Unit → ω → Prop) (w : ω) : Prop :=
  match noSigPipe p with
  | none => Q (.success ()) w
  | some option => Asks env handles ⟨x, .setsockopt (some fd) p.SOL_SOCKET option 1⟩ (Once Q) w

/-- A new descriptor is configured, and closed if that fails. The error that goes on is that
of the option. -/
def Prepares (env : Env os Process ω) (p : Platform) (handles : HandleId → Option NativeHandle)
    (x : HandleId) (Q : SocketResult Nat → ω → Prop) (fd : Nat) (w : ω) : Prop :=
  Configures env p handles x fd (fun r w' =>
    match r with
    | .failure error => Closes env handles x fd (Q (.failure error)) w'
    | .success _ => Q (.success fd) w') w

/-- What objects hold while a new descriptor is in the local `handle`, which has got it from
`created`. -/
def taking (handles : HandleId → Option NativeHandle) (created handle : HandleId) (fd : Nat) :
    HandleId → Option NativeHandle :=
  Process.written handles [(handle, some (some fd)), (created, some none)]

/-- `CreateTcpSocket`. -/
def Creates (env : Env os Process ω) (p : Platform) (handles : HandleId → Option NativeHandle)
    (Q : SocketResult Nat → ω → Prop) (w : ω) : Prop :=
  ∀ family, Asks env handles
    ⟨.handle .createSocket, .socket family p.SOCK_STREAM p.IPPROTO_TCP⟩ (fun a w₁ =>
      match a with
      | .error e => Q (.failure (.ofCode e)) w₁
      | .ok fd => Prepares env p
          (taking handles (.created .createTcpSocket) (.handle .createTcpSocket) fd)
          (.handle .createTcpSocket) Q fd w₁) w

/-- The call that attaches a new descriptor to an address. If it fails the descriptor is
closed. -/
def Attaches (env : Env os Process ω) (handles : HandleId → Option NativeHandle)
    (attach : Nat → Call) (Q : SocketResult Nat → ω → Prop) : SocketResult Nat → ω → Prop
  | .failure error, w => Q (.failure error) w
  | .success fd, w =>
    let handles' := taking handles (.created .operation) (.handle .operation) fd
    Asks env handles' ⟨.handle .operation, attach fd⟩ (fun a w' =>
      match a with
      | .error e => Closes env handles' (.handle .operation) fd (Q (.failure (.ofCode e))) w'
      | .ok _ => Q (.success fd) w') w

/-- The body of `Connect` and `TcpListener::Bind` on a free object. -/
def Opens (env : Env os Process ω) (p : Platform) (handles : HandleId → Option NativeHandle)
    (attach : Nat → Call) (Q : SocketResult Nat → ω → Prop) (w : ω) : Prop :=
  Creates env p handles (Attaches env handles attach Q) w

/-- What `Accept` does with the answer that is not an interruption: a connection is configured
before the result owns it. -/
def Admits (env : Env os Process ω) (p : Platform) (handles : HandleId → Option NativeHandle)
    (Q : SocketResult Nat → ω → Prop) : SocketResult Nat → ω → Prop
  | .failure error, w => Q (.failure error) w
  | .success fd, w => Prepares env p
      (Function.update handles (.handle .operation) (some (some fd))) (.handle .operation) Q fd w

/-- The call of `QueryEndpoint`. -/
def Queries (env : Env os Process ω) (handles : HandleId → Option NativeHandle) (x : HandleId)
    (fd size : Nat) (peer : Bool) (Q : Except Errno (NativeName size) → ω → Prop) (w : ω) : Prop :=
  if peer then Asks env handles ⟨x, .getpeername (some fd) size⟩ Q w
  else Asks env handles ⟨x, .getsockname (some fd) size⟩ Q w

/-- What follows from the endpoint that is read out of what the operating system wrote. -/
def Located (p : Platform) (Q : SocketResult SocketEndpoint → ω → Prop) :
    Except Errno (NativeName p.layout.sizeofStorage) → ω → Prop
  | .error e, w => Q (.failure (.ofCode e)) w
  | .ok name, w => ∀ r, SocketEndpoint.fromNative p.layout
      (some (Buffer.patch (List.replicate p.layout.sizeofStorage 0) 0 name.bytes))
      name.bytes.length = .ok r →
    Q (match r with
      | none => .failure (invalidArgument p)
      | some endpoint => .success endpoint) w

/-- What follows from the descriptor an object then has. -/
def Given (Q : SocketResult Unit → NativeHandle → ω → Prop) : SocketResult Nat → ω → Prop
  | .success fd => Q (.success ()) (some fd)
  | .failure error => Q (.failure error) none

/-- The same where the descriptor is known before the object has it. -/
def GivenOf (Q : SocketResult Nat → ω → Prop) (fd : Nat) : SocketResult Unit → ω → Prop
  | .success _ => Q (.success fd)
  | .failure error => Q (.failure error)

/-! ### Closing and opening

A descriptor is in exactly one local at a time, which closes it when it is destroyed unless it
has passed it on. -/

variable {env : Env os Process ω} {p : Platform} {E : Exit → Process → ω → Prop} {w : ω}
variable {s s₁ : Process} {x y : HandleId} {h : NativeHandle} {fd : Nat}

/-- What a function has done that succeeds with the handles `target`, and leaves them as they
were if it fails. -/
def Settles (handles target : HandleId → Option NativeHandle) (Q : SocketResult Unit → ω → Prop)
    (r : SocketResult Unit) (s' : Process) (w' : ω) : Prop :=
  match r with
  | .success _ => s'.handles = target ∧ Q r w'
  | .failure error => s'.handles = handles ∧ error.hasError = true ∧ Q r w'

theorem configureTcpSocket_eq : configureTcpSocket p x h =
    match noSigPipe p with
    | none => return .success ()
    | some option => do
      match ← sys x (.setsockopt h p.SOL_SOCKET option 1) with
      | .error _ => failure (← last)
      | .ok _ => return .success () := by
  rw [configureTcpSocket, noSigPipe]
  generalize p.windows = windows, p.SO_NOSIGPIPE = option, p.MSG_NOSIGNAL = flag
  cases windows <;> cases option <;> cases flag <;> rfl

/-- `ConfigureTcpSocket`. -/
theorem wp_configure_asks {Q : SocketResult Unit → ω → Prop}
    (h : Configures env p s.handles x fd Q w) :
    wp env (configureTcpSocket p x (some fd)) (Settles s.handles s.handles Q) E s w := by
  rw [configureTcpSocket_eq]
  rw [Configures] at h
  cases hoption : noSigPipe p with
  | none =>
      rw [hoption] at h
      exact ⟨rfl, h⟩
  | some option =>
      rw [hoption] at h
      rw [Calls.wp_bind]
      refine wp_once (h.imp ?_)
      intro a w' ha s' hs' herrno
      cases a with
      | ok _ => exact ⟨hs', ha⟩
      | error e =>
          simp only [Calls.wp_bind, wp_last, herrno e rfl, wp_failure_ofCode]
          exact ⟨hs', decide_eq_true e.2, ha⟩

/-- `Close`. An object without a descriptor makes no call; any other has none afterwards,
whatever `close` returned. -/
theorem wp_close_asks {Q : ω → Prop} (hx : s.handles x = some h) (hinvalid : h = none → Q w)
    (hcall : ∀ fd, h = some fd → Closes env s.handles x fd Q w) :
    wp env (close x) (fun _ s' w' => s'.handles = Function.update s.handles x (some none) ∧ Q w')
      E s w := by
  cases h with
  | none =>
      rw [wp_close_invalid hx]
      exact ⟨(Function.update_eq_self_iff.mpr hx.symm).symm, hinvalid rfl⟩
  | some fd =>
      obtain ⟨haccepts, hanswers⟩ := hcall fd rfl
      rw [wp_close_valid hx]
      refine ⟨haccepts s rfl, ?_⟩
      intro a w' ha
      exact ⟨Process.handles_noted a, hanswers a w' ha⟩

/-- The destructor: the same calls, and the object is gone. -/
theorem wp_destroy_asks {Q : ω → Prop} (hx : s.handles x = some h) (hinvalid : h = none → Q w)
    (hcall : ∀ fd, h = some fd → Closes env s.handles x fd Q w) :
    wp env (destroy x) (fun _ s' w' => s'.handles = Function.update s.handles x none ∧ Q w')
      E s w := by
  refine (Calls.wp_bind _ _).mpr ((wp_close_asks hx hinvalid hcall).imp ?_)
  intro _ s' w' hs'
  refine ⟨?_, hs'.2⟩
  show Function.update s'.handles x none = _
  rw [hs'.1, Function.update_idem]

/-- The scopes of `created` and `handle`: the new descriptor moves from the one to the other,
and the body fails, or passes it on and leaves the handles `target` beside the two locals. -/
theorem wp_takeover_asks {created handle : HandleId} {body : N (SocketResult Unit)}
    {Q : SocketResult Unit → ω → Prop} (target : HandleId → Option NativeHandle)
    (hne : handle ≠ created) (hcreated : s.handles created = none)
    (hhandle : s.handles handle = none)
    (htarget : target handle = none ∧ target created = none)
    (hs₁ : s₁.handles = Function.update s.handles created (some (some fd)))
    (hbody : ∀ s₂ : Process, s₂.handles = taking s.handles created handle fd →
      wp env body (fun r s₃ w₃ =>
        match r with
        | .failure error => s₃.handles = s₂.handles ∧ error.hasError = true ∧
            Closes env s₂.handles handle fd (Q r) w₃
        | .success _ => s₃.handles =
            Process.written target [(handle, some none), (created, some none)] ∧ Q r w₃) E s₂ w) :
    wp env (leaving created (do moveConstruct handle created; leaving handle body))
      (Settles s.handles target Q) E s₁ w := by
  have hfd : s₁.handles created = some (some fd) := by simp [hs₁]
  rw [wp_leaving, Calls.wp_bind, wp_moveConstruct hfd, wp_leaving]
  refine (hbody _ (by simp [Process.put, hs₁, taking, Process.written])).imp ?_
  intro r s₃ w₃ hr
  cases r with
  | success v =>
      obtain ⟨hs₃, hQ⟩ := hr
      rw [wp_destroy_invalid (by simp [hs₃, Process.written]),
        wp_destroy_invalid (by simp [hs₃, Process.written, hne.symm])]
      refine ⟨?_, hQ⟩
      rw [Process.drop, Process.drop, hs₃]
      exact Process.written_congr [(_, _), (_, _), (_, _), (_, _)] []
        (by simp [Process.written, htarget, hne])
  | failure error =>
      -- `handle` closes the descriptor; `created` gave it away and closes nothing
      obtain ⟨hs₃, herror, hclose⟩ := hr
      refine (wp_destroy_asks (Q := Q (.failure error)) (h := some fd) (by simp [hs₃])
        (fun h => absurd h (Option.some_ne_none _)) ?_).imp ?_
      · intro fd' hfd'
        cases hfd'
        rwa [hs₃]
      · intro _ s₄ w₄ hs₄
        obtain ⟨hs₄, hQ⟩ := hs₄
        rw [wp_destroy_invalid (by simp [hs₄, hs₃, hne.symm])]
        refine ⟨?_, herror, hQ⟩
        rw [Process.drop, hs₄, hs₃, Process.put, Process.put, hs₁]
        exact Process.written_congr [(_, _), (_, _), (_, _), (_, _), (_, _)] []
          (by simp [Process.written, hcreated, hhandle, hne])

/-- `CreateTcpSocket`. The descriptor is given to `result`. -/
theorem wp_createTcpSocket_asks {version : IPVersion} {Q : SocketResult Nat → ω → Prop}
    (hversion : version = .IPv4 ∨ version = .IPv6) (hidle : s.Idle)
    (h : Creates env p s.handles Q w) :
    wp env (createTcpSocket p (.created .operation) version) (fun r s' w' =>
      match r with
      | .failure error => s'.handles = s.handles ∧ error.hasError = true ∧ Q (.failure error) w'
      | .success _ => ∃ fd, s'.handles =
          Function.update s.handles (.created .operation) (some (some fd)) ∧ Q (.success fd) w')
      E s w := by
  rw [createTcpSocket, Calls.wp_bind]
  refine wp_createSocket hversion (hidle _ (by simp)) (hidle _ (by simp)) (by simp) (by simp)
    fun family => (h family).imp ?_
  intro a w₁ ha
  cases a with
  | error e => exact ⟨rfl, decide_eq_true e.2, ha⟩
  | ok fd =>
      refine (wp_takeover_asks (Q := GivenOf Q fd)
        (Function.update s.handles (.created .operation) (some (some fd))) (by simp)
        (hidle _ (by simp)) (hidle _ (by simp))
        ⟨by simp [hidle (.handle _)], by simp [hidle (.created _)]⟩ rfl ?_).imp ?_
      · intro s₂ hs₂
        have hfd : s₂.handles (.handle .createTcpSocket) = some (some fd) := by
          simp [hs₂, taking, Process.written]
        rw [Calls.wp_bind, wp_getHandle hfd, Calls.wp_bind]
        dsimp only at ha
        rw [← hs₂] at ha
        refine (wp_configure_asks ha).imp ?_
        intro r s₃ w₃ hr
        cases r with
        | failure error =>
            obtain ⟨hs₃, herror, hclose⟩ := hr
            exact (wp_failure herror).mpr ⟨hs₃, herror, hclose⟩
        | success v =>
            obtain ⟨hs₃, hQ⟩ := hr
            have hfd₃ : s₃.handles (.handle .createTcpSocket) = some (some fd) := by rw [hs₃, hfd]
            have hvalue : s₃.handles .value = none := by
              simp [hs₃, hs₂, taking, Process.written, hidle .value]
            rw [Calls.wp_bind, wp_success hvalue (by simp) (by simp) hfd₃]
            refine ⟨?_, hQ⟩
            rw [Process.put, Process.put, hs₃, hs₂]
            exact Process.written_congr [(_, _), (_, _), (_, _), (_, _)] [(_, _), (_, _), (_, _)]
              (by simp [Process.written])
      · intro r s' w' hr
        cases r with
        | success v => exact ⟨fd, hr⟩
        | failure error => exact hr

/-- `Connect` and both `Bind`s: an object in use is refused; a free one gets the descriptor
that was made and attached. -/
theorem wp_openWith_created {refusal : SocketError}
    {create : HandleId → IPVersion → N (SocketResult Unit)}
    {attach : NativeHandle → Bytes → Nat → Call} {name : Nat} {endpoint : SocketEndpoint}
    {Q : SocketResult Unit → NativeHandle → ω → Prop} (hrefusal : refusal.hasError = true)
    (hidle : s.Idle) (hx : s.handles (.user name) = some h)
    (hbusy : h.isSome → Q (.failure refusal) h w)
    (hcreate : h = none → wp env (create (.created .operation) endpoint.address.version)
      (fun r s' w' =>
        match r with
        | .failure error => s'.handles = s.handles ∧ error.hasError = true ∧
            Given Q (.failure error) w'
        | .success _ => ∃ fd, s'.handles =
              Function.update s.handles (.created .operation) (some (some fd)) ∧
            Attaches env s.handles (fun fd => attach (some fd) (endpoint.toNative p.layout).1
              (endpoint.toNative p.layout).2) (Given Q) (.success fd) w') E s w) :
    wp env (openWith p refusal create attach (.user name) endpoint)
      (fun r s' w' => ∃ h', s'.handles = Function.update s.handles (.user name) (some h') ∧
        Q r h' w') E s w := by
  have hsame : s.handles = Function.update s.handles (.user name) (some h) :=
    (Function.update_eq_self_iff.mpr hx.symm).symm
  rw [openWith, Calls.wp_bind, wp_isValid hx]
  cases h with
  | some d =>
      rw [Option.isSome_some, if_pos rfl, wp_failure hrefusal]
      exact ⟨some d, hsame, hbusy rfl⟩
  | none =>
      rw [Option.isSome_none, if_neg (by decide), Calls.wp_bind]
      refine (hcreate rfl).imp ?_
      intro r s₁ w₁ hr
      cases r with
      | failure error =>
          obtain ⟨hs₁, herror, hQ⟩ := hr
          exact (wp_failure herror).mpr ⟨none, hs₁.trans hsame, hQ⟩
      | success v =>
          obtain ⟨fd, hs₁, hattach⟩ := hr
          -- `created` gives the descriptor to `handle`, and the call is made by `handle`
          refine (wp_takeover_asks (Q := GivenOf (Given Q) fd)
            (Function.update s.handles (.user name) (some (some fd))) (by simp)
            (hidle _ (by simp)) (hidle _ (by simp))
            ⟨by simp [hidle (.handle _)], by simp [hidle (.created _)]⟩ hs₁ ?_).imp ?_
          · intro s₂ hs₂
            have hfd : s₂.handles (.handle .operation) = some (some fd) := by
              simp [hs₂, taking, Process.written]
            rw [Calls.wp_bind, wp_getHandle hfd, Calls.wp_bind]
            rw [Attaches, ← hs₂] at hattach
            refine wp_once (hattach.imp ?_)
            intro a w₃ ha s₃ hs₃ herrno
            cases a with
            | error e =>
                simp only [Calls.wp_bind, wp_last, herrno e rfl, wp_failure_ofCode]
                exact ⟨hs₃, decide_eq_true e.2, ha⟩
            | ok v =>
                -- the object had no descriptor, so the move assignment closes nothing
                have hfd₃ : s₃.handles (.handle .operation) = some (some fd) := by rw [hs₃, hfd]
                have hfree : s₃.handles (.user name) = some none := by
                  simp [hs₃, hs₂, taking, Process.written, hx]
                dsimp only
                rw [Calls.wp_bind, wp_moveAssign_invalid (by simp) hfree hfd₃]
                refine ⟨?_, ha⟩
                rw [Process.put, Process.put, hs₃, hs₂]
                exact Process.written_congr [(_, _), (_, _), (_, _), (_, _)]
                  [(_, _), (_, _), (_, _)] (by simp [Process.written])
          · intro r s' w' hr
            cases r with
            | success v => exact ⟨some fd, hr⟩
            | failure error => exact ⟨none, hr.1.trans hsame, hr.2.2⟩

/-- `Connect` and `TcpListener::Bind`. What follows may depend on the handle that the object
then has. -/
theorem wp_openWith_asks {refusal : SocketError} {attach : NativeHandle → Bytes → Nat → Call}
    {name : Nat} {endpoint : SocketEndpoint} {Q : SocketResult Unit → NativeHandle → ω → Prop}
    (hrefusal : refusal.hasError = true) (hidle : s.Idle)
    (hx : s.handles (.user name) = some h) (hbusy : h.isSome → Q (.failure refusal) h w)
    (hopen : h = none → Opens env p s.handles (fun fd => attach (some fd)
      (endpoint.toNative p.layout).1 (endpoint.toNative p.layout).2) (Given Q) w) :
    wp env (openWith p refusal (createTcpSocket p) attach (.user name) endpoint)
      (fun r s' w' => ∃ h', s'.handles = Function.update s.handles (.user name) (some h') ∧
        Q r h' w') E s w :=
  wp_openWith_created hrefusal hidle hx hbusy fun hnone =>
    wp_createTcpSocket_asks endpoint.address.known hidle (hopen hnone)

/-- `UdpSocket::Bind`: like the others, but that a new descriptor is not configured. -/
theorem wp_bindUdp_asks {name : Nat} {endpoint : SocketEndpoint}
    {Q : SocketResult Unit → NativeHandle → ω → Prop} (hidle : s.Idle)
    (hx : s.handles (.user name) = some h)
    (hbusy : h.isSome → Q (.failure (invalidArgument p)) h w)
    (hopen : h = none → ∀ family, Asks env s.handles (socketRequest p family) (fun a w₁ =>
      match a with
      | .error e => Q (.failure (.ofCode e)) none w₁
      | .ok fd => Attaches env s.handles (fun fd => .bind (some fd)
          (endpoint.toNative p.layout).1 (endpoint.toNative p.layout).2) (Given Q) (.success fd)
          w₁) w) :
    wp env (UdpSocket.bind p (.user name) endpoint)
      (fun r s' w' => ∃ h', s'.handles = Function.update s.handles (.user name) (some h') ∧
        Q r h' w') E s w := by
  refine wp_openWith_created (SocketError.hasError_ofErrc ..) hidle hx hbusy fun hnone => ?_
  refine wp_createSocket endpoint.address.known (hidle _ (by simp)) (hidle _ (by simp)) (by simp)
    (by simp) fun family => (hopen hnone family).imp ?_
  intro a w₁ ha
  cases a with
  | ok fd => exact ⟨fd, rfl, ha⟩
  | error e => exact ⟨rfl, decide_eq_true e.2, ha⟩

/-- A round of `Accept`. The loop is `Repeats`; the answer that ends it is dealt with by
`Admits`. -/
theorem wp_acceptRound_asks {result : Nat} {inv : ω → Prop} {Q : SocketResult Nat → ω → Prop}
    (hidle : s.Idle) (hx : s.handles x = some (some fd))
    (h : Asks env s.handles ⟨x, .accept (some fd)⟩ (Answered p inv (Admits env p s.handles Q)) w) :
    wp env (TcpListener.acceptRound p (.user result) x) (fun r s' w' =>
      match r with
      | .inl _ => s'.handles = s.handles ∧ inv w'
      | .inr (.failure error) => s'.handles = s.handles ∧ Q (.failure error) w'
      | .inr (.success _) => ∃ fd', s'.handles =
          Function.update s.handles (.user result) (some (some fd')) ∧ Q (.success fd') w')
      E s w := by
  have hhandle := hidle (.handle .operation) (by simp)
  rw [TcpListener.acceptRound, Calls.wp_bind, wp_getHandle hx, Calls.wp_bind, wp_sys]
  refine ⟨h.1 s rfl, ?_⟩
  intro a w₁ ha
  have hanswer := h.2 a w₁ ha
  rw [Calls.wp_bind, wp_construct, wp_leaving]
  cases a with
  | error e =>
      -- the local never holds a descriptor
      have hgone : (Process.put { s with errno := e } (.handle .operation) none).drop
          (.handle .operation) = { s with errno := e } := Process.drop_put hhandle
      cases hint : SocketError.isInterrupted p (.ofCode e) with
      | true =>
          simpa [Except.toOption, wp_destroy_invalid, hgone, hint] using hanswer.1 hint
      | false =>
          have hlast : Q (.failure (.ofCode e)) w₁ := hanswer.2 hint
          simpa [Except.toOption, wp_destroy_invalid, hgone, hint] using hlast
  | ok fd' =>
      change Prepares env p (s.put (.handle .operation) (some fd')).handles (.handle .operation) Q
        fd' w₁ at hanswer
      have hown : (s.put (.handle .operation) (some fd')).handles (.handle .operation) =
          some (some fd') := by simp
      show wp env _ _ E (s.put (.handle .operation) (some fd')) w₁
      rw [Calls.wp_bind, wp_isValid hown, Option.isSome_some, if_pos rfl, Calls.wp_bind,
        wp_getHandle hown, Calls.wp_bind]
      refine (wp_configure_asks hanswer).imp ?_
      intro r s₂ w₂ hr
      cases r with
      | failure error =>
          -- the accepted descriptor is closed with its local
          obtain ⟨hs₂, herror, hclose⟩ := hr
          dsimp only
          rw [Calls.wp_bind, wp_failure herror, Calls.wp_pure]
          refine (wp_destroy_asks (Q := Q (.failure error)) (hs₂ ▸ hown)
            (fun h => absurd h (Option.some_ne_none _)) ?_).imp ?_
          · intro d hd
            cases hd
            rwa [hs₂]
          · intro _ s₃ w₃ hs₃
            refine ⟨?_, hs₃.2⟩
            rw [hs₃.1, hs₂, Process.put]
            exact Process.written_congr [(_, _), (_, _)] [] (by simp [Process.written, hhandle])
      | success v =>
          obtain ⟨hs₂, hQ⟩ := hr
          have hown₂ : s₂.handles (.handle .operation) = some (some fd') := by rw [hs₂, hown]
          have hvalue : s₂.handles .value = none := by simp [hs₂, hidle .value]
          have hparam : s₂.handles (.handle .tcpSocket) = none := by simp [hs₂, hidle (.handle _)]
          dsimp only
          rw [Calls.wp_bind, wp_tcpSuccess hparam hvalue (by simp) (by simp) (by simp) hown₂,
            Calls.wp_pure, wp_destroy_invalid (by simp)]
          refine ⟨fd', ?_, hQ⟩
          rw [Process.drop, Process.put, Process.put, hs₂, Process.put]
          exact Process.written_congr [(_, _), (_, _), (_, _), (_, _)] [(_, _)]
            (by simp [Process.written, hhandle])

/-- `Accept`: the rounds are those of `Repeats`, and the result lives before the first of
them. -/
theorem wp_accept_asks {result rounds : Nat} {E : Exit → ω → Prop}
    {Q : SocketResult Nat → ω → Prop} (hidle : s.Idle) (hx : s.handles x = some h)
    (hinvalid : h = none → Q (.failure (invalidSocket p)) w)
    (hcall : ∀ fd, h = some fd → Repeats env p rounds s.handles ⟨x, .accept (some fd)⟩ E
      (Admits env p s.handles Q) w) :
    wp env (TcpListener.accept p rounds (.user result) x) (fun r s' w' =>
      match r with
      | .failure error => s'.handles = s.handles ∧ Q (.failure error) w'
      | .success _ => ∃ fd, s'.handles =
          Function.update s.handles (.user result) (some (some fd)) ∧ Q (.success fd) w')
      (fun e _ w' => E e w') s w := by
  rw [TcpListener.accept, Calls.wp_bind, wp_isValid hx]
  cases h with
  | none =>
      rw [Option.isSome_none, if_neg (by decide), invalidSocket, wp_failure_ofErrc]
      exact ⟨rfl, hinvalid rfl⟩
  | some fd =>
      obtain ⟨inv, hinv, hout, hround⟩ := hcall fd rfl
      rw [Option.isSome_some, if_pos rfl]
      refine wp_retry (fun k s' w' => s'.handles = s.handles ∧ inv k w') ?_
        (fun s' w' hs' => hout w' hs'.2) ⟨rfl, hinv⟩
      intro k s' w' hs'
      obtain ⟨hhandles, hw'⟩ := hs'
      have hidle' : s'.Idle := fun z hz => by rw [hhandles, hidle z hz]
      have hask := hround k w' hw'
      rw [← hhandles] at hask
      refine (wp_acceptRound_asks hidle' (by rw [hhandles, hx]) hask).imp ?_
      intro r s'' w'' hr
      rw [hhandles] at hr
      rcases r with _ | r
      · exact hr
      · cases r <;> exact hr

/-! ### One call

The members that make at most one call on the descriptor of their object, and keep it. -/

/-- `Listen`: two guards, and one call that says no more than that it failed. -/
theorem wp_listen_asks {backlog : Int} {Q : SocketResult Unit → ω → Prop}
    (hx : s.handles x = some h) (hinvalid : h = none → Q (.failure (invalidSocket p)) w)
    (hneg : h.isSome → backlog ≤ 0 → Q (.failure (invalidArgument p)) w)
    (hcall : ∀ fd, h = some fd → 0 < backlog →
      Asks env s.handles ⟨x, .listen (some fd) backlog⟩ (Once Q) w) :
    wp env (TcpListener.listen p x backlog) (fun r s' w' => s'.handles = s.handles ∧ Q r w')
      E s w := by
  rw [TcpListener.listen, Calls.wp_bind, wp_isValid hx]
  cases h with
  | none =>
      rw [Option.isSome_none, if_neg (by decide), invalidSocket, wp_failure_ofErrc]
      exact ⟨rfl, hinvalid rfl⟩
  | some fd =>
      rw [Option.isSome_some, if_pos rfl]
      split
      case isTrue hle =>
        rw [invalidArgument, wp_failure_ofErrc]
        exact ⟨rfl, hneg rfl hle⟩
      case isFalse hpos =>
        rw [Calls.wp_bind, wp_getHandle hx, Calls.wp_bind]
        refine wp_once ((hcall fd rfl (Int.not_le.mp hpos)).imp ?_)
        intro a w' ha s' hs' herrno
        cases a with
        | error e =>
            simp only [Calls.wp_bind, wp_last, herrno e rfl, wp_failure_ofCode]
            exact ⟨hs', ha⟩
        | ok _ => exact ⟨hs', ha⟩

/-- `Shutdown`: the direction is translated first, and an unknown one is refused. -/
theorem wp_shutdown_asks {direction : SocketShutdown} {Q : SocketResult Unit → ω → Prop}
    (hx : s.handles x = some h) (hinvalid : h = none → Q (.failure (invalidSocket p)) w)
    (hother : h.isSome → TcpSocket.shutdownHow p direction = none →
      Q (.failure (invalidArgument p)) w)
    (hcall : ∀ fd how, h = some fd → TcpSocket.shutdownHow p direction = some how →
      Asks env s.handles ⟨x, .shutdown (some fd) how⟩ (Once Q) w) :
    wp env (TcpSocket.shutdown p x direction) (fun r s' w' => s'.handles = s.handles ∧ Q r w')
      E s w := by
  rw [TcpSocket.shutdown, Calls.wp_bind, wp_isValid hx]
  cases h with
  | none =>
      rw [Option.isSome_none, if_neg (by decide), invalidSocket, wp_failure_ofErrc]
      exact ⟨rfl, hinvalid rfl⟩
  | some fd =>
      rw [Option.isSome_some, if_pos rfl]
      cases hhow : TcpSocket.shutdownHow p direction with
      | none =>
          dsimp only
          rw [invalidArgument, wp_failure_ofErrc]
          exact ⟨rfl, hother rfl hhow⟩
      | some how =>
          dsimp only
          rw [Calls.wp_bind, wp_getHandle hx, Calls.wp_bind]
          refine wp_once ((hcall fd how rfl hhow).imp ?_)
          intro a w' ha s' hs' herrno
          cases a with
          | error e =>
              simp only [Calls.wp_bind, wp_last, herrno e rfl, wp_failure_ofCode]
              exact ⟨hs', ha⟩
          | ok _ => exact ⟨hs', ha⟩

/-- `GetLocalEndpoint` and `GetPeerEndpoint`. What is read is what the call has written, and
it may be no endpoint. -/
theorem wp_queryEndpoint_asks {peer : Bool} {Q : SocketResult SocketEndpoint → ω → Prop}
    (hinvalid : h = none → Q (.failure (invalidSocket p)) w)
    (hcall : ∀ fd, h = some fd →
      Queries env s.handles x fd p.layout.sizeofStorage peer (Located p Q) w) :
    wp env (queryEndpoint p x h peer) (fun r s' w' => s'.handles = s.handles ∧ Q r w') E s w := by
  rw [queryEndpoint]
  split
  case isTrue hnone =>
    rw [invalidSocket, wp_failure_ofErrc]
    exact ⟨rfl, hinvalid hnone⟩
  case isFalse hsome =>
    obtain ⟨fd, rfl⟩ := Option.ne_none_iff_exists'.mp hsome
    have hname := hcall fd rfl
    have hquery : wp env (queryName x (some fd) peer p.layout.sizeofStorage)
        (fun a s' w' => s'.handles = s.handles ∧ (∀ e, a = .error e → s'.errno = e) ∧
          Located p Q a w') E s w := by
      rw [queryName]
      rw [Queries] at hname
      split at hname
      case isTrue hpeer =>
        rw [if_pos hpeer]
        exact wp_once (hname.imp fun a w' ha s' hs' herrno => ⟨hs', herrno, ha⟩)
      case isFalse hlocal =>
        rw [if_neg hlocal]
        exact wp_once (hname.imp fun a w' ha s' hs' herrno => ⟨hs', herrno, ha⟩)
    apply hquery.bind
    intro a s' w' ha
    obtain ⟨hs', herrno, ha⟩ := ha
    cases a with
    | error e =>
        simp only [Calls.wp_bind, wp_last, herrno e rfl, wp_failure_ofCode]
        exact ⟨hs', ha⟩
    | ok name =>
        obtain ⟨r, hr⟩ := fromNative_ok name
        have hQ := ha r hr
        rw [Calls.wp_bind, wp_checked hr]
        cases r with
        | none =>
            rw [invalidArgument, wp_failure_ofErrc]
            exact ⟨hs', hQ⟩
        | some endpoint => exact ⟨hs', hQ⟩

end Opening

end Net

end CoreSystems
