import CoreSystems.Net.CallRules
import CoreSystems.Net.NativeRoundTrip

/-!
# CoreSystems.Net.UdpRules

`UdpSocket::SendTo` and `ReceiveFrom` in every environment.

A rule leaves of its function only the system calls: that the environment accepts them,
and what follows from their answers. How handles move between objects and locals, when the
loop goes on and which error is returned is settled here, once. What the functions do to
descriptors, to a network or to a queue of datagrams is proved from these rules.

`Transmits` and `Receives` are the two calls with everything around them left out. A caller
states what follows from an answer; the rules say that the function makes of it what the
sources say, so that no later module looks at the branches of `SendTo` or `ReceiveFrom` again.
-/

namespace CoreSystems

open Buffer (Bytes)
open Calls (Env wp)

namespace Net

open SocketHandle

/-- How a datagram that was longer than the buffer is reported: by name on POSIX, by the
number of the failed call on Winsock. -/
def truncationError (p : Platform) : SocketError :=
  if p.windows then .ofCode p.WSAEMSGSIZE else UdpSocket.messageSizeError p

/-- Truncation is `message_size` and nothing else, on either platform. -/
theorem isMatch_truncationError {p : Platform} {c : Errc} :
    (truncationError p).isMatch p c = true ↔ c = .messageSize := by
  rw [truncationError]
  split
  case isTrue hwindows => exact SocketError.isMatch_wsaeMsgSize hwindows c
  case isFalse hposix =>
    rw [UdpSocket.messageSizeError, SocketError.isMatch_ofErrc]
    constructor
    · intro heq
      exact p.messageSize_unique c heq.symm
    · intro heq
      rw [heq]

/-- The call that sends `buffer` to `destination`. -/
abbrev sendRequest (p : Platform) (sender : HandleId) (fd : Nat) (buffer : Bytes)
    (destination : SocketEndpoint) : Request :=
  ⟨sender, .sendto (some fd) buffer 0 (destination.toNative p.layout).1
    (destination.toNative p.layout).2⟩

/-- The call that makes a socket for `SendTo`. -/
abbrev socketRequest (p : Platform) (family : Nat) : Request :=
  ⟨.handle .createSocket, .socket family p.SOCK_DGRAM p.IPPROTO_UDP⟩

section Rules

variable {ω : Type} {env : Env os Process ω} {p : Platform} {s : Process} {w : ω}
variable {E : Exit → Process → ω → Prop} {x y : HandleId} {h : NativeHandle} {buffer : Bytes}
variable {destination : SocketEndpoint} {name fd rounds size nameSize : Nat}

/-! ### `SendTo`

The call is made by `sender`: the object itself, or `pending` if the object has no socket yet.
What differs is who owns the descriptor afterwards. -/

/-- The loop of `SendTo`, run where objects hold `handles`: every `sendto` is accepted; an
interrupted one takes an invariant one round further, any other gives the result. -/
def Transmits (env : Env os Process ω) (p : Platform) (rounds : Nat) (sender : HandleId)
    (fd : Nat) (buffer : Bytes) (destination : SocketEndpoint) (E : Exit → Process → ω → Prop)
    (handles : HandleId → Option NativeHandle) (Q : SocketResult Nat → Process → ω → Prop)
    (w : ω) : Prop :=
  ∃ inv : Nat → ω → Prop, inv 0 w ∧ (∀ s w', inv rounds w' → E .gaveUp s w') ∧
    ∀ k s w', s.handles = handles → inv k w' →
      env.accepts (sendRequest p sender fd buffer destination) s w' ∧
      ∀ a w'', env.answers w' (sendRequest p sender fd buffer destination) a w'' →
        match a with
        | .error e =>
          (SocketError.isInterrupted p (.ofCode e) = true → inv (k + 1) w'') ∧
          (SocketError.isInterrupted p (.ofCode e) = false → ∀ s', s'.handles = handles →
            Q (.failure (.ofCode e)) s' w'')
        | .ok count => ∀ s', s'.handles = handles →
          Q (if count = buffer.length then .success count
            else .failure (UdpSocket.messageSizeError p)) s' w''

theorem Transmits.imp {handles : HandleId → Option NativeHandle}
    {Q Q' : SocketResult Nat → Process → ω → Prop}
    (h : Transmits env p rounds y fd buffer destination E handles Q w)
    (hQ : ∀ r s w', s.handles = handles → Q r s w' → Q' r s w') :
    Transmits env p rounds y fd buffer destination E handles Q' w := by
  obtain ⟨inv, hinv, hout, hcall⟩ := h
  refine ⟨inv, hinv, hout, ?_⟩
  intro k s w' hs hk
  obtain ⟨haccepts, hanswers⟩ := hcall k s w' hs hk
  refine ⟨haccepts, ?_⟩
  intro a w'' ha
  have hanswer := hanswers a w'' ha
  cases a with
  | error e => exact ⟨hanswer.1, fun hlast s' hs' => hQ _ _ _ hs' (hanswer.2 hlast s' hs')⟩
  | ok count => exact fun s' hs' => hQ _ _ _ hs' (hanswer s' hs')

/-- The end of `SendTo`. If `pending` did the sending, the object gets its descriptor. -/
theorem wp_transmit {Q : SocketResult Nat → Process → ω → Prop} (pending : NativeHandle)
    (hfits : buffer.length ≤ intMax) (hy : s.handles y = some (some fd))
    (hpending : s.handles .pending = some pending)
    (hx : pending.isSome → s.handles (.user name) = some none)
    (h : Transmits env p rounds y fd buffer destination E s.handles (fun r s' w' =>
      match r with
      | .failure _ => Q r s' w'
      | .success _ => Q r
          (if pending.isSome then (s'.put .pending none).put (.user name) pending else s') w') w) :
    wp env (UdpSocket.transmit p rounds (.user name) y buffer destination) Q E s w := by
  obtain ⟨inv, hinv, hout, hcall⟩ := h
  rw [UdpSocket.transmit, Calls.wp_bind, wp_getHandle hy]
  dsimp only
  rw [toNat_castInt hfits, List.take_length, Calls.wp_bind]
  apply wp_untilAnswered (fun k s' w' => s'.handles = s.handles ∧ inv k w')
  · intro k s' w' hround
    obtain ⟨hhandles, hk⟩ := hround
    obtain ⟨haccepts, hanswers⟩ := hcall k s' w' hhandles hk
    rw [wp_sys]
    refine ⟨haccepts, ?_⟩
    intro a w'' ha
    have hanswer := hanswers a w'' ha
    cases a with
    | error e =>
        refine ⟨rfl, fun hagain => ⟨hhandles, hanswer.1 hagain⟩, fun hlast => ?_⟩
        rw [wp_failure_ofCode]
        exact hanswer.2 hlast _ hhandles
    | ok count =>
        have hresult := hanswer s' hhandles
        have hpending' : s'.handles .pending = some pending := by rw [hhandles, hpending]
        dsimp only
        rw [Process.noted_ok]
        by_cases hcount : count = buffer.length
        · rw [if_pos hcount] at hresult
          rw [if_neg (not_not_intro hcount), Calls.wp_bind, wp_isValid hpending']
          cases pending with
          | none => exact hresult
          | some d =>
              -- only now does the object take over what `pending` holds
              have hx' : s'.handles (.user name) = some none := by rw [hhandles, hx rfl]
              rw [Option.isSome_some, if_pos rfl, Calls.wp_bind,
                wp_moveAssign_invalid (by simp) hx' hpending']
              exact hresult
        · rw [if_neg hcount] at hresult
          rw [if_pos hcount, UdpSocket.messageSizeError, wp_failure_ofErrc]
          exact hresult
  · intro s' w' hround
    exact hout s' w' hround.2
  · exact ⟨rfl, hinv⟩

/-- `SendTo`. An object with a descriptor sends with it. An object without one makes a
socket, sends with that, and keeps it if all was sent, else the socket is closed. -/
theorem wp_sendTo {Q : SocketResult Nat → Process → ω → Prop} (hidle : s.Idle)
    (hx : s.handles (.user name) = some h)
    (hlong : intMax < buffer.length → Q (.failure (UdpSocket.messageSizeError p)) s w)
    (howned : ∀ fd, h = some fd → Transmits env p rounds (.user name) fd buffer destination E
      (s.put .pending none).handles (fun r _ w' => ∀ s', s'.handles = s.handles → Q r s' w') w)
    (hcreate : h = none → ∀ family,
      Asks env (s.put .pending none).handles (socketRequest p family) (fun a w' =>
        match a with
        | .error e => ∀ s₁ : Process, s₁.handles = s.handles → Q (.failure (.ofCode e)) s₁ w'
        | .ok fd => Transmits env p rounds .pending fd buffer destination E
            (s.put .pending (some fd)).handles (fun r s₁ w₁ =>
              match r with
              | .success _ => ∀ s₂ : Process, s₂.handles =
                  Function.update s.handles (.user name) (some (some fd)) → Q r s₂ w₁
              | .failure _ => Asks env s₁.handles ⟨.pending, .close (some fd)⟩ (fun _ w₂ =>
                  ∀ s₂ : Process, s₂.handles = s.handles → Q r s₂ w₂) w₁) w') w) :
    wp env (UdpSocket.sendTo p rounds (.user name) buffer destination) Q E s w := by
  have hdead := hidle .pending (by simp)
  have hx₀ : (s.put .pending none).handles (.user name) = some h := by simp [hx]
  -- `pending` is gone in the end, and was not there before
  have hgone : ∀ s₁ : Process, (∀ z, z ≠ .pending → s₁.handles z = s.handles z) →
      (s₁.drop .pending).handles = s.handles := by
    intro s₁ hs₁
    funext z
    by_cases hz : z = .pending
    · simp [hz, hdead]
    · simp [hz, hs₁]
  rw [UdpSocket.sendTo]
  split
  case isTrue hsize =>
    rw [UdpSocket.messageSizeError, wp_failure_ofErrc]
    exact hlong hsize
  case isFalse hsize =>
    have hfits : buffer.length ≤ intMax := Nat.not_lt.mp hsize
    rw [Calls.wp_bind, wp_construct, wp_leaving, Calls.wp_bind, wp_isValid hx₀]
    cases h with
    | some fd =>
        rw [Option.isSome_some, if_pos rfl]
        apply wp_transmit none hfits hx₀ (by simp) (by simp)
        apply (howned fd rfl).imp
        intro r s₁ w₁ hs₁ hr
        have hend : wp env (destroy .pending) (fun _ s₂ w₂ => Q r s₂ w₂) E s₁ w₁ := by
          rw [wp_destroy_invalid (by rw [hs₁]; simp)]
          exact hr _ (hgone s₁ fun z hz => by rw [hs₁]; simp [hz])
        cases r <;> exact hend
    | none =>
        simp only [Option.isSome_none, Bool.false_eq_true, if_false, Calls.wp_bind]
        refine wp_createSocket destination.address.known (by simp [hidle (.handle _)])
          (by simp [hidle .value]) (by simp) (by simp) fun family => (hcreate rfl family).imp ?_
        intro a w' ha
        cases a with
        | ok fd =>
            have hcreated := hidle (.created .operation) (by simp)
            have hstate : ((((s.put .pending none).put (.created .operation) (some fd)).put
                (.created .operation) none).put .pending (some fd)).drop (.created .operation) =
                s.put .pending (some fd) := by
              refine Process.eq_of_handles (fun z => ?_) rfl
              by_cases hz : z = .created .operation
              · simp [hz, hcreated]
              · by_cases hz' : z = .pending <;> simp [hz, hz']
            simp only [Calls.wp_bind, wp_leaving]
            rw [wp_moveAssign_invalid (h := some fd) (by simp) (by simp) (by simp),
              wp_destroy_invalid (by simp), hstate]
            have hown : (s.put .pending (some fd)).handles .pending = some (some fd) := by simp
            apply wp_transmit (some fd) hfits hown hown (by simp [hx])
            apply ha.imp
            intro r s₁ w₁ hs₁ hr
            cases r with
            | success n =>
                apply (wp_destroy_invalid (by simp)).mpr
                apply hr
                funext z
                by_cases hz : z = .pending
                · simp [hz, hdead]
                · simp [hz, hs₁, Function.update_apply]
            | failure error =>
                -- the destructor of `pending` closes the socket again
                have hown₁ : s₁.handles .pending = some (some fd) := by rw [hs₁, hown]
                apply (wp_destroy_valid hown₁).mpr
                refine ⟨hr.1 s₁ rfl, ?_⟩
                intro a w₂ ha
                apply hr.2 a w₂ ha
                apply hgone
                intro z hz
                simp [hz, hs₁]
        | error e =>
            simp only [wp_failure_ofCode]
            rw [wp_destroy_invalid (by simp)]
            exact ha _ (hgone _ fun z hz => by simp [hz])

/-! ### `ReceiveFrom`

Both receiving calls are brought to one form: a datagram that fits, one that was cut, or an
error that is no datagram. -/

/-- Reading an address that the operating system wrote stays inside the storage. -/
theorem fromNative_ok {l : Layout} (name : NativeName l.sizeofStorage) : ∃ r,
    SocketEndpoint.fromNative l (some (Buffer.patch (List.replicate l.sizeofStorage 0) 0
      name.bytes)) name.bytes.length = .ok r := by
  refine ⟨_, SocketEndpoint.fromNative_eq ?_⟩
  have hlen := name.length_le
  rw [Buffer.length_patch (by simpa using hlen)]
  simpa using hlen

/-- The receiving call of the platform is accepted, and `got` follows from its answer. -/
def Receives (env : Env os Process ω) (p : Platform) (x : HandleId) (handle : NativeHandle)
    (size nameSize : Nat) (got : Except Errno (Received size nameSize) → ω → Prop)
    (s : Process) (w : ω) : Prop :=
  if p.windows then
    env.accepts ⟨x, .recvfrom handle size 0 nameSize⟩ s w ∧
      ∀ a w', env.answers w ⟨x, .recvfrom handle size 0 nameSize⟩ a w' → got a w'
  else
    env.accepts ⟨x, .recvmsg handle size nameSize 0⟩ s w ∧
      ∀ a w', env.answers w ⟨x, .recvmsg handle size nameSize 0⟩ a w' → got a w'

theorem Receives.imp {handle : NativeHandle}
    {got got' : Except Errno (Received size nameSize) → ω → Prop}
    (h : Receives env p x handle size nameSize got s w) (hgot : ∀ a w', got a w' → got' a w') :
    Receives env p x handle size nameSize got' s w := by
  rw [Receives] at h ⊢
  split at h
  case isTrue hwindows =>
    rw [if_pos hwindows]
    exact ⟨h.1, fun a w' ha => hgot a w' (h.2 a w' ha)⟩
  case isFalse hposix =>
    rw [if_neg hposix]
    exact ⟨h.1, fun a w' ha => hgot a w' (h.2 a w' ha)⟩

/-- What a datagram gives whose native address has been read. -/
def receivedResult {size nameSize : Nat} (p : Platform) (r : Received size nameSize)
    (sender : Option SocketEndpoint) : SocketResult UdpReceiveResult :=
  if r.truncated then .failure (truncationError p)
  else
    match sender with
    | none => .failure (invalidArgument p)
    | some sender => .success ⟨r.bytes.length, sender⟩

theorem receivedResult_cut {r : Received size nameSize} {sender : Option SocketEndpoint}
    (hcut : r.truncated = true) : receivedResult p r sender = .failure (truncationError p) :=
  if_pos hcut

theorem receivedResult_whole {r : Received size nameSize} {sender : Option SocketEndpoint}
    (hwhole : ¬ r.truncated = true) : receivedResult p r sender =
      match sender with
      | none => .failure (invalidArgument p)
      | some sender => .success ⟨r.bytes.length, sender⟩ :=
  if_neg hwhole

/-- The call of `ReceiveFrom`. Winsock fails where POSIX sets a flag. -/
theorem wp_receiveCall {Q : UdpSocket.ReceiveCall nameSize → Process → ω → Prop}
    (hfits : size ≤ intMax)
    (hcall : Receives env p x h size nameSize (fun a w' =>
      match a with
      | .error e => Q ⟨[], none⟩ { s with errno := e } w'
      | .ok r =>
        if r.truncated ∧ p.windows then Q ⟨r.bytes, none⟩ { s with errno := p.WSAEMSGSIZE } w'
        else Q ⟨r.bytes, some (r.name, r.truncated)⟩ s w') s w) :
    wp env (UdpSocket.receiveCall p x h size nameSize) Q E s w := by
  rw [UdpSocket.receiveCall]
  rw [Receives] at hcall
  split at hcall
  case isTrue hwindows =>
    rw [if_pos hwindows, toNat_castInt hfits, UdpSocket.recvfrom, Calls.wp_bind, wp_sys]
    refine ⟨hcall.1, ?_⟩
    intro a w' ha
    have hanswer := hcall.2 a w' ha
    cases a with
    | error e => exact hanswer
    | ok r =>
        dsimp only at hanswer ⊢
        split
        case isTrue hcut =>
          -- Winsock fills the buffer and fails all the same
          rw [if_pos ⟨hcut, hwindows⟩] at hanswer
          exact hanswer
        case isFalse hwhole =>
          rw [if_neg fun hboth => hwhole hboth.1, Bool.eq_false_iff.mpr hwhole] at hanswer
          exact hanswer
  case isFalse hposix =>
    rw [if_neg hposix, UdpSocket.recvmsg, Calls.wp_bind, wp_sys]
    refine ⟨hcall.1, ?_⟩
    intro a w' ha
    have hanswer := hcall.2 a w' ha
    cases a with
    | error e => exact hanswer
    | ok r =>
        dsimp only at hanswer
        rw [if_neg fun hboth => hposix hboth.2] at hanswer
        exact hanswer

/-- A round of `ReceiveFrom` goes on with the same buffer if it was interrupted. -/
theorem wp_receiveRound {Q : Bytes ⊕ SocketResult UdpReceiveResult × Bytes → Process → ω → Prop}
    (hx : s.handles x = some h) (hfits : buffer.length ≤ intMax)
    (hcall : Receives env p x h buffer.length p.layout.sizeofStorage (fun a w' =>
      match a with
      | .error e =>
        (SocketError.isInterrupted p (.ofCode e) = true → ∀ s', s'.handles = s.handles →
          Q (.inl buffer) s' w') ∧
        (SocketError.isInterrupted p (.ofCode e) = false → ∀ s', s'.handles = s.handles →
          Q (.inr (.failure (.ofCode e), buffer)) s' w')
      | .ok r => ∀ sender s', SocketEndpoint.fromNative p.layout
          (some (Buffer.patch (List.replicate p.layout.sizeofStorage 0) 0 r.name.bytes))
          r.name.bytes.length = .ok sender → s'.handles = s.handles →
        Q (.inr (receivedResult p r sender, Buffer.patch buffer 0 r.bytes)) s' w') s w) :
    wp env (UdpSocket.receiveRound p x buffer) Q E s w := by
  have hbuffer : Buffer.patch buffer 0 [] = buffer := Buffer.patch_zero
  rw [UdpSocket.receiveRound, Calls.wp_bind, wp_getHandle hx, Calls.wp_bind]
  apply wp_receiveCall hfits
  apply hcall.imp
  intro a w' ha
  cases a with
  | error e =>
      simp only [Calls.wp_bind, wp_last, hbuffer]
      split
      case isTrue hagain => exact ha.1 hagain _ rfl
      case isFalse hlast =>
        rw [Calls.wp_bind, wp_failure_ofCode]
        exact ha.2 (Bool.eq_false_iff.mpr hlast) _ rfl
  | ok r =>
      obtain ⟨sender, hsender⟩ := fromNative_ok r.name
      dsimp only
      split
      case isTrue hlost =>
        -- `WSAEMSGSIZE` is no interruption
        obtain ⟨hcut, hwindows⟩ := hlost
        have hresult : receivedResult p r sender = .failure (.ofCode p.WSAEMSGSIZE) := by
          rw [receivedResult_cut hcut, truncationError, if_pos hwindows]
        simp only [Calls.wp_bind, wp_last, SocketError.isInterrupted_wsaeMsgSize hwindows,
          Bool.false_eq_true, if_false]
        rw [wp_failure (decide_eq_true p.wsaeMsgSize_ne_zero), ← hresult]
        exact ha sender _ hsender rfl
      case isFalse hgot =>
        have hresult := ha sender s hsender rfl
        split
        case isTrue hcut =>
          have hposix : ¬ p.windows = true := fun hwindows => hgot ⟨hcut, hwindows⟩
          rw [receivedResult_cut hcut, truncationError, if_neg hposix] at hresult
          rw [Calls.wp_bind, UdpSocket.messageSizeError, wp_failure_ofErrc]
          exact hresult
        case isFalse hwhole =>
          rw [receivedResult_whole hwhole] at hresult
          rw [Calls.wp_bind, wp_checked hsender]
          cases sender with
          | none =>
              rw [Calls.wp_bind, invalidArgument, wp_failure_ofErrc]
              exact hresult
          | some source => exact hresult

/-- `ReceiveFrom`. The buffer is written to by the last call only, so an interruption leaves
it as the caller passed it. -/
theorem wp_receiveFrom {Q : SocketResult UdpReceiveResult × Bytes → Process → ω → Prop}
    (inv : Nat → ω → Prop) (hx : s.handles x = some h)
    (hinvalid : h = none → Q (.failure (invalidSocket p), buffer) s w)
    (hlong : h.isSome → intMax < buffer.length →
      Q (.failure (UdpSocket.messageSizeError p), buffer) s w)
    (hinv : h.isSome → buffer.length ≤ intMax → inv 0 w)
    (hout : ∀ s' w', inv rounds w' → E .gaveUp s' w')
    (hcall : ∀ fd, h = some fd → ∀ k < rounds, ∀ s' w', s'.handles = s.handles → inv k w' →
      Receives env p x (some fd) buffer.length p.layout.sizeofStorage (fun a w'' =>
        match a with
        | .error e =>
          (SocketError.isInterrupted p (.ofCode e) = true → inv (k + 1) w'') ∧
          (SocketError.isInterrupted p (.ofCode e) = false → ∀ s'', s''.handles = s.handles →
            Q (.failure (.ofCode e), buffer) s'' w'')
        | .ok r => ∀ sender s'', SocketEndpoint.fromNative p.layout
            (some (Buffer.patch (List.replicate p.layout.sizeofStorage 0) 0 r.name.bytes))
            r.name.bytes.length = .ok sender → s''.handles = s.handles →
          Q (receivedResult p r sender, Buffer.patch buffer 0 r.bytes) s'' w'') s' w') :
    wp env (UdpSocket.receiveFrom p rounds x buffer) Q E s w := by
  rw [UdpSocket.receiveFrom, Calls.wp_bind, wp_isValid hx]
  cases h with
  | none =>
      simp only [Option.isSome_none, Bool.false_eq_true, if_false, Calls.wp_bind, invalidSocket,
        wp_failure_ofErrc, Calls.wp_pure]
      exact hinvalid rfl
  | some fd =>
      rw [Option.isSome_some, if_pos rfl]
      split
      case isTrue hsize =>
        rw [Calls.wp_bind, UdpSocket.messageSizeError, wp_failure_ofErrc]
        exact hlong rfl hsize
      case isFalse hsize =>
        -- a round that is repeated has written nothing
        apply Calls.wp_loopN_counted (fun k b s' w' => b = buffer ∧ s'.handles = s.handles ∧
          inv k w') rounds 0
        · intro k hk b s' w' hround
          obtain ⟨rfl, hhandles, hk'⟩ := hround
          have hx' : s'.handles x = some (some fd) := by rw [hhandles, hx]
          apply wp_receiveRound hx' (Nat.not_lt.mp hsize)
          apply (hcall fd rfl k (by omega) s' w' hhandles hk').imp
          intro a w'' ha
          cases a with
          | error e =>
              exact ⟨fun hagain s'' hs'' => ⟨rfl, hs''.trans hhandles, ha.1 hagain⟩,
                fun hlast s'' hs'' => ha.2 hlast s'' (hs''.trans hhandles)⟩
          | ok r => exact fun sender s'' hsender hs'' => ha sender s'' hsender (hs''.trans hhandles)
        · intro b s' w' hround
          exact hout s' w' (by simpa using hround.2.2)
        · exact ⟨rfl, rfl, hinv rfl (Nat.not_lt.mp hsize)⟩

end Rules

end Net

end CoreSystems
