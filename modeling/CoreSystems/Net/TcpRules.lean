import CoreSystems.Net.CallRules
import CoreSystems.Net.Streams

/-!
# CoreSystems.Net.TcpRules

The transfers of `TcpSocket` in every environment.

A rule leaves of its function only the system calls, with the buffer that is left for each
of them. `Counted` and `Copied` say what a function makes of the answer to a call; `Taken`
and `Brought` say what is then known of the buffer. The loops over `Send` and `Receive` are
proved from the rules of these two, with an invariant about what is left: what they do to a
kernel, to a record of phases or to a log is what their calls do.

The environments these rules are applied to are the set of open descriptors
(`CoreSystems.Net.SocketSpecs`), the log of what was put on a connection and taken off it
(`CoreSystems.Net.StreamSpecs`), the kernel (`CoreSystems.Net.KernelSpecs`) and the record of
phases (`CoreSystems.Net.PhaseRuns`).
-/

namespace CoreSystems

open Buffer (Bytes)
open Calls (Env wp)

namespace Net

open SocketHandle

/-! ### One transfer

One call is given no more bytes than an `int` can count, so a buffer may be left over. -/

/-- The flags of `::send`. -/
def sendFlags (p : Platform) : Nat := if p.windows then 0 else p.MSG_NOSIGNAL.getD 0

/-- The call that sends the front of a buffer. -/
abbrev sendCall (p : Platform) (fd : Nat) (buffer : Bytes) : Call :=
  .send (some fd) (buffer.take intMax) (sendFlags p)

/-- The call that receives into a buffer with so much room. -/
abbrev recvCall (fd room : Nat) : Call := .recv (some fd) (min room intMax) 0

section Transfers

variable {ω : Type}

/-- What follows from the number of bytes a `send` has taken. -/
def Counted (Q : SocketResult Nat → ω → Prop) {n : Nat} : SocketResult (Fin n) → ω → Prop
  | .success count => Q (.success count.1)
  | .failure error => Q (.failure error)

/-- What follows from the bytes a `recv` has written to the front of a buffer. -/
def Copied (Q : SocketResult Nat × Bytes → ω → Prop) (buffer : Bytes) {n : Nat} :
    SocketResult { bytes : Bytes // bytes.length ≤ n } → ω → Prop
  | .success bytes => Q (.success bytes.1.length, bytes.1 ++ buffer.drop bytes.1.length)
  | .failure error => Q (.failure error, buffer)

variable {env : Env os Process ω} {p : Platform} {E : Exit → ω → Prop} {w : ω}
variable {s : Process} {x : HandleId} {h : NativeHandle} {fd rounds : Nat} {buffer : Bytes}

/-- `Send`: no call for an invalid socket or an empty buffer, else one that is repeated while
it is interrupted. -/
theorem wp_send_asks {Q : SocketResult Nat → ω → Prop} (hx : s.handles x = some h)
    (hinvalid : h = none → Q (.failure (invalidSocket p)) w)
    (hempty : h.isSome → buffer = [] → Q (.success 0) w)
    (hcall : ∀ fd, h = some fd → buffer ≠ [] →
      Repeats env p rounds s.handles ⟨x, sendCall p fd buffer⟩ E (Counted Q) w) :
    wp env (TcpSocket.send p rounds x buffer) (fun r s' w' => s'.handles = s.handles ∧ Q r w')
      (fun e _ w' => E e w') s w := by
  rw [TcpSocket.send, Calls.wp_bind, wp_isValid hx]
  cases h with
  | none =>
      rw [Option.isSome_none, if_neg (by decide), invalidSocket, wp_failure_ofErrc]
      exact ⟨rfl, hinvalid rfl⟩
  | some fd =>
      rw [Option.isSome_some, if_pos rfl]
      split
      case isTrue hnil => exact ⟨rfl, hempty rfl hnil⟩
      case isFalse hne =>
        -- one call is given no more bytes than an `int` can count
        have hdata : buffer.take intMax =
            buffer.take (TcpSocket.transferLength buffer.length).toNat := by
          rw [TcpSocket.toNat_transferLength, Nat.min_comm, ← List.take_eq_take_min]
        have hsend : Repeats env p rounds s.handles ⟨x, .send (some fd)
            (buffer.take (TcpSocket.transferLength buffer.length).toNat) (sendFlags p)⟩ E
            (Counted Q) w :=
          Eq.subst (motive := fun data => Repeats env p rounds s.handles
            ⟨x, .send (some fd) data (sendFlags p)⟩ E (Counted Q) w) hdata (hcall fd rfl hne)
        rw [Calls.wp_bind]
        refine (wp_repeats (fun s' hs' => get_bind (by rw [hs', hx]) _) hsend).imp ?_
        intro r s' w' hr
        obtain ⟨hhandles, hQ, herror⟩ := hr
        cases r with
        | success count => exact ⟨hhandles, hQ⟩
        | failure error => exact (wp_failure (herror error rfl)).mpr ⟨hhandles, hQ⟩

/-- `Receive`: the buffer is written to by the call that succeeds, and by no other. -/
theorem wp_receive_asks {Q : SocketResult Nat × Bytes → ω → Prop} (hx : s.handles x = some h)
    (hinvalid : h = none → Q (.failure (invalidSocket p), buffer) w)
    (hempty : h.isSome → buffer = [] → Q (.success 0, buffer) w)
    (hcall : ∀ fd, h = some fd → buffer ≠ [] →
      Repeats env p rounds s.handles ⟨x, recvCall fd buffer.length⟩ E (Copied Q buffer) w) :
    wp env (TcpSocket.receive p rounds x buffer)
      (fun r s' w' => s'.handles = s.handles ∧ Q r w') (fun e _ w' => E e w') s w := by
  rw [TcpSocket.receive, Calls.wp_bind, wp_isValid hx]
  cases h with
  | none =>
      rw [Option.isSome_none, if_neg (by decide), Calls.wp_bind, invalidSocket, wp_failure_ofErrc]
      exact ⟨rfl, hinvalid rfl⟩
  | some fd =>
      rw [Option.isSome_some, if_pos rfl]
      split
      case isTrue hnil => exact ⟨rfl, hempty rfl hnil⟩
      case isFalse hne =>
        have hrecv : Repeats env p rounds s.handles
            ⟨x, .recv (some fd) (TcpSocket.transferLength buffer.length).toNat 0⟩ E
            (Copied Q buffer) w :=
          Eq.subst (motive := fun n => Repeats env p rounds s.handles ⟨x, .recv (some fd) n 0⟩ E
            (Copied Q buffer) w)
            (TcpSocket.toNat_transferLength buffer.length).symm (hcall fd rfl hne)
        rw [Calls.wp_bind]
        refine (wp_repeats (fun s' hs' => get_bind (by rw [hs', hx]) _) hrecv).imp ?_
        intro r s' w' hr
        obtain ⟨hhandles, hQ, herror⟩ := hr
        cases r with
        | success bytes =>
            rw [Copied, ← Buffer.patch_zero] at hQ
            exact ⟨hhandles, hQ⟩
        | failure error =>
            rw [Calls.wp_bind]
            exact (wp_failure (herror error rfl)).mpr ⟨hhandles, hQ⟩

theorem subspan_ok {n : Nat} (h : n ≤ buffer.length) : subspan buffer n = .ok (buffer.drop n) :=
  if_pos h

/-! ### The loops

`SendAll` and `ReceiveExact` transfer a whole buffer or fail. The invariant `inv` is about the
rest of the buffer, or about the part that has been filled. `asked` is what is known in
addition once a call was answered, whatever the answer was. -/

/-- What an answer to `send` leaves of a buffer: the bytes behind those that were taken, all
of it after an error. -/
def Taken (asked : Bytes → ω → Prop) (rest : Bytes) {n : Nat} : SocketResult (Fin n) → ω → Prop
  | .success count, w => asked (rest.drop count.1) w
  | .failure error, w => error.hasError = true ∧ asked rest w

/-- What an answer to `recv` adds to what has been received. An end of the stream adds
nothing. -/
def Added (asked : Bytes → ω → Prop) (got : Bytes) {n : Nat} :
    SocketResult { bytes : Bytes // bytes.length ≤ n } → ω → Prop
  | .success bytes, w => asked (got ++ bytes.1) w
  | .failure error, w => error.hasError = true ∧ asked got w

/-- A `send` whose errors take nothing. -/
theorem Repeats.takes {handles : HandleId → Option NativeHandle} {rest : Bytes}
    (inv asked : Bytes → ω → Prop) (hasked : ∀ w', asked rest w' → inv rest w')
    (hinv : inv rest w) (hout : ∀ w', inv rest w' → E .gaveUp w')
    (hcall : ∀ w', inv rest w' → Asks env handles ⟨x, sendCall p fd rest⟩ (fun a w'' =>
      match a with
      | .error _ => asked rest w''
      | .ok count => asked (rest.drop count.1) w'') w') :
    Repeats env p rounds handles ⟨x, sendCall p fd rest⟩ E (Taken asked rest) w := by
  refine Repeats.of_inv (inv rest) (asked rest) hasked hinv hout
    (fun w' hw' => (hcall w' hw').imp ?_) ?_
  · intro a w'' ha
    cases a with
    | error e => exact ha
    | ok count => exact ha
  · exact fun error w' herror hw' => ⟨herror, hw'⟩

/-- A `recv` whose errors bring nothing. -/
theorem Repeats.adds {handles : HandleId → Option NativeHandle} {got : Bytes} {room : Nat}
    (inv asked : Bytes → ω → Prop) (hasked : ∀ w', asked got w' → inv got w')
    (hinv : inv got w) (hout : ∀ w', inv got w' → E .gaveUp w')
    (hcall : ∀ w', inv got w' → Asks env handles ⟨x, recvCall fd room⟩ (fun a w'' =>
      match a with
      | .error _ => asked got w''
      | .ok bytes => asked (got ++ bytes.1) w'') w') :
    Repeats env p rounds handles ⟨x, recvCall fd room⟩ E (Added asked got) w := by
  refine Repeats.of_inv (inv got) (asked got) hasked hinv hout
    (fun w' hw' => (hcall w' hw').imp ?_) ?_
  · intro a w'' ha
    cases a with
    | error e => exact ha
    | ok bytes => exact ha
  · exact fun error w' herror hw' => ⟨herror, hw'⟩

/-- One round of a loop that sends a buffer, whatever it makes of an error. -/
def sendRound {γ : Type} (p : Platform) (rounds : Nat) (x : HandleId) (ok : γ)
    (fail : SocketError → N γ) (rest : Bytes) : N (Bytes ⊕ γ) := do
  if rest = [] then
    return .inr ok
  else
    match ← TcpSocket.send p rounds x rest with
    | .failure error => return .inr (← fail error)
    | .success count =>
      if count = 0 then
        return .inr (← fail (.ofErrc p .ioError))
      else
        return .inl (← checked (subspan rest count))

/-- A loop that sends a buffer. What is left of the buffer is what the calls have not taken,
and the loop fails only while something is left. -/
theorem wp_sendRounds {γ : Type} {ok : γ} {fail : SocketError → N γ}
    {R : γ → Process → ω → Prop} (inv asked : Bytes → ω → Prop)
    (hasked : ∀ rest w', asked rest w' → inv rest w') (hx : s.handles x = some (some fd))
    (hinv : inv buffer w)
    (hcall : ∀ rest w', rest <:+ buffer → rest ≠ [] → inv rest w' →
      Repeats env p rounds s.handles ⟨x, sendCall p fd rest⟩ E (Taken asked rest) w')
    (hok : ∀ s' w', s'.handles = s.handles → inv [] w' → R ok s' w')
    (hfail : ∀ error rest s' w', error.hasError = true → s'.handles = s.handles → rest ≠ [] →
      rest <:+ buffer → asked rest w' → wp env (fail error) R (fun e _ w' => E e w') s' w') :
    wp env (Calls.Code.loopN .gaveUp (sendRound p rounds x ok fail) (buffer.length + 1) buffer) R
      (fun e _ w' => E e w') s w := by
  -- every round but the last leaves less of the buffer, so the rounds suffice
  refine Calls.wp_loopN_total
    (fun rest s' w' => s'.handles = s.handles ∧ rest <:+ buffer ∧ inv rest w') List.length ?_
    ⟨rfl, List.suffix_rfl, hinv⟩ (Nat.lt_succ_self _)
  intro rest s' w' hs'
  obtain ⟨hhandles, hsuffix, hw'⟩ := hs'
  rw [sendRound]
  split
  case isTrue hnil =>
    subst hnil
    exact hok s' w' hhandles hw'
  case isFalse hne =>
    have hx' : s'.handles x = some (some fd) := by rw [hhandles, hx]
    rw [Calls.wp_bind]
    refine (wp_send_asks (Q := fun r w₁ =>
      match r with
      | .success count => count ≤ rest.length ∧ asked (rest.drop count) w₁
      | .failure error => error.hasError = true ∧ asked rest w₁) hx'
      (fun h => absurd h (Option.some_ne_none _)) (fun _ hnil => absurd hnil hne) ?_).imp ?_
    · intro fd' hfd _
      cases hfd
      rw [hhandles]
      refine (hcall rest w' hsuffix hne hw').imp ?_
      intro r w₁ hr
      cases r with
      | success count =>
          exact ⟨(Nat.lt_succ_iff.mp count.2).trans (List.length_take_le' ..), hr⟩
      | failure error => exact hr
    · intro r s₁ w₁ hr
      obtain ⟨hhandles₁, hr⟩ := hr
      have hkeep : s₁.handles = s.handles := hhandles₁.trans hhandles
      cases r with
      | failure error =>
          obtain ⟨herror, hw₁⟩ := hr
          exact (Calls.wp_bind _ _).mpr (hfail error rest s₁ w₁ herror hkeep hne hsuffix hw₁)
      | success count =>
          obtain ⟨hcount, hw₁⟩ := hr
          by_cases hzero : count = 0
          · -- a round that sends nothing ends the loop with an error
            subst hzero
            exact (Calls.wp_bind _ _).mpr (hfail _ rest s₁ w₁ (SocketError.hasError_ofErrc ..)
              hkeep hne hsuffix hw₁)
          · simp only [hzero, if_false, Calls.wp_bind, wp_checked (subspan_ok hcount),
              Calls.wp_pure]
            refine ⟨⟨hkeep, (List.drop_suffix ..).trans hsuffix, hasked _ _ hw₁⟩, ?_⟩
            simp
            omega

/-- `SendAll`: nothing is left of the buffer if and only if no error is returned. The loop is
`wp_sendRounds` with an error passed on. -/
theorem wp_sendAll_asks (inv asked : Bytes → ω → Prop)
    (hasked : ∀ rest w', asked rest w' → inv rest w') (hx : s.handles x = some (some fd))
    (hinv : inv buffer w)
    (hcall : ∀ rest w', rest <:+ buffer → rest ≠ [] → inv rest w' →
      Repeats env p rounds s.handles ⟨x, sendCall p fd rest⟩ E (Taken asked rest) w') :
    wp env (sendAll p rounds x buffer) (fun error s' w' => s'.handles = s.handles ∧
      ∃ rest, rest <:+ buffer ∧ inv rest w' ∧ (rest ≠ [] → asked rest w') ∧
        (error.hasError = false ↔ rest = []))
      (fun e _ w' => E e w') s w := by
  rw [sendAll, show sendAllRound p rounds x = sendRound p rounds x .success pure from rfl]
  refine wp_sendRounds inv asked hasked hx hinv hcall ?_ ?_
  · intro s' w' hs' hw'
    refine ⟨hs', [], List.nil_suffix, hw', fun hne => absurd rfl hne, ?_⟩
    simp [SocketError.hasError, SocketError.success]
  · intro error rest s' w' herror hs' hne hsuffix hw'
    exact ⟨hs', rest, hsuffix, hasked _ _ hw', fun _ => hw', by simp [herror, hne]⟩

/-- `SendAll` on an invalid socket calls nothing, and succeeds only with nothing to send. -/
theorem wp_sendAll_invalid {Q : SocketError → Process → ω → Prop} (hx : s.handles x = some none)
    (hempty : buffer = [] → Q .success s w)
    (hinvalid : buffer ≠ [] → ∀ s', s'.handles = s.handles → Q (invalidSocket p) s' w) :
    wp env (sendAll p rounds x buffer) Q (fun e _ w' => E e w') s w := by
  rw [sendAll, Calls.wp_loopN_succ, sendAllRound]
  split
  case isTrue hnil => exact hempty hnil
  case isFalse hne =>
    rw [Calls.wp_bind]
    refine (wp_send_asks (Q := fun r w' => r = .failure (invalidSocket p) ∧ w' = w) hx
      (fun _ => ⟨rfl, rfl⟩) nofun nofun).imp ?_
    intro r s' w' h
    obtain ⟨hs', rfl, rfl⟩ := h
    exact hinvalid hne s' hs'

/-- What `Receive` reports of the bytes it has received. -/
def Brought (bytes : Bytes) : SocketResult Nat → Prop
  | .success count => count = bytes.length
  | .failure error => error.hasError = true ∧ bytes = []

/-- `ReceiveExact`. What the calls have received is what then lies at the front of the
buffer, and it is full if and only if no error is returned. -/
theorem wp_receiveExact_asks (inv asked : Bytes → ω → Prop)
    (hasked : ∀ got w', asked got w' → inv got w') (hx : s.handles x = some (some fd))
    (hinv : inv [] w)
    (hcall : ∀ got w', got.length < buffer.length → inv got w' →
      Repeats env p rounds s.handles ⟨x, recvCall fd (buffer.length - got.length)⟩ E
        (Added asked got) w') :
    wp env (receiveExact p rounds x buffer) (fun r s' w' => s'.handles = s.handles ∧
      ∃ got, inv got w' ∧ (got.length < buffer.length → asked got w') ∧
        got.length ≤ buffer.length ∧ r.2 = got ++ buffer.drop got.length ∧
        (r.1.hasError = false ↔ got.length = buffer.length))
      (fun e _ w' => E e w') s w := by
  refine Calls.wp_loopN_total
    (fun b s' w' => s'.handles = s.handles ∧ inv b.1 w' ∧ b.1.length ≤ buffer.length ∧
      b.2 = buffer.drop b.1.length) (fun b => b.2.length) ?_
    ⟨rfl, hinv, Nat.zero_le _, rfl⟩ (Nat.lt_succ_self _)
  intro b s' w' hs'
  obtain ⟨got, rest⟩ := b
  obtain ⟨hhandles, hw', hle, hrest⟩ := hs'
  dsimp only at hw' hle hrest
  subst hrest
  rw [receiveExactRound]
  split
  case isTrue hnil =>
    have hfull : buffer.length ≤ got.length := List.drop_eq_nil_iff.mp hnil
    refine ⟨hhandles, got, hw', fun hlt => absurd hlt (by omega), hle,
      by rw [hnil, List.append_nil], ?_⟩
    simp [Nat.le_antisymm hle hfull, SocketError.hasError, SocketError.success]
  case isFalse hne =>
    have hlt : got.length < buffer.length := by
      rw [List.drop_eq_nil_iff] at hne
      omega
    have hx' : s'.handles x = some (some fd) := by rw [hhandles, hx]
    rw [Calls.wp_bind]
    refine (wp_receive_asks (Q := fun r w₁ => ∃ bytes : Bytes,
      bytes.length ≤ buffer.length - got.length ∧ asked (got ++ bytes) w₁ ∧
        r.2 = bytes ++ (buffer.drop got.length).drop bytes.length ∧ Brought bytes r.1) hx'
      (fun h => absurd h (Option.some_ne_none _)) (fun _ hnil => absurd hnil hne) ?_).imp ?_
    · intro fd' hfd _
      cases hfd
      rw [hhandles, List.length_drop]
      refine (hcall got w' hlt hw').imp ?_
      intro r w₁ hr
      cases r with
      | success bytes => exact ⟨bytes.1, bytes.2.trans (Nat.min_le_left ..), hr, rfl, rfl⟩
      | failure error =>
          exact ⟨[], Nat.zero_le _, by rw [List.append_nil]; exact hr.2, rfl, hr.1, rfl⟩
    · intro r s₁ w₁ hr
      obtain ⟨result, rest'⟩ := r
      obtain ⟨hhandles₁, bytes, hfits, hw₁, hrest, hr⟩ := hr
      dsimp only at hrest hr
      have hkeep : s₁.handles = s.handles := hhandles₁.trans hhandles
      -- a round that receives nothing ends the loop with an error
      have hend : bytes = [] → ∀ error : SocketError, error.hasError = true →
          s₁.handles = s.handles ∧ ∃ got', inv got' w₁ ∧
            (got'.length < buffer.length → asked got' w₁) ∧ got'.length ≤ buffer.length ∧
            got ++ rest' = got' ++ buffer.drop got'.length ∧
            (error.hasError = false ↔ got'.length = buffer.length) := by
        intro hnil error herror
        subst hnil
        rw [List.append_nil] at hw₁
        exact ⟨hkeep, got, hasked _ _ hw₁, fun _ => hw₁, hle, congrArg _ hrest,
          by simp [herror, Nat.ne_of_lt hlt]⟩
      cases result with
      | failure error => exact hend hr.2 error hr.1
      | success count =>
          subst hr
          by_cases hzero : bytes.length = 0
          · simp only [hzero, if_true, Calls.wp_pure]
            exact hend (List.length_eq_zero_iff.mp hzero) _
              (SocketError.hasError_ofErrc p .ioError)
          · have hlength : (got ++ bytes).length = got.length + bytes.length :=
              List.length_append
            have hsub : subspan rest' bytes.length =
                .ok (buffer.drop (got ++ bytes).length) := by
              rw [subspan_ok (by simp [hrest]), hrest, List.drop_left, List.drop_drop, hlength]
            simp only [hzero, if_false, Calls.wp_bind, wp_checked hsub, Calls.wp_pure]
            rw [hrest, List.take_left]
            refine ⟨⟨hkeep, hasked _ _ hw₁, by omega, rfl⟩, ?_⟩
            simp only [List.length_drop]
            omega

/-- `ReceiveExact` on an invalid socket calls nothing, and succeeds only with nothing to
receive. -/
theorem wp_receiveExact_invalid {Q : SocketError × Bytes → Process → ω → Prop}
    (hx : s.handles x = some none) (hempty : buffer = [] → Q (.success, buffer) s w)
    (hinvalid : buffer ≠ [] → ∀ s', s'.handles = s.handles →
      Q (invalidSocket p, buffer) s' w) :
    wp env (receiveExact p rounds x buffer) Q (fun e _ w' => E e w') s w := by
  rw [receiveExact, Calls.wp_loopN_succ, receiveExactRound]
  split
  case isTrue hnil => exact hnil ▸ hempty hnil
  case isFalse hne =>
    rw [Calls.wp_bind]
    refine (wp_receive_asks (Q := fun r w' => r = (.failure (invalidSocket p), buffer) ∧ w' = w)
      hx (fun _ => ⟨rfl, rfl⟩) nofun nofun).imp ?_
    intro r s' w' h
    obtain ⟨hs', rfl, rfl⟩ := h
    exact hinvalid hne s' hs'

end Transfers

end Net

end CoreSystems
