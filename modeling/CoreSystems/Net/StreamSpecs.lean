import CoreSystems.Net.TcpRules

/-!
# CoreSystems.Net.StreamSpecs

The transfers of `TcpSocket` in a log.

The environment here is a log of what was answered, whoever the peer is and whatever it does.
The rules of `CoreSystems.Net.TcpRules` say which calls a transfer makes; this file only adds
what an answer means for the log. What was put on the stream and what is left of the buffer
make up the whole, so an error leaves both as they are, and a transfer that was answered at
all has left something in the log.
-/

namespace CoreSystems

open Buffer (Bytes)
open Calls (Env wp)

namespace Net

open SocketHandle

/-- The log of a call whose system calls satisfy `A`, answered in any way. What may be asked
depends on what was answered before. -/
abbrev anyEnv (A : Request → List Event → Prop) : Env os Process (List Event) :=
  Calls.logEnv (fun r _ log => A r log) fun _ _ => True

section Logs

variable {p : Platform} {s : Process} {x : HandleId} {h : NativeHandle} {fd rounds : Nat}
variable {A : Request → List Event → Prop} {log : List Event} {buffer : Bytes}

/-- A call in a log: it must be allowed, and its answer is appended. -/
theorem Asks.logged {handles : HandleId → Option NativeHandle} {r : Request}
    {Q : os.Answer r → List Event → Prop} (hA : A r log)
    (hQ : ∀ a, Q a (log ++ [⟨r, a⟩])) : Asks (anyEnv A) handles r Q log := by
  refine ⟨fun _ _ => hA, ?_⟩
  intro a _ h
  obtain ⟨-, rfl⟩ := h
  exact hQ a

/-- What is put on a stream and what is left of a buffer make up the whole. -/
theorem bytesPut_sendCall (log : List Event) (x : HandleId) (fd : Nat) (rest : Bytes)
    (count : Fin ((rest.take intMax).length + 1)) :
    bytesPut (log ++ [⟨⟨x, sendCall p fd rest⟩, .ok count⟩]) =
      bytesPut log ++ rest.take count.1 := by
  have htake : (rest.take intMax).take count.1 = rest.take count.1 := by
    rw [List.take_take, Nat.min_eq_left]
    exact (Nat.lt_succ_iff.mp count.2).trans (List.length_take_le ..)
  rw [bytesPut_snoc, show Event.put _ = (rest.take intMax).take count.1 from rfl, htake]

/-! ### One transfer

`Send` puts as many bytes on the stream as it reports, and `Receive` takes as many off it. -/

theorem wp_send_log (hx : s.handles x = some h)
    (hA : ∀ fd log', h = some fd → buffer ≠ [] → bytesPut log' = bytesPut log →
      A ⟨x, sendCall p fd buffer⟩ log') :
    wp (anyEnv A) (TcpSocket.send p rounds x buffer) (fun r s' log' =>
      s'.handles = s.handles ∧
        match r with
        | .success n => n ≤ min buffer.length intMax ∧
            bytesPut log' = bytesPut log ++ buffer.take n ∧ (buffer ≠ [] → log' ≠ [])
        | .failure error => error.hasError = true ∧ bytesPut log' = bytesPut log ∧
            (h.isSome → log' ≠ []))
      (fun e _ log' => e = .gaveUp ∧ bytesPut log' = bytesPut log) s log := by
  refine wp_send_asks (Q := fun r log' =>
    match r with
    | .success n => n ≤ min buffer.length intMax ∧
        bytesPut log' = bytesPut log ++ buffer.take n ∧ (buffer ≠ [] → log' ≠ [])
    | .failure error => error.hasError = true ∧ bytesPut log' = bytesPut log ∧
        (h.isSome → log' ≠ [])) hx ?_ ?_ ?_
  · intro hnone
    exact ⟨SocketError.hasError_ofErrc .., rfl, fun hsome => by simp [hnone] at hsome⟩
  · intro _ hnil
    exact ⟨Nat.zero_le _, by simp, fun hne => absurd hnil hne⟩
  · intro fd hfd hne
    -- interruptions put nothing on the stream, and leave something in the log
    refine Repeats.of_inv (fun log' => bytesPut log' = bytesPut log)
      (fun log' => bytesPut log' = bytesPut log ∧ log' ≠ []) (fun _ h => h.1) rfl
      (fun _ h => ⟨rfl, h⟩) ?_ ?_
    · intro log' hput
      refine Asks.logged (hA fd log' hfd hne hput) ?_
      intro a
      cases a with
      | error e => exact ⟨by rw [bytesPut_error, hput], by simp⟩
      | ok count =>
          have hcount : count.1 ≤ min buffer.length intMax := by
            have hlt := count.2
            simp only [List.length_take] at hlt
            omega
          exact ⟨hcount, by rw [bytesPut_sendCall, hput], by simp⟩
    · exact fun error log' herror hr => ⟨herror, hr.1, fun _ => hr.2⟩

/-- The bytes are what is then at the front of the buffer. -/
theorem wp_receive_log (hx : s.handles x = some h)
    (hA : ∀ fd log', h = some fd → buffer ≠ [] → bytesGot log' = bytesGot log →
      A ⟨x, recvCall fd buffer.length⟩ log') :
    wp (anyEnv A) (TcpSocket.receive p rounds x buffer) (fun r s' log' =>
      s'.handles = s.handles ∧ ∃ bytes, bytesGot log' = bytesGot log ++ bytes ∧
        bytes.length ≤ min buffer.length intMax ∧ r.2 = bytes ++ buffer.drop bytes.length ∧
        match r.1 with
        | .success n => n = bytes.length ∧ (buffer ≠ [] → log' ≠ [])
        | .failure error => error.hasError = true ∧ bytes = [] ∧ (h.isSome → log' ≠ []))
      (fun e _ log' => e = .gaveUp ∧ bytesGot log' = bytesGot log) s log := by
  refine wp_receive_asks (Q := fun r log' => ∃ bytes, bytesGot log' = bytesGot log ++ bytes ∧
    bytes.length ≤ min buffer.length intMax ∧ r.2 = bytes ++ buffer.drop bytes.length ∧
    match r.1 with
    | .success n => n = bytes.length ∧ (buffer ≠ [] → log' ≠ [])
    | .failure error => error.hasError = true ∧ bytes = [] ∧ (h.isSome → log' ≠ [])) hx ?_ ?_ ?_
  · intro hnone
    exact ⟨[], by simp, by simp, rfl, SocketError.hasError_ofErrc .., rfl,
      fun hsome => by simp [hnone] at hsome⟩
  · intro _ hnil
    exact ⟨[], by simp, by simp, rfl, rfl, fun hne => absurd hnil hne⟩
  · intro fd hfd hne
    refine Repeats.of_inv (fun log' => bytesGot log' = bytesGot log)
      (fun log' => bytesGot log' = bytesGot log ∧ log' ≠ []) (fun _ h => h.1) rfl
      (fun _ h => ⟨rfl, h⟩) ?_ ?_
    · intro log' hgot
      refine Asks.logged (hA fd log' hfd hne hgot) ?_
      intro a
      cases a with
      | error e => exact ⟨by rw [bytesGot_error, hgot], by simp⟩
      | ok bytes =>
          refine ⟨bytes.1, ?_, bytes.2, rfl, rfl, by simp⟩
          rw [← hgot]
          exact bytesGot_snoc ..
    · intro error log' herror hr
      exact ⟨[], by simpa using hr.1, by simp, rfl, herror, rfl, fun _ => hr.2⟩

/-! ### The loops

Between two rounds what is on the stream and what is left make up the buffer. -/

/-- `SendAll` in a log. -/
theorem wp_sendAll_log (hx : s.handles x = some (some fd))
    (hA : ∀ rest log', rest <:+ buffer → rest ≠ [] →
      bytesPut log' ++ rest = bytesPut log ++ buffer → bytesGot log' = bytesGot log →
      A ⟨x, sendCall p fd rest⟩ log') :
    wp (anyEnv A) (sendAll p rounds x buffer) (fun error s' log' => s'.handles = s.handles ∧
      ∃ rest, rest <:+ buffer ∧ (bytesPut log' ++ rest = bytesPut log ++ buffer ∧
        bytesGot log' = bytesGot log) ∧ (rest ≠ [] → log' ≠ []) ∧
        (error.hasError = false ↔ rest = []))
      (fun e _ log' => e = .gaveUp ∧ ∃ rest, rest ≠ [] ∧
        bytesPut log' ++ rest = bytesPut log ++ buffer ∧ bytesGot log' = bytesGot log) s log := by
  let inv (rest : Bytes) (log' : List Event) : Prop :=
    bytesPut log' ++ rest = bytesPut log ++ buffer ∧ bytesGot log' = bytesGot log
  refine (wp_sendAll_asks (E := fun e log' => e = .gaveUp ∧ ∃ rest, rest ≠ [] ∧ inv rest log')
    inv (fun rest log' => inv rest log' ∧ log' ≠ []) (fun _ _ h => h.1) hx ⟨rfl, rfl⟩ ?_).imp ?_
  · intro rest log' hsuffix hne hinv
    refine Repeats.takes inv _ (fun _ h => h.1) hinv (fun _ h => ⟨rfl, rest, hne, h⟩) ?_
    intro log₁ hinv₁
    obtain ⟨hput, hgot⟩ := hinv₁
    refine Asks.logged (hA rest log₁ hsuffix hne hput hgot) ?_
    intro a
    cases a with
    | error e => exact ⟨⟨by rw [bytesPut_error, hput], by rw [bytesGot_error, hgot]⟩, by simp⟩
    | ok count =>
        refine ⟨⟨?_, ?_⟩, by simp⟩
        · rw [bytesPut_sendCall, List.append_assoc, List.take_append_drop, hput]
        · rw [bytesGot_snoc, ← hgot]
          exact List.append_nil _
  · intro error s' log' h
    obtain ⟨hs', rest, hsuffix, hinv, hasked, herror⟩ := h
    exact ⟨hs', rest, hsuffix, hinv, fun hne => (hasked hne).2, herror⟩

/-- `ReceiveExact` in a log. -/
theorem wp_receiveExact_log (hx : s.handles x = some (some fd))
    (hA : ∀ got log', got.length < buffer.length → bytesGot log' = bytesGot log ++ got →
      bytesPut log' = bytesPut log → A ⟨x, recvCall fd (buffer.length - got.length)⟩ log') :
    wp (anyEnv A) (receiveExact p rounds x buffer) (fun r s' log' => s'.handles = s.handles ∧
      ∃ got, (bytesGot log' = bytesGot log ++ got ∧ bytesPut log' = bytesPut log) ∧
        (got.length < buffer.length → log' ≠ []) ∧ got.length ≤ buffer.length ∧
        r.2 = got ++ buffer.drop got.length ∧
        (r.1.hasError = false ↔ got.length = buffer.length))
      (fun e _ log' => e = .gaveUp ∧ ∃ got, got.length < buffer.length ∧
        bytesGot log' = bytesGot log ++ got ∧ bytesPut log' = bytesPut log) s log := by
  let inv (got : Bytes) (log' : List Event) : Prop :=
    bytesGot log' = bytesGot log ++ got ∧ bytesPut log' = bytesPut log
  refine (wp_receiveExact_asks
    (E := fun e log' => e = .gaveUp ∧ ∃ got, got.length < buffer.length ∧ inv got log') inv
    (fun got log' => inv got log' ∧ log' ≠ []) (fun _ _ h => h.1) hx
    ⟨(List.append_nil _).symm, rfl⟩ ?_).imp ?_
  · intro got log' hlt hinv
    refine Repeats.adds inv _ (fun _ h => h.1) hinv (fun _ h => ⟨rfl, got, hlt, h⟩) ?_
    intro log₁ hinv₁
    obtain ⟨hgot, hput⟩ := hinv₁
    refine Asks.logged (hA got log₁ hlt hgot hput) ?_
    intro a
    cases a with
    | error e => exact ⟨⟨by rw [bytesGot_error, hgot], by rw [bytesPut_error, hput]⟩, by simp⟩
    | ok bytes =>
        refine ⟨⟨?_, ?_⟩, by simp⟩
        · rw [bytesGot_snoc, hgot, List.append_assoc]
          rfl
        · rw [bytesPut_snoc, ← hput]
          exact List.append_nil _
  · intro r s' log' h
    obtain ⟨hs', got, hinv, hasked, hr⟩ := h
    exact ⟨hs', got, hinv, fun hlt => (hasked hlt).2, hr⟩

end Logs

/-! ### The calls of an end

A call starts with an empty log, so what it has done is what is in it. -/

section Tasks

variable {p : Platform} {s : Process} {x : HandleId} {h : NativeHandle} {rounds : Nat}

/-- `SendAll`: the whole buffer is on the stream if and only if it returns success. -/
theorem wp_sendAll_returns (buffer : Bytes) (hx : s.handles x = some h) :
    wp (streamEnv (.sendAll buffer)) (sendAll p rounds x buffer)
      (fun error _ log =>
        (StreamCall.sendAll buffer).Returns (h.isSome = true) log (.sentAll error))
      (fun e _ log => e = .gaveUp ∧ (StreamCall.sendAll buffer).GaveUp log) s [] := by
  -- an invalid socket makes no call, and fails unless there is nothing to send
  cases h with
  | none =>
      refine wp_sendAll_invalid (E := fun e log => e = .gaveUp ∧ bytesPut log <+: buffer) hx ?_ ?_
      · intro hnil
        refine ⟨List.nil_prefix, ?_, by simp⟩
        simp [hnil, SocketError.hasError, SocketError.success]
      · intro hne s' _
        refine ⟨List.nil_prefix, ?_, by simp⟩
        simpa [invalidSocket, SocketError.hasError_ofErrc] using hne.symm
  | some fd =>
      refine Calls.Prog.wp.mono (wp_sendAll_log hx ?_) ?_ ?_
      · intro rest log _ hne hput _
        exact ⟨rest, hput.symm, hne, some fd, sendFlags p, rfl⟩
      · intro error s' log h
        obtain ⟨-, rest, -, ⟨hput, -⟩, hasked, herror⟩ := h
        rw [bytesPut_nil, List.nil_append] at hput
        refine ⟨⟨rest, hput⟩, herror.trans ?_, fun _ hne => ?_⟩
        · rw [← hput, List.self_eq_append_right]
        · by_cases hrest : rest = []
          · -- everything was sent, so something was
            intro heq
            subst heq
            exact hne (by rw [← hput, hrest]; rfl)
          · exact hasked hrest
      · intro e s' log h
        obtain ⟨he, rest, -, hput, -⟩ := h
        exact ⟨he, rest, hput⟩

/-- `ReceiveExact`: what was received lies in front of what is left of the buffer, and fills
it if and only if success is returned. -/
theorem wp_receiveExact_returns (buffer : Bytes) (hx : s.handles x = some h) :
    wp (streamEnv (.receiveExact buffer)) (receiveExact p rounds x buffer)
      (fun r _ log => (StreamCall.receiveExact buffer).Returns (h.isSome = true) log
        (.receivedExact r.1 r.2))
      (fun e _ log => e = .gaveUp ∧ (StreamCall.receiveExact buffer).GaveUp log) s [] := by
  cases h with
  | none =>
      refine wp_receiveExact_invalid
        (E := fun e log => e = .gaveUp ∧ (bytesGot log).length < buffer.length) hx ?_ ?_
      · intro heq
        subst heq
        exact ⟨Nat.le_refl _, rfl, by simp [SocketError.hasError, SocketError.success], by simp⟩
      · intro hne s' _
        have hlen := List.length_pos_iff.mpr hne
        refine ⟨Nat.zero_le _, by simp [Buffer.patch_zero], ?_, by simp⟩
        simpa [invalidSocket, SocketError.hasError_ofErrc] using hlen.ne
  | some fd =>
      refine Calls.Prog.wp.mono (wp_receiveExact_log hx ?_) ?_ ?_
      · intro got log hlt hgot _
        obtain rfl : bytesGot log = got := hgot
        exact ⟨hlt, some fd, 0, rfl⟩
      · intro h s' log hr
        obtain ⟨error, buffer'⟩ := h
        obtain ⟨-, got, ⟨hgot, -⟩, hasked, hle, hbuffer, herror⟩ := hr
        obtain rfl : bytesGot log = got := hgot
        refine ⟨hle, by rw [Buffer.patch_zero]; exact hbuffer, herror, fun _ hne => ?_⟩
        have hlen := List.length_pos_iff.mpr hne
        by_cases hlt : (bytesGot log).length < buffer.length
        · exact hasked hlt
        · -- the buffer is full, so something was received
          intro heq
          subst heq
          exact hlt hlen
      · intro e s' log h
        obtain ⟨he, got, hlt, hgot, -⟩ := h
        obtain rfl : bytesGot log = got := hgot
        exact ⟨he, hlt⟩

/-- **One call.** It asks for no more than it may, and when it returns its log is what its
result says. -/
theorem StreamTask.spec (t : StreamTask) (ht : ∃ h, t.entry.handles t.socket = some h) :
    (t.call.body p t.rounds t.socket t.entry).wp (streamEnv t.call)
      (fun r _ log => t.call.Returns t.Valid log r)
      (fun e _ log => e = .gaveUp ∧ t.call.GaveUp log) [] := by
  obtain ⟨h, hx⟩ := ht
  have hvalid : t.Valid ↔ h.isSome = true := by
    simp [StreamTask.Valid, hx, Option.isSome_iff_exists]
  rw [propext hvalid]
  show wp (streamEnv t.call) (t.call.body p t.rounds t.socket) _ _ t.entry []
  rw [StreamCall.body.eq_def]
  cases t.call with
  | send buffer =>
      rw [Calls.wp_bind]
      refine Calls.Prog.wp.mono (wp_send_log hx ?_) ?_ ?_
      · intro fd log _ hne hput
        exact ⟨hput, hne, some fd, sendFlags p, rfl⟩
      · intro r s log hr
        cases r with
        | success n => exact hr.2
        | failure error => exact hr.2.2
      · exact fun e s log he => he
  | sendAll buffer => exact (Calls.wp_bind ..).mpr (wp_sendAll_returns buffer hx)
  | receive buffer =>
      rw [Calls.wp_bind]
      refine Calls.Prog.wp.mono (wp_receive_log hx ?_) ?_ ?_
      · intro fd log _ hne hgot
        exact ⟨hgot, hne, some fd, 0, rfl⟩
      · intro h s log hr
        obtain ⟨result, buffer'⟩ := h
        obtain ⟨-, bytes, hgot, hfits, hbuffer, hr⟩ := hr
        obtain rfl : bytesGot log = bytes := hgot
        cases result with
        | success n =>
            obtain ⟨rfl, hasked⟩ := show n = (bytesGot log).length ∧ _ from hr
            exact ⟨hfits, rfl, by rw [Buffer.patch_zero]; exact hbuffer, hasked⟩
        | failure error =>
            obtain ⟨-, hnone, hasked⟩ := show _ ∧ bytesGot log = [] ∧ _ from hr
            rw [hnone] at hbuffer
            exact ⟨hnone, hbuffer, hasked⟩
      · exact fun e s log he => he
  | receiveExact buffer => exact (Calls.wp_bind ..).mpr (wp_receiveExact_returns buffer hx)

end Tasks

end Net

end CoreSystems
