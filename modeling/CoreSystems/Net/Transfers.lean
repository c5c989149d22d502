import CoreSystems.Net.KernelSpecs
import CoreSystems.Net.TcpRules

/-!
# CoreSystems.Net.Transfers

Transfers by a thread that has a host to itself.

It is the only one that sends and receives, so what is on both directions of its connection
is known at every moment: a transfer that succeeds moves exactly what it reports.

`Carries` is what is known between two transfers. The loop that sends is the one of
`CoreSystems.Net.TcpRules`, with the rest of the buffer on one side of its invariant and what
is on its way on the other; there must be room for all of it, because nobody else makes room
while the thread waits.
-/

namespace CoreSystems

open Buffer (Bytes)
open Calls (wp)

namespace Net

open SocketHandle

/-! ### What a connection carries -/

/-- The sockets of a host, and what is on the two directions of a connection. -/
structure Kernel.Carries (k : Kernel) (sockets : Nat → Option Socket) (n : Nat)
    (flows : Side → Channel) : Prop where
  sockets : k.sockets = sockets
  channels : k.channels n = flows

namespace Kernel.Carries

variable {k : Kernel} {sockets : Nat → Option Socket} {n : Nat} {flows : Side → Channel}

theorem carry (h : k.Carries sockets n flows) (side : Side) (queue : Bytes) :
    (k.carry n side queue).Carries sockets n
      (Function.update flows side { flows side with queue := queue }) := by
  refine ⟨h.sockets, ?_⟩
  funext side'
  rw [Kernel.channels_carry, h.channels, Function.update_apply]

/-- One end stops sending. -/
theorem finish (h : k.Carries sockets n flows) (side : Side) :
    (k.shut n side true false).Carries sockets n
      (Function.update flows side { flows side with finished := true }) := by
  refine ⟨h.sockets, ?_⟩
  funext side'
  rw [Kernel.channels_shut, h.channels, Function.update_apply]
  split <;> simp_all [Channel.shut]

end Kernel.Carries

variable {p : Platform} {capacity rounds fd n : Nat} {s : Process} {k : Kernel} {x : HandleId}
variable {sockets : Nat → Option Socket} {side : Side} {flows : Side → Channel} {buffer : Bytes}

/-- A loop that sends a buffer for which there is room. -/
theorem wp_sendRounds_kernel {γ : Type} {ok : γ} {fail : SocketError → N γ}
    {R : γ → Process → Kernel → Prop} (hx : s.handles x = some (some fd))
    (hfd : sockets fd = some (.connected n side)) (hk : k.Carries sockets n flows)
    (hroom : (flows side).queue.length + buffer.length ≤ capacity)
    (hok : ∀ s' k', s'.handles = s.handles →
      k'.Carries sockets n (Function.update flows side
        { flows side with queue := (flows side).queue ++ buffer }) → R ok s' k')
    (hfail : ∀ error s' k', error.hasError = true → s'.handles = s.handles →
      k'.sockets = sockets → wp (kernelEnv p capacity) (fail error) R GaveUp s' k') :
    wp (kernelEnv p capacity)
      (Calls.Code.loopN .gaveUp (sendRound p rounds x ok fail) (buffer.length + 1) buffer) R GaveUp
      s k := by
  -- what has been sent is on the queue, behind what was on it before
  let inv (rest : Bytes) (k' : Kernel) : Prop := ∃ sent, sent ++ rest = buffer ∧
    k'.Carries sockets n (Function.update flows side
      { flows side with queue := (flows side).queue ++ sent })
  refine wp_sendRounds (E := fun e _ => e = .gaveUp) inv inv (fun _ _ h => h) hx ?_ ?_ ?_ ?_
  · refine ⟨[], rfl, ?_⟩
    simpa using hk
  · intro rest k₀ hsuffix hne hinv
    refine Repeats.takes inv inv (fun _ h => h) hinv (fun _ _ => rfl) ?_
    rintro k' ⟨sent, hsent, hk'⟩
    have hpos := List.length_pos_iff.mpr hne
    have hlength := congrArg List.length hsent
    rw [List.length_append] at hlength
    refine Asks.kernel ?_ ?_
    · intro hblocks
      obtain ⟨fd', n', side', hfd', hsocket, hfull, -⟩ := hblocks
      cases hfd'
      rw [hk'.sockets, hfd] at hsocket
      cases hsocket
      rw [hk'.channels, Function.update_self, List.length_append] at hfull
      omega
    · intro a k'' ha
      cases a with
      | error e =>
          obtain rfl : k'' = k' := ha
          exact ⟨sent, hsent, hk'⟩
      | ok count =>
          obtain ⟨fd', n', side', hfd', hsocket, -, rfl⟩ := ha
          cases hfd'
          rw [hk'.sockets, hfd] at hsocket
          cases hsocket
          -- what the call has taken is at the end of the queue
          have htaken : (rest.take intMax).take count.1 = rest.take count.1 := by
            rw [List.take_take, Nat.min_eq_left]
            exact (Nat.lt_succ_iff.mp count.2).trans (List.length_take_le ..)
          refine ⟨sent ++ rest.take count.1, ?_, ?_⟩
          · rw [List.append_assoc, List.take_append_drop, hsent]
          · have hcarry := hk'.carry side ((k'.channels n side).queue ++
              (rest.take intMax).take count.1)
            rw [hk'.channels, Function.update_self, Function.update_idem, htaken,
              List.append_assoc] at hcarry
            rw [hk'.channels, Function.update_self, htaken, List.append_assoc]
            exact hcarry
  · intro s' k' hs' hinv
    obtain ⟨sent, hsent, hk'⟩ := hinv
    rw [List.append_nil] at hsent
    subst hsent
    exact hok s' k' hs' hk'
  · intro error rest s' k' herror hs' _ _ hinv
    obtain ⟨sent, hsent, hk'⟩ := hinv
    exact hfail error s' k' herror hs' hk'.sockets

/-! ### Receiving and finishing

A failure says nothing of what is on its way, only that the sockets are the same. -/

/-- What `Receive` has taken off the direction from the other end, or that it failed. -/
def Fetched (sockets : Nat → Option Socket) (n : Nat) (side : Side) (flows : Side → Channel)
    (buffer : Bytes) : SocketResult Nat × Bytes → Kernel → Prop
  | (.failure error, _), k' => error.hasError = true ∧ k'.sockets = sockets
  | (.success count, buffer'), k' => ∃ bytes rest, count = bytes.length ∧
      bytes.length ≤ buffer.length ∧ buffer' = bytes ++ buffer.drop bytes.length ∧
      (flows side.peer).queue = bytes ++ rest ∧ (bytes = [] → rest = []) ∧
      k'.Carries sockets n
        (Function.update flows side.peer { flows side.peer with queue := rest })

/-- `Receive` of what was sent before the other end stopped sending. -/
theorem wp_receive_kernel (hx : s.handles x = some (some fd))
    (hfd : sockets fd = some (.connected n side)) (hk : k.Carries sockets n flows)
    (hbuffer : buffer ≠ []) (hfinished : (flows side.peer).finished = true)
    (hrefused : (flows side.peer).refused = false) :
    wp (kernelEnv p capacity) (TcpSocket.receive p rounds x buffer) (fun r s' k' =>
      s'.handles = s.handles ∧ Fetched sockets n side flows buffer r k') GaveUp s k := by
  have hconnected : k.sockets fd = some (.connected n side) := by rw [hk.sockets, hfd]
  refine wp_receive_asks (E := fun e _ => e = .gaveUp)
    (Q := Fetched sockets n side flows buffer) hx (fun h => absurd h (Option.some_ne_none _))
    (fun _ hnil => absurd hnil hbuffer) ?_
  intro fd' hfd' _
  cases hfd'
  refine Repeats.kernel (by simp) ?_ rfl ?_ ?_
  · intro hblocks
    obtain ⟨fd', n', side', hfd', hsocket, -, hopen, -⟩ := hblocks
    cases hfd'
    rw [hconnected] at hsocket
    cases hsocket
    rw [hk.channels, hfinished] at hopen
    cases hopen
  · intro bytes k' ha
    obtain ⟨fd', n', side', rest, hfd', hsocket, hqueue, hend, rfl⟩ := ha
    cases hfd'
    rw [hconnected] at hsocket
    cases hsocket
    rw [hk.channels] at hqueue hend
    have hpos := List.length_pos_iff.mpr hbuffer
    have hmax : 0 < intMax := by decide
    refine ⟨bytes.1, rest, rfl, bytes.2.trans (Nat.min_le_left ..), rfl, hqueue, ?_,
      hk.carry side.peer rest⟩
    intro hnil
    -- an empty answer says that nothing is left
    rcases hend hnil with hsize | hclosed | ⟨hempty, -⟩
    · omega
    · rw [hrefused] at hclosed
      cases hclosed
    · rw [hqueue, hnil] at hempty
      exact hempty
  · intro error herror
    exact ⟨herror, hk.sockets⟩

/-- The other end has been told that nothing more is sent, or the call failed. -/
def Finished (sockets : Nat → Option Socket) (n : Nat) (side : Side) (flows : Side → Channel) :
    SocketResult Unit → Kernel → Prop
  | .failure error, k' => error.hasError = true ∧ k'.sockets = sockets
  | .success _, k' => k'.Carries sockets n
      (Function.update flows side { flows side with finished := true })

/-- `Shutdown` of the end that sends. -/
theorem wp_finish_kernel {E : Exit → Process → Kernel → Prop}
    (hx : s.handles x = some (some fd)) (hfd : sockets fd = some (.connected n side))
    (hk : k.Carries sockets n flows) (hreceive : p.SHUT_WR ≠ p.SHUT_RD)
    (hboth : p.SHUT_WR ≠ p.SHUT_RDWR) :
    wp (kernelEnv p capacity) (TcpSocket.shutdown p x .send) (fun r s' k' =>
      s'.handles = s.handles ∧ Finished sockets n side flows r k') E s k := by
  refine wp_shutdown_asks (Q := Finished sockets n side flows) hx
    (fun h => absurd h (Option.some_ne_none _))
    (fun _ hnone => absurd hnone (by simp [TcpSocket.shutdownHow])) ?_
  intro fd' how hfd' hhow
  cases hfd'
  obtain rfl : p.SHUT_WR = how := Option.some.inj hhow
  refine Asks.kernel id ?_
  intro a k' ha
  cases a with
  | error e =>
      obtain rfl : k' = k := ha
      exact ⟨decide_eq_true e.2, hk.sockets⟩
  | ok u =>
      obtain ⟨fd', n', side', hfd', hsocket, rfl⟩ := ha
      cases hfd'
      rw [hk.sockets, hfd] at hsocket
      cases hsocket
      show (k.shut n side (decide (_ ∨ _)) (decide (_ ∨ _))).Carries sockets n _
      simpa [hreceive, hboth] using hk.finish side

end Net

end CoreSystems
