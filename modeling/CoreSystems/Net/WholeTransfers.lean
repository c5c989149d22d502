import CoreSystems.Net.Duplex

/-!
# CoreSystems.Net.WholeTransfers

Transfers at one stroke.

In some runs of a connection every call transfers all it is asked for: what one end sends with
one call the other receives with one call, and the connection is as before. Threads that
exchange their data like this return without an error. So what is proved of threads that have
returned is about runs that exist.

A run is given by a schedule: the list of answered calls, each with the thread that makes it.
The code of a thread is executed along its own part of the schedule, in an environment that
knows the next event (`followEnv` of `CoreSystems.Lib.Threads`), and the kernel has to answer
the whole schedule in order. Passing some data over the connection is two events of it, one at
each end.
-/

namespace CoreSystems

open Buffer (Bytes)
open Calls (wp)
open Calls.System (Plays followEnv)

namespace Net

/-- A `send` that takes all it is given. -/
def sentWhole (p : Platform) (x : HandleId) (fd : Nat) (data : Bytes) : Event :=
  ⟨⟨x, sendCall p fd data⟩, .ok ⟨(data.take intMax).length, Nat.lt_succ_self _⟩⟩

/-- A `recv` that brings `data`. -/
def receivedWhole (x : HandleId) (fd room : Nat) (data : Bytes)
    (hfits : data.length ≤ min room intMax) : Event :=
  ⟨⟨x, recvCall fd room⟩, .ok ⟨data, hfits⟩⟩

/-! ### The code

A function whose first call transfers everything makes no other. -/

section Code

variable {p : Platform} {s : Process} {x : HandleId} {fd rounds room : Nat} {buffer data : Bytes}
variable {events : List Event}

/-- The next call of a schedule. -/
theorem asks_followed {handles : HandleId → Option NativeHandle} {r : Request} {a : os.Answer r}
    {Q : os.Answer r → List Event → Prop} (hQ : Q a events) :
    Asks followEnv handles r Q (⟨r, a⟩ :: events) := by
  refine ⟨fun _ _ => ⟨a, events, rfl⟩, ?_⟩
  intro a' events' h
  cases h
  exact hQ

/-- `SendAll` makes one call, which takes the whole buffer. -/
theorem wp_sendAll_whole (hx : s.handles x = some (some fd)) (hne : buffer ≠ [])
    (hfits : buffer.length ≤ intMax) :
    wp followEnv (sendAll p (rounds + 1) x buffer) (fun error s' events' =>
      s'.handles = s.handles ∧ error.hasError = false ∧ events' = events)
      (fun _ _ _ => False) s (sentWhole p x fd buffer :: events) := by
  let sent (rest : Bytes) (w : List Event) : Prop := rest = [] ∧ w = events
  let inv (rest : Bytes) (w : List Event) : Prop :=
    sent rest w ∨ rest = buffer ∧ w = sentWhole p x fd buffer :: events
  refine (wp_sendAll_asks (E := fun _ _ => False) inv sent (fun _ _ h => .inl h) hx
    (.inr ⟨rfl, rfl⟩) ?_).imp ?_
  · intro rest w _ hrest hinv
    rcases hinv with ⟨hnil, -⟩ | ⟨heq, hw⟩
    · exact absurd hnil hrest
    · subst heq hw
      refine Repeats.once (asks_followed ?_)
      refine ⟨List.drop_eq_nil_of_le ?_, rfl⟩
      show rest.length ≤ (rest.take intMax).length
      rw [List.length_take, Nat.min_eq_right hfits]
  · intro error s' w h
    obtain ⟨hs', rest, -, hinv, hsent, herror⟩ := h
    by_cases hrest : rest = []
    · rcases hinv with ⟨-, hw⟩ | ⟨heq, -⟩
      · exact ⟨hs', herror.mpr hrest, hw⟩
      · exact absurd (heq.symm.trans hrest) hne
    · exact absurd (hsent hrest).1 hrest

/-- `ReceiveExact` makes one call, which fills the whole buffer. -/
theorem wp_receiveExact_whole (hx : s.handles x = some (some fd)) (hne : data ≠ [])
    (hroom : buffer.length = room) (hlength : data.length = room)
    (hfits : data.length ≤ min room intMax) :
    wp followEnv (receiveExact p (rounds + 1) x buffer) (fun r s' events' =>
      s'.handles = s.handles ∧ r.1.hasError = false ∧ r.2 = data ∧ events' = events)
      (fun _ _ _ => False) s (receivedWhole x fd room data hfits :: events) := by
  subst hroom
  let filled (got : Bytes) (w : List Event) : Prop := got = data ∧ w = events
  let inv (got : Bytes) (w : List Event) : Prop :=
    filled got w ∨ got = [] ∧ w = receivedWhole x fd buffer.length data hfits :: events
  refine (wp_receiveExact_asks (E := fun _ _ => False) inv filled (fun _ _ h => .inl h) hx
    (.inr ⟨rfl, rfl⟩) ?_).imp ?_
  · intro got w hlt hinv
    rcases hinv with ⟨hgot, -⟩ | ⟨hnil, hw⟩
    · rw [hgot, hlength] at hlt
      exact absurd hlt (Nat.lt_irrefl _)
    · subst hnil hw
      exact Repeats.once (asks_followed ⟨rfl, rfl⟩)
  · intro r s' w h
    obtain ⟨hs', got, hinv, hfilled, hle, hbuffer, herror⟩ := h
    have hgot : filled got w := by
      rcases hinv with hfilled' | ⟨hnil, -⟩
      · exact hfilled'
      · exact hfilled (by rw [hnil, ← hlength]; exact List.length_pos_iff.mpr hne)
    obtain ⟨rfl, hw⟩ := hgot
    refine ⟨hs', herror.mpr hlength, ?_, hw⟩
    rw [hbuffer, hlength, List.drop_length, List.append_nil]

/-- `Receive` of as many bytes as there is room for. -/
theorem wp_receive_whole (hx : s.handles x = some (some fd)) (hne : buffer ≠ [])
    (hroom : buffer.length = room) (hlength : data.length = room)
    (hfits : data.length ≤ min room intMax) :
    wp followEnv (TcpSocket.receive p (rounds + 1) x buffer) (fun r s' events' =>
      s'.handles = s.handles ∧ r = (.success room, data) ∧ events' = events)
      (fun _ _ _ => False) s (receivedWhole x fd room data hfits :: events) := by
  subst hroom
  refine wp_receive_asks (E := fun _ _ => False)
    (Q := fun r w => r = (.success buffer.length, data) ∧ w = events) hx
    (fun h => absurd h (Option.some_ne_none _)) (fun _ hnil => absurd hnil hne) ?_
  intro fd' hfd _
  cases hfd
  refine Repeats.once (asks_followed ⟨?_, rfl⟩)
  rw [hlength, List.drop_length, List.append_nil]

end Code

/-! ### The connection

Since a connection that is empty again is the one it was, the kernel does not change over a
whole exchange. -/

/-- Nothing is on a connection that is fresh, and taking everything off it leaves it so. -/
theorem Wire.Fresh.carry_carry {w : Wire} {k : Kernel} (h : w.Fresh k) (side : Side)
    (queue : Bytes) : (k.carry w.connection side queue).carry w.connection side [] = k := by
  have hnew : ({ k.channels w.connection side with queue := [] } : Channel) =
      k.channels w.connection side := by
    rw [h.2 side]
    rfl
  simp [Kernel.carry, hnew]

/-- What one end sends and the other receives leaves a connection as it was. -/
theorem Wire.Fresh.passes {α : Type} {p : Platform} {w : Wire}
    {code : Side → Calls.Prog os Process Exit α} {k : Kernel} {x y : HandleId} {room : Nat}
    {data : Bytes} (h : w.Fresh k) (side : Side) (hne : data ≠ [])
    (hfits : data.length ≤ min room intMax) :
    Plays (duplexRules p w code)
      [(side, sentWhole p x (w.fd side) data),
        (side.peer, receivedWhole y (w.fd side.peer) room data hfits)] k k := by
  have htaken : (data.take intMax).take (data.take intMax).length = data := by
    rw [List.take_length, List.take_of_length_le (hfits.trans (Nat.min_le_right ..))]
  have hnew := h.2 side
  have hsends : k.Answers p (sendCall p (w.fd side) data)
      (.ok ⟨(data.take intMax).length, Nat.lt_succ_self _⟩)
      (k.carry w.connection side data) := by
    refine ⟨w.fd side, w.connection, side, rfl, h.1 side, by rw [hnew]; rfl, ?_⟩
    rw [htaken, hnew]
    rfl
  have hreceives : (k.carry w.connection side data).Answers p (recvCall (w.fd side.peer) room)
      (.ok ⟨data, hfits⟩) k := by
    refine ⟨w.fd side.peer, w.connection, side.peer, [], rfl, h.1 side.peer, ?_, ?_, ?_⟩
    · rw [Side.peer_peer, Kernel.channels_carry, if_pos rfl, List.append_nil]
    · exact fun hnil => absurd hnil hne
    · rw [Side.peer_peer, h.carry_carry]
  exact .cons hsends (.cons hreceives .nil)

end Net

end CoreSystems
