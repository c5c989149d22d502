import CoreSystems.Net.OperationSpecs

/-!
# CoreSystems.Net.Transmission

`UdpSocket::SendTo` sends at most one datagram and keeps a socket it has made only if that
was accepted.

First the system calls of one `SendTo`, in order, with their answers: `SendToCalls` lists
the possible sequences. What is promised is then read off the sequences, together with
what is known of the handles and the open descriptors.

`sendTo_once` is the result, for an object in any state, any buffer and any answers. It is
proved in three steps: the code makes one of the sequences of `SendToCalls`
(`wp_sendTo_calls`, from the rule of `SendTo`); each sequence keeps the promise `SendsOnce`
(`SendToCalls.once`, by cases on how the sequence ends); and what becomes of handles and
descriptors is known from the specification of `SendTo` in `CoreSystems.Net.OperationSpecs`.
-/

namespace CoreSystems

open Buffer (Bytes)
open Calls (Prog Steps wp)

namespace Net

open SocketHandle

/-! ### The calls of `SendTo`

A sequence is given by how it ends: the buffer is too long, no socket could be made, or a
`sendto` has decided. Before that there are only interruptions. -/

/-- A `sendto` that was accepted: what it was given, and the count it returned. -/
structure Transmission where
  handle : NativeHandle
  data : Bytes
  name : Bytes
  length : Nat
  count : Nat

/-- What a call has sent: nothing, unless it is a `sendto` that was accepted. -/
def Event.transmission : Event → Option Transmission
  | ⟨⟨_, .sendto handle data _ name length⟩, .ok count⟩ => some ⟨handle, data, name, length, count⟩
  | _ => none

/-- Everything some calls have sent. -/
def transmissions (calls : List Event) : List Transmission := calls.filterMap Event.transmission

/-- The descriptors that some calls have opened. -/
def creations (calls : List Event) : List Nat := calls.filterMap Event.created

/-- A call that was interrupted, which the platform says by the number of the error. -/
def Interrupted (p : Platform) (r : Request) (e : Event) : Prop :=
  ∃ err : Errno, e = ⟨r, .error err⟩ ∧ SocketError.isInterrupted p (.ofCode err) = true

/-- The last `sendto` and the result it gives: all was accepted, another count was returned,
or it failed. -/
inductive Concludes (p : Platform) (sender : HandleId) (fd : Nat) (buffer : Bytes)
    (destination : SocketEndpoint) : Event → SocketResult Nat → Prop
  | sent : Concludes p sender fd buffer destination
      ⟨sendRequest p sender fd buffer destination, .ok buffer.length⟩ (.success buffer.length)
  | miscounted {count : Nat} (h : count ≠ buffer.length) :
      Concludes p sender fd buffer destination
        ⟨sendRequest p sender fd buffer destination, .ok count⟩
        (.failure (UdpSocket.messageSizeError p))
  | refused {e : Errno} (h : SocketError.isInterrupted p (.ofCode e) = false) :
      Concludes p sender fd buffer destination
        ⟨sendRequest p sender fd buffer destination, .error e⟩ (.failure (.ofCode e))

/-- A `sendto` that was interrupted any number of times and then concluded. -/
def Sends (p : Platform) (sender : HandleId) (fd : Nat) (buffer : Bytes)
    (destination : SocketEndpoint) (calls : List Event) (r : SocketResult Nat) : Prop :=
  ∃ tries last, calls = tries ++ [last] ∧
    (∀ e ∈ tries, Interrupted p (sendRequest p sender fd buffer destination) e) ∧
    Concludes p sender fd buffer destination last r

/-- The calls of `SendTo` on the object `name`, which held the handle, and what it returns. -/
inductive SendToCalls (p : Platform) (name : Nat) (buffer : Bytes) (destination : SocketEndpoint) :
    NativeHandle → List Event → SocketResult Nat → Prop
  | tooLong {h : NativeHandle} (hlong : intMax < buffer.length) :
      SendToCalls p name buffer destination h [] (.failure (UdpSocket.messageSizeError p))
  | owned {fd : Nat} {calls : List Event} {r : SocketResult Nat}
      (hsends : Sends p (.user name) fd buffer destination calls r) :
      SendToCalls p name buffer destination (some fd) calls r
  | uncreated {family : Nat} {e : Errno} :
      SendToCalls p name buffer destination none [⟨socketRequest p family, .error e⟩]
        (.failure (.ofCode e))
  | committed {family fd n : Nat} {calls : List Event}
      (hsends : Sends p .pending fd buffer destination calls (.success n)) :
      SendToCalls p name buffer destination none
        (⟨socketRequest p family, .ok fd⟩ :: calls) (.success n)
  | discarded {family fd : Nat} {calls : List Event} {error : SocketError} {e : Event}
      (hsends : Sends p .pending fd buffer destination calls (.failure error))
      (hclose : e.closed = some fd) :
      SendToCalls p name buffer destination none
        (⟨socketRequest p family, .ok fd⟩ :: calls ++ [e]) (.failure error)

/-- How `SendTo` runs out of rounds: every round was interrupted. -/
def OnlyInterrupted (p : Platform) (rounds : Nat) (buffer : Bytes) (destination : SocketEndpoint)
    (calls : List Event) : Prop :=
  ∃ before tries sender fd, calls = before ++ tries ∧ transmissions before = [] ∧
    (creations before).length ≤ 1 ∧ tries.length = rounds ∧
    ∀ e ∈ tries, Interrupted p (sendRequest p sender fd buffer destination) e

/-! ### The code makes these calls

The environment appends every answered call to its log, and accepts all of them. -/

section Code

variable {p : Platform} {s : Process} {o : OS} {name rounds fd : Nat} {buffer : Bytes}
variable {destination : SocketEndpoint} {y : HandleId} {h : NativeHandle}

theorem OS.log_after {e : Event} : (o.after e).log = o.log ++ [e] := rfl

/-- The loop of `SendTo`: interruptions, and one call that decides. -/
theorem transmits_calls {handles : HandleId → Option NativeHandle}
    {E : Exit → Process → OS → Prop}
    (hout : ∀ s' o' tries, o'.log = o.log ++ tries → tries.length = rounds →
      (∀ e ∈ tries, Interrupted p (sendRequest p y fd buffer destination) e) → E .gaveUp s' o') :
    Transmits (osEnv False) p rounds y fd buffer destination E handles
      (fun r _ o' => ∃ calls, o'.log = o.log ++ calls ∧
        Sends p y fd buffer destination calls r) o := by
  -- after `k` rounds there are `k` calls, all of them interrupted
  refine ⟨fun k o' => ∃ tries, o'.log = o.log ++ tries ∧ tries.length = k ∧
    ∀ e ∈ tries, Interrupted p (sendRequest p y fd buffer destination) e,
    ⟨[], by simp, rfl, by simp⟩, ?_, ?_⟩
  · intro s' o' hinv
    obtain ⟨tries, hlog, hrounds, htries⟩ := hinv
    exact hout s' o' tries hlog hrounds htries
  intro k s₁ o₁ hs₁ hinv
  obtain ⟨tries, hlog, hk, htries⟩ := hinv
  refine ⟨False.elim, ?_⟩
  intro a o₂ ha
  obtain ⟨-, rfl⟩ := ha
  have hlog' : ∀ e : Event, (o₁.after e).log = o.log ++ (tries ++ [e]) := by
    intro e
    rw [OS.log_after, hlog, List.append_assoc]
  cases a with
  | error e =>
      constructor
      · intro hagain
        refine ⟨_, hlog' _, by simp [hk], ?_⟩
        intro e' he'
        rw [List.mem_append, List.mem_singleton] at he'
        rcases he' with he' | rfl
        · exact htries e' he'
        · exact ⟨e, rfl, hagain⟩
      · intro hlast s₂ hs₂
        exact ⟨_, hlog' _, tries, _, rfl, htries, .refused hlast⟩
  | ok count =>
      intro s₂ hs₂
      refine ⟨_, hlog' _, tries, _, rfl, htries, ?_⟩
      split
      case isTrue hcount =>
        subst hcount
        exact .sent
      case isFalse hcount => exact .miscounted hcount

/-- `SendTo` makes one of the sequences, or only interrupted calls until its rounds are over. -/
theorem wp_sendTo_calls (hidle : s.Idle) (hx : s.handles (.user name) = some h) :
    wp (osEnv False) (UdpSocket.sendTo p rounds (.user name) buffer destination)
      (fun r _ o' => ∃ calls, o'.log = o.log ++ calls ∧
        SendToCalls p name buffer destination h calls r)
      (fun e _ o' => e = .gaveUp ∧ ∃ calls, o'.log = o.log ++ calls ∧
        OnlyInterrupted p rounds buffer destination calls) s o := by
  apply wp_sendTo hidle hx
  -- the three ways to begin: too long, with a socket, without one
  · intro hlong
    exact ⟨[], by simp, .tooLong hlong⟩
  · intro fd hfd
    subst hfd
    apply (transmits_calls _).imp
    · intro r s₁ o₁ hs₁ hr s₂ hs₂
      obtain ⟨calls, hlog, hsends⟩ := hr
      exact ⟨calls, hlog, .owned hsends⟩
    · intro s₁ o₁ tries hlog hrounds htries
      exact ⟨rfl, tries, hlog, [], tries, _, fd, rfl, rfl, by simp [creations], hrounds, htries⟩
  · intro hnone family
    subst hnone
    refine ⟨fun _ _ => False.elim, ?_⟩
    intro a o₁ ha
    obtain ⟨-, rfl⟩ := ha
    cases a with
    | error e =>
        intro s₁ hs₁
        exact ⟨_, OS.log_after, .uncreated⟩
    | ok fd =>
        have hlog' : ∀ calls, (o.after ⟨socketRequest p family, .ok fd⟩).log ++ calls =
            o.log ++ ⟨socketRequest p family, .ok fd⟩ :: calls := by
          intro calls
          rw [OS.log_after, List.append_assoc, List.singleton_append]
        apply (transmits_calls _).imp
        · intro r s₁ o₁ hs₁ hr
          obtain ⟨calls, hlog, hsends⟩ := hr
          rw [hlog'] at hlog
          cases r with
          | success n =>
              intro s₂ hs₂
              exact ⟨_, hlog, .committed hsends⟩
          -- the socket that was made is closed, whatever `close` returns
          | failure error =>
              refine ⟨fun _ _ => False.elim, ?_⟩
              intro a o₂ ha s₂ hs₂
              obtain ⟨-, rfl⟩ := ha
              refine ⟨⟨socketRequest p family, .ok fd⟩ :: calls ++
                [⟨⟨.pending, .close (some fd)⟩, a⟩], ?_, .discarded hsends rfl⟩
              rw [OS.log_after, hlog, List.append_assoc]
        · intro s₁ o₁ tries hlog hrounds htries
          rw [hlog'] at hlog
          refine ⟨rfl, _, hlog, [_], tries, _, fd, rfl, rfl, ?_, hrounds, htries⟩
          simp [creations, List.filterMap, Event.created]

end Code

/-! ### What the sequences say

Transmissions and new descriptors are counted in a sequence. Interruptions, `socket` and
`close` have sent nothing, so only the deciding call counts. -/

section Sequences

variable {p : Platform} {name fd : Nat} {buffer : Bytes} {destination : SocketEndpoint}
variable {y : HandleId} {h : NativeHandle} {calls : List Event} {r : SocketResult Nat}

/-- `buffer` sent whole to `destination` from a descriptor. -/
def sentFrom (p : Platform) (fd : Nat) (buffer : Bytes) (destination : SocketEndpoint)
    (count : Nat) : Transmission :=
  ⟨some fd, buffer, (destination.toNative p.layout).1, (destination.toNative p.layout).2, count⟩

theorem transmissions_append (a b : List Event) :
    transmissions (a ++ b) = transmissions a ++ transmissions b := List.filterMap_append

theorem creations_append (a b : List Event) :
    creations (a ++ b) = creations a ++ creations b := List.filterMap_append

/-- Making a socket sends nothing. -/
theorem transmissions_socket {family : Nat} :
    transmissions (⟨socketRequest p family, .ok fd⟩ :: calls) = transmissions calls := rfl

theorem creations_socket {family : Nat} :
    creations (⟨socketRequest p family, .ok fd⟩ :: calls) = fd :: creations calls := rfl

/-- A `close` neither sends nor opens. -/
theorem closed_inert {e : Event} (hclose : e.closed = some fd) :
    transmissions [e] = [] ∧ creations [e] = [] := by
  rcases e with ⟨⟨x, c⟩, a⟩
  cases c with
  | close handle => exact ⟨by cases a <;> rfl, by cases a <;> rfl⟩
  | _ => cases hclose

/-- What was interrupted has sent nothing, and `sendto` opens nothing. -/
theorem Interrupted.inert {tries : List Event}
    (h : ∀ e ∈ tries, Interrupted p (sendRequest p y fd buffer destination) e) :
    transmissions tries = [] ∧ creations tries = [] := by
  constructor
  all_goals
    apply List.filterMap_eq_nil_iff.mpr
    intro e he
    obtain ⟨err, rfl, -⟩ := h e he
    rfl

/-- How a `sendto` ends: an error, or one transmission whose count decides. -/
theorem Sends.cases (hsends : Sends p y fd buffer destination calls r) :
    creations calls = [] ∧
      ((∃ (e : Errno) (before : List Event), r = .failure (.ofCode e) ∧ transmissions calls = [] ∧
          calls = before ++ [⟨sendRequest p y fd buffer destination, .error e⟩] ∧
          SocketError.isInterrupted p (.ofCode e) = false) ∨
        ∃ count, transmissions calls = [sentFrom p fd buffer destination count] ∧
          r = if count = buffer.length then .success count
            else .failure (UdpSocket.messageSizeError p)) := by
  obtain ⟨tries, last, rfl, htries, hlast⟩ := hsends
  obtain ⟨hnone, hopened⟩ := Interrupted.inert htries
  rw [creations_append, hopened, transmissions_append, hnone]
  cases hlast with
  | sent => exact ⟨rfl, .inr ⟨buffer.length, rfl, (if_pos rfl).symm⟩⟩
  | @miscounted count hcount => exact ⟨rfl, .inr ⟨count, rfl, (if_neg hcount).symm⟩⟩
  | @refused e hrefused => exact ⟨rfl, .inl ⟨e, tries, rfl, rfl, rfl, hrefused⟩⟩

/-- The step of `SendTo` that failed, and the error that is reported for it. -/
inductive FailedStep (p : Platform) (buffer : Bytes) (calls : List Event) : SocketError → Prop
  /-- The buffer is longer than a datagram can be; no call is made. -/
  | length (hlong : intMax < buffer.length) (hcalls : calls = []) :
      FailedStep p buffer calls (.ofErrc p .messageSize)
  /-- No socket could be made. -/
  | creation {family : Nat} {e : Errno} (hcalls : calls = [⟨socketRequest p family, .error e⟩]) :
      FailedStep p buffer calls (.ofCode e)
  /-- `sendto` failed for good. -/
  | send {before closes : List Event} {y : HandleId} {fd : Nat} {destination : SocketEndpoint}
      {e : Errno} (hcalls : calls = before ++
        (⟨sendRequest p y fd buffer destination, .error e⟩ : Event) :: closes)
      (hlast : SocketError.isInterrupted p (.ofCode e) = false)
      (hcloses : ∀ c ∈ closes, ∃ fd, Event.closed c = some fd) :
      FailedStep p buffer calls (.ofCode e)
  /-- The count that `sendto` returned is not the length of the buffer. -/
  | count {t : Transmission} (ht : t ∈ transmissions calls) (hcount : t.count ≠ buffer.length) :
      FailedStep p buffer calls (.ofErrc p .messageSize)

/-- What is promised about the calls of one `SendTo` on an object that held `h`. -/
structure SendsOnce (p : Platform) (h : NativeHandle) (buffer : Bytes)
    (destination : SocketEndpoint) (calls : List Event) (r : SocketResult Nat) : Prop where
  /-- At most one `sendto` is accepted. -/
  once : (transmissions calls).length ≤ 1
  /-- It carries the whole buffer to the destination. -/
  whole : ∀ t ∈ transmissions calls,
    t.data = buffer ∧ (t.name, t.length) = destination.toNative p.layout
  /-- At most one socket is made, and only for an object that has none. -/
  socket : (creations calls).length ≤ 1 ∧ (h.isSome → creations calls = [])
  /-- Success is the acceptance of as many bytes as the buffer has. -/
  success : ∀ n, r = .success n ↔
    n = buffer.length ∧ ∃ t ∈ transmissions calls, t.count = buffer.length
  /-- A failure is reported as that of the step that failed, and a socket made is closed. -/
  failure : ∀ error, r = .failure error → FailedStep p buffer calls error ∧
    ∀ fd ∈ creations calls, ∃ e ∈ calls, Event.closed e = some fd
  /-- What was sent, was sent from the object's descriptor or from the one made for it. -/
  sender : ∀ t ∈ transmissions calls, ∃ fd, t.handle = some fd ∧
    if h.isSome then h = some fd else creations calls = [fd]

variable {c : List Event} {error : SocketError}

/-- A call that has sent nothing has failed: all promises about transmissions hold for want of
one. -/
theorem SendsOnce.unsent (hnothing : transmissions c = [])
    (hsocket : (creations c).length ≤ 1 ∧ (h.isSome → creations c = []))
    (hfailed : FailedStep p buffer c error)
    (hclosed : ∀ d ∈ creations c, ∃ e ∈ c, Event.closed e = some d) :
    SendsOnce p h buffer destination c (.failure error) := by
  refine ⟨by simp [hnothing], by simp [hnothing], hsocket, by simp [hnothing], ?_,
    by simp [hnothing]⟩
  intro error' herror
  obtain rfl := SocketResult.failure.inj herror
  exact ⟨hfailed, hclosed⟩

/-- After a transmission its count decides. -/
theorem SendsOnce.sent {count : Nat}
    (hone : transmissions c = [sentFrom p fd buffer destination count])
    (hr : r = if count = buffer.length then .success count
      else .failure (UdpSocket.messageSizeError p))
    (hsocket : (creations c).length ≤ 1 ∧ (h.isSome → creations c = []))
    (hsender : if h.isSome then h = some fd else creations c = [fd])
    (hclosed : ∀ error, r = .failure error → ∀ d ∈ creations c,
      ∃ e ∈ c, Event.closed e = some d) :
    SendsOnce p h buffer destination c r := by
  have ht : sentFrom p fd buffer destination count ∈ transmissions c := by
    rw [hone]
    exact List.mem_singleton.mpr rfl
  -- there is one transmission, so its count decides what is returned
  have honly : ∀ t ∈ transmissions c, t = sentFrom p fd buffer destination count := by
    intro t ht
    rw [hone] at ht
    exact List.mem_singleton.mp ht
  refine ⟨by simp [hone], ?_, hsocket, ?_, ?_, ?_⟩
  · intro t ht
    rw [honly t ht]
    exact ⟨rfl, rfl⟩
  · intro n
    rw [hr]
    split
    case isTrue hcount =>
      rw [SocketResult.success.injEq, eq_comm, hcount, iff_self_and]
      intro _
      exact ⟨_, ht, hcount⟩
    case isFalse hcount =>
      simp only [reduceCtorEq, false_iff, not_and]
      intro _ hsame
      obtain ⟨t, ht, heq⟩ := hsame
      rw [honly t ht] at heq
      exact hcount heq
  · intro error herror
    refine ⟨?_, hclosed error herror⟩
    rw [hr] at herror
    split at herror
    case isTrue hcount => cases herror
    case isFalse hcount =>
      obtain rfl := SocketResult.failure.inj herror
      exact .count ht hcount
  · intro t ht
    rw [honly t ht]
    exact ⟨fd, rfl, hsender⟩

/-- The calls of a `sendto` among others that send nothing. -/
theorem Sends.once (h : NativeHandle) (hsends : Sends p y fd buffer destination calls r)
    (hc : ∃ before closes, c = before ++ calls ++ closes ∧
      ∀ e ∈ closes, Event.closed e = some fd)
    (hsent : transmissions c = transmissions calls)
    (hsocket : (creations c).length ≤ 1 ∧ (h.isSome → creations c = []))
    (hsender : if h.isSome then h = some fd else creations c = [fd])
    (hclosed : ∀ error, r = .failure error → ∀ d ∈ creations c,
      ∃ e ∈ c, Event.closed e = some d) :
    SendsOnce p h buffer destination c r := by
  obtain ⟨e, tries, rfl, hnothing, hcalls, hlast⟩ | ⟨count, hone, hr⟩ := hsends.cases.2
  · obtain ⟨before, closes, hc, hcloses⟩ := hc
    have hsplit : c = (before ++ tries) ++
        (⟨sendRequest p y fd buffer destination, .error e⟩ : Event) :: closes := by
      rw [hc, hcalls]
      simp
    apply SendsOnce.unsent (hsent.trans hnothing) hsocket _ (hclosed _ rfl)
    exact .send hsplit hlast fun c hc => ⟨fd, hcloses c hc⟩
  · exact SendsOnce.sent (hsent.trans hone) hr hsocket hsender hclosed

/-- What is promised holds of every sequence of calls that `SendTo` can make. -/
theorem SendToCalls.once (hcalls : SendToCalls p name buffer destination h calls r) :
    SendsOnce p h buffer destination calls r := by
  cases hcalls with
  | tooLong hlong =>
      exact .unsent rfl (by simp [creations]) (.length hlong rfl) (by simp [creations])
  | @uncreated family e =>
      have hnone : creations [⟨socketRequest p family, .error e⟩] = [] := rfl
      exact .unsent rfl (by simp [hnone]) (.creation rfl) (by simp [hnone])
  | @owned fd _ _ hsends =>
      have hcreated := hsends.cases.1
      apply hsends.once (some fd) ⟨[], [], by simp, by simp⟩ rfl (by simp [hcreated])
      · rfl
      · simp [hcreated]
  | @committed family fd n calls hsends =>
      have hcreated : creations (⟨socketRequest p family, .ok fd⟩ :: calls) = [fd] := by
        rw [creations_socket, hsends.cases.1]
      apply hsends.once none ⟨[⟨socketRequest p family, .ok fd⟩], [], by simp, by simp⟩
        transmissions_socket (by simp [hcreated]) hcreated
      intro error herror
      cases herror
  | @discarded family fd calls error e hsends hclose =>
      -- the `close` at the end adds neither a transmission nor a creation
      obtain ⟨hnone, hopened⟩ := closed_inert hclose
      have hcreated : creations (⟨socketRequest p family, .ok fd⟩ :: calls ++ [e]) = [fd] := by
        rw [creations_append, creations_socket, hsends.cases.1, hopened]
        rfl
      have hsent : transmissions (⟨socketRequest p family, .ok fd⟩ :: calls ++ [e]) =
          transmissions calls := by
        rw [transmissions_append, transmissions_socket, hnone, List.append_nil]
      have hclosed : ∀ d ∈ creations (⟨socketRequest p family, .ok fd⟩ :: calls ++ [e]),
          ∃ e' ∈ ⟨socketRequest p family, .ok fd⟩ :: calls ++ [e], Event.closed e' = some d := by
        intro d hd
        rw [hcreated, List.mem_singleton] at hd
        exact ⟨e, by simp, hd ▸ hclose⟩
      exact hsends.once none ⟨[⟨socketRequest p family, .ok fd⟩], [e], rfl, by simpa using hclose⟩
        hsent ⟨(congrArg List.length hcreated).le, nofun⟩ hcreated fun _ _ => hclosed

end Sequences

/-! ### `SendTo` as a whole

The same run seen twice: by its calls, and by its handles and descriptors. -/

section Contract

variable {p : Platform} {s : Process} {o : OS} {h : NativeHandle} {name : Nat}

/-- What is promised when `SendTo` on the object `name`, which held `h`, has returned. -/
structure SendToContract (p : Platform) (name : Nat) (h : NativeHandle) (buffer : Bytes)
    (destination : SocketEndpoint) (s : Process) (o : OS) (r : SocketResult Nat) (s' : Process)
    (o' : OS) : Prop where
  calls : SendsOnce p h buffer destination (o.since o') r
  /-- A failure leaves every object and the set of open descriptors as they were. -/
  failure : ∀ error, r = .failure error → s'.handles = s.handles ∧ o'.openFds = o.openFds
  /-- After success the object owns the descriptor that sent, which is its old one if it
  had one. -/
  success : ∀ n, r = .success n → ∃ fd, (∃ t ∈ transmissions (o.since o'), t.handle = some fd) ∧
    s'.handles = Function.update s.handles (.user name) (some (some fd)) ∧
    (∀ d, h = some d → fd = d) ∧
    o'.openFds = if h.isSome then o.openFds else insert fd o.openFds

/-- **One datagram or none.** `SendTo` on an object in any state, with any buffer, any
destination and any answers: it makes good on its contract when it returns, and the only
other way it ends is that every round it was given was interrupted. -/
theorem sendTo_once (p : Platform) (rounds : Nat) (buffer : Bytes) (destination : SocketEndpoint)
    (hidle : s.Idle) (hx : s.handles (.user name) = some h) :
    (∀ r s' o', Steps (osEnv False)
      (UdpSocket.sendTo p rounds (.user name) buffer destination s) o (.ret r s') o' →
      SendToContract p name h buffer destination s o r s' o') ∧
    ∀ e s' o', Steps (osEnv False)
      (UdpSocket.sendTo p rounds (.user name) buffer destination s) o (.exit e s') o' →
      e = .gaveUp ∧ OnlyInterrupted p rounds buffer destination (o.since o') := by
  have hcalls : wp (osEnv False) (UdpSocket.sendTo p rounds (.user name) buffer destination) _ _
    s o := wp_sendTo_calls hidle hx
  have hspec := hcalls.and (wp_sendTo_os hidle hx False.elim)
  constructor
  · intro r s' o' hrun
    obtain ⟨⟨calls, hlog, hcalls⟩, hkept⟩ := hspec.steps hrun
    have hsince : o.since o' = calls := by rw [OS.since, hlog, List.drop_left]
    have honce := hcalls.once
    rw [← hsince] at honce
    refine ⟨honce, ?_, ?_⟩
    · rintro error rfl
      exact ⟨hkept.handles, hkept.openFds⟩
    · rintro n rfl
      obtain ⟨-, t, ht, -⟩ := (honce.success n).mp rfl
      obtain ⟨fd, htfd, hfd⟩ := honce.sender t ht
      refine ⟨fd, ⟨t, ht, htfd⟩, ?_⟩
      cases h with
      | some d =>
          obtain rfl := Option.some.inj hfd
          refine ⟨?_, by simp, hkept.2.openFds⟩
          rw [show s'.handles = s.handles from hkept.2.handles, ← hx, Function.update_eq_self]
      | none =>
          -- the descriptor gained is the only one created, so it is the one that sent
          obtain ⟨fd', hgain⟩ := show ∃ fd', Gained _ fd' s o s' o' from hkept.2
          obtain ⟨e, he, hcreated⟩ := hgain.created
          have hmem : fd' ∈ creations (o.since o') := List.mem_filterMap.mpr ⟨e, he, hcreated⟩
          rw [show creations (o.since o') = [fd] from hfd, List.mem_singleton] at hmem
          subst hmem
          exact ⟨hgain.handles, by simp, hgain.openFds⟩
  · intro e s' o' hrun
    obtain ⟨⟨he, calls, hlog, hcalls⟩, -⟩ := hspec.steps hrun
    refine ⟨he, ?_⟩
    rwa [OS.since, hlog, List.drop_left]

/-- An object without a descriptor sends three bytes, after one interruption. -/
theorem sendTo_once_interrupted : ∃ s s' o o', SendToContract .linux 0 none [1, 2, 3] .default s o
    (.success 3) s' o' ∧ s'.handles (.user 0) = some (some 5) := by
  let s : Process := (⟨fun _ => none, 0⟩ : Process).put (.user 0) none
  let o : OS := ⟨∅, ∅, Finset.empty_subset _, []⟩
  have hidle : s.Idle := fun x hx => by simp [s, hx 0]
  have hrun : ∃ s' o', Steps (osEnv False)
      (UdpSocket.sendTo .linux 2 (.user 0) [1, 2, 3] .default s) o (.ret (.success 3) s') o' ∧
      s'.handles (.user 0) = some (some 5) := by
    apply Exists.intro
    apply Exists.intro
    constructor
    · apply Steps.answer (I := os) (r := .ok 5) (c := socketRequest .linux 2)
      · exact ⟨by simp [o], rfl⟩
      apply Steps.answer (I := os) (r := .error ⟨4, by decide⟩)
        (c := sendRequest .linux .pending 5 [1, 2, 3] .default)
      · exact ⟨by simp [Event.created], rfl⟩
      apply Steps.answer (I := os) (r := .ok 3)
        (c := sendRequest .linux .pending 5 [1, 2, 3] .default)
      · exact ⟨by simp [Event.created], rfl⟩
      exact .refl
    · rfl
  obtain ⟨s', o', hrun, howns⟩ := hrun
  exact ⟨s, s', o, o', (sendTo_once .linux 2 [1, 2, 3] .default hidle rfl).1 _ _ _ hrun, howns⟩

end Contract

end Net

end CoreSystems
