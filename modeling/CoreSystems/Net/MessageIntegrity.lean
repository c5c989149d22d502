import CoreSystems.Net.DatagramSpecs

/-!
# CoreSystems.Net.MessageIntegrity

Messages stay whole: in every interleaving of `SendTo` and `ReceiveFrom` calls, a call
that succeeds has handed over one whole datagram that no other call gets.

What one call does is known from its own log. The network is tied to the logs by an
invariant: a datagram was handed over by the call it names as its sender, and is with the
call whose reply describes it.

`Linked` is the invariant. Its step has two cases: an answer to the call itself, which may
hand a datagram over or take one (`Linked.serves`), and an answer to another call or a move of
the network, which concerns datagrams of others only (`Undisturbed`). Together with the
specification of one call this gives `Integrity`, the promise, in every reachable state.
-/

namespace CoreSystems

open Buffer (Bytes)
open Calls (Steps System)

namespace Net

variable {p : Platform} {net net' : Network} {call call' : CallId} {log : List Event}

/-! ### One answer

Every proof below splits an answer into these three cases and no others. -/

/-- What an answer does to the network: nothing, or accept one datagram, or take one. -/
theorem serves_cases {thread : Thread} {n : Nat} {r : Request} {a : os.Answer r}
    (h : serves p thread n net r a net') :
    (Event.accepted ⟨r, a⟩ = none ∧ Event.reply ⟨r, a⟩ = none ∧ net' = net) ∨
    (∃ data source, Event.accepted ⟨r, a⟩ = some data ∧ Event.reply ⟨r, a⟩ = none ∧
      net' = net ++ [⟨data, source, (thread, n), .flight⟩]) ∨
    (∃ handle reply, Event.accepted ⟨r, a⟩ = none ∧ Event.reply ⟨r, a⟩ = some reply ∧
      Takes p (thread, n) handle net reply net') := by
  rcases r with ⟨x, c⟩
  cases c with
  | sendto handle data flags name length =>
      cases a with
      | error e => exact .inl ⟨rfl, rfl, h⟩
      | ok count =>
          obtain ⟨-, source, hnet⟩ := h
          exact .inr (.inl ⟨data, source, rfl, rfl, hnet⟩)
  | recvmsg handle size nameSize flags =>
      cases a with
      | error e => exact .inl ⟨rfl, rfl, h⟩
      | ok received => exact .inr (.inr ⟨handle, _, rfl, rfl, h⟩)
  | recvfrom handle size flags nameSize =>
      cases a with
      | error e => exact .inl ⟨rfl, rfl, h.2⟩
      | ok received => exact .inr (.inr ⟨handle, _, rfl, rfl, h⟩)
  | _ => exact .inl ⟨by cases a <;> rfl, by cases a <;> rfl, by cases a <;> exact h⟩

/-! ### Logs and the network

A datagram is known by its number `k` in the network, since two of the same content may be
under way. -/

/-- The datagram `k` is `d`, and was taken by `call`. -/
def Took (net : Network) (call : CallId) (k : Nat) (d : Datagram) : Prop :=
  net[k]? = some d ∧ d.place = .taken call

/-- The log of a call and the network agree about what the call handed over and took. -/
structure Linked (p : Platform) (thread : Thread) (n : Nat) (log : List Event) (net : Network) :
    Prop where
  sent : ∀ d ∈ net, d.sender = (thread, n) → d.payload ∈ sent log
  idle : replies log = [] → ∀ k d, ¬ Took net (thread, n) k d
  took : ∀ reply, replies log = [reply] → ∃ k d, Took net (thread, n) k d ∧
    reply.Describes p.layout d ∧ ∀ k' d', Took net (thread, n) k' d' → k' = k

/-- Nothing happened that concerns `call`: it has the same datagrams, and none was accepted in
its name. -/
structure Undisturbed (call : CallId) (net net' : Network) : Prop where
  took : ∀ k d, Took net' call k d ↔ Took net call k d
  sent : ∀ d' ∈ net', d'.sender = call → ∃ d ∈ net, d.sender = call ∧ d.payload = d'.payload

theorem Linked.undisturbed {thread : Thread} {n : Nat} (h : Linked p thread n log net)
    (hnet : Undisturbed (thread, n) net net') : Linked p thread n log net' where
  sent d' hd' hsender := by
    obtain ⟨d, hd, hsame, hpayload⟩ := hnet.sent d' hd' hsender
    rw [← hpayload]
    exact h.sent d hd hsame
  idle hreplies k d := by
    rw [hnet.took]
    exact h.idle hreplies k d
  took reply hreply := by
    obtain ⟨k, d, htook, hshows, honly⟩ := h.took reply hreply
    refine ⟨k, d, (hnet.took k d).mpr htook, hshows, ?_⟩
    intro k' d' htook'
    exact honly k' d' ((hnet.took k' d').mp htook')

theorem Undisturbed.refl : Undisturbed call net net :=
  ⟨fun _ _ => Iff.rfl, fun d hd hsender => ⟨d, hd, hsender, rfl⟩⟩

/-- A new datagram is nobody's yet. -/
theorem took_accept {d : Datagram} (hd : d.place = .flight) {k : Nat} {d' : Datagram} :
    Took (net ++ [d]) call k d' ↔ Took net call k d' := by
  rw [Took, Took, List.getElem?_append]
  split
  case isTrue hlt => rfl
  case isFalse hge =>
    rw [List.getElem?_eq_none (Nat.le_of_not_lt hge)]
    cases hk : k - net.length with
    | zero =>
        rw [List.getElem?_cons_zero]
        simp only [Option.some.injEq, reduceCtorEq, false_and, iff_false, not_and]
        rintro rfl
        rw [hd]
        exact Place.noConfusion
    | succ m => simp

theorem Undisturbed.accept {d : Datagram} (hplace : d.place = .flight) (hd : d.sender ≠ call) :
    Undisturbed call net (net ++ [d]) where
  took k d' := took_accept hplace
  sent d' hd' hsender := by
    rw [List.mem_append, List.mem_singleton] at hd'
    rcases hd' with hmem | rfl
    · exact ⟨d', hmem, hsender, rfl⟩
    · exact absurd hsender hd

/-- A datagram that changes its place has not changed otherwise. -/
theorem mem_of_mem_set {k : Nat} {d d' : Datagram} {place : Place} (hk : net[k]? = some d)
    (h : d' ∈ net.set k { d with place := place }) :
    ∃ d₀ ∈ net, d₀.sender = d'.sender ∧ d₀.payload = d'.payload := by
  rcases List.mem_or_eq_of_mem_set h with hmem | rfl
  · exact ⟨d', hmem, rfl, rfl⟩
  · exact ⟨d, List.mem_of_getElem? hk, rfl, rfl⟩

/-- A datagram is moved from somewhere else to somewhere else. -/
theorem Undisturbed.move {k : Nat} {d : Datagram} {place : Place} (hk : net[k]? = some d)
    (hfrom : d.place ≠ .taken call) (hto : place ≠ .taken call) :
    Undisturbed call net (net.set k { d with place := place }) where
  took k' d' := by
    rw [Took, Took, List.getElem?_set]
    split
    case isTrue heq =>
      subst heq
      simp only [hk, (List.getElem?_eq_some_iff.mp hk).1, if_true, Option.some.injEq]
      constructor
      · intro htook
        obtain ⟨rfl, hplace⟩ := htook
        exact absurd hplace hto
      · intro htook
        obtain ⟨rfl, hplace⟩ := htook
        exact absurd hplace hfrom
    case isFalse hne => rfl
  sent d' hd' hsender := by
    obtain ⟨d₀, hmem, hsame, hpayload⟩ := mem_of_mem_set hk hd'
    exact ⟨d₀, hmem, hsame.trans hsender, hpayload⟩

/-- An answer to one call is no concern of another: a datagram is moved in the name of the
call that was answered. -/
theorem Undisturbed.serves {thread : Thread} {n : Nat} {r : Request} {a : os.Answer r}
    (h : serves p thread n net r a net') (hne : (thread, n) ≠ call) :
    Undisturbed call net net' := by
  rcases serves_cases h with ⟨-, -, rfl⟩ | ⟨data, source, -, -, rfl⟩ | ⟨handle, reply, -, -, htakes⟩
  · exact .refl
  · exact .accept rfl hne
  · obtain ⟨k, d, fd, -, hk, hqueued, -, rfl⟩ := htakes
    exact .move hk (by simp [hqueued]) (by simpa using hne)

/-- The answer to a call that has moved no datagram yet. -/
theorem Linked.serves {thread : Thread} {n : Nat} {r : Request} {a : os.Answer r}
    (h : Linked p thread n log net) (hlog : Untouched log)
    (hserves : serves p thread n net r a net') :
    Linked p thread n (log ++ [⟨r, a⟩]) net' := by
  -- so far this call is the sender of no datagram and has taken none
  have hidle := h.idle hlog.2
  have hsender : ∀ d ∈ net, d.sender ≠ (thread, n) := by
    intro d hd heq
    have hmem := h.sent d hd heq
    rw [hlog.1] at hmem
    cases hmem
  rcases serves_cases hserves with ⟨hsent, hreply, rfl⟩ | ⟨data, source, hsent, hreply, rfl⟩ |
    ⟨handle, reply, hsent, hreply, htakes⟩
  · -- the network stayed as it was, and the call has still moved nothing
    have hlog' := hlog.snoc hsent hreply
    refine ⟨fun d hd heq => absurd heq (hsender d hd), fun _ => hidle, ?_⟩
    intro reply hone
    rw [hlog'.2] at hone
    cases hone
  · -- a datagram went in at the end of the network: it is the only one of this call
    obtain ⟨hsent', hreplies'⟩ := hlog.after ⟨r, a⟩
    rw [hsent, Option.toList_some] at hsent'
    rw [hreply, Option.toList_none] at hreplies'
    refine ⟨?_, fun _ k d htook => hidle k d ((took_accept rfl).mp htook), ?_⟩
    · intro d hd heq
      rw [List.mem_append, List.mem_singleton] at hd
      rcases hd with hmem | rfl
      · exact absurd heq (hsender d hmem)
      · rw [hsent']
        exact List.mem_singleton.mpr rfl
    · intro reply hone
      rw [hreplies'] at hone
      cases hone
  · -- a queued datagram was taken: it is marked with this call, and no other is
    obtain ⟨k, d, fd, -, hk, hqueued, hshows, rfl⟩ := htakes
    have hreplies' := (hlog.after ⟨r, a⟩).2
    rw [hreply, Option.toList_some] at hreplies'
    have hlt := (List.getElem?_eq_some_iff.mp hk).1
    refine ⟨?_, ?_, ?_⟩
    · intro d' hd' heq
      obtain ⟨d₀, hmem, hsame, -⟩ := mem_of_mem_set hk hd'
      exact absurd (hsame.trans heq) (hsender d₀ hmem)
    · intro hnone
      rw [hreplies'] at hnone
      cases hnone
    · intro reply' hone
      rw [hreplies', List.cons.injEq] at hone
      obtain ⟨rfl, -⟩ := hone
      refine ⟨k, _, ⟨List.getElem?_set_self hlt, rfl⟩, hshows, ?_⟩
      intro k' d' htook
      by_contra hne
      rw [Took, List.getElem?_set_ne (Ne.symm hne)] at htook
      exact hidle k' d' htook

/-! ### All calls

What one call has done by its log, and the network by the invariant, put together. -/

variable {sys : UdpSystem}

theorem Moves.not_taken {a b : Place} (h : Moves a b) : a ≠ .taken call ∧ b ≠ .taken call := by
  cases h <;> simp

theorem serves_legal (thread : Thread) (n : Nat) (net : Network) (r : Request) (a : os.Answer r)
    (net' : Network) (h : (udpRules p).serves thread n net r a net') : Legal p r a :=
  ⟨thread, n, net, net', h⟩

theorem Reachable.linked (h : System.Reachable (udpRules p) [] sys) (thread : Thread) (n : Nat) :
    Linked p thread n (sys.logOf thread n) sys.env := by
  refine System.Reachable.link (fun _ t ht => t.spec ht) serves_legal
    ?_ ?_ ?_ ?_ h thread n
  · intro thread n
    exact ⟨fun d hd => absurd hd List.not_mem_nil, fun _ k d htook => by simp [Took] at htook,
      fun reply hreply => by simp [replies] at hreply⟩
  · intro thread n t r seen log a net net' _ haccepts hserves hlinked
    exact hlinked.serves haccepts.1 hserves
  · intro thread n r a net net' hserves thread' n' log hne hlinked
    apply hlinked.undisturbed
    apply Undisturbed.serves hserves
    intro heq
    exact hne (by simpa [eq_comm] using heq)
  · intro net net' hdrifts thread n log hlinked
    obtain ⟨k, d, place, hk, hmoves, rfl⟩ := hdrifts
    exact hlinked.undisturbed (.move hk hmoves.not_taken.1 hmoves.not_taken.2)

/-- A call that has moved a datagram has returned. -/
theorem Reachable.returned (h : System.Reachable (udpRules p) [] sys) {thread : Thread} {n : Nat}
    (hlog : ¬ Untouched (sys.logOf thread n)) : ∃ j r s, (sys.jobs thread)[n]? = some j ∧
      j.state = .ret r s ∧ j.task.call.Returns p (sys.logOf thread n) r := by
  cases hj : (sys.jobs thread)[n]? with
  | none =>
      rw [System.logOf, hj] at hlog
      exact absurd ⟨rfl, rfl⟩ hlog
  | some j =>
      rw [System.logOf_eq hj] at hlog ⊢
      have hsound := (System.Reachable.job (fun _ t ht => t.spec ht) serves_legal h thread j
        (List.mem_of_getElem? hj)).2
      cases hstate : j.state with
      | ret r s =>
          rw [hstate] at hsound
          exact ⟨j, r, s, rfl, hstate, hsound⟩
      | exit e s =>
          rw [hstate] at hsound
          exact absurd hsound.2 hlog
      | call c seen k =>
          rw [hstate] at hsound
          exact absurd hsound.1.1 hlog

/-- `call` was a `ReceiveFrom` on `buffer`; it has returned `result` and left `buffer'`. -/
def ReceivedBy (sys : UdpSystem) (call : CallId) (buffer : Bytes)
    (result : SocketResult UdpReceiveResult) (buffer' : Bytes) : Prop :=
  ∃ j s, (sys.jobs call.1)[call.2]? = some j ∧ j.task.call = .receiveFrom buffer ∧
    j.state = .ret (.received result buffer') s

/-- `call` was a `SendTo` of `payload`. -/
def SentBy (sys : UdpSystem) (call : CallId) (payload : Bytes) : Prop :=
  ∃ j destination, (sys.jobs call.1)[call.2]? = some j ∧ j.task.call = .sendTo payload destination

theorem ReceivedBy.unique {b₁ b₂ b₁' b₂' : Bytes} {r₁ r₂ : SocketResult UdpReceiveResult}
    (h₁ : ReceivedBy sys call b₁ r₁ b₁') (h₂ : ReceivedBy sys call b₂ r₂ b₂') :
    b₁ = b₂ ∧ r₁ = r₂ ∧ b₁' = b₂' := by
  obtain ⟨j₁, s₁, hjob₁, hcall₁, hstate₁⟩ := h₁
  obtain ⟨j₂, s₂, hjob₂, hcall₂, hstate₂⟩ := h₂
  obtain rfl := Option.some.inj (hjob₁.symm.trans hjob₂)
  have hcall := hcall₁.symm.trans hcall₂
  have hstate := hstate₁.symm.trans hstate₂
  simp only [UdpCall.receiveFrom.injEq] at hcall
  simp only [Calls.Prog.ret.injEq, UdpResult.received.injEq] at hstate
  exact ⟨hcall, hstate.1⟩

/-- A reply that describes a datagram that fits has all of it. -/
theorem Reply.Describes.whole {l : Layout} {reply : Reply} {d : Datagram}
    (h : reply.Describes l d) (hwhole : reply.truncated = false) :
    d.payload.length ≤ reply.room ∧ reply.bytes = d.payload := by
  obtain ⟨hbytes, htruncated, -⟩ := h
  rw [hwhole, eq_comm, decide_eq_false_iff_not, Nat.not_lt] at htruncated
  exact ⟨htruncated, by rw [hbytes, List.take_of_length_le htruncated]⟩

/-- The call that took a datagram has returned all of it, or has reported that it was
longer than the buffer. -/
theorem Took.received (h : System.Reachable (udpRules p) [] sys) {k : Nat} {d : Datagram}
    (htook : Took sys.env call k d) : ∃ buffer result buffer',
      ReceivedBy sys call buffer result buffer' ∧
      ((∃ r, result = .success r ∧ d.payload.length ≤ buffer.length ∧
          r.bytesReceived = d.payload.length ∧ buffer'.take d.payload.length = d.payload ∧
          r.sender = d.source) ∨
        buffer.length < d.payload.length ∧ result = .failure (truncationError p)) := by
  obtain ⟨thread, n⟩ := call
  have hlinked := Reachable.linked h thread n
  have hreplies : replies (sys.logOf thread n) ≠ [] := fun hnone => hlinked.idle hnone k d htook
  obtain ⟨j, r, s, hjob, hstate, hreturns⟩ := Reachable.returned h fun hlog => hreplies hlog.2
  -- the reply in the log is about the datagram
  have hsame : ∀ reply, replies (sys.logOf thread n) = [reply] → reply.Describes p.layout d := by
    intro reply hreply
    obtain ⟨k', d', htook', hshows, honly⟩ := hlinked.took reply hreply
    obtain rfl := honly k d htook
    obtain rfl := Option.some.inj (htook.1.symm.trans htook'.1)
    exact hshows
  cases hcall : j.task.call with
  | sendTo buffer destination =>
      rw [hcall] at hreturns
      cases r with
      | sent result =>
          cases result with
          | success n => exact absurd hreturns.2.2 hreplies
          | failure error => exact absurd hreturns.2 hreplies
      | received result buffer' => exact hreturns.elim
  | receiveFrom buffer =>
      rw [hcall] at hreturns
      cases r with
      | sent result => exact hreturns.elim
      | received result buffer' =>
          refine ⟨buffer, result, buffer', ⟨j, s, hjob, hcall, hstate⟩, ?_⟩
          cases result with
          | success r =>
              obtain ⟨-, reply, hreply, hroom, hwhole, hcount, hbuffer, hsender⟩ := hreturns
              obtain ⟨hfits, hbytes⟩ := (hsame reply hreply).whole hwhole
              rw [hbytes] at hcount hbuffer
              exact .inl ⟨r, rfl, hroom ▸ hfits, hcount, hbuffer,
                hsender _ (hsame reply hreply).2.2⟩
          | failure error =>
              obtain ⟨-, ⟨reply, hreply, hroom, hcut, rfl⟩ | ⟨hnone, -⟩⟩ := hreturns
              · have hlong := (hsame reply hreply).2.1
                rw [hcut, eq_comm, decide_eq_true_iff, hroom] at hlong
                exact .inr ⟨hlong, rfl⟩
              · exact absurd hnone hreplies

/-- A call that succeeds or reports truncation has taken one datagram. -/
theorem ReceivedBy.took (h : System.Reachable (udpRules p) [] sys) {buffer buffer' : Bytes}
    {result : SocketResult UdpReceiveResult} (hreceived : ReceivedBy sys call buffer result buffer')
    (hresult : result.hasValue = true ∨
      buffer.length ≤ intMax ∧ result = .failure (truncationError p)) :
    ∃ k d, Took sys.env call k d ∧ ∀ k' d', Took sys.env call k' d' → k' = k := by
  obtain ⟨thread, n⟩ := call
  obtain ⟨j, s, hjob, hcall, hstate⟩ := hreceived
  have hsound := (System.Reachable.job (fun _ t ht => t.spec ht) serves_legal h thread j
    (List.mem_of_getElem? hjob)).2
  rw [hstate, hcall, ← System.logOf_eq hjob] at hsound
  have hreply : ∃ reply, replies (sys.logOf thread n) = [reply] := by
    cases result with
    | success r =>
        obtain ⟨-, reply, hreply, -⟩ := hsound
        exact ⟨reply, hreply⟩
    | failure error =>
        obtain ⟨-, ⟨reply, hreply, -⟩ | ⟨-, hlong⟩⟩ := hsound
        · exact ⟨reply, hreply⟩
        · obtain hvalue | ⟨hsize, herror⟩ := hresult
          · cases hvalue
          · have := hlong (SocketResult.failure.inj herror)
            omega
  obtain ⟨reply, hreply⟩ := hreply
  obtain ⟨k, d, htook, -, honly⟩ := (Reachable.linked h thread n).took reply hreply
  exact ⟨k, d, htook, honly⟩

/-- Every datagram is what some `SendTo` was called with. -/
theorem Reachable.sentBy (h : System.Reachable (udpRules p) [] sys) {d : Datagram}
    (hd : d ∈ sys.env) : SentBy sys d.sender d.payload := by
  have hsent := (Reachable.linked h d.sender.1 d.sender.2).sent d hd rfl
  obtain ⟨j, r, s, hjob, hstate, hreturns⟩ :=
    Reachable.returned h fun hlog => by rw [hlog.1] at hsent; cases hsent
  cases hcall : j.task.call with
  | sendTo buffer destination =>
      rw [hcall] at hreturns
      cases r with
      | sent result =>
          cases result with
          | success n =>
              rw [hreturns.2.1, List.mem_singleton] at hsent
              exact ⟨j, destination, hjob, by rw [hcall, hsent]⟩
          | failure error =>
              rw [hreturns.1] at hsent
              cases hsent
      | received result buffer' => exact hreturns.elim
  | receiveFrom buffer =>
      rw [hcall] at hreturns
      cases r with
      | sent result => exact hreturns.elim
      | received result buffer' =>
          -- a receiving call has sent nothing
          have hnone : sent (sys.logOf d.sender.1 d.sender.2) = [] := by
            cases result <;> exact hreturns.1
          rw [hnone] at hsent
          cases hsent

/-- What is promised about datagrams and the calls that take them, for every call that was
ever made. -/
structure Integrity (p : Platform) (sys : UdpSystem) : Prop where
  /-- The first bytes of the buffer are the whole of one datagram that came from there. -/
  whole : ∀ call buffer r buffer', ReceivedBy sys call buffer (.success r) buffer' →
    ∃ k d, Took sys.env call k d ∧ r.bytesReceived = d.payload.length ∧
      buffer'.take r.bytesReceived = d.payload ∧ r.sender = d.source
  /-- A datagram is the whole of what some `SendTo` was called with. -/
  authentic : ∀ d ∈ sys.env, SentBy sys d.sender d.payload
  /-- No datagram is taken by two calls. -/
  disjoint : ∀ call call' k d d', Took sys.env call k d → Took sys.env call' k d' → call = call'
  /-- A call that succeeds or reports truncation has taken exactly one datagram. -/
  one : ∀ call buffer result buffer', ReceivedBy sys call buffer result buffer' →
    buffer.length ≤ intMax →
    (result.hasValue = true ∨ result = .failure (truncationError p)) →
    ∃! k, ∃ d, Took sys.env call k d
  /-- A datagram that is longer than the buffer gives `message_size`, any other is returned. -/
  long : ∀ call k d, Took sys.env call k d → ∃ buffer result buffer',
    ReceivedBy sys call buffer result buffer' ∧
      if buffer.length < d.payload.length then
        ∃ error, result = .failure error ∧ error.isMatch p .messageSize = true
      else result.hasValue = true

/-- **Message integrity**, in every interleaving of any number of calls, whatever the
network does. -/
theorem message_integrity (p : Platform) {sys : UdpSystem}
    (h : System.Reachable (udpRules p) [] sys) : Integrity p sys where
  whole call buffer r buffer' hreceived := by
    obtain ⟨k, d, htook, -⟩ := hreceived.took h (.inl rfl)
    obtain ⟨_, _, _, hreceived', hdone⟩ := htook.received h
    obtain ⟨rfl, rfl, rfl⟩ := hreceived.unique hreceived'
    obtain ⟨r', hr, -, hcount, hbuffer, hsender⟩ | ⟨-, herror⟩ := hdone
    · obtain rfl := SocketResult.success.inj hr
      exact ⟨k, d, htook, hcount, by rw [hcount, hbuffer], hsender⟩
    · cases herror
  authentic d hd := Reachable.sentBy h hd
  disjoint call call' k d d' htook htook' := by
    have hsame := Option.some.inj (htook.1.symm.trans htook'.1)
    exact Place.taken.inj (htook.2.symm.trans (hsame ▸ htook'.2))
  one call buffer result buffer' hreceived hlen hresult := by
    obtain ⟨k, d, htook, honly⟩ := hreceived.took h (hresult.imp id fun herror => ⟨hlen, herror⟩)
    refine ⟨k, ⟨d, htook⟩, ?_⟩
    intro k' hk'
    obtain ⟨d', htook'⟩ := hk'
    exact honly k' d' htook'
  long call k d htook := by
    obtain ⟨buffer, result, buffer', hreceived, hdone⟩ := htook.received h
    refine ⟨buffer, result, buffer', hreceived, ?_⟩
    obtain ⟨r, rfl, hfits, -⟩ | ⟨hlong, rfl⟩ := hdone
    · rw [if_neg (Nat.not_lt.mpr hfits)]
      rfl
    · rw [if_pos hlong]
      exact ⟨_, rfl, isMatch_truncationError.mpr rfl⟩

/-- Three bytes are sent, arrive and are received into a buffer of four. -/
theorem message_integrity_three : ∃ sys buffer',
    System.Reachable (udpRules .linux) [] sys ∧ Integrity .linux sys ∧
    ReceivedBy sys (⟨1, 0⟩, 0) [0, 0, 0, 0] (.success ⟨3, .default⟩) buffer' ∧
    buffer'.take 3 = [1, 2, 3] := by
  let process (fd : Nat) : Process := (⟨fun _ => none, 0⟩ : Process).put (.user 0) (some fd)
  let sender : UdpTask := ⟨process 3, 0, 1, .sendTo [1, 2, 3] .default⟩
  let receiver : UdpTask := ⟨process 4, 0, 1, .receiveFrom [0, 0, 0, 0]⟩
  let d (place : Place) : Datagram := ⟨[1, 2, 3], .default, (⟨0, 0⟩, 0), place⟩
  have hvalid : sender.Valid ∧ receiver.Valid :=
    ⟨⟨fun x hx => by simp [sender, process, hx 0], some 3, by simp [sender, process]⟩,
      ⟨fun x hx => by simp [receiver, process, hx 0], some 4, by simp [receiver, process]⟩⟩
  have hsend : ∃ x, Steps (System.slotEnv (udpRules .linux) ⟨0, 0⟩ 0)
      (sender.body .linux sender.entry) [] x [d .flight] := by
    apply Exists.intro
    apply Steps.answer (I := os) (r := .ok (3 : Fin 4)) (c := ⟨.user 0, .sendto (some 3) [1, 2, 3] 0
      (SocketEndpoint.default.toNative .linux).1 (SocketEndpoint.default.toNative .linux).2⟩)
    · exact ⟨rfl, .default, rfl⟩
    exact .refl
  have hreceive : ∃ x, Steps (System.slotEnv (udpRules .linux) ⟨1, 0⟩ 0)
      (receiver.body .linux receiver.entry) [d (.queued 1 4)] x [d (.taken (⟨1, 0⟩, 0))] := by
    apply Exists.intro
    apply Steps.answer (I := os) (c := ⟨.user 0, .recvmsg (some 4) 4 128 0⟩)
      (r := .ok ⟨[1, 2, 3], by decide,
        ⟨(SocketEndpoint.default.toNative .linux).1.take 16, by decide⟩, false⟩)
    · refine ⟨0, d (.queued 1 4), 4, rfl, rfl, rfl, ⟨rfl, rfl, ?_, ?_⟩, rfl⟩
      · rfl
      · intro i hi
        have hlt := hi.lt
        exact List.getElem?_take_of_lt hlt
    exact .refl
  obtain ⟨x, hsend⟩ := hsend
  obtain ⟨x', hreceive⟩ := hreceive
  have h₀ : System.Reachable (udpRules .linux) [] (System.initial []) := .refl
  obtain ⟨log₁, h₁⟩ := h₀.run ⟨0, 0⟩ sender hvalid.1 (fun j hj => absurd hj List.not_mem_nil) hsend
  have h₂ := h₁.tail (System.Step.drift ⟨0, d .flight, .queued 1 4, rfl, .arrive, rfl⟩)
  obtain ⟨log₃, h₃⟩ := System.Reachable.run h₂ ⟨1, 0⟩ receiver hvalid.2
    (fun j hj => absurd hj List.not_mem_nil) hreceive
  have htook : Took [d (.taken (⟨1, 0⟩, 0))] (⟨1, 0⟩, 0) 0 (d (.taken (⟨1, 0⟩, 0))) := ⟨rfl, rfl⟩
  obtain ⟨buffer, result, buffer', hreceived, hdone⟩ := htook.received h₃
  have hbuffer : buffer = [0, 0, 0, 0] := by
    obtain ⟨j, s, hjob, hcall, -⟩ := hreceived
    obtain rfl := Option.some.inj hjob
    exact (UdpCall.receiveFrom.inj hcall).symm
  subst hbuffer
  obtain ⟨⟨count, source⟩, rfl, -, hcount, hbytes, hsource⟩ | ⟨hlong, -⟩ := hdone
  · obtain rfl : count = 3 := hcount
    obtain rfl : source = .default := hsource
    exact ⟨_, buffer', h₃, message_integrity .linux h₃, hreceived, hbytes⟩
  · exact absurd hlong (by decide)

end Net

end CoreSystems
