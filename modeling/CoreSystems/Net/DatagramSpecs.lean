import CoreSystems.Net.Datagrams

/-!
# CoreSystems.Net.DatagramSpecs

What one call of `SendTo` or `ReceiveFrom` does, seen from its own log.

The lemmas hold for any answers the network may give. How the calls of many threads share
the network is no concern of the code.

They are read off the rules of `CoreSystems.Net.UdpRules`: what an answer may be is `Legal`,
what it appends to the log is its event. `UdpTask.spec` is what the next module uses, and all
it knows of the code.
-/

namespace CoreSystems

open Buffer (Bytes)
open Calls (Code Env wp)

namespace Net

open SocketHandle

variable {p : Platform} {s : Process} {log : List Event} {x y : HandleId} {buffer b : Bytes}

/-! ### Answers

What the network may answer is stated of the network as a whole; these lemmas say what one
answer tells about one datagram. -/

section Answers

variable {handle : NativeHandle} {size nameSize flags length : Nat} {data name : Bytes}

theorem Legal.count {count : Nat}
    (h : Legal p ⟨x, .sendto handle data flags name length⟩ (.ok count)) :
    count = data.length := by
  obtain ⟨thread, n, net, net', hcount, -⟩ := h
  exact hcount

theorem Legal.recvmsg {r : Received size nameSize}
    (h : Legal p ⟨x, .recvmsg handle size nameSize flags⟩ (.ok r)) :
    ∃ d, r.reply.Describes p.layout d := by
  obtain ⟨thread, n, net, net', k, d, fd, -, -, -, hd, -⟩ := h
  exact ⟨d, hd⟩

theorem Legal.recvfrom {r : Received size nameSize}
    (h : Legal p ⟨x, .recvfrom handle size flags nameSize⟩ (.ok r)) :
    ∃ d, r.reply.Describes p.layout d := by
  obtain ⟨thread, n, net, net', k, d, fd, -, -, -, hd, -⟩ := h
  exact ⟨d, hd⟩

theorem Legal.recvfrom_error {e : Errno}
    (h : Legal p ⟨x, .recvfrom handle size flags nameSize⟩ (.error e)) :
    e.1 ≠ p.WSAEMSGSIZE := by
  obtain ⟨thread, n, net, net', he, -⟩ := h
  exact he

/-- A native address is read as the endpoint it names. -/
theorem Names.fromNative {l : Layout} {name : NativeName l.sizeofStorage}
    {source : SocketEndpoint} (h : Names l name.bytes source) :
    SocketEndpoint.fromNative l (some (Buffer.patch (List.replicate l.sizeofStorage 0) 0
      name.bytes)) name.bytes.length = .ok (some source) := by
  have hlen := name.length_le
  have hroom : 0 + name.bytes.length ≤ (List.replicate l.sizeofStorage (0 : UInt8)).length := by
    simpa using hlen
  rw [h.1]
  apply SocketEndpoint.fromNative_carried
  · rw [Buffer.length_patch hroom, List.length_replicate, ← h.1]
    exact hlen
  · intro i hi
    have hlt := hi.lt
    rw [Buffer.getElem?_patch hroom, if_neg (Nat.not_lt_zero i), if_pos (by rw [h.1]; omega),
      Nat.sub_zero]
    exact h.2 i hi

end Answers

/-! ### `ReceiveFrom`

A datagram that was cut is reported as `message_size`, and nothing else is: so from the error
alone a caller knows that a datagram was taken. -/

/-- Either receiving call takes a datagram or says that it took none. -/
theorem receives_udp {handle : NativeHandle} {nameSize : Nat} (hlog : Untouched log) :
    Receives (udpEnv p (.receiveFrom buffer)) p x handle buffer.length nameSize (fun a log' =>
      match a with
      | .error e => Untouched log' ∧ (p.windows = true → e.1 ≠ p.WSAEMSGSIZE)
      | .ok r => sent log' = [] ∧ replies log' = [r.reply] ∧
          ∃ d, r.reply.Describes p.layout d) s log := by
  rw [Receives]
  split
  case isTrue hwindows =>
    refine ⟨⟨hlog, rfl⟩, ?_⟩
    intro a log' ha
    obtain ⟨hlegal, rfl⟩ := ha
    cases a with
    | error e => exact ⟨hlog.snoc rfl rfl, fun _ => hlegal.recvfrom_error⟩
    | ok r => exact ⟨(hlog.after _).1, (hlog.after _).2, hlegal.recvfrom⟩
  case isFalse hposix =>
    refine ⟨⟨hlog, rfl⟩, ?_⟩
    intro a log' ha
    obtain ⟨hlegal, rfl⟩ := ha
    cases a with
    | error e => exact ⟨hlog.snoc rfl rfl, fun hwindows => absurd hwindows hposix⟩
    | ok r => exact ⟨(hlog.after _).1, (hlog.after _).2, hlegal.recvmsg⟩

/-- An error that no system call has reported as truncation. -/
theorem ofCode_ne_truncationError {e : Int} (he : p.windows = true → e ≠ p.WSAEMSGSIZE) :
    SocketError.ofCode e ≠ truncationError p := by
  rw [truncationError]
  split
  case isTrue hwindows =>
    intro heq
    exact he hwindows (congrArg SocketError.value heq)
  case isFalse hposix =>
    intro heq
    cases congrArg SocketError.category heq

theorem ofErrc_ne_truncationError {c : Errc} (hc : c ≠ .messageSize) :
    SocketError.ofErrc p c ≠ truncationError p := by
  rw [truncationError]
  split
  case isTrue hwindows =>
    intro heq
    cases congrArg SocketError.category heq
  case isFalse hposix =>
    intro heq
    exact hc (p.messageSize_unique c (congrArg SocketError.value heq))

/-- `ReceiveFrom`. -/
theorem wp_receiveFrom_udp {h : NativeHandle} {rounds : Nat} (hx : s.handles x = some h)
    (hlog : Untouched log) :
    wp (udpEnv p (.receiveFrom buffer)) (UdpSocket.receiveFrom p rounds x buffer)
      (fun r _ log' => UdpCall.Returns p log' (.receiveFrom buffer) (.received r.1 r.2))
      GaveUpUntouched s log := by
  apply wp_receiveFrom (fun _ log' => Untouched log') hx _ _ (fun _ _ => hlog)
    fun _ _ hout => ⟨rfl, hout⟩
  · intro fd hfd k hk s₁ log₁ hs₁ hlog₁
    apply (receives_udp hlog₁).imp
    intro a log₂ ha
    cases a with
    | error e =>
        obtain ⟨hlog₂, herror⟩ := ha
        refine ⟨fun _ => hlog₂, fun _ s₂ hs₂ => ⟨hlog₂.1, .inr ⟨hlog₂.2, ?_⟩⟩⟩
        intro heq
        exact absurd heq (ofCode_ne_truncationError herror)
    | ok r =>
        obtain ⟨hsent, hreply, d, hbytes, htruncated, hname⟩ := ha
        have hread : ∀ source, Names p.layout r.reply.name source → _ := fun source hsource =>
          Names.fromNative (show Names p.layout r.name.bytes source from hsource)
        intro sender s₂ hsender hs₂
        obtain rfl := Except.ok.inj (hsender.symm.trans (hread d.source hname))
        by_cases hcut : r.truncated = true
        · rw [receivedResult_cut hcut]
          exact ⟨hsent, .inl ⟨_, hreply, rfl, hcut, rfl⟩⟩
        · -- nothing was cut off, so the payload is what now stands first in the buffer
          rw [receivedResult_whole hcut]
          refine ⟨hsent, _, hreply, rfl, Bool.eq_false_iff.mpr hcut, rfl, ?_, ?_⟩
          · rw [Buffer.patch_zero]
            exact List.take_left
          · intro source hsource
            have heq := (hread d.source hname).symm.trans (hread source hsource)
            exact Option.some.inj (Except.ok.inj heq)
  · intro hinvalid
    exact ⟨hlog.1, .inr ⟨hlog.2, fun heq => absurd heq (ofErrc_ne_truncationError (by decide))⟩⟩
  · intro hvalid hlong
    exact ⟨hlog.1, .inr ⟨hlog.2, fun _ => hlong⟩⟩

/-! ### `SendTo`

The handing over happens in the loop; what comes before it and after it leaves the log
untouched. -/

section SendTo

variable {destination : SocketEndpoint} {h : NativeHandle} {name rounds : Nat}

/-- The loop of `SendTo` hands the datagram over once, or not at all. -/
theorem transmits_udp {handles : HandleId → Option NativeHandle} {fd : Nat}
    (hlog : Untouched log) :
    Transmits (udpEnv p (.sendTo buffer destination)) p rounds y fd buffer destination
      GaveUpUntouched handles
      (fun r _ log' => UdpCall.Returns p log' (.sendTo buffer destination) (.sent r)) log := by
  refine ⟨fun _ log' => Untouched log', hlog, fun _ _ hout => ⟨rfl, hout⟩, ?_⟩
  intro k s₁ log₁ hs₁ hlog₁
  refine ⟨⟨hlog₁, rfl⟩, ?_⟩
  intro a log₂ ha
  obtain ⟨hlegal, rfl⟩ := ha
  cases a with
  | error e => exact ⟨fun _ => hlog₁.snoc rfl rfl, fun _ _ _ => hlog₁.snoc rfl rfl⟩
  | ok count =>
      intro s₂ hs₂
      -- a datagram is accepted whole, so the count is the length of the buffer
      have hcount := hlegal.count
      rw [if_pos hcount]
      exact ⟨hcount, hlog₁.after _⟩

/-- `SendTo`. Neither making a socket nor closing it moves a datagram. -/
theorem wp_sendTo_udp (hidle : s.Idle) (hx : s.handles (.user name) = some h)
    (hlog : Untouched log) :
    wp (udpEnv p (.sendTo buffer destination))
      (UdpSocket.sendTo p rounds (.user name) buffer destination)
      (fun r _ log' => UdpCall.Returns p log' (.sendTo buffer destination) (.sent r))
      GaveUpUntouched s log := by
  apply wp_sendTo hidle hx
  · intro hlong
    exact hlog
  · intro fd hfd
    apply (transmits_udp hlog).imp
    intro r s₁ log₁ hs₁ hr s₂ hs₂
    exact hr
  · intro hnone family
    refine ⟨fun _ _ => ⟨hlog, trivial⟩, ?_⟩
    intro a log₁ ha
    obtain ⟨-, rfl⟩ := ha
    cases a with
    | error e =>
        intro s₁ hs₁
        exact hlog.snoc rfl rfl
    | ok fd =>
        apply (transmits_udp (hlog.snoc rfl rfl)).imp
        intro r s₁ log₂ hs₁ hr
        cases r with
        | success n =>
            intro s₂ hs₂
            exact hr
        | failure error =>
            refine ⟨fun _ _ => ⟨hr, trivial⟩, ?_⟩
            intro a log₃ ha s₂ hs₂
            obtain ⟨-, rfl⟩ := ha
            exact Untouched.snoc hr rfl rfl

end SendTo

/-- **One call.** It makes only the system calls that `Accepts` allows, and returns what
`Returns` says of its log. -/
theorem UdpTask.spec (t : UdpTask) (ht : t.Valid) :
    (t.body p t.entry).wp (udpEnv p t.call) (fun r _ log' => t.call.Returns p log' r)
      GaveUpUntouched [] := by
  obtain ⟨hidle, h, hx⟩ := ht
  have hnew : Untouched [] := ⟨rfl, rfl⟩
  show wp (udpEnv p t.call) (t.body p) _ _ t.entry []
  rw [UdpTask.body]
  cases t.call with
  | sendTo buffer destination =>
      rw [Calls.wp_bind]
      exact wp_sendTo_udp hidle hx hnew
  | receiveFrom buffer =>
      rw [Calls.wp_bind]
      exact wp_receiveFrom_udp hx hnew

end Net

end CoreSystems
