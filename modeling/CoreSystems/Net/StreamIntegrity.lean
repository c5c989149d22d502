import CoreSystems.Net.StreamSpecs

/-!
# CoreSystems.Net.StreamIntegrity

Streams stay whole: in every interleaving of the ends, what was taken off a stream and
what is still on it make up what was put on it, in order.

With what each call has done by its own log this gives the stream as the program sees it:
`SendAll` calls put their buffers on it one after another, and `ReceiveExact` calls that
succeed read it back, however the two sides cut it.

`Conserved` is the invariant over runs: for each stream, what all calls of its sender have put
on it is what all calls of its receiver have taken off it, followed by what is in the queue. A
step appends to one side of this equation or moves bytes within the other. `StreamIntegrity`
collects what follows for single calls and for sequences of them.
-/

namespace CoreSystems

open Buffer (Bytes)
open Calls (Job Prog Steps System)

namespace Net

/-! ### What is on the streams

The history of an end is the log of all its calls, those that have returned and the one that
is going on. -/

/-- Streams on which nothing has been sent. -/
def emptyPipes : Pipes := fun _ => ⟨[], false⟩

/-- What was put on each stream is what was taken off it and what is on it. -/
def Conserved (H : Nat × End → List Event) (pipes : Pipes) : Prop :=
  ∀ d, bytesGot (H (d, .receiver)) ++ (pipes d).queue = bytesPut (H (d, .sender))

/-- What an answer does to the streams: nothing, or append, or take from the front. -/
theorem pipeServes_cases {slot : Nat × End} {n : Nat} {pipes pipes' : Pipes} {r : Request}
    {a : os.Answer r} (h : pipeServes slot n pipes r a pipes') :
    (Event.put ⟨r, a⟩ = [] ∧ Event.got ⟨r, a⟩ = [] ∧ pipes' = pipes) ∨
    (slot.2 = .sender ∧ pipes' = Function.update pipes slot.1
      { pipes slot.1 with queue := (pipes slot.1).queue ++ Event.put ⟨r, a⟩ }) ∨
    (slot.2 = .receiver ∧ ∃ rest, (pipes slot.1).queue = Event.got ⟨r, a⟩ ++ rest ∧
      pipes' = Function.update pipes slot.1 { pipes slot.1 with queue := rest }) := by
  rcases r with ⟨x, c⟩
  cases c with
  | send handle data flags =>
      cases a with
      | error e => exact .inl ⟨rfl, rfl, h⟩
      | ok count => exact .inr (.inl ⟨h.1, h.2.2⟩)
  | recv handle size flags =>
      cases a with
      | error e => exact .inl ⟨rfl, rfl, h⟩
      | ok bytes => exact .inr (.inr ⟨h.1, h.2.2⟩)
  | _ => exact .inl ⟨by cases a <;> rfl, by cases a <;> rfl, by cases a <;> exact h⟩

/-- An answer keeps the account of every stream. -/
theorem Conserved.serves {H : Nat × End → List Event} {slot : Nat × End} {n : Nat}
    {pipes pipes' : Pipes} {r : Request} {a : os.Answer r} (hinv : Conserved H pipes)
    (h : pipeServes slot n pipes r a pipes') :
    Conserved (Function.update H slot (H slot ++ [⟨r, a⟩])) pipes' := by
  obtain ⟨d₀, side⟩ := slot
  intro d
  have hd := hinv d
  have hold : d ≠ d₀ → ∀ (queue : Bytes) (ended : Bool),
      bytesGot (Function.update H (d₀, side) (H (d₀, side) ++ [⟨r, a⟩]) (d, .receiver)) ++
        (Function.update pipes d₀ ⟨queue, ended⟩ d).queue =
      bytesPut (Function.update H (d₀, side) (H (d₀, side) ++ [⟨r, a⟩]) (d, .sender)) := by
    intro hne queue ended
    rw [Function.update_of_ne (by simp [hne]), Function.update_of_ne hne,
      Function.update_of_ne (by simp [hne]), hd]
  rcases pipeServes_cases h with ⟨hput, hgot, rfl⟩ | ⟨hside, rfl⟩ | ⟨hside, rest, hqueue, rfl⟩
  · -- nothing was moved, whoever has called
    have hsame : ∀ side', bytesPut (Function.update H (d₀, side)
        (H (d₀, side) ++ [⟨r, a⟩]) (d, side')) = bytesPut (H (d, side')) ∧
        bytesGot (Function.update H (d₀, side)
          (H (d₀, side) ++ [⟨r, a⟩]) (d, side')) = bytesGot (H (d, side')) := by
      intro side'
      by_cases hslot : (d, side') = (d₀, side)
      · rw [← hslot, Function.update_self, bytesPut_snoc, bytesGot_snoc, hput, hgot]
        simp
      · rw [Function.update_of_ne hslot]
        exact ⟨rfl, rfl⟩
    rw [(hsame .receiver).2, (hsame .sender).1, hd]
  · -- the bytes put on the stream went to the end of the queue
    obtain rfl := show side = .sender from hside
    by_cases hdd : d = d₀
    · subst hdd
      rw [Function.update_self, Function.update_self, Function.update_of_ne (by simp),
        bytesPut_snoc, ← hd, List.append_assoc]
    · exact hold hdd _ _
  · -- the bytes taken off were at the front of the queue
    obtain rfl := show side = .receiver from hside
    by_cases hdd : d = d₀
    · subst hdd
      rw [Function.update_self, Function.update_self, Function.update_of_ne (by simp),
        bytesGot_snoc, ← hd, List.append_assoc]
      exact congrArg _ hqueue.symm
    · exact hold hdd _ _

variable {p : Platform} {sys : StreamSystem}

/-- In every reachable state the account of every stream is right. -/
theorem Reachable.conserved (h : System.Reachable (streamRules p) emptyPipes sys) :
    Conserved sys.history sys.env := by
  apply System.Reachable.histories _ _ _ h
  · intro d
    rfl
  · intro slot n r a pipes pipes' H hserves hinv
    exact hinv.serves (show pipeServes slot n pipes r a pipes' from hserves)
  · intro pipes pipes' H hdrifts hinv d
    obtain ⟨d₀, rfl⟩ := hdrifts
    have hqueue : (Function.update pipes d₀ { pipes d₀ with ended := true } d).queue =
        (pipes d).queue := by
      by_cases hdd : d = d₀
      · subst hdd
        rw [Function.update_self]
      · rw [Function.update_of_ne hdd]
    rw [hqueue, hinv d]

/-! ### What the calls have done

Each call is sound by itself, since its specification asks nothing of the answers; it is known
by its log whether or not it has returned. -/

/-- A call on a stream. -/
abbrev StreamJob := Job os Process Exit StreamResult StreamTask

/-- How many bytes a transfer asks for. -/
def Call.requested : Call → Nat
  | .send _ data _ => data.length
  | .recv _ n _ => n
  | _ => 0

/-- The buffer that the `Send` or `Receive` a call is in was given. -/
def StreamCall.left (log : List Event) : StreamCall → Bytes
  | send buffer => buffer
  | sendAll buffer => buffer.drop (bytesPut log).length
  | receive buffer => buffer
  | receiveExact buffer => buffer.drop (bytesGot log).length

theorem StreamCall.Accepts.requested {call : StreamCall} {r : Request} {log : List Event}
    (h : call.Accepts r log) : r.call.requested = min (call.left log).length intMax ∧
      1 ≤ r.call.requested := by
  have hmax : 0 < intMax := by decide
  have htake : ∀ bytes : Bytes, bytes ≠ [] →
      (bytes.take intMax).length = min bytes.length intMax ∧ 1 ≤ (bytes.take intMax).length := by
    intro bytes hne
    have hlen := List.length_pos_iff.mpr hne
    rw [List.length_take]
    omega
  cases call with
  | send buffer =>
      obtain ⟨-, hne, handle, flags, hcall⟩ := h
      rw [hcall]
      exact htake buffer hne
  | sendAll buffer =>
      obtain ⟨rest, rfl, hne, handle, flags, hcall⟩ := h
      rw [hcall, StreamCall.left, List.drop_left]
      exact htake rest hne
  | receive buffer =>
      obtain ⟨-, hne, handle, flags, hcall⟩ := h
      have hlen := List.length_pos_iff.mpr hne
      rw [hcall]
      exact ⟨rfl, Nat.le_min.mpr ⟨hlen, hmax⟩⟩
  | receiveExact buffer =>
      obtain ⟨hlt, handle, flags, hcall⟩ := h
      rw [hcall, StreamCall.left, List.length_drop]
      exact ⟨rfl, Nat.le_min.mpr ⟨Nat.sub_pos_of_lt hlt, hmax⟩⟩

/-- Nothing is asked of the answers: what a call has done follows from its log. -/
theorem any_legal (slot : Nat × End) (n : Nat) (pipes : Pipes) (r : Request) (a : os.Answer r)
    (pipes' : Pipes) (_ : (streamRules p).serves slot n pipes r a pipes') :
    (fun (r : Request) (_ : os.Answer r) => True) r a :=
  trivial

/-- What is left of a job is right for what it has been answered. -/
theorem Reachable.job_sound (h : System.Reachable (streamRules p) emptyPipes sys)
    {slot : Nat × End} {j : StreamJob} (hj : j ∈ sys.jobs slot) :
    j.state.wp (streamEnv j.task.call) (fun r _ log => j.task.call.Returns j.task.Valid log r)
      (fun e _ log => e = .gaveUp ∧ j.task.call.GaveUp log) j.log :=
  (System.Reachable.job (fun _ t ht => t.spec ht.2) any_legal h slot j hj).2

theorem Reachable.returns (h : System.Reachable (streamRules p) emptyPipes sys)
    {slot : Nat × End} {j : StreamJob} (hj : j ∈ sys.jobs slot) {r : StreamResult} {s : Process}
    (hstate : j.state = .ret r s) : j.task.call.Returns j.task.Valid j.log r := by
  have hsound := Reachable.job_sound h hj
  rw [hstate] at hsound
  exact hsound

/-- At any moment `SendAll` has put a prefix of its buffer on the stream. -/
theorem Reachable.sendAll_front (h : System.Reachable (streamRules p) emptyPipes sys)
    {slot : Nat × End} {j : StreamJob} (hj : j ∈ sys.jobs slot) {buffer : Bytes}
    (hcall : j.task.call = .sendAll buffer) : bytesPut j.log <+: buffer := by
  have hsound := Reachable.job_sound h hj
  rw [hcall] at hsound
  cases hstate : j.state with
  | ret r s =>
      rw [hstate] at hsound
      cases r with
      | sentAll error => exact hsound.1
      | _ => exact hsound.elim
  | exit e s =>
      rw [hstate] at hsound
      exact hsound.2
  | call r seen k =>
      rw [hstate] at hsound
      obtain ⟨rest, hbuffer, -⟩ := hsound.1
      exact ⟨rest, hbuffer.symm⟩

/-- A `SendAll` that has returned success. -/
def Sent (j : StreamJob) : Prop :=
  ∃ error s, j.state = .ret (.sentAll error) s ∧ error.hasError = false

/-- A `ReceiveExact` that returned success and left `buffer'`. -/
def Filled (j : StreamJob) (buffer' : Bytes) : Prop :=
  ∃ buffer error s, j.task.call = .receiveExact buffer ∧
    j.state = .ret (.receivedExact error buffer') s ∧ error.hasError = false

/-- What a successful `ReceiveExact` has left is what it took off the stream. -/
theorem Filled.got (h : System.Reachable (streamRules p) emptyPipes sys) {slot : Nat × End}
    {j : StreamJob} (hj : j ∈ sys.jobs slot) {buffer' : Bytes} (hfilled : Filled j buffer') :
    bytesGot j.log = buffer' ∧
      ∀ buffer, j.task.call = .receiveExact buffer → buffer'.length = buffer.length := by
  obtain ⟨buffer, error, s, hcall, hstate, herror⟩ := hfilled
  have hreturns := Reachable.returns h hj hstate
  rw [hcall] at hreturns
  obtain ⟨-, hbuffer, hall, -⟩ := hreturns
  have hlen := hall.mp herror
  rw [Buffer.patch_zero, hlen, List.drop_length, List.append_nil] at hbuffer
  refine ⟨hbuffer.symm, ?_⟩
  intro buffer₂ hcall₂
  obtain rfl := StreamCall.receiveExact.inj (hcall.symm.trans hcall₂)
  rw [hbuffer, hlen]

/-- The bytes that were ever put on a stream. -/
def streamOf (sys : StreamSystem) (d : Nat) : Bytes := bytesPut (sys.history (d, .sender))

theorem bytesPut_flatMap (js : List StreamJob) :
    bytesPut (js.flatMap Job.log) = js.flatMap fun j => bytesPut j.log := by
  rw [bytesPut, List.flatMap_assoc]
  rfl

theorem bytesGot_flatMap (js : List StreamJob) :
    bytesGot (js.flatMap Job.log) = js.flatMap fun j => bytesGot j.log := by
  rw [bytesGot, List.flatMap_assoc]
  rfl

/-- Calls of `SendAll`, all but the last successful, have put a prefix of their buffers on
the stream. -/
theorem Reachable.sent_front (h : System.Reachable (streamRules p) emptyPipes sys)
    {slot : Nat × End} {js : List StreamJob} {sent : List Bytes} (hjs : js ⊆ sys.jobs slot)
    (hcalls : List.Forall₂ (fun j buffer => j.task.call = .sendAll buffer) js sent)
    (hsent : ∀ j ∈ js.dropLast, Sent j) : bytesPut (js.flatMap Job.log) <+: sent.flatten := by
  rw [bytesPut_flatMap]
  induction hcalls with
  | nil => exact List.prefix_rfl
  | @cons j buffer js sent hcall hrest ih =>
      have hj := hjs List.mem_cons_self
      rw [List.flatMap_cons, List.flatten_cons]
      cases hrest with
      | nil =>
          rw [List.flatMap_nil, List.flatten_nil, List.append_nil, List.append_nil]
          exact Reachable.sendAll_front h hj hcall
      | cons hcall' hrest =>
          -- a call before the last was successful, so all of its buffer is on the stream
          obtain ⟨error, s, hstate, herror⟩ := hsent j (by simp)
          have hreturns := Reachable.returns h hj hstate
          rw [hcall] at hreturns
          rw [hreturns.2.1.mp herror, List.prefix_append_right_inj]
          apply ih (fun _ hmem => hjs (List.mem_cons_of_mem _ hmem))
          intro j' hj'
          exact hsent j' (by simpa using .inr hj')

/-- Calls of `ReceiveExact` that succeeded have taken what they left in their buffers. -/
theorem Reachable.filled_flatten (h : System.Reachable (streamRules p) emptyPipes sys)
    {slot : Nat × End} {js : List StreamJob} {received : List Bytes} (hjs : js ⊆ sys.jobs slot)
    (hfilled : List.Forall₂ Filled js received) :
    bytesGot (js.flatMap Job.log) = received.flatten := by
  rw [bytesGot_flatMap]
  induction hfilled with
  | nil => rfl
  | @cons j buffer js received hj hrest ih =>
      rw [List.flatMap_cons, List.flatten_cons, (hj.got h (hjs List.mem_cons_self)).1,
        ih fun _ hmem => hjs (List.mem_cons_of_mem _ hmem)]

/-! ### Stream integrity

The promise, with its clauses in the order from one system call to whole sequences of calls. -/

/-- What is promised about streams and the calls at their ends. -/
structure StreamIntegrity (sys : StreamSystem) : Prop where
  /-- A transfer asks for at least one byte, and for no more than is left of the buffer and
  an `int` can say. -/
  request : ∀ slot, ∀ j ∈ sys.jobs slot, ∀ r seen k, j.state = .call r seen k →
    1 ≤ r.call.requested ∧ r.call.requested = min (j.task.call.left j.log).length intMax
  /-- `Send` reports what it has put on the stream; if it fails that is nothing, though on a
  valid socket the operating system was asked. -/
  send : ∀ slot, ∀ j ∈ sys.jobs slot, ∀ buffer result s, j.task.call = .send buffer →
    j.state = .ret (.sent result) s →
    match result with
    | .success n => bytesPut j.log = buffer.take n ∧ n = (bytesPut j.log).length ∧
        (buffer ≠ [] → j.log ≠ [])
    | .failure _ => bytesPut j.log = [] ∧ (j.task.Valid → j.log ≠ [])
  /-- `Receive` reports what it has taken off the stream; if it fails that is nothing, though
  on a valid socket the operating system was asked. -/
  receive : ∀ slot, ∀ j ∈ sys.jobs slot, ∀ buffer result buffer' s, j.task.call = .receive buffer →
    j.state = .ret (.received result buffer') s →
    match result with
    | .success n => n = (bytesGot j.log).length ∧
        buffer' = bytesGot j.log ++ buffer.drop n ∧ n ≤ buffer.length ∧ (buffer ≠ [] → j.log ≠ [])
    | .failure _ => bytesGot j.log = [] ∧ buffer' = buffer ∧ (j.task.Valid → j.log ≠ [])
  /-- At any moment `SendAll` has put a prefix of its buffer on the stream. -/
  sendAll : ∀ slot, ∀ j ∈ sys.jobs slot, ∀ buffer, j.task.call = .sendAll buffer →
    bytesPut j.log <+: buffer
  /-- The whole buffer if and only if it returns success. -/
  whole : ∀ slot, ∀ j ∈ sys.jobs slot, ∀ buffer error s, j.task.call = .sendAll buffer →
    j.state = .ret (.sentAll error) s → (error.hasError = false ↔ bytesPut j.log = buffer)
  /-- A loop over a non-empty buffer that returns has asked the operating system, if its socket
  is valid. -/
  asks : ∀ slot, ∀ j ∈ sys.jobs slot, ∀ buffer r s, j.task.call = .sendAll buffer ∨
    j.task.call = .receiveExact buffer → j.state = .ret r s → j.task.Valid → buffer ≠ [] →
    j.log ≠ []
  /-- A `ReceiveExact` that succeeds has filled its buffer with the next bytes of the stream. -/
  next : ∀ d done j later buffer error buffer' s, sys.jobs (d, .receiver) = done ++ j :: later →
    j.task.call = .receiveExact buffer → j.state = .ret (.receivedExact error buffer') s →
    error.hasError = false → buffer'.length = buffer.length ∧
      buffer' = ((streamOf sys d).drop (bytesGot (done.flatMap Job.log)).length).take buffer.length
  /-- Nothing is received that was not sent before, and in the same order. -/
  fifo : ∀ d, bytesGot (sys.history (d, .receiver)) <+: streamOf sys d
  /-- What `ReceiveExact` calls have received are the first bytes of what `SendAll` calls were
  given to send, however the two sides cut it, and all of them once there are as many. -/
  delivered : ∀ d sent received done later,
    List.Forall₂ (fun j buffer => j.task.call = .sendAll buffer) (sys.jobs (d, .sender)) sent →
    (∀ j ∈ (sys.jobs (d, .sender)).dropLast, Sent j) →
    sys.jobs (d, .receiver) = done ++ later → List.Forall₂ Filled done received →
    received.flatten <+: sent.flatten ∧
      (received.flatten.length = sent.flatten.length → received.flatten = sent.flatten)

/-- **Stream integrity**, in every interleaving of the ends, whatever the system calls
transfer. -/
theorem stream_integrity (p : Platform) {sys : StreamSystem}
    (h : System.Reachable (streamRules p) emptyPipes sys) : StreamIntegrity sys where
  request slot j hj r seen k hstate := by
    have hsound := Reachable.job_sound h hj
    rw [hstate] at hsound
    exact hsound.1.requested.symm
  send slot j hj buffer result s hcall hstate := by
    have hreturns := Reachable.returns h hj hstate
    rw [hcall] at hreturns
    cases result with
    | failure error => exact hreturns
    | success n =>
        obtain ⟨hfits, hput, hasked⟩ := hreturns
        refine ⟨hput, ?_, hasked⟩
        rw [hput, List.length_take, Nat.min_eq_left (hfits.trans (Nat.min_le_left ..))]
  receive slot j hj buffer result buffer' s hcall hstate := by
    have hreturns := Reachable.returns h hj hstate
    rw [hcall] at hreturns
    cases result with
    | failure error => exact hreturns
    | success n =>
        obtain ⟨hfits, hgot, hbuffer, hasked⟩ := hreturns
        refine ⟨hgot, ?_, hfits.trans (Nat.min_le_left ..), hasked⟩
        rw [hbuffer, Buffer.patch_zero, hgot]
  sendAll slot j hj buffer hcall := Reachable.sendAll_front h hj hcall
  whole slot j hj buffer error s hcall hstate := by
    have hreturns := Reachable.returns h hj hstate
    rw [hcall] at hreturns
    exact hreturns.2.1
  asks slot j hj buffer r s hcall hstate := by
    have hreturns := Reachable.returns h hj hstate
    rcases hcall with hcall | hcall
    · rw [hcall] at hreturns
      cases r with
      | sentAll error => exact hreturns.2.2
      | _ => exact hreturns.elim
    · rw [hcall] at hreturns
      cases r with
      | receivedExact error buffer' => exact hreturns.2.2.2
      | _ => exact hreturns.elim
  next d done j later buffer error buffer' s hjobs hcall hstate herror := by
    have hj : j ∈ sys.jobs (d, .receiver) := by simp [hjobs]
    obtain ⟨hgot, hlen⟩ := Filled.got h hj ⟨buffer, error, s, hcall, hstate, herror⟩
    refine ⟨hlen buffer hcall, ?_⟩
    -- the stream is what earlier calls took, what this one took, and the rest
    have hstream := Reachable.conserved h d
    rw [System.history, hjobs, List.flatMap_append, List.flatMap_cons] at hstream
    rw [streamOf, ← hstream]
    simp only [bytesGot, List.flatMap_append, List.append_assoc] at hgot ⊢
    rw [List.drop_left, hgot, ← hlen buffer hcall, List.take_left]
  fifo d := ⟨_, Reachable.conserved h d⟩
  delivered d sent received done later hcalls hsent hjobs hfilled := by
    have hsub : done ⊆ sys.jobs (d, .receiver) := by simp [hjobs]
    have htaken : bytesGot (done.flatMap Job.log) <+: streamOf sys d := by
      refine List.IsPrefix.trans ?_ ⟨_, Reachable.conserved h d⟩
      simp [System.history, hjobs, bytesGot]
    have hfront := htaken.trans (Reachable.sent_front h (fun _ hj => hj) hcalls hsent)
    rw [Reachable.filled_flatten h hsub hfilled] at hfront
    exact ⟨hfront, hfront.eq_of_length⟩

/-- Three bytes are sent as two and one, and received as one and two. -/
theorem stream_integrity_three : ∃ sys : StreamSystem,
    System.Reachable (streamRules .linux) emptyPipes sys ∧ StreamIntegrity sys ∧
    (∃ j ∈ sys.jobs (0, .sender), j.task.call = .sendAll [1, 2, 3] ∧ Sent j) ∧
    ∃ j ∈ sys.jobs (0, .receiver), Filled j [1, 2, 3] := by
  let process (fd : Nat) : Process := (⟨fun _ => none, 0⟩ : Process).put (.user 0) (some fd)
  let sender : StreamTask := ⟨process 3, .user 0, 1, .sendAll [1, 2, 3]⟩
  let receiver : StreamTask := ⟨process 4, .user 0, 1, .receiveExact [0, 0, 0]⟩
  let pipes (queue : Bytes) : Pipes := Function.update emptyPipes 0 ⟨queue, false⟩
  have hpipes : ∀ a b, Function.update (pipes a) 0 { pipes a 0 with queue := b } = pipes b := by
    intro a b
    simp [pipes]
  have hempty : emptyPipes = pipes [] := (Function.update_eq_self 0 emptyPipes).symm
  have hsend : Steps (System.slotEnv (streamRules .linux) (0, .sender) 0)
      ((streamRules .linux).code sender) (pipes [])
      (.ret (.sentAll .success) (process 3)) (pipes [1, 2, 3]) := by
    apply Steps.answer (I := os) (r := .ok (2 : Fin 4))
      (c := ⟨.user 0, .send (some 3) [1, 2, 3] 16384⟩)
    · exact ⟨rfl, rfl, (hpipes [] [1, 2]).symm⟩
    apply Steps.answer (I := os) (r := .ok (1 : Fin 2)) (c := ⟨.user 0, .send (some 3) [3] 16384⟩)
    · exact ⟨rfl, rfl, (hpipes [1, 2] [1, 2, 3]).symm⟩
    exact .refl
  have hreceive : Steps (System.slotEnv (streamRules .linux) (0, .receiver) 0)
      ((streamRules .linux).code receiver) (pipes [1, 2, 3])
      (.ret (.receivedExact .success [1, 2, 3]) (process 4)) (pipes []) := by
    apply Steps.answer (I := os) (r := .ok ⟨[1], by decide⟩)
      (c := ⟨.user 0, .recv (some 4) 3 0⟩)
    · exact ⟨rfl, by simp, [2, 3], rfl, (hpipes [1, 2, 3] [2, 3]).symm⟩
    apply Steps.answer (I := os) (r := .ok ⟨[2, 3], by decide⟩) (c := ⟨.user 0, .recv (some 4) 2 0⟩)
    · exact ⟨rfl, by simp, [], rfl, (hpipes [2, 3] []).symm⟩
    exact .refl
  have h₀ : System.Reachable (streamRules .linux) emptyPipes (System.initial (pipes [])) := by
    rw [hempty]
    exact .refl
  obtain ⟨log₁, h₁⟩ := h₀.run (0, .sender) sender ⟨rfl, some 3, rfl⟩
    (fun j hj => absurd hj List.not_mem_nil) hsend
  obtain ⟨log₂, h₂⟩ := System.Reachable.run h₁ (0, .receiver) receiver ⟨rfl, some 4, rfl⟩
    (fun j hj => absurd hj List.not_mem_nil) hreceive
  refine ⟨_, h₂, stream_integrity .linux h₂,
    ⟨⟨sender, log₁, .ret (.sentAll .success) (process 3)⟩, ?_, rfl, .success, _, rfl, rfl⟩,
    ⟨⟨receiver, log₂, .ret (.receivedExact .success [1, 2, 3]) (process 4)⟩, ?_,
      _, .success, _, rfl, rfl, rfl⟩⟩
  · exact List.mem_singleton.mpr rfl
  · exact List.mem_singleton.mpr rfl

end Net

end CoreSystems
