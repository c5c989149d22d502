import CoreSystems.Net.DatagramSpecs
import CoreSystems.Net.ErrorConditions

/-!
# CoreSystems.Net.Receiving

The two bodies of `UdpSocket::ReceiveFrom`, the one for POSIX and the one for Winsock, do
the same.

A world is a queue of datagrams and a script of what becomes of the receiving calls, the
same for both platforms; a platform has its own form of an address and its own number for
an error. `World.receive` says what `ReceiveFrom` is about without either: it does not know
how truncation is signalled. Each body is shown to compute it on its platform, and the
platforms are compared only there.

The comparison has two parts. `receiveFrom_run` shows for one platform that its body returns
what `World.receive` comes to, and leaves the same queue; `World.Common.receive_eq` shows that
this does not depend on the platform, if the failures of the script correspond. So
`receiveFrom_agrees` never compares the two bodies step by step, though one of them learns of
truncation by a flag and the other by an error.
-/

namespace CoreSystems

open Buffer (Bytes)
open Calls (Code Env Outcome servedBy wp)

namespace Net

open SocketHandle

/-! ### The world

Nothing in it is about a platform but the numbers of errors and the bytes of addresses, which
are functions of the platform. -/

/-- A datagram that has arrived: where it came from, if that is an address the library
knows, and the native address as a platform has it. -/
structure Arrival where
  payload : Bytes
  source : Option SocketEndpoint
  name : Platform → Bytes

/-- What becomes of a receiving call. A failure has a number on each platform. -/
inductive Answer
  | fails (code : Platform → Errno)
  | delivers

/-- The datagrams that wait to be received, and the answers to come. -/
structure World where
  script : List Answer
  queue : List Arrival

namespace World

variable {p : Platform}

/-- One receiving call with room for `size` bytes. `delivers` takes the first datagram off
the queue and waits while there is none. -/
def answer (p : Platform) (w : World) (size nameSize : Nat) :
    Option (Except Errno (Received size nameSize) × World) :=
  match w.script, w.queue with
  | .fails code :: script, queue => some (.error (code p), ⟨script, queue⟩)
  | .delivers :: script, d :: queue =>
    some (.ok ⟨d.payload.take size, List.length_take_le .., ⟨(d.name p).take nameSize,
      List.length_take_le ..⟩, size < d.payload.length⟩, ⟨script, queue⟩)
  | _, _ => none

/-- The world answers the calls of `ReceiveFrom`. -/
def serve (p : Platform) (w : World) : (r : Request) → Option (os.Answer r × World)
  | ⟨_, .recvmsg _ size nameSize _⟩ => w.answer p size nameSize
  | ⟨_, .recvfrom _ size _ nameSize⟩ => w.answer p size nameSize
  | _ => none

end World

/-- What a `ReceiveFrom` comes to, before a platform has given it its form. -/
inductive Delivery
  /-- It was refused without a call. -/
  | refused (condition : Errc)
  /-- A call failed for good. -/
  | failed (code : Platform → Errno)
  /-- A datagram was taken off the queue. -/
  | taken (d : Arrival)
  /-- All rounds were interrupted. -/
  | gaveUp
  /-- It is still waiting. -/
  | waiting

/-- Receive, calling again after an interruption. -/
def World.await (p : Platform) : Nat → World → Delivery × World
  | 0, w => (.gaveUp, w)
  | n + 1, w =>
    match w.script, w.queue with
    | .fails code :: script, queue =>
      if SocketError.isInterrupted p (.ofCode (code p)) then await p n ⟨script, queue⟩
      else (.failed code, ⟨script, queue⟩)
    | .delivers :: script, d :: queue => (.taken d, ⟨script, queue⟩)
    | _, _ => (.waiting, w)

/-- What `ReceiveFrom` is about, for an object that is valid or not and a buffer of some size. -/
def World.receive (p : Platform) (rounds size : Nat) (valid : Bool) (w : World) :
    Delivery × World :=
  if valid then
    if size > intMax then (.refused .messageSize, w) else w.await p rounds
  else
    (.refused .badFileDescriptor, w)

/-- What is returned for it, and what is then in the buffer. -/
def Delivery.result (p : Platform) (buffer : Bytes) :
    Delivery → Option (SocketResult UdpReceiveResult × Bytes)
  | refused condition => some (.failure (.ofErrc p condition), buffer)
  | failed code => some (.failure (.ofCode (code p)), buffer)
  | taken d =>
    let buffer' := Buffer.patch buffer 0 (d.payload.take buffer.length)
    if buffer.length < d.payload.length then
      some (.failure (truncationError p), buffer')
    else
      match d.source with
      | none => some (.failure (invalidArgument p), buffer')
      | some source => some (.success ⟨d.payload.length, source⟩, buffer')
  | gaveUp => none
  | waiting => none

/-- The native address fits its place and is that of the source, or one that the library
does not know. -/
def Arrival.Shown (p : Platform) (d : Arrival) : Prop :=
  (d.name p).length ≤ p.layout.sizeofStorage ∧
    match d.source with
    | some source => Names p.layout (d.name p) source
    | none => SocketEndpoint.fromNative p.layout (some (Buffer.patch
        (List.replicate p.layout.sizeofStorage 0) 0 (d.name p))) (d.name p).length = .ok none

/-! ### One call

A call is answered by the first entry of the script; what the answer is on a platform is
`World.answer`. -/

section Bodies

variable {p : Platform} {s : Process} {w : World} {x : HandleId} {h : NativeHandle}
variable {buffer : Bytes} {size nameSize rounds : Nat}

/-- What an answer means for the delivery: go on, or the call that decides. -/
theorem World.await_answer {a : Except Errno (Received size nameSize)} {w' : World}
    (h : w.answer p size nameSize = some (a, w')) (n : Nat) :
    match a with
    | .error e => ∃ code, e = code p ∧ w'.queue = w.queue ∧ w.await p (n + 1) =
        if SocketError.isInterrupted p (.ofCode e) then w'.await p n else (.failed code, w')
    | .ok r => ∃ d, w.queue = d :: w'.queue ∧ w.await p (n + 1) = (.taken d, w') ∧
        r.bytes = d.payload.take size ∧ r.name.bytes = (d.name p).take nameSize ∧
        r.truncated = decide (size < d.payload.length) := by
  obtain ⟨script, queue⟩ := w
  cases script with
  | nil => cases h
  | cons entry script =>
      cases entry with
      | fails code =>
          obtain ⟨rfl, rfl⟩ := Prod.mk.inj (Option.some.inj h)
          exact ⟨code, rfl, rfl, rfl⟩
      | delivers =>
          cases queue with
          | nil => cases h
          | cons d queue =>
              obtain ⟨rfl, rfl⟩ := Prod.mk.inj (Option.some.inj h)
              exact ⟨d, rfl, rfl, rfl, rfl, rfl⟩

/-- A call that is not answered waits. -/
theorem World.await_waiting {n : Nat} (h : w.answer p size nameSize = none) :
    w.await p (n + 1) = (.waiting, w) := by
  obtain ⟨script, queue⟩ := w
  cases script with
  | nil => rfl
  | cons entry script =>
      cases entry with
      | fails code => cases h
      | delivers =>
          cases queue with
          | nil => rfl
          | cons d queue => cases h

/-- The environment of one body, whose calls satisfy `A`. -/
abbrev worldEnv (p : Platform) (A : Request → Process → World → Prop) : Env os Process World :=
  servedBy (World.serve p) A

/-- A native address is read as the source of its datagram. -/
theorem Arrival.Shown.fromNative {d : Arrival} (hd : d.Shown p) :
    SocketEndpoint.fromNative p.layout (some (Buffer.patch
      (List.replicate p.layout.sizeofStorage 0) 0 (d.name p))) (d.name p).length =
      .ok d.source := by
  obtain ⟨hlen, hname⟩ := hd
  cases hsource : d.source with
  | none =>
      rw [hsource] at hname
      exact hname
  | some source =>
      rw [hsource] at hname
      have hnames : Names p.layout (⟨d.name p, hlen⟩ : NativeName _).bytes source := hname
      exact hnames.fromNative

/-! ### The loop

The environment accepts a call only while the delivery is open, so that the body makes as many
calls as the delivery takes and no more. -/

/-- All addresses in the queue are as this platform has them. -/
def World.Shown (p : Platform) (w : World) : Prop := ∀ d ∈ w.queue, d.Shown p

/-- A call is made only while the delivery is open, and it is one that the world answers
unless it waits. -/
def Awaits (p : Platform) (expected : Delivery × World) (r : Request) (_ : Process)
    (w' : World) : Prop :=
  (∃ n, expected = w'.await p (n + 1)) ∧
    (w'.serve p r = none → ∃ size nameSize, w'.answer p size nameSize = none)

/-- Either receiving call is answered as the world says. -/
theorem receives_world {expected : Delivery × World} {handle : NativeHandle} {n : Nat}
    (hopen : expected = w.await p (n + 1)) :
    Receives (worldEnv p (Awaits p expected)) p x handle size nameSize
      (fun a w' => w.answer p size nameSize = some (a, w')) s w := by
  rw [Receives]
  split
  all_goals exact ⟨⟨⟨n, hopen⟩, fun hnone => ⟨size, nameSize, hnone⟩⟩, fun a w' ha => ha⟩

/-- `ReceiveFrom` returns what the delivery says. -/
theorem wp_receiveFrom_world (hx : s.handles x = some h) (hw : w.Shown p) :
    wp (worldEnv p (Awaits p (w.receive p rounds buffer.length h.isSome)))
      (UdpSocket.receiveFrom p rounds x buffer)
      (fun r _ w' => ∃ delivery, w.receive p rounds buffer.length h.isSome = (delivery, w') ∧
        delivery.result p buffer = some r)
      (fun e _ w' => e = .gaveUp ∧
        w.receive p rounds buffer.length h.isSome = (.gaveUp, w')) s w := by
  -- after `k` rounds the delivery is what the rest of the rounds come to
  apply wp_receiveFrom (fun k w' => w'.Shown p ∧
    w.receive p rounds buffer.length h.isSome = w'.await p (rounds - k)) hx
  · intro hnone
    subst hnone
    exact ⟨.refused .badFileDescriptor, rfl, rfl⟩
  · intro hvalid hlong
    refine ⟨.refused .messageSize, ?_, rfl⟩
    rw [World.receive, if_pos hvalid, if_pos hlong]
  · intro hvalid hshort
    refine ⟨hw, ?_⟩
    rw [World.receive, if_pos hvalid, if_neg (Nat.not_lt.mpr hshort), Nat.sub_zero]
  · intro s' w' hout
    refine ⟨rfl, ?_⟩
    rw [hout.2, Nat.sub_self]
    rfl
  · intro fd hfd k hk s' w' hs' hinv
    obtain ⟨hw', hsame⟩ := hinv
    obtain ⟨n, hn⟩ := Nat.exists_eq_add_of_lt hk
    rw [show rounds - k = n + 1 by omega] at hsame
    apply (receives_world hsame).imp
    intro a w'' ha
    have hanswer := World.await_answer ha n
    cases a with
    | error e =>
        obtain ⟨code, rfl, hqueue, hnext⟩ := hanswer
        constructor
        · intro hagain
          refine ⟨fun d hd => hw' d (hqueue ▸ hd), ?_⟩
          rw [hsame, hnext, if_pos hagain, show rounds - (k + 1) = n by omega]
        · intro hlast s'' hs''
          refine ⟨.failed code, ?_, rfl⟩
          rw [hsame, hnext, if_neg (by simp [hlast])]
    | ok r =>
        obtain ⟨d, hqueue, hnext, hbytes, hname, hcut⟩ := hanswer
        have hd : d.Shown p := hw' d (by rw [hqueue]; exact List.mem_cons_self)
        intro sender s'' hsender hs''
        rw [hname, List.take_of_length_le hd.1, hd.fromNative] at hsender
        obtain rfl := Except.ok.inj hsender
        refine ⟨.taken d, hsame.trans hnext, ?_⟩
        rw [Delivery.result, hbytes]
        by_cases hlong : buffer.length < d.payload.length
        · rw [if_pos hlong, receivedResult_cut (by rw [hcut]; exact decide_eq_true hlong)]
        · rw [if_neg hlong, receivedResult_whole (by simp [hcut, hlong]), hbytes,
            List.take_of_length_le (Nat.not_lt.mp hlong)]
          cases d.source <;> rfl

/-- How a run of `ReceiveFrom` on a platform stops, for what the delivery comes to. -/
def Delivery.Shows (p : Platform) (buffer : Bytes) (delivery : Delivery) :
    Outcome Process Exit (SocketResult UdpReceiveResult × Bytes) → Prop
  | .ret r _ => delivery.result p buffer = some r
  | .exit e _ => e = .gaveUp ∧ delivery = .gaveUp
  | .blocked => delivery = .waiting

/-- **Each body does what `ReceiveFrom` is about.** -/
theorem receiveFrom_run (rounds : Nat) (buffer : Bytes) (hx : s.handles x = some h)
    (hw : w.Shown p) :
    let run := (UdpSocket.receiveFrom p rounds x buffer s).run (World.serve p) w
    ∃ delivery, w.receive p rounds buffer.length h.isSome = (delivery, run.2) ∧
      delivery.Shows p buffer run.1 := by
  have hwp : wp _ (UdpSocket.receiveFrom p rounds x buffer) _ _ s w := wp_receiveFrom_world hx hw
  have hrun := hwp.run
  dsimp only
  split at hrun
  case h_1 r s' w' hstop =>
    obtain ⟨delivery, hreceive, hresult⟩ := hrun
    rw [hstop]
    exact ⟨delivery, hreceive, hresult⟩
  case h_2 e s' w' hstop =>
    rw [hstop]
    exact ⟨.gaveUp, hrun.2, hrun.1, rfl⟩
  case h_3 w' hstop =>
    obtain ⟨c, seen, ⟨⟨n, hexpected⟩, hanswer⟩, hserve⟩ := hrun
    obtain ⟨size, nameSize, hnone⟩ := hanswer hserve
    rw [hstop]
    exact ⟨.waiting, hexpected.trans (World.await_waiting hnone), rfl⟩

end Bodies

/-! ### Both bodies

Under corresponding failures both platforms come to the same delivery, and report it alike. -/

section Both

variable {p q : Platform} {w : World} {buffer : Bytes} {delivery : Delivery} {n : Nat}

/-- The failures of the script correspond, and every address is known to both platforms. -/
structure World.Common (p q : Platform) (w : World) : Prop where
  script : ∀ code, .fails code ∈ w.script → Corresponds p q (code p) (code q)
  queue : ∀ d ∈ w.queue, d.Shown p ∧ d.Shown q

/-- A delivery that the platforms report alike: a condition they both know, numbers that
correspond, or a datagram whose address both have. -/
def Delivery.Common (p q : Platform) : Delivery → Prop
  | refused c => c ∈ Errc.known ∧ ¬ c.WouldBlock
  | failed code => Corresponds p q (code p) (code q)
  | _ => True

/-- Both platforms go on after the same failures, so they come to the same delivery. -/
theorem World.Common.await_eq (hp : Posix p) (hq : Winsock q) (hw : w.Common p q) :
    w.await p n = w.await q n ∧ (w.await p n).1.Common p q := by
  induction n generalizing w with
  | zero => exact ⟨rfl, trivial⟩
  | succ n ih =>
      obtain ⟨script, queue⟩ := w
      cases script with
      | nil => exact ⟨rfl, trivial⟩
      | cons entry script =>
          cases entry with
          | delivers => cases queue <;> exact ⟨rfl, trivial⟩
          | fails code =>
              have hcode := hw.script code List.mem_cons_self
              have hsame : SocketError.isInterrupted p (.ofCode (code p)) =
                  SocketError.isInterrupted q (.ofCode (code q)) := hcode.alike hp hq .interrupted
              have hrest : World.Common p q ⟨script, queue⟩ :=
                ⟨fun code hmem => hw.script code (List.mem_cons_of_mem _ hmem), hw.queue⟩
              simp only [World.await, ← hsame]
              split
              case isTrue hagain => exact ih hrest
              case isFalse hlast => exact ⟨rfl, hcode⟩

theorem World.Common.receive_eq (hp : Posix p) (hq : Winsock q) (hw : w.Common p q)
    (rounds size : Nat) (valid : Bool) :
    w.receive p rounds size valid = w.receive q rounds size valid ∧
      (w.receive p rounds size valid).1.Common p q := by
  simp only [World.receive]
  split
  case isTrue hvalid =>
    split
    case isTrue hlong => exact ⟨rfl, by decide, by simp [Errc.WouldBlock]⟩
    case isFalse hshort => exact hw.await_eq hp hq
  case isFalse hinvalid => exact ⟨rfl, by decide, by simp [Errc.WouldBlock]⟩

/-- The same count and sender, or errors that are alike, and the same bytes in the buffer. -/
def ResultsAgree (p q : Platform) (r r' : SocketResult UdpReceiveResult × Bytes) : Prop :=
  r.2 = r'.2 ∧
    match r.1, r'.1 with
    | .success received, .success received' => received = received'
    | .failure e, .failure e' => Alike p q e e'
    | _, _ => False

/-- What is returned for one delivery on two platforms. -/
theorem Delivery.Common.result (hp : Posix p) (hq : Winsock q) (h : delivery.Common p q)
    (buffer : Bytes) :
    match delivery.result p buffer, delivery.result q buffer with
    | some r, some r' => ResultsAgree p q r r'
    | none, none => True
    | _, _ => False := by
  cases delivery with
  | refused c => exact ⟨rfl, alike_ofErrc hp.distinct hq.distinct h.1 h.2⟩
  | failed code => exact ⟨rfl, Corresponds.alike hp hq h⟩
  | gaveUp => trivial
  | waiting => trivial
  | taken d =>
      simp only [Delivery.result]
      split_ifs
      · refine ⟨rfl, ?_⟩
        intro c
        rw [Bool.eq_iff_iff, isMatch_truncationError, isMatch_truncationError]
      · cases d.source with
        | none =>
            exact ⟨rfl, alike_ofErrc hp.distinct hq.distinct (by decide)
              (by simp [Errc.WouldBlock])⟩
        | some source => exact ⟨rfl, rfl⟩

/-- A run of a body takes the first datagram off the queue or leaves the queue as it was. -/
theorem World.await_queue : match w.await p n with
    | (.taken d, w') => w.queue = d :: w'.queue
    | (_, w') => w'.queue = w.queue := by
  induction n generalizing w with
  | zero => rfl
  | succ n ih =>
      obtain ⟨script, queue⟩ := w
      cases script with
      | nil => rfl
      | cons entry script =>
          cases entry with
          | delivers => cases queue <;> rfl
          | fails code =>
              cases hagain : SocketError.isInterrupted p (.ofCode (code p)) with
              | true =>
                  simp only [World.await, hagain, ↓reduceIte]
                  exact ih (w := ⟨script, queue⟩)
              | false => simp only [World.await, hagain, Bool.false_eq_true, ↓reduceIte]

/-- With more rounds than there are answers to come, not all rounds are interrupted. -/
theorem World.await_ends (h : w.script.length < n) : (w.await p n).1 ≠ .gaveUp := by
  induction n generalizing w with
  | zero => omega
  | succ n ih =>
      obtain ⟨script, queue⟩ := w
      cases script with
      | nil => exact nofun
      | cons entry script =>
          cases entry with
          | delivers => cases queue <;> exact nofun
          | fails code =>
              cases hagain : SocketError.isInterrupted p (.ofCode (code p)) with
              | true =>
                  simp only [World.await, hagain, ↓reduceIte]
                  exact ih (w := ⟨script, queue⟩) (Nat.lt_of_succ_lt_succ h)
              | false =>
                  simp only [World.await, hagain, Bool.false_eq_true, ↓reduceIte]
                  exact nofun

theorem World.receive_ends {rounds size : Nat} {valid : Bool} (h : w.script.length < rounds) :
    (w.receive p rounds size valid).1 ≠ .gaveUp := by
  simp only [World.receive]
  split
  case isTrue hvalid =>
    split
    case isTrue hlong => exact nofun
    case isFalse hshort => exact World.await_ends h
  case isFalse hinvalid => exact nofun

/-- If a datagram has gone from the queue, it is what was delivered. -/
theorem World.receive_taken {rounds size : Nat} {valid : Bool} {d : Arrival} {w' : World}
    (h : w.receive p rounds size valid = (delivery, w')) (hqueue : w.queue = d :: w'.queue) :
    delivery = .taken d := by
  have hgone : w'.queue ≠ w.queue := by
    intro heq
    rw [← heq] at hqueue
    exact List.cons_ne_self d _ hqueue.symm
  simp only [World.receive] at h
  split at h
  case isFalse hinvalid => exact absurd (congrArg (fun x => x.2.queue) h).symm hgone
  case isTrue hvalid =>
    split at h
    case isTrue hlong => exact absurd (congrArg (fun x => x.2.queue) h).symm hgone
    case isFalse hshort =>
      have hawait := World.await_queue (p := p) (w := w) (n := rounds)
      rw [h] at hawait
      cases delivery with
      | taken d' =>
          rw [hqueue] at hawait
          rw [(List.cons.inj hawait).1]
      | _ => exact absurd hawait hgone

/-- How a run of a body stops. -/
abbrev ReceiveOutcome := Outcome Process Exit (SocketResult UdpReceiveResult × Bytes)

/-- What is promised about a run of each body against one world. -/
structure ReceivesAlike (p q : Platform) (rounds : Nat) (buffer : Bytes) (w : World)
    (run run' : ReceiveOutcome × World) : Prop where
  /-- They leave the same queue. -/
  world : run.2 = run'.2
  /-- They stop in the same way, and if they return, their results agree. -/
  outcome : match run.1, run'.1 with
    | .ret r _, .ret r' _ => ResultsAgree p q r r'
    | .exit e _, .exit e' _ => e = .gaveUp ∧ e' = .gaveUp
    | .blocked, .blocked => True
    | _, _ => False
  /-- With more rounds than there are answers to come, they do not run out of rounds. -/
  ends : w.script.length < rounds → ∀ e s, run.1 ≠ .exit e s ∧ run'.1 ≠ .exit e s
  /-- If the datagram they took was longer than the buffer, both report `message_size`. -/
  truncated : ∀ d, w.queue = d :: run.2.queue → buffer.length < d.payload.length →
    ∃ e e' b s s', run.1 = .ret (.failure e, b) s ∧ run'.1 = .ret (.failure e', b) s' ∧
      ∀ c, (e.isMatch p c = true ↔ c = .messageSize) ∧ (e'.isMatch q c = true ↔ c = .messageSize)
  /-- If it fitted and came from an address that the library knows, both return all of it. -/
  whole : ∀ d source, w.queue = d :: run.2.queue → d.payload.length ≤ buffer.length →
    d.source = some source → ∃ b s s', run.1 = .ret (.success ⟨d.payload.length, source⟩, b) s ∧
      run'.1 = .ret (.success ⟨d.payload.length, source⟩, b) s' ∧
      b.take d.payload.length = d.payload

/-- A run that shows a result has returned it. -/
theorem Delivery.Shows.ret {o : ReceiveOutcome} {r : SocketResult UdpReceiveResult × Bytes}
    (h : delivery.Shows p buffer o) (hresult : delivery.result p buffer = some r) :
    ∃ s, o = .ret r s := by
  cases o with
  | ret r' s => exact ⟨s, by rw [Option.some.inj (hresult.symm.trans h)]⟩
  | exit e s =>
      obtain ⟨-, rfl⟩ := h
      cases hresult
  | blocked =>
      obtain rfl := h
      cases hresult

/-- **The two bodies agree**, whatever is in the queue and becomes of the calls, on objects
that are both valid or both not. -/
theorem receiveFrom_agrees (hp : Posix p) (hq : Winsock q) (rounds : Nat) (buffer : Bytes)
    {x x' : HandleId} {s s' : Process} {h h' : NativeHandle} (hx : s.handles x = some h)
    (hx' : s'.handles x' = some h') (hvalid : h.isSome = h'.isSome) (hw : w.Common p q) :
    ReceivesAlike p q rounds buffer w
      ((UdpSocket.receiveFrom p rounds x buffer s).run (World.serve p) w)
      ((UdpSocket.receiveFrom q rounds x' buffer s').run (World.serve q) w) := by
  obtain ⟨delivery, hreceive, hshows⟩ :=
    receiveFrom_run rounds buffer hx fun d hd => (hw.queue d hd).1
  obtain ⟨delivery', hreceive', hshows'⟩ :=
    receiveFrom_run rounds buffer hx' fun d hd => (hw.queue d hd).2
  -- each body shows what its platform's world delivers, and the two worlds deliver the same
  obtain ⟨hsame, hcommon⟩ := hw.receive_eq hp hq rounds buffer.length h.isSome
  rw [← hvalid, ← hsame, hreceive] at hreceive'
  rw [hreceive] at hcommon
  generalize hrun : (UdpSocket.receiveFrom p rounds x buffer s).run (World.serve p) w = run at *
  generalize hrun' : (UdpSocket.receiveFrom q rounds x' buffer s').run (World.serve q) w = run' at *
  obtain ⟨rfl, hworld⟩ := Prod.mk.inj hreceive'
  have hagree := hcommon.result hp hq buffer
  refine ⟨hworld, ?_, ?_, ?_, ?_⟩
  · obtain ⟨o, w₁⟩ := run
    obtain ⟨o', w₂⟩ := run'
    cases o with
    | ret r s₁ =>
        rw [show delivery.result p buffer = some r from hshows] at hagree
        cases hresult : delivery.result q buffer with
        | none =>
            rw [hresult] at hagree
            exact hagree.elim
        | some r' =>
            rw [hresult] at hagree
            obtain ⟨s₂, rfl⟩ := hshows'.ret hresult
            exact hagree
    | exit e s₁ =>
        obtain ⟨he, rfl⟩ := hshows
        cases o' with
        | ret r' s₂ => cases hshows'
        | exit e' s₂ => exact ⟨he, hshows'.1⟩
        | blocked => cases hshows'
    | blocked =>
        obtain rfl := hshows
        cases o' with
        | ret r' s₂ => cases hshows'
        | exit e' s₂ => cases hshows'.2
        | blocked => trivial
  · intro hrounds e s₀
    have hends : delivery ≠ .gaveUp := by
      rw [show delivery = _ from (congrArg Prod.fst hreceive).symm]
      exact World.receive_ends hrounds
    constructor
    · intro hexit
      rw [hexit] at hshows
      exact hends hshows.2
    · intro hexit
      rw [hexit] at hshows'
      exact hends hshows'.2
  · -- a datagram that has left the queue is what was delivered
    intro d hqueue hlong
    obtain rfl := World.receive_taken hreceive hqueue
    have hresult : ∀ r, Delivery.result r buffer (.taken d) = some (.failure (truncationError r),
        Buffer.patch buffer 0 (d.payload.take buffer.length)) := fun r => if_pos hlong
    obtain ⟨s₁, hret⟩ := hshows.ret (hresult p)
    obtain ⟨s₂, hret'⟩ := hshows'.ret (hresult q)
    exact ⟨_, _, _, s₁, s₂, hret, hret', fun c =>
      ⟨isMatch_truncationError, isMatch_truncationError⟩⟩
  · intro d source hqueue hshort hsource
    obtain rfl := World.receive_taken hreceive hqueue
    have hresult : ∀ r, Delivery.result r buffer (.taken d) = some
        (.success ⟨d.payload.length, source⟩,
          Buffer.patch buffer 0 (d.payload.take buffer.length)) := by
      intro r
      rw [Delivery.result, if_neg (Nat.not_lt.mpr hshort), hsource]
    obtain ⟨s₁, hret⟩ := hshows.ret (hresult p)
    obtain ⟨s₂, hret'⟩ := hshows'.ret (hresult q)
    refine ⟨_, s₁, s₂, hret, hret', ?_⟩
    rw [List.take_of_length_le hshort, Buffer.patch_zero, List.take_left]

/-- The address that `ToNative` gives is shown on every platform. -/
theorem Arrival.shown_toNative {d : Arrival} {source : SocketEndpoint}
    (hsource : d.source = some source)
    (hname : d.name p = (source.toNative p.layout).1.take (source.toNative p.layout).2) :
    d.Shown p := by
  have hle := SocketEndpoint.toNative_length_le (l := p.layout) (e := source)
  have hlen : (d.name p).length = (source.toNative p.layout).2 := by
    rw [hname, List.length_take, Nat.min_eq_left hle]
  rw [Arrival.Shown, hsource]
  refine ⟨hlen.trans_le (hle.trans_eq SocketEndpoint.length_toNative), hlen, ?_⟩
  intro i hi
  rw [hname, List.getElem?_take_of_lt hi.lt]

/-- After an interruption, three bytes are received on Linux and on Windows. -/
theorem receiveFrom_agrees_three : ∃ (s : Process) (w : World),
    let run (p : Platform) :=
      (UdpSocket.receiveFrom p 2 (.user 0) [0, 0, 0, 0] s).run (World.serve p) w
    s.handles (.user 0) = some (some 3) ∧
    ReceivesAlike .linux .win64 2 [0, 0, 0, 0] w (run .linux) (run .win64) ∧
    ∃ b s₁ s₂, (run .linux).1 = .ret (.success ⟨3, .default⟩, b) s₁ ∧
      (run .win64).1 = .ret (.success ⟨3, .default⟩, b) s₂ ∧ b.take 3 = [1, 2, 3] := by
  let process : Process := (⟨fun _ => none, 0⟩ : Process).put (.user 0) (some 3)
  let code (p : Platform) : Errno := if p.windows then ⟨10004, by decide⟩ else ⟨4, by decide⟩
  let d : Arrival := ⟨[1, 2, 3], some .default, fun p =>
    (SocketEndpoint.default.toNative p.layout).1.take (SocketEndpoint.default.toNative p.layout).2⟩
  -- `EINTR` and `WSAEINTR` correspond by a case of the `switch`
  have hcommon : World.Common .linux .win64 ⟨[.fails code, .delivers], [d]⟩ := by
    refine ⟨?_, ?_⟩
    · intro code' hmem
      rw [List.mem_cons, List.mem_singleton] at hmem
      rcases hmem with heq | heq
      · obtain rfl := Answer.fails.inj heq
        have hrow : (Platform.win64.WSAEINTR, [Errc.interrupted]) ∈
            SocketError.winsockCases .win64 := by decide
        exact .listed hrow (List.mem_singleton.mpr rfl)
      · cases heq
    · intro d' hd'
      obtain rfl := List.mem_singleton.mp hd'
      exact ⟨Arrival.shown_toNative rfl rfl, Arrival.shown_toNative rfl rfl⟩
  have hvalid : process.handles (.user 0) = some (some 3) := rfl
  obtain ⟨delivery, hreceive, -⟩ := receiveFrom_run 2 [0, 0, 0, 0] hvalid
    fun d hd => (hcommon.queue d hd).1
  have hqueue := congrArg (fun x => x.2.queue) hreceive
  have halike :=
    receiveFrom_agrees posix_linux winsock_win64 2 [0, 0, 0, 0] hvalid hvalid rfl hcommon
  exact ⟨process, _, rfl, halike,
    halike.whole d .default (congrArg (List.cons d) hqueue) (by decide) rfl⟩

end Both

end Net

end CoreSystems
