import CoreSystems.Lib.Threads
import CoreSystems.Net.KernelSpecs
import CoreSystems.Net.StreamSpecs

/-!
# CoreSystems.Net.Duplex

A connection with a thread at each end.

A thread transfers on its own end and shuts it down, and does nothing else with the host.
Whatever the interleaving, each direction carries what was sent on it and not yet received,
and an end that was shut down lets nobody wait. So a thread that waits says how much it and
its peer have transferred.

`Account` is the invariant that ties the logs of both threads to the kernel; every answer to a
thread that tends its own end keeps it (`Account.serves`). `Promised` is what is proved of the
code of each thread by itself, in its own log and whatever it is answered.
`Promised.deadlocked` puts them together: in a deadlock nothing was shut down, and each thread
has returned or is at a call that it waits for, which for the programs of this development
cannot be.
-/

namespace CoreSystems

open Buffer (Bytes)
open Calls (Job Prog System wp)

namespace Net

/-! ### What a thread records

Shutting down is read off the log as transfers are, since a thread that has failed tells its
peer in no other way. -/

/-- It was tried to shut both directions down. -/
def TriedShut (p : Platform) (log : List Event) : Prop :=
  ∃ x handle a, (⟨⟨x, .shutdown handle p.SHUT_RDWR⟩, a⟩ : Event) ∈ log

/-- Both directions were shut down. -/
def HasShut (p : Platform) (log : List Event) : Prop :=
  ∃ x handle, (⟨⟨x, .shutdown handle p.SHUT_RDWR⟩, .ok ()⟩ : Event) ∈ log

/-- A `shutdown` failed. -/
def ShutdownFailed (log : List Event) : Prop :=
  ∃ x handle how e, (⟨⟨x, .shutdown handle how⟩, .error e⟩ : Event) ∈ log

theorem TriedShut.result {p : Platform} {log : List Event} (h : TriedShut p log) :
    HasShut p log ∨ ShutdownFailed log := by
  obtain ⟨x, handle, a, hmem⟩ := h
  cases a with
  | error e => exact .inr ⟨x, handle, _, e, hmem⟩
  | ok u => exact .inl ⟨x, handle, hmem⟩

section Logs

variable {p : Platform} {s : Process} {x : HandleId} {fd rounds : Nat} {buffer : Bytes}
variable {A : Request → List Event → Prop} {log : List Event}

/-- `Shutdown` of both directions in a log. -/
theorem wp_shutdown_log {E : Exit → Process → List Event → Prop}
    (hx : s.handles x = some (some fd)) (hA : A ⟨x, .shutdown (some fd) p.SHUT_RDWR⟩ log) :
    wp (anyEnv A) (TcpSocket.shutdown p x .both) (fun _ s' log' => s'.handles = s.handles ∧
      TriedShut p log' ∧ bytesPut log' = bytesPut log ∧ bytesGot log' = bytesGot log) E s log := by
  refine wp_shutdown_asks (Q := fun _ log' =>
    TriedShut p log' ∧ bytesPut log' = bytesPut log ∧ bytesGot log' = bytesGot log) hx nofun
    (fun _ hnone => absurd hnone (by simp [TcpSocket.shutdownHow])) ?_
  intro fd' how hfd hhow
  cases hfd
  obtain rfl : p.SHUT_RDWR = how := Option.some.inj hhow
  refine Asks.logged hA ?_
  intro a
  -- the attempt is in the log, whatever its answer
  have htried : TriedShut p (log ++ [⟨⟨x, .shutdown (some fd) p.SHUT_RDWR⟩, a⟩]) :=
    ⟨_, _, a, List.mem_append_right _ (List.mem_singleton_self _)⟩
  cases a with
  | error e => exact ⟨htried, bytesPut_error .., bytesGot_error ..⟩
  | ok u =>
      refine ⟨htried, ?_, ?_⟩
      · rw [bytesPut_snoc]
        exact List.append_nil _
      · rw [bytesGot_snoc]
        exact List.append_nil _

/-- A thread that shuts its end down after an error, and goes on otherwise. -/
theorem wp_shutdown_if {α : Type} {error : SocketError} {a : α} {rest : N α}
    {Q : α → Process → List Event → Prop} {E : Exit → Process → List Event → Prop}
    (hx : s.handles x = some (some fd))
    (hA : error.hasError = true → A ⟨x, .shutdown (some fd) p.SHUT_RDWR⟩ log)
    (hfailed : error.hasError = true → ∀ s' log', s'.handles = s.handles → TriedShut p log' →
      bytesPut log' = bytesPut log → bytesGot log' = bytesGot log → Q a s' log')
    (hrest : error.hasError = false → wp (anyEnv A) rest Q E s log) :
    wp (anyEnv A) (if error.hasError then do
        let _ ← TcpSocket.shutdown p x .both
        return a
      else rest) Q E s log := by
  split
  case isTrue herror =>
    rw [Calls.wp_bind]
    refine (wp_shutdown_log hx (hA herror)).imp ?_
    intro result s₁ log₁ h
    obtain ⟨hs₁, hshut, hput, hgot⟩ := h
    exact hfailed herror s₁ log₁ hs₁ hshut hput hgot
  case isFalse hnone => exact hrest (by simpa using hnone)

end Logs

/-! ### The account of a connection

What was received and what is on its way make up what was sent, in each direction. -/

/-- A connection, and the descriptors of its two ends. -/
structure Wire where
  connection : Nat
  fd : Side → Nat

namespace Wire

/-- The descriptors stand for the ends of the connection. -/
def Connected (w : Wire) (k : Kernel) : Prop :=
  ∀ side, k.sockets (w.fd side) = some (.connected w.connection side)

/-- The descriptor of a call says which end it is on. -/
theorem Connected.end {w : Wire} {k : Kernel} (h : w.Connected k) {i side : Side} {fd n : Nat}
    (hfd : some fd = some (w.fd i)) (hsocket : k.sockets fd = some (.connected n side)) :
    n = w.connection ∧ side = i := by
  rw [Option.some.inj hfd, h i] at hsocket
  cases hsocket
  exact ⟨rfl, rfl⟩

/-- Nobody has sent anything. -/
def Fresh (w : Wire) (k : Kernel) : Prop :=
  w.Connected k ∧ ∀ side, k.channels w.connection side = .new

/-- Others have left the connection alone: its descriptors and its channels are as they were. -/
def Apart (w : Wire) (k k' : Kernel) : Prop :=
  (∀ side, k'.sockets (w.fd side) = k.sockets (w.fd side)) ∧
    k'.channels w.connection = k.channels w.connection

end Wire

/-- Where the ends of a connection are in the memories of two threads. -/
structure Ends where
  wire : Wire
  socket : Side → HandleId
  process : Side → Process
  attached : ∀ side, (process side).handles (socket side) = some (some (wire.fd side))

/-- Calls on one end of a connection: transfers and `shutdown`, and no others. -/
def Tends (fd : Nat) : Call → Prop
  | .send handle _ _ => handle = some fd
  | .recv handle _ _ => handle = some fd
  | .shutdown handle _ => handle = some fd
  | _ => False

/-- Such a call opens and closes nothing. -/
theorem Tends.sockets {p : Platform} {fd : Nat} {c : Call} {a : Except Errno c.Value}
    {k k' : Kernel} (h : Tends fd c) (ha : k.Answers p c a k') : k'.sockets = k.sockets := by
  cases c with
  | send handle data flags =>
      cases a with
      | error e => exact congrArg Kernel.sockets ha
      | ok count =>
          obtain ⟨fd', n, side, -, -, -, rfl⟩ := ha
          rfl
  | recv handle size flags =>
      cases a with
      | error e => exact congrArg Kernel.sockets ha
      | ok bytes =>
          obtain ⟨fd', n, side, rest, -, -, -, -, rfl⟩ := ha
          rfl
  | shutdown handle how =>
      cases a with
      | error e => exact congrArg Kernel.sockets ha
      | ok u =>
          obtain ⟨fd', n, side, -, -, rfl⟩ := ha
          rfl
  | _ => exact h.elim

/-- One thread for each end. Others on the host do what they like with sockets of their
own. -/
def duplexRules {α : Type} (p : Platform) (w : Wire) (code : Side → Prog os Process Exit α) :
    Calls.Rules os Process Exit α Side Side Kernel where
  code := code
  allowed side t := t = side
  serves _ _ k r a k' := k.Answers p r.call a k'
  drifts := w.Apart

/-- What the logs of both ends say of their connection. This is the invariant of all
interleavings. -/
structure Account (p : Platform) (w : Wire) (H : Side → List Event) (k : Kernel) : Prop where
  connected : w.Connected k
  /-- What was sent in each direction is what was received and what is on its way. -/
  carried : ∀ side, bytesGot (H side.peer) ++ (k.channels w.connection side).queue =
    bytesPut (H side)
  shut : ∀ side, HasShut p (H side) → (k.channels w.connection side).finished = true ∧
    (k.channels w.connection side.peer).refused = true

section Accounts

variable {p : Platform} {w : Wire} {H : Side → List Event} {k k' : Kernel} {i : Side}

theorem Account.initial (h : w.Fresh k) : Account p w (fun _ => []) k where
  connected := h.1
  carried side := by rw [h.2 side]; rfl
  shut side hshut := by
    obtain ⟨x, handle, hmem⟩ := hshut
    exact absurd hmem List.not_mem_nil

theorem Account.drifts (h : Account p w H k) (hapart : w.Apart k k') : Account p w H k' where
  connected side := by rw [hapart.1, h.connected side]
  carried side := by rw [hapart.2, h.carried side]
  shut side hshut := by
    rw [hapart.2]
    exact h.shut side hshut

/-- The log of one end has grown. -/
theorem bytes_update (H : Side → List Event) (i side : Side) (e : Event) :
    bytesPut (Function.update H i (H i ++ [e]) side) =
        bytesPut (H side) ++ (if side = i then e.put else []) ∧
      bytesGot (Function.update H i (H i ++ [e]) side) =
        bytesGot (H side) ++ (if side = i then e.got else []) := by
  by_cases hi : side = i
  · subst hi
    simp [bytesPut_snoc, bytesGot_snoc]
  · simp [hi]

/-- A call that is no shutdown, or one that failed, shuts nothing down. -/
theorem HasShut.of_update {e : Event} {side : Side}
    (h : HasShut p (Function.update H i (H i ++ [e]) side))
    (he : ∀ x handle, e ≠ ⟨⟨x, .shutdown handle p.SHUT_RDWR⟩, .ok ()⟩) : HasShut p (H side) := by
  obtain ⟨x, handle, hmem⟩ := h
  refine ⟨x, handle, ?_⟩
  by_cases hi : side = i
  · subst hi
    rw [Function.update_self, List.mem_append, List.mem_singleton] at hmem
    exact hmem.resolve_right fun heq => he x handle heq.symm
  · rwa [Function.update_of_ne hi] at hmem

/-- An answer that moves nothing and shuts nothing down. -/
theorem Account.idle (h : Account p w H k) {e : Event} (hput : e.put = []) (hgot : e.got = [])
    (he : ∀ x handle, e ≠ ⟨⟨x, .shutdown handle p.SHUT_RDWR⟩, .ok ()⟩) :
    Account p w (Function.update H i (H i ++ [e])) k where
  connected := h.connected
  carried side := by
    rw [(bytes_update H i side e).1, (bytes_update H i side.peer e).2, hput, hgot]
    simpa using h.carried side
  shut side hshut := h.shut side (hshut.of_update he)

/-- What a carried queue leaves as it was. -/
theorem Account.shut_carry (h : Account p w H k) {side : Side} {queue : Bytes} {s : Side}
    (hs : HasShut p (H s)) :
    (((k.carry w.connection side queue).channels w.connection s).finished = true) ∧
      ((k.carry w.connection side queue).channels w.connection s.peer).refused = true := by
  have hold := h.shut s hs
  rw [Kernel.channels_carry, Kernel.channels_carry]
  constructor
  · split
    case isTrue heq => rw [← heq]; exact hold.1
    case isFalse => exact hold.1
  · split
    case isTrue heq => rw [← heq]; exact hold.2
    case isFalse => exact hold.2

/-- An answer to a call on its own end keeps the account: one case for each kind of call. -/
theorem Account.serves (h : Account p w H k) {r : Request} {a : os.Answer r}
    (htends : Tends (w.fd i) r.call) (ha : k.Answers p r.call a k') :
    Account p w (Function.update H i (H i ++ [⟨r, a⟩])) k' := by
  obtain ⟨x, c⟩ := r
  cases c with
  | send handle data flags =>
      obtain rfl : handle = some (w.fd i) := htends
      cases a with
      | error e =>
          obtain rfl : k' = k := ha
          exact h.idle rfl rfl nofun
      | ok count =>
          obtain ⟨fd, n, side, hfd, hsocket, -, rfl⟩ := ha
          obtain ⟨rfl, rfl⟩ := h.connected.end hfd.symm hsocket
          refine ⟨h.connected, ?_, fun s hs => h.shut_carry (hs.of_update nofun)⟩
          intro s
          rw [(bytes_update H side s _).1, (bytes_update H side s.peer _).2, Kernel.channels_carry]
          have hs := h.carried s
          by_cases heq : s = side
          · subst heq
            simp [← hs, Event.put]
          · simp [heq, hs, Event.got]
  | recv handle size flags =>
      obtain rfl : handle = some (w.fd i) := htends
      cases a with
      | error e =>
          obtain rfl : k' = k := ha
          exact h.idle rfl rfl nofun
      | ok bytes =>
          obtain ⟨fd, n, side, rest, hfd, hsocket, hqueue, -, rfl⟩ := ha
          obtain ⟨rfl, rfl⟩ := h.connected.end hfd.symm hsocket
          refine ⟨h.connected, ?_, fun s hs => h.shut_carry (hs.of_update nofun)⟩
          intro s
          rw [(bytes_update H side s _).1, (bytes_update H side s.peer _).2, Kernel.channels_carry]
          have hs := h.carried s
          by_cases heq : s = side.peer
          · subst heq
            rw [hqueue, Side.peer_peer] at hs
            simp [← hs, Event.got]
          · have hne : s.peer ≠ side := by
              rintro rfl
              exact heq (Side.peer_peer s).symm
            simp [heq, hne, hs, Event.put]
  | shutdown handle how =>
      obtain rfl : handle = some (w.fd i) := htends
      cases a with
      | error e =>
          obtain rfl : k' = k := ha
          exact h.idle rfl rfl nofun
      | ok u =>
          obtain ⟨fd, n, side, hfd, hsocket, rfl⟩ := ha
          obtain ⟨rfl, rfl⟩ := h.connected.end hfd.symm hsocket
          refine ⟨h.connected, ?_, ?_⟩
          · intro s
            rw [(bytes_update H side s _).1, (bytes_update H side s.peer _).2,
              Kernel.channels_shut]
            simpa [Event.put, Event.got, Channel.shut] using h.carried s
          · intro s hs
            rw [Kernel.channels_shut, Kernel.channels_shut]
            by_cases hnew : s = side ∧ how = p.SHUT_RDWR
            · -- this is the shutdown
              obtain ⟨rfl, rfl⟩ := hnew
              simp [Channel.shut]
            -- any other end was shut down before, and this `shutdown` opens nothing again
            · have hold : HasShut p (H s) := by
                by_cases heq : s = side
                · subst heq
                  refine hs.of_update ?_
                  intro x' handle' he
                  cases he
                  exact hnew ⟨rfl, rfl⟩
                · rwa [Function.update_of_ne heq] at hs
              obtain ⟨hfinished, hrefused⟩ := h.shut s hold
              simp [Channel.shut, hfinished, hrefused]
  | _ => exact htends.elim

/-- There is no room for what an end sends, or it has received all that was sent. -/
def Starved (capacity : Nat) (own other : List Event) : Call → Prop
  | .send _ _ _ => (bytesGot other).length + capacity ≤ (bytesPut own).length
  | .recv _ _ _ => (bytesGot own).length = (bytesPut other).length
  | _ => False

/-- A thread waits only while nothing was shut down, for room or for something to receive. -/
theorem Account.waits (h : Account p w H k) {capacity : Nat} {c : Call}
    (htends : Tends (w.fd i) c) (hblocks : k.Blocks p capacity c) :
    (∀ side, ¬ HasShut p (H side)) ∧ Starved capacity (H i) (H i.peer) c := by
  -- a channel that makes somebody wait has not been shut down from either end
  have hopen : ∀ side, (k.channels w.connection side).finished = false →
      (k.channels w.connection side).refused = false → ∀ s, ¬ HasShut p (H s) := by
    intro side hfinished hrefused s hs
    obtain ⟨hs₁, hs₂⟩ := h.shut s hs
    by_cases heq : s = side
    · subst heq
      simp [hfinished] at hs₁
    · have hpeer : s.peer = side := by
        cases s <;> cases side <;> first | rfl | exact absurd rfl heq
      rw [hpeer, hrefused] at hs₂
      cases hs₂
  cases c with
  | send handle data flags =>
      obtain rfl : handle = some (w.fd i) := htends
      obtain ⟨fd, n, side, hfd, hsocket, hfull, hfinished, hrefused⟩ := hblocks
      obtain ⟨rfl, rfl⟩ := h.connected.end hfd.symm hsocket
      refine ⟨hopen _ hfinished hrefused, ?_⟩
      have hcarried := congrArg List.length (h.carried side)
      rw [List.length_append] at hcarried
      rw [Starved]
      omega
  | recv handle size flags =>
      obtain rfl : handle = some (w.fd i) := htends
      obtain ⟨fd, n, side, hfd, hsocket, hempty, hfinished, hrefused⟩ := hblocks
      obtain ⟨rfl, rfl⟩ := h.connected.end hfd.symm hsocket
      refine ⟨hopen _ hfinished hrefused, ?_⟩
      have hcarried := h.carried side.peer
      rw [hempty, List.append_nil, Side.peer_peer] at hcarried
      exact congrArg List.length hcarried
  | shutdown handle how => exact hblocks.elim
  | _ => exact htends.elim

end Accounts

/-! ### Threads at the ends

A thread is described by the calls it may make and by what it promises when it stops. -/

section Threads

variable {α : Type} {p : Platform} {w : Wire} {k : Kernel} {capacity : Nat}
variable {code : Side → Prog os Process Exit α} {A : Side → Request → List Event → Prop}
variable {Q : Side → α → Process → List Event → Prop}
variable {E : Side → Exit → Process → List Event → Prop}
variable {sys : System os Process Exit α Side Side Kernel}
variable {js : Side → Job os Process Exit α Side}

/-- What is proved of the code of each thread by itself, whatever it is answered. -/
def Promised (p : Platform) (w : Wire) (code : Side → Prog os Process Exit α)
    (A : Side → Request → List Event → Prop) (Q : Side → α → Process → List Event → Prop)
    (E : Side → Exit → Process → List Event → Prop) : Prop :=
  ∀ i t, (duplexRules p w code).allowed i t →
    ((duplexRules p w code).code t).wp (anyEnv (A t)) (Q t) (E t) []

/-- Where a thread is: it may make its call, or what was promised of its end holds. -/
def Along (A : Request → List Event → Prop) (Q : α → Process → List Event → Prop)
    (E : Exit → Process → List Event → Prop) (j : Job os Process Exit α Side) : Prop :=
  match j.state with
  | .ret a s => Q a s j.log
  | .exit e s => E e s j.log
  | .call r _ _ => A r j.log

/-- A weaker promise. -/
theorem Promised.imp {Q' : Side → α → Process → List Event → Prop}
    {E' : Side → Exit → Process → List Event → Prop} (hcode : Promised p w code A Q E)
    (hQ : ∀ i a s log, Q i a s log → Q' i a s log) (hE : ∀ i e s log, E i e s log → E' i e s log) :
    Promised p w code A Q' E' :=
  fun i t ht => Calls.Prog.wp.mono (hcode i t ht) (hQ t) (hE t)

/-- Every thread is somewhere in its own code, at a call that it may make or at an end that it
promised. -/
theorem Promised.place (hcode : Promised p w code A Q E)
    (h : System.Reachable (duplexRules p w code) k sys) (hjs : sys.Threads js) (side : Side) :
    Along (A side) (Q side) (E side) (js side) := by
  obtain ⟨htask, hplace⟩ := hjs.place hcode (fun _ _ _ _ _ _ _ => trivial) h side
  have htask : (js side).task = side := htask
  rw [htask] at hplace
  rw [Along]
  cases hstate : (js side).state with
  | ret a s => rwa [hstate] at hplace
  | exit e s => rwa [hstate] at hplace
  | call r seen cont => rwa [hstate] at hplace

/-- A thread leaves in no other way than was promised. -/
theorem Promised.leaves {R : Side → List Event → Prop}
    (hcode : Promised p w code A Q fun side e _ log => e = .gaveUp ∧ R side log)
    (h : System.Reachable (duplexRules p w code) k sys) (hjs : sys.Threads js) {side : Side}
    {e : Exit} {s : Process} (hstate : (js side).state = .exit e s) : e = .gaveUp := by
  have hplace := hcode.place h hjs side
  rw [Along, hstate] at hplace
  exact hplace.1

/-- The accounts are right in every interleaving of threads that tend their own ends. -/
theorem Promised.account (hcode : Promised p w code A Q E)
    (htends : ∀ side r log, A side r log → Tends (w.fd side) r.call) (hfresh : w.Fresh k)
    (h : System.Reachable (duplexRules p w code) k sys) : Account p w sys.history sys.env := by
  refine System.Reachable.account hcode (fun _ _ _ _ _ _ _ => trivial) (.initial hfresh) ?_ ?_ h
  · intro i t n r seen log a k₁ k₂ H ht hA hserves haccount
    obtain rfl : t = i := ht
    exact haccount.serves (htends _ _ _ hA) hserves
  · intro k₁ k₂ H hdrifts haccount
    exact haccount.drifts hdrifts

/-- What one end has received is the front of what the other has sent, at any moment. -/
theorem Promised.front (hcode : Promised p w code A Q E)
    (htends : ∀ side r log, A side r log → Tends (w.fd side) r.call) (hfresh : w.Fresh k)
    (h : System.Reachable (duplexRules p w code) k sys) (hjs : sys.Threads js) (side : Side) :
    bytesGot (js side.peer).log <+: bytesPut (js side).log := by
  have hcarried := (hcode.account htends hfresh h).carried side
  rw [hjs.history, hjs.history] at hcarried
  exact ⟨_, hcarried⟩

/-- Whatever the threads have done, the sockets are those of `k`. -/
def SameSockets (k : Kernel) (_ : Side → List Event) (k' : Kernel) : Prop := k'.sockets = k.sockets

/-- While nobody else does anything, nothing is opened or closed. -/
theorem Promised.sockets (hcode : Promised p w code A Q E)
    (htends : ∀ side r log, A side r log → Tends (w.fd side) r.call)
    (h : System.Reachable (duplexRules p w code).alone k sys) : sys.env.sockets = k.sockets := by
  have halone : ∀ i t, (duplexRules p w code).alone.allowed i t →
      ((duplexRules p w code).alone.code t).wp (anyEnv (A t)) (Q t) (E t) [] := hcode
  have hsame : SameSockets k sys.history sys.env := by
    refine System.Reachable.account halone (fun _ _ _ _ _ _ _ => trivial) rfl ?_ ?_ h
    · intro i t n r seen log a k₁ k₂ H ht hA hserves hsame
      exact ((htends _ _ _ hA).sockets hserves).trans hsame
    · exact fun _ _ _ hdrifts => hdrifts.elim
  exact hsame

/-- A thread in a deadlock has returned, or is at a call that it waits for. -/
def Stalled (capacity : Nat) (A : Request → List Event → Prop)
    (Q : α → Process → List Event → Prop) (own other : List Event) : Prop :=
  (∃ a s, Q a s own) ∨ ∃ r, A r own ∧ Starved capacity own other r.call

/-- In a deadlock nothing was shut down, and every thread is stalled; not both have
returned. -/
theorem Promised.deadlocked (hcode : Promised p w code A Q E)
    (htends : ∀ side r log, A side r log → Tends (w.fd side) r.call) (hfresh : w.Fresh k)
    (h : System.Reachable (duplexRules p w code) k sys) (hjs : sys.Threads js)
    (hdead : sys.Deadlocked (fun k r => k.Blocks p capacity r.call) js) :
    (∀ side, ¬ HasShut p (js side).log) ∧
      (∀ side, Stalled capacity (A side) (Q side) (js side).log (js side.peer).log) ∧
      ∃ side r, A side r (js side).log ∧
        Starved capacity (js side).log (js side.peer).log r.call := by
  have haccount := hcode.account htends hfresh h
  rw [show sys.history = fun side => (js side).log from funext hjs.history] at haccount
  -- a thread that waits is at a call on its own end
  have hwaits : ∀ side, (js side).Waits (fun r : Request => sys.env.Blocks p capacity r.call) →
      (∀ s, ¬ HasShut p (js s).log) ∧ ∃ r, A side r (js side).log ∧
        Starved capacity (js side).log (js side.peer).log r.call := by
    intro side hwaits
    obtain ⟨r, seen, cont, hstate, hblocks⟩ := hwaits
    have hplace := hcode.place h hjs side
    rw [Along, hstate] at hplace
    obtain ⟨hshut, hstarved⟩ := haccount.waits (htends _ _ _ hplace) hblocks
    exact ⟨hshut, r, hplace, hstarved⟩
  obtain ⟨⟨side, hside⟩, hall⟩ := hdead
  obtain ⟨hshut, hcall⟩ := hwaits side hside
  refine ⟨hshut, ?_, side, hcall⟩
  intro s
  rcases hall s with hreturned | hs
  · obtain ⟨a, s', hstate⟩ := hreturned
    have hplace := hcode.place h hjs s
    rw [Along, hstate] at hplace
    exact .inl ⟨a, s', hplace⟩
  · exact .inr (hwaits s hs).2

end Threads

/-! ### One connection

A host for the examples of both measurements. -/

/-- A connection between the descriptors 3 and 4. -/
def Ends.one : Ends where
  wire := ⟨0, fun side => if side = .client then 3 else 4⟩
  socket side := .user (if side = .client then 6 else 7)
  process side := (⟨fun _ => none, 0⟩ : Process).put (.user (if side = .client then 6 else 7))
    (some (if side = .client then 3 else 4))
  attached side := by cases side <;> simp

/-- A host that has nothing but this connection. -/
def Kernel.one : Kernel where
  sockets fd := if fd = 3 then some (.connected 0 .client)
    else if fd = 4 then some (.connected 0 .server) else none
  channels _ _ := .new
  connections := 1

theorem Kernel.one_fresh : Ends.one.wire.Fresh Kernel.one := by
  refine ⟨?_, fun _ => rfl⟩
  intro side
  cases side <;> rfl

end Net

end CoreSystems
