import CoreSystems.Lib.Joins
import CoreSystems.Programs.ConnectPair
import CoreSystems.Programs.RoundTrips
import CoreSystems.Programs.Throughput

/-!
# CoreSystems.Programs.Measurements

`RoundTrips` and `Throughput` from the setup to the destructors.

A measurement connects a pair, starts a worker at one end of it, does its own part at the other
end, and waits for the worker. The part with two threads is a call, answered by a run of both:
what is known of their interleavings is known of the call, and the rest is one thread.

`sessions` is the interface of these calls, and `forks` answers them: a session is accepted if
its threads start at the ends of a fresh connection and, whatever their interleaving, never
deadlock; its answer is what a run to the end has left. `wp_measure` is about everything
around a session, for either measurement at once.
-/

namespace CoreSystems

open Buffer (Bytes)
open Calls (Code Forks Interface Job wp)

namespace Net

open SocketHandle

namespace BenchTcp

/-! ### The program

What `RoundTrips` and `Throughput` have in common is one function of the session and of the
verdict. -/

/-- `pair` of `RoundTrips` and of `Throughput`. -/
def measured : ConnectionPair := ⟨.user 8, .user 9⟩

/-- `~ConnectionPair`. -/
def ConnectionPair.destroy (pair : ConnectionPair) : N Unit := do
  SocketHandle.destroy pair.server
  SocketHandle.destroy pair.client

/-- The part of a measurement that has two threads, and the memory at its beginning. -/
inductive Session
  | roundTrips (memory : Process) (rounds : Nat)
  | throughput (memory : Process) (streamMiB : Nat)

/-- What the threads leave when both are done. -/
structure Ended (α : Type) where
  memory : Process
  clientError : SocketError
  serverError : SocketError
  /-- `reply`, or `received`. -/
  result : α

/-- Sessions as calls. A thread that is interrupted for ever is never joined. -/
def sessions : Interface where
  Call := Session
  Answer
    | .roundTrips _ _ => Except Exit (Ended Bytes)
    | .throughput _ _ => Except Exit (Ended Nat)

/-- How a measurement ends: it could not be set up, or both threads were joined. -/
inductive Outcome
  /-- `Round-trip setup failed: `, or `Throughput setup failed: `. -/
  | setupFailed (error : SocketError)
  | ended (verdict : Verdict)

/-- What `RoundTrips` and `Throughput` have in common. -/
def measure {α : Type} (p : Platform) (o : Options) (retries : Nat) (noDelay : Bool)
    (session : Process → Code sessions Process Exit (Except Exit (Ended α)))
    (verdict : Ended α → Verdict) : Code (os.sum sessions) Process Exit Outcome := do
  match ← (connectPair p o retries noDelay).left with
  | .failure error => return .setupFailed error
  | .success _ =>
    (measured.moveConstruct connected).left
    let memory ← Code.get
    match ← (session memory).right with
    | .error e => Code.leave e
    | .ok ended =>
      Code.modify fun _ => ended.memory
      measured.destroy.left
      connected.destroy.left
      return .ended (verdict ended)

/-- `request` of `RoundTrips`. -/
def request : Bytes := List.replicate messageBytes 0x5a

/-- `RoundTrips`. -/
def roundTrips (p : Platform) (o : Options) (retries rounds : Nat) :
    Code (os.sum sessions) Process Exit Outcome :=
  measure p o retries true (fun memory => Code.ask (I := sessions) (.roundTrips memory rounds))
    fun ended => roundTripsVerdict ended.clientError ended.serverError request ended.result

/-- `Throughput`. -/
def throughput (p : Platform) (o : Options) (retries streamMiB : Nat) :
    Code (os.sum sessions) Process Exit Outcome :=
  measure p o retries false (fun memory => Code.ask (I := sessions) (.throughput memory streamMiB))
    fun ended => throughputVerdict ended.clientError ended.serverError ended.result
      (streamMiB * mib % 2 ^ 64)

/-! ### What a session runs

Both threads start with the memory of the measurement. Each uses one of the two sockets and
buffers of its own, so memories of their own serve as well. -/

/-- The threads begin where the measurement is: `pair` holds the ends of a connection. -/
structure Begins (memory : Process) (k : Kernel) (ends : Ends) : Prop where
  process : ∀ side, ends.process side = memory
  client : ends.socket .client = measured.client
  server : ends.socket .server = measured.server
  fresh : ends.wire.Fresh k

/-- The threads of `RoundTrips`, with its buffers. -/
structure RoundTrips.Starts (retries : Nat) (memory : Process) (rounds : Nat) (k : Kernel)
    (t : RoundTrips) : Prop extends Begins memory k t.toEnds where
  retries : t.retries = retries
  request : t.request = BenchTcp.request
  reply : t.reply = List.replicate messageBytes 0
  echo : t.echo = List.replicate messageBytes 0
  rounds : t.rounds = rounds

/-- The threads of `Throughput`, with its buffers. -/
structure Throughput.Starts (retries : Nat) (memory : Process) (streamMiB : Nat) (k : Kernel)
    (t : Throughput) : Prop extends Begins memory k t.toEnds where
  retries : t.retries = retries
  sendBuffer : t.sendBuffer = List.replicate chunkBytes 0x5a
  receiveBuffer : t.receiveBuffer = List.replicate chunkBytes 0
  streamMiB : t.streamMiB = streamMiB

/-- What the threads of `RoundTrips` leave. -/
inductive TripYields (js : Side → Job os Process Exit TripEnd Side) :
    Except Exit (Ended Bytes) → Prop
  | ended {clientError serverError : SocketError} {reply : Bytes} {memory s : Process}
      (hclient : (js .client).state = .ret (.client clientError reply) memory)
      (hserver : (js .server).state = .ret (.server serverError) s) :
      TripYields js (.ok ⟨memory, clientError, serverError, reply⟩)
  | left {side : Side} {e : Exit} {s : Process} (hstate : (js side).state = .exit e s) :
      TripYields js (.error e)

/-- What the threads of `Throughput` leave. -/
inductive StreamYields (js : Side → Job os Process Exit StreamEnd Side) :
    Except Exit (Ended Nat) → Prop
  | ended {clientError serverError : SocketError} {received : Nat} {memory s : Process}
      (hclient : (js .client).state = .ret (.client clientError) memory)
      (hserver : (js .server).state = .ret (.server serverError received) s) :
      StreamYields js (.ok ⟨memory, clientError, serverError, received⟩)
  | left {side : Side} {e : Exit} {s : Process} (hstate : (js side).state = .exit e s) :
      StreamYields js (.error e)

/-- The two threads of each session. Nobody else is on the host. -/
def forks (p : Platform) (retries capacity : Nat) :
    Forks sessions os Process Exit Side Side Kernel where
  Result
    | .roundTrips _ _ => TripEnd
    | .throughput _ _ => StreamEnd
  starts
    | .roundTrips memory rounds => fun k rules => ∃ t : RoundTrips,
        t.Starts retries memory rounds k ∧ rules = (duplexRules p t.wire (t.code p)).alone
    | .throughput memory streamMiB => fun k rules => ∃ t : Throughput,
        t.Starts retries memory streamMiB k ∧ rules = (duplexRules p t.wire (t.code p)).alone
  yields
    | .roundTrips _ _ => TripYields
    | .throughput _ _ => StreamYields
  blocks k r := k.Blocks p capacity r.call
  excuses := ShutdownFailed

/-! ### Sessions

Here the results about the threads are used, and only here. -/

variable {p : Platform} {o : Options} {retries capacity : Nat} {s memory : Process} {k : Kernel}
variable {ends : Ends} {α : Type} {verdict : Ended α → Verdict}

/-- What the rest of a measurement relies on. -/
def Fits (memory : Process) (verdict : Ended α → Verdict) : Except Exit (Ended α) → Prop
  | .ok ended => ended.memory.handles = memory.handles ∧ verdict ended ≠ .mismatch
  | .error e => e = .gaveUp

/-- What the threads of `RoundTrips` leave is what its end expects. -/
theorem TripYields.fits {rounds : Nat} {t : RoundTrips} {r : Except Exit (Ended Bytes)}
    {sys : Calls.System os Process Exit TripEnd Side Side Kernel}
    {js : Side → Job os Process Exit TripEnd Side} (hyields : TripYields js r)
    (ht : t.Starts retries memory rounds k)
    (h : Calls.System.Reachable (duplexRules p t.wire (t.code p)) k sys) (hjs : sys.Threads js) :
    Fits memory (fun ended =>
      roundTripsVerdict ended.clientError ended.serverError request ended.result) r := by
  cases hyields with
  | ended hclient hserver =>
      have hplace := (t.promised_handles p).place h hjs .client
      rw [Along, hclient, ht.process .client] at hplace
      refine ⟨hplace.1, ?_⟩
      dsimp only
      rw [← ht.request, t.verdict p ht.fresh h hjs hclient hserver]
      split <;> decide
  | left hstate => exact (t.promised p).leaves h hjs hstate

/-- So is what the threads of `Throughput` leave. -/
theorem StreamYields.fits {streamMiB : Nat} {t : Throughput} {r : Except Exit (Ended Nat)}
    {sys : Calls.System os Process Exit StreamEnd Side Side Kernel}
    {js : Side → Job os Process Exit StreamEnd Side} (hyields : StreamYields js r)
    (ht : t.Starts retries memory streamMiB k)
    (h : Calls.System.Reachable (duplexRules p t.wire (t.code p)) k sys) (hjs : sys.Threads js) :
    Fits memory (fun ended => throughputVerdict ended.clientError ended.serverError ended.result
      (streamMiB * mib % 2 ^ 64)) r := by
  cases hyields with
  | ended hclient hserver =>
      have hplace := (t.promised_handles p).place h hjs .client
      rw [Along, hclient, ht.process .client] at hplace
      refine ⟨hplace.1, ?_⟩
      have hverdict := t.verdict p ht.fresh h hjs hclient hserver
      rw [Throughput.total, ht.streamMiB] at hverdict
      dsimp only
      rw [hverdict]
      split <;> decide
  | left hstate => exact (t.promised p).leaves h hjs hstate

/-- `RoundTrips` waits for its threads, which never wait for each other. -/
theorem wp_roundTrips_session {rounds : Nat} {E : Exit → Process → Kernel → Prop}
    (hbegins : Begins memory k ends) (hrounds : rounds ≤ 1000000) (hcapacity : 0 < capacity) :
    wp (forks p retries capacity).env (Code.ask (I := sessions) (.roundTrips memory rounds))
      (fun r s' k' => s' = s ∧ Fits memory (fun ended => roundTripsVerdict ended.clientError
        ended.serverError request ended.result) r ∧ k'.sockets = k.sockets) E s k := by
  refine Forks.wp_ask ?_ ?_ ?_
  · refine ⟨_, ⟨ends, retries, request, List.replicate messageBytes 0,
      List.replicate messageBytes 0, rounds, by decide, by decide, by decide, hrounds⟩, ?_, rfl⟩
    exact ⟨hbegins, rfl, rfl, rfl, rfl, rfl⟩
  · intro rules hstarts sys js hreach hjs hshutdown hdead
    obtain ⟨t, ht, rfl⟩ := hstarts
    obtain ⟨hshut, hstalled, side, r, hA, hstarved⟩ :=
      (t.promised p).deadlocked (t.tends p) ht.fresh hreach.of_alone hjs hdead
    exact RoundTrips.unstalled hcapacity hshut hshutdown hstalled hA hstarved
  · intro r k' rules sys js hrun
    obtain ⟨hstarts, hreach, hjs, -, hyields, hworld⟩ := hrun
    obtain ⟨t, ht, rfl⟩ := hstarts
    refine ⟨rfl, hyields.fits ht hreach.of_alone hjs, ?_⟩
    rw [hworld]
    exact (t.promised p).sockets (t.tends p) hreach

/-- So does `Throughput`. -/
theorem wp_throughput_session {streamMiB : Nat} {E : Exit → Process → Kernel → Prop}
    (hbegins : Begins memory k ends) (hcapacity : 0 < capacity) :
    wp (forks p retries capacity).env (Code.ask (I := sessions) (.throughput memory streamMiB))
      (fun r s' k' => s' = s ∧ Fits memory (fun ended => throughputVerdict ended.clientError
        ended.serverError ended.result (streamMiB * mib % 2 ^ 64)) r ∧ k'.sockets = k.sockets)
      E s k := by
  refine Forks.wp_ask ?_ ?_ ?_
  · refine ⟨_, ⟨ends, retries, List.replicate chunkBytes 0x5a, List.replicate chunkBytes 0,
      streamMiB, List.length_replicate, List.length_replicate⟩, ?_, rfl⟩
    exact ⟨hbegins, rfl, rfl, rfl, rfl⟩
  · intro rules hstarts sys js hreach hjs hshutdown hdead
    obtain ⟨t, ht, rfl⟩ := hstarts
    obtain ⟨hshut, hstalled, side, r, hA, hstarved⟩ :=
      (t.promised p).deadlocked (t.tends p) ht.fresh hreach.of_alone hjs hdead
    exact Throughput.unstalled hcapacity hshut hshutdown hstalled hA hstarved
  · intro r k' rules sys js hrun
    obtain ⟨hstarts, hreach, hjs, -, hyields, hworld⟩ := hrun
    obtain ⟨t, ht, rfl⟩ := hstarts
    refine ⟨rfl, hyields.fits ht hreach.of_alone hjs, ?_⟩
    rw [hworld]
    exact (t.promised p).sockets (t.tends p) hreach

/-! ### Around a session

Setup, destructors and moves, on one thread. -/

/-- What a measurement reports is an error, or a verdict other than a mismatch. -/
def Outcome.Right : Outcome → Prop
  | setupFailed error => error.hasError = true
  | ended verdict => verdict ≠ .mismatch

/-- The ends of the connection move from the result of `ConnectPair` to `pair`. -/
theorem wp_take {c d : Nat} {h : HandleId → Option NativeHandle}
    {E : Exit → Process → Kernel → Prop} (hs : s.handles = Function.update (Function.update h
      connected.client (some (some c))) connected.server (some (some d))) :
    wp (kernelEnv p capacity) (measured.moveConstruct connected) (fun _ s' k' => k' = k ∧
      s'.handles = Function.update (Function.update (Function.update (Function.update h
        connected.client (some none)) connected.server (some none)) measured.client
          (some (some c))) measured.server (some (some d))) E s k := by
  rw [ConnectionPair.moveConstruct, Calls.wp_bind,
    wp_moveConstruct (h := some c) (by simp [hs, connected]),
    wp_moveConstruct (h := some d) (by simp [hs, connected, measured])]
  refine ⟨rfl, ?_⟩
  simp only [Process.put, hs]
  exact Process.written_congr [(_, _), (_, _), (_, _), (_, _), (_, _), (_, _)]
    [(_, _), (_, _), (_, _), (_, _)] (by simp [Process.written, connected, measured])

/-- A pair closes what it holds, and nothing else. -/
theorem wp_destroyPair {k₀ : Kernel} {pair : ConnectionPair} {a b : NativeHandle}
    {E : Exit → Process → Kernel → Prop} (hne : pair.client ≠ pair.server)
    (hclient : s.handles pair.client = some a) (hserver : s.handles pair.server = some b)
    (hbeside : k₀.Beside (b.toList ++ (a.toList ++ [])) k) :
    wp (kernelEnv p capacity) pair.destroy (fun _ s' k' =>
      s'.handles = Function.update (Function.update s.handles pair.server none) pair.client none ∧
        k'.sockets = k₀.sockets) E s k := by
  rw [ConnectionPair.destroy, Calls.wp_bind]
  refine (wp_destroy_kernel hserver).imp ?_
  intro _ s₁ k₁ hs₁
  obtain ⟨hs₁, rfl⟩ := hs₁
  refine (wp_destroy_kernel (h := a) (by rw [hs₁, Function.update_of_ne hne, hclient])).imp ?_
  intro _ s₂ k₂ hs₂
  obtain ⟨hs₂, rfl⟩ := hs₂
  exact ⟨by rw [hs₂, hs₁], Kernel.Beside.sockets hbeside.freed.freed⟩

/-- A measurement whose session is right leaves objects and sockets as they were. -/
theorem wp_measure {noDelay : Bool}
    {session : Process → Code sessions Process Exit (Except Exit (Ended α))} (hidle : s.Idle)
    (hdead : ∀ n ≤ 9, s.handles (.user n) = none)
    (hsession : ∀ memory k₁ ends, Begins memory k₁ ends →
      wp (forks p retries capacity).env (session memory) (fun r s' k' => s' = memory ∧
        Fits memory verdict r ∧ k'.sockets = k₁.sockets) GaveUp memory k₁) :
    wp ((kernelEnv p capacity).also (forks p retries capacity).env)
      (measure p o retries noDelay session verdict) (fun r s' k' =>
        r.Right ∧ s'.handles = s.handles ∧ k'.sockets = k.sockets) GaveUp s k := by
  rw [measure, Calls.wp_bind]
  refine (Calls.wp_also_left (wp_connectPair hidle fun n hn => hdead n (by omega))).imp ?_
  intro r s₁ k₁ hr
  cases r with
  | failure error => exact hr
  | success v =>
      obtain ⟨c, d, hjoined, hs₁⟩ := hr
      dsimp only
      rw [Calls.wp_bind]
      -- the session begins where the ends are in `pair`, and it is all that is known of it
      refine (Calls.wp_also_left (wp_take hs₁)).imp ?_
      intro _ s₂ k₂ hs₂
      obtain ⟨rfl, hs₂⟩ := hs₂
      have hclient : s₂.handles measured.client = some (some c) := by simp [hs₂, measured]
      have hserver : s₂.handles measured.server = some (some d) := by simp [hs₂, measured]
      have hbegins : Begins s₂ k₂ (measured.ends k s₂ hclient hserver) :=
        ⟨fun _ => rfl, rfl, rfl, ConnectionPair.ends_fresh hjoined hclient hserver⟩
      rw [Calls.wp_bind, Calls.wp_get, Calls.wp_bind]
      refine (Calls.wp_also_right (hsession s₂ k₂ _ hbegins)).imp ?_
      intro r s₃ k₃ hr
      obtain ⟨rfl, hfits, hk₃⟩ := hr
      cases r with
      | error e => exact hfits
      | ok ended =>
          obtain ⟨hmemory, hverdict⟩ := hfits
          dsimp only
          rw [Calls.wp_bind, Calls.wp_modify, Calls.wp_bind]
          -- the session has opened and closed nothing, so the pair closes what was connected
          have hbeside : k.Beside [d, c] k₃ := by
            intro fd
            rw [hk₃]
            exact hjoined.beside fd
          refine (Calls.wp_also_left (wp_destroyPair (a := some c) (b := some d)
            (by simp [measured]) (by rw [hmemory, hclient]) (by rw [hmemory, hserver])
            hbeside)).imp ?_
          intro _ s₄ k₄ hs₄
          obtain ⟨hs₄, hk₄⟩ := hs₄
          rw [hmemory] at hs₄
          rw [Calls.wp_bind]
          refine (Calls.wp_also_left (wp_destroyPair (a := none) (b := none)
            (by simp [connected]) (by simp [hs₄, hs₂, connected, measured])
            (by simp [hs₄, hs₂, connected, measured]) Kernel.Beside.refl)).imp ?_
          intro _ s₅ k₅ hs₅
          obtain ⟨hs₅, hk₅⟩ := hs₅
          refine ⟨hverdict, ?_, hk₅.trans hk₄⟩
          rw [hs₅, hs₄, hs₂]
          exact Process.written_congr
            [(_, _), (_, _), (_, _), (_, _), (_, _), (_, _), (_, _), (_, _)] []
            (by simp [Process.written, connected, measured, hdead])

end BenchTcp

end Net

end CoreSystems
