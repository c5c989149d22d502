import CoreSystems.Net.WholeTransfers
import CoreSystems.Programs.BenchTcp

/-!
# CoreSystems.Programs.Throughput

The stream of the benchmark: a client that sends a number of bytes in chunks of one size,
and a worker that counts what arrives.

The client never sends more than the worker waits for, because the chunks add up to the
total. So a worker that has seen the total has seen everything, and nobody waits for ever.

The structure is that of `CoreSystems.Programs.RoundTrips`. `SenderCalls` and `CounterCalls`
are what the threads may call, and bound both counts by the total; `stream_is_counted` and
`stream_never_deadlocks` are the results, for every number of MiB, also where the total wraps
around in 64 bits.
-/

namespace CoreSystems

open Buffer (Bytes)
open Calls (Job Prog System wp)
open Calls.System (Plays followEnv part)

namespace Net

open SocketHandle

namespace BenchTcp

section Loops

variable {p : Platform} {s : Process} {x : HandleId} {fd retries total : Nat}
variable {sendBuffer receiveBuffer : Bytes}

/-! ### The client

It sends while less than the total is sent, in chunks that divide the total. -/

/-- The calls of the client: there is something left to send. -/
inductive SenderCalls (p : Platform) (x : HandleId) (fd total : Nat) (r : Request)
    (log : List Event) : Prop
  | send (rest : Bytes) (hput : (bytesPut log).length < total) (hcall : r = ⟨x, sendCall p fd rest⟩)
  | shutdown (hput : (bytesPut log).length < total)
      (hcall : r = ⟨x, .shutdown (some fd) p.SHUT_RDWR⟩)

/-- What the client promises: everything is sent, or less, and its end is shut down. -/
def SenderReturns (p : Platform) (total : Nat) (clientError : SocketError) (log : List Event) :
    Prop :=
  if clientError.hasError then
    (bytesPut log).length < total ∧ TriedShut p log
  else (bytesPut log).length = total

/-- The main thread of `Throughput`. -/
theorem wp_throughputClient (hx : s.handles x = some (some fd))
    (hbuffer : sendBuffer.length = chunkBytes) (htotal : chunkBytes ∣ total) :
    wp (anyEnv (SenderCalls p x fd total)) (throughputClient p retries x sendBuffer total)
      (fun r s' log' => s'.handles = s.handles ∧ SenderReturns p total r log')
      (fun e _ log' => e = .gaveUp ∧ (bytesPut log').length < total) s [] := by
  have hchunk : 0 < chunkBytes := by decide
  -- between two chunks, as much has been put on the stream as `sent` says
  have hloop : wp (anyEnv (SenderCalls p x fd total))
      (Calls.Code.loopN .assertion (sendChunk p retries x sendBuffer total) (total + 1) 0)
      (fun error s' log' => s'.handles = s.handles ∧
        if error.hasError then (bytesPut log').length < total
        else (bytesPut log').length = total)
      (fun e _ log' => e = .gaveUp ∧ (bytesPut log').length < total) s [] := by
    apply Calls.wp_loopN_total (fun sent s' log' => s'.handles = s.handles ∧
      (bytesPut log').length = sent ∧ chunkBytes ∣ sent ∧ sent ≤ total) fun sent => total - sent
    · intro sent s₁ log₁ hinv
      obtain ⟨hs₁, hput, hdvd, hle⟩ := hinv
      rw [sendChunk]
      split
      case isFalse hdone =>
        have hall : sent = total := by omega
        exact ⟨hs₁, by simp [SocketError.hasError, SocketError.success, hput, hall]⟩
      case isTrue hlt =>
        have hfits : sent + chunkBytes ≤ total := by
          obtain ⟨i, rfl⟩ := hdvd
          obtain ⟨j, rfl⟩ := htotal
          have hij : i < j := Nat.lt_of_mul_lt_mul_left hlt
          have hmul := Nat.mul_le_mul_left chunkBytes (show i + 1 ≤ j from hij)
          rwa [Nat.mul_succ] at hmul
        have hless : ∀ {rest log'}, rest ≠ [] →
            bytesPut log' ++ rest = bytesPut log₁ ++ sendBuffer →
            (bytesPut log').length < total := by
          intro rest log' hrest hput'
          have hpos := List.length_pos_iff.mpr hrest
          have hsum := congrArg List.length hput'
          rw [List.length_append, List.length_append, hput, hbuffer] at hsum
          omega
        rw [Calls.wp_bind]
        apply Calls.Prog.wp.mono (wp_sendAll_log (x := x) (by rw [hs₁, hx]) ?_)
        · intro error s₂ log₂ hsent
          obtain ⟨hs₂, rest, -, ⟨hput₂, -⟩, -, herror⟩ := hsent
          split
          case isTrue hfailed =>
            refine ⟨hs₂.trans hs₁, ?_⟩
            rw [if_pos hfailed]
            exact hless (fun hnil => by simp [herror.mpr hnil] at hfailed) hput₂
          case isFalse hok =>
            obtain rfl := herror.mp (by simpa using hok)
            rw [List.append_nil] at hput₂
            refine ⟨⟨hs₂.trans hs₁, ?_, hdvd.add (dvd_refl _), hfits⟩, by omega⟩
            rw [hput₂, List.length_append, hput, hbuffer]
        · intro e s₂ log₂ h
          obtain ⟨he, rest, hrest, hput₂, -⟩ := h
          exact ⟨he, hless hrest hput₂⟩
        · intro rest log₂ hsuffix hne hput₂ hgot₂
          exact .send rest (hless hne hput₂) rfl
    · exact ⟨rfl, rfl, dvd_zero _, Nat.zero_le _⟩
    · omega
  rw [throughputClient, Calls.wp_bind]
  refine hloop.imp ?_
  intro error s₁ log₁ h
  obtain ⟨hs₁, hput⟩ := h
  apply wp_shutdown_if (hs₁ ▸ hx)
  · intro hfailed
    rw [if_pos hfailed] at hput
    exact .shutdown hput rfl
  · intro hfailed s₂ log₂ hs₂ hshut hput₂ _
    rw [if_pos hfailed] at hput
    rw [SenderReturns, if_pos hfailed, hput₂]
    exact ⟨hs₂.trans hs₁, hput, hshut⟩
  · intro hnone
    rw [if_neg (by simp [hnone])] at hput
    refine ⟨hs₁, ?_⟩
    rw [SenderReturns, if_neg (by simp [hnone])]
    exact hput

/-! ### The worker

It receives while less than the total has arrived, and only counts. -/

/-- The calls of the worker: something has yet to arrive. -/
inductive CounterCalls (p : Platform) (x : HandleId) (fd total : Nat) (r : Request)
    (log : List Event) : Prop
  | receive (room : Nat) (hgot : (bytesGot log).length < total) (hcall : r = ⟨x, recvCall fd room⟩)
  | shutdown (hgot : (bytesGot log).length < total)
      (hcall : r = ⟨x, .shutdown (some fd) p.SHUT_RDWR⟩)

/-- What the worker promises: it has counted what it has received, and that is at least the
total, or less, and its end is shut down. -/
def CounterReturns (p : Platform) (total : Nat) (serverError : SocketError) (received : Nat)
    (log : List Event) : Prop :=
  received = (bytesGot log).length ∧
    if serverError.hasError then
      (bytesGot log).length < total ∧ TriedShut p log
    else total ≤ (bytesGot log).length

/-- The worker of `Throughput`. -/
theorem wp_throughputWorker (hx : s.handles x = some (some fd)) (hbuffer : receiveBuffer ≠ []) :
    wp (anyEnv (CounterCalls p x fd total)) (throughputWorker p retries x total receiveBuffer)
      (fun r s' log' => s'.handles = s.handles ∧ CounterReturns p total r.1 r.2 log')
      (fun e _ log' => e = .gaveUp ∧ (bytesGot log').length < total) s [] := by
  have hloop : wp (anyEnv (CounterCalls p x fd total))
      (Calls.Code.loopN .assertion (countReceived p retries x total) (total + 1) (0, receiveBuffer))
      (fun r s' log' => s'.handles = s.handles ∧ r.2 = (bytesGot log').length ∧
        if r.1.hasError then (bytesGot log').length < total else total ≤ (bytesGot log').length)
      (fun e _ log' => e = .gaveUp ∧ (bytesGot log').length < total) s [] := by
    -- what is left to arrive decreases with every round that goes on
    apply Calls.wp_loopN_total (fun b s' log' => s'.handles = s.handles ∧
      b.1 = (bytesGot log').length ∧ b.2 ≠ []) fun b => total - b.1
    · intro b s₁ log₁ hinv
      obtain ⟨received, buffer⟩ := b
      obtain ⟨hs₁, hreceived, hne⟩ := hinv
      dsimp only at hreceived hne
      rw [countReceived]
      split
      case isFalse hdone =>
        refine ⟨hs₁, hreceived, ?_⟩
        rw [if_neg (by simp [SocketError.hasError, SocketError.success])]
        omega
      case isTrue hlt =>
        have hx₁ : s₁.handles x = some (some fd) := by rw [hs₁, hx]
        rw [Calls.wp_bind]
        refine Calls.Prog.wp.mono (wp_receive_log hx₁ ?_) ?_ ?_
        · intro fd' log₂ hfd _ hgot₂
          cases hfd
          exact .receive _ (by rwa [hgot₂, ← hreceived]) rfl
        · intro h s₂ log₂ hr
          obtain ⟨result, buffer₂⟩ := h
          obtain ⟨hs₂, bytes, hgot₂, hfits, hbuffer₂, hresult⟩ := hr
          dsimp only at hbuffer₂ hresult
          have hkeep : s₂.handles = s.handles := hs₂.trans hs₁
          have hsum : (bytesGot log₂).length = received + bytes.length := by
            rw [hgot₂, List.length_append, ← hreceived]
          cases result with
          | failure error =>
              obtain ⟨herror, rfl, -⟩ := hresult
              refine ⟨hkeep, hsum.symm, ?_⟩
              rw [if_pos herror, hsum]
              exact hlt
          | success count =>
              obtain ⟨rfl, -⟩ := hresult
              -- an end of the stream before the total is an error
              by_cases hzero : bytes.length = 0
              · simp only [hzero, if_true, Calls.wp_pure]
                refine ⟨hkeep, by omega, ?_⟩
                rw [if_pos (SocketError.hasError_ofErrc ..)]
                omega
              · simp only [hzero, if_false, Calls.wp_pure]
                refine ⟨⟨hkeep, hsum.symm, List.ne_nil_of_length_pos ?_⟩, by omega⟩
                have hpos := List.length_pos_iff.mpr hne
                rw [hbuffer₂, List.length_append, List.length_drop]
                omega
        · intro e s₂ log₂ h
          obtain ⟨he, hgot₂⟩ := h
          exact ⟨he, by rwa [hgot₂, ← hreceived]⟩
    · exact ⟨rfl, rfl, hbuffer⟩
    · omega
  rw [throughputWorker, Calls.wp_bind]
  refine hloop.imp ?_
  intro r s₁ log₁ h
  obtain ⟨serverError, received⟩ := r
  obtain ⟨hs₁, hreceived, hgot⟩ := h
  dsimp only at hreceived hgot ⊢
  apply wp_shutdown_if (hs₁ ▸ hx)
  · intro hfailed
    rw [if_pos hfailed] at hgot
    exact .shutdown hgot rfl
  · intro hfailed s₂ log₂ hs₂ hshut _ hgot₂
    rw [if_pos hfailed] at hgot
    refine ⟨hs₂.trans hs₁, hgot₂ ▸ hreceived, ?_⟩
    rw [if_pos hfailed, hgot₂]
    exact ⟨hgot, hshut⟩
  · intro hnone
    rw [if_neg (by simp [hnone])] at hgot
    refine ⟨hs₁, hreceived, ?_⟩
    rwa [if_neg (by simp [hnone])]

end Loops

/-! ### Both threads

A connection and two buffers of one chunk each. Their contents do not matter. -/

/-- What the threads of `Throughput` start with: a connection, and buffers of one chunk. -/
structure Throughput extends Ends where
  retries : Nat
  sendBuffer : Bytes
  receiveBuffer : Bytes
  streamMiB : Nat
  sendBuffer_length : sendBuffer.length = chunkBytes
  receiveBuffer_length : receiveBuffer.length = chunkBytes

/-- What a thread of `Throughput` ends with. -/
inductive StreamEnd
  | client (clientError : SocketError)
  | server (serverError : SocketError) (received : Nat)

namespace Throughput

/-- `total`, counted in 64 bits. -/
def total (t : Throughput) : Nat := t.streamMiB * mib % 2 ^ 64

/-- The threads. -/
def code (t : Throughput) (p : Platform) : Side → Prog os Process Exit StreamEnd
  | .client => (do
      let clientError ←
        throughputClient p t.retries (t.socket .client) t.sendBuffer t.total
      return .client clientError : N StreamEnd) (t.process .client)
  | .server => (do
      let (serverError, received) ←
        throughputWorker p t.retries (t.socket .server) t.total t.receiveBuffer
      return .server serverError received : N StreamEnd) (t.process .server)

/-- The calls of the threads. -/
def Allowed (t : Throughput) (p : Platform) : Side → Request → List Event → Prop
  | .client => SenderCalls p (t.socket .client) (t.wire.fd .client) t.total
  | .server => CounterCalls p (t.socket .server) (t.wire.fd .server) t.total

/-- What the threads promise. -/
def Returns (t : Throughput) (p : Platform) : Side → StreamEnd → List Event → Prop
  | .client, .client clientError => SenderReturns p t.total clientError
  | .server, .server serverError received => CounterReturns p t.total serverError received
  | _, _ => fun _ => False

/-- What they have done if they are interrupted for ever. -/
def GaveUp (t : Throughput) : Side → List Event → Prop
  | .client => fun log => (bytesPut log).length < t.total
  | .server => fun log => (bytesGot log).length < t.total

variable {t : Throughput} {p : Platform} {k : Kernel} {capacity : Nat}
variable {sys : System os Process Exit StreamEnd Side Side Kernel}
variable {js : Side → Job os Process Exit StreamEnd Side}

/-- The total is a number of chunks. -/
theorem dvd_total (t : Throughput) : chunkBytes ∣ t.total := by
  have hmib : chunkBytes ∣ mib := by decide
  rw [total, Nat.dvd_mod_iff (by decide)]
  exact hmib.mul_left _

/-- A thread leaves its objects where they are. -/
theorem promised_handles (t : Throughput) (p : Platform) :
    Promised p t.wire (t.code p) (t.Allowed p)
      (fun side r s log => s.handles = (t.process side).handles ∧ t.Returns p side r log)
      (fun side e _ log => e = .gaveUp ∧ t.GaveUp side log) := by
  intro i side _
  cases side with
  | client =>
      exact (Calls.wp_bind _ _).mpr
        (wp_throughputClient (t.attached .client) t.sendBuffer_length t.dvd_total)
  | server =>
      have hbuffer : t.receiveBuffer ≠ [] := by
        apply List.ne_nil_of_length_pos
        rw [t.receiveBuffer_length]
        decide
      exact (Calls.wp_bind _ _).mpr (wp_throughputWorker (t.attached .server) hbuffer)

theorem promised (t : Throughput) (p : Platform) : Promised p t.wire (t.code p) (t.Allowed p)
    (fun side r _ => t.Returns p side r) (fun side e _ log => e = .gaveUp ∧ t.GaveUp side log) :=
  (t.promised_handles p).imp (fun _ _ _ _ h => h.2) fun _ _ _ _ h => h

theorem tends (t : Throughput) (p : Platform) (side : Side) (r : Request) (log : List Event)
    (h : t.Allowed p side r log) : Tends (t.wire.fd side) r.call := by
  cases side with
  | client => rcases h with ⟨_, _, rfl⟩ | ⟨_, rfl⟩ <;> rfl
  | server => rcases h with ⟨_, _, rfl⟩ | ⟨_, rfl⟩ <;> rfl

/-! ### What arrives

One direction only: what the worker has received is the front of what the client has sent. -/

/-- At any moment, the client has sent less than the total, or has returned without an
error. -/
theorem client_sent (h : Along (t.Allowed p .client) (fun r _ => t.Returns p .client r)
    (fun e _ log => e = .gaveUp ∧ t.GaveUp .client log) (js .client)) :
    (bytesPut (js .client).log).length < t.total ∨
      (bytesPut (js .client).log).length = t.total ∧
        ∃ clientError s, (js .client).state = .ret (.client clientError) s ∧
          clientError.hasError = false := by
  rw [Along] at h
  cases hstate : (js .client).state with
  | ret r s =>
      rw [hstate] at h
      cases r with
      | client clientError =>
          replace h : SenderReturns p t.total clientError _ := h
          rw [SenderReturns] at h
          split at h
          case isTrue => exact .inl h.1
          case isFalse hnone => exact .inr ⟨h, _, s, rfl, by simpa using hnone⟩
      | server serverError received => exact h.elim
  | exit e s =>
      rw [hstate] at h
      exact .inl h.2
  | call r seen cont =>
      rw [hstate] at h
      rcases h with ⟨rest, hput, -⟩ | ⟨hput, -⟩
      · exact .inl hput
      · exact .inl hput

/-- What arrives is the front of what was sent, and that is never more than the total. -/
theorem front (t : Throughput) (p : Platform) (hfresh : t.wire.Fresh k)
    (h : System.Reachable (duplexRules p t.wire (t.code p)) k sys) (hjs : sys.Threads js) :
    bytesGot (js .server).log <+: bytesPut (js .client).log ∧
      (bytesPut (js .client).log).length ≤ t.total := by
  have hcode := t.promised p
  refine ⟨hcode.front (t.tends p) hfresh h hjs .client, ?_⟩
  rcases client_sent (hcode.place h hjs .client) with hless | ⟨hall, -⟩ <;> omega

/-- A worker that is done without an error has counted the total, and the client is done. -/
theorem complete (t : Throughput) (p : Platform) (hfresh : t.wire.Fresh k)
    (h : System.Reachable (duplexRules p t.wire (t.code p)) k sys) (hjs : sys.Threads js)
    {serverError : SocketError} {received : Nat} {s : Process}
    (hstate : (js .server).state = .ret (.server serverError received) s)
    (hnone : serverError.hasError = false) : received = t.total ∧
      ∃ clientError s', (js .client).state = .ret (.client clientError) s' ∧
        clientError.hasError = false := by
  have hcode := t.promised p
  have hle := (t.front p hfresh h hjs).1.length_le
  have hplace := hcode.place h hjs .server
  rw [Along, hstate] at hplace
  obtain ⟨hreceived, hgot⟩ := hplace
  rw [if_neg (by simp [hnone])] at hgot
  rcases client_sent (hcode.place h hjs .client) with hless | ⟨hall, hreturned⟩
  · omega
  · exact ⟨by omega, hreturned⟩

/-- The byte counts never mismatch. -/
theorem verdict (t : Throughput) (p : Platform) (hfresh : t.wire.Fresh k)
    (h : System.Reachable (duplexRules p t.wire (t.code p)) k sys) (hjs : sys.Threads js)
    {clientError serverError : SocketError} {received : Nat} {s s' : Process}
    (hstate : (js .client).state = .ret (.client clientError) s)
    (hstate' : (js .server).state = .ret (.server serverError received) s') :
    throughputVerdict clientError serverError received t.total =
      if serverError.hasError then .failed else .measured := by
  by_cases hfailed : serverError.hasError = true
  · simp [throughputVerdict, reportErrors, hfailed]
  · obtain ⟨rfl, clientError₁, s₁, hstate₁, hok⟩ :=
      t.complete p hfresh h hjs hstate' (by simpa using hfailed)
    rw [hstate] at hstate₁
    cases hstate₁
    simp [throughputVerdict, reportErrors, hfailed, hok]

/-- What `Throughput` relies on. -/
structure Counts (t : Throughput) (js : Side → Job os Process Exit StreamEnd Side) : Prop where
  /-- The worker receives what the client has sent, in order, and that is never more than the
  total. -/
  front : bytesGot (js .server).log <+: bytesPut (js .client).log ∧
    (bytesPut (js .client).log).length ≤ t.total
  /-- When the worker is done without an error, it has counted the total, and the client is
  done as well, without an error. -/
  complete : ∀ serverError received s, (js .server).state = .ret (.server serverError received) s →
    serverError.hasError = false → received = t.total ∧
      ∃ clientError s', (js .client).state = .ret (.client clientError) s' ∧
        clientError.hasError = false
  /-- So the byte counts never mismatch, and an error on the worker's side is the only
  failure. -/
  verdict : ∀ clientError s serverError received s',
    (js .client).state = .ret (.client clientError) s →
    (js .server).state = .ret (.server serverError received) s' →
    throughputVerdict clientError serverError received t.total =
      if serverError.hasError then .failed else .measured
  /-- No thread leaves in any other way than by being interrupted for ever. -/
  leaves : ∀ side e s, (js side).state = .exit e s → e = .gaveUp

/-- **The count**, in every interleaving of the client and the worker, whatever the system
calls transfer and whichever of them fail. -/
theorem stream_is_counted (t : Throughput) (p : Platform) (hfresh : t.wire.Fresh k)
    (h : System.Reachable (duplexRules p t.wire (t.code p)) k sys) (hjs : sys.Threads js) :
    t.Counts js where
  front := t.front p hfresh h hjs
  complete _ _ _ := t.complete p hfresh h hjs
  verdict _ _ _ _ _ := t.verdict p hfresh h hjs
  leaves _ _ _ := (t.promised p).leaves h hjs

/-! ### Nobody waits for ever

A client that waits has sent more than was received, and a worker that waits has received all
that was sent. -/

variable {own other : List Event} {r : Request}

/-- A client that waits has something left to send, and no room for it. -/
theorem client_starved (hcapacity : 0 < capacity) (hA : t.Allowed p .client r own)
    (h : Starved capacity own other r.call) : (bytesPut own).length < t.total ∧
      (bytesGot other).length < (bytesPut own).length := by
  rcases hA with ⟨rest, hput, rfl⟩ | ⟨hput, rfl⟩
  · have hfull : (bytesGot other).length + capacity ≤ (bytesPut own).length := h
    exact ⟨hput, by omega⟩
  · exact h.elim

/-- A worker that waits has received what was sent, and needs more. -/
theorem server_starved (hA : t.Allowed p .server r own)
    (h : Starved capacity own other r.call) : (bytesGot own).length < t.total ∧
      (bytesGot own).length = (bytesPut other).length := by
  rcases hA with ⟨room, hgot, rfl⟩ | ⟨hgot, rfl⟩
  · exact ⟨hgot, h⟩
  · exact h.elim

/-- A thread that has returned, on a connection that was not shut down and where no shutdown
failed, has transferred the total. -/
theorem returned_all {side : Side} {a : StreamEnd} (h : t.Returns p side a own)
    (hshut : ¬ HasShut p own) (hfailed : ¬ ShutdownFailed own) :
    match side with
    | .client => (bytesPut own).length = t.total
    | .server => t.total ≤ (bytesGot own).length := by
  have hnone : ¬ TriedShut p own := fun htried => htried.result.elim hshut hfailed
  cases side <;> cases a
  case client.client clientError =>
    replace h : SenderReturns p t.total clientError own := h
    rw [SenderReturns] at h
    split at h
    case isTrue =>
      exact absurd h.2 hnone
    case isFalse => exact h
  case server.server serverError received =>
    obtain ⟨-, h⟩ := h
    split at h
    case isTrue =>
      exact absurd h.2 hnone
    case isFalse => exact h
  all_goals exact h.elim

/-- While nothing was shut down, a client and a worker that both wait or have returned have both
returned. -/
theorem unstalled (hcapacity : 0 < capacity) (hshut : ∀ side, ¬ HasShut p (js side).log)
    (hshutdown : ∀ side, ¬ ShutdownFailed (js side).log)
    (hstalled : ∀ side, Stalled capacity (t.Allowed p side) (fun r _ => t.Returns p side r)
      (js side).log (js side.peer).log) {side : Side} (hA : t.Allowed p side r (js side).log) :
    ¬ Starved capacity (js side).log (js side.peer).log r.call := by
  intro hstarved
  cases side with
  | client =>
      obtain ⟨hless, hroom⟩ := client_starved hcapacity hA hstarved
      rw [Side.peer_client] at hroom
      -- a worker that is done has received more than the client has sent
      rcases hstalled .server with ⟨a, -, hreturned⟩ | ⟨r', hA', hstarved'⟩
      · have hall := returned_all hreturned (hshut .server) (hshutdown .server)
        dsimp only at hall
        omega
      · have hdry := (server_starved hA' hstarved').2
        rw [Side.peer_server] at hdry
        omega
  | server =>
      obtain ⟨hless, hdry⟩ := server_starved hA hstarved
      rw [Side.peer_server] at hdry
      rcases hstalled .client with ⟨a, -, hreturned⟩ | ⟨r', hA', hstarved'⟩
      · have hall := returned_all hreturned (hshut .client) (hshutdown .client)
        dsimp only at hall
        omega
      · have hroom := (client_starved hcapacity hA' hstarved').2
        rw [Side.peer_client] at hroom
        omega

/-- **No deadlock.** Whatever fits into the connection, the client and the worker never wait
for each other, unless a call of `Shutdown` has failed. -/
theorem stream_never_deadlocks (t : Throughput) (p : Platform) (hcapacity : 0 < capacity)
    (hfresh : t.wire.Fresh k) (h : System.Reachable (duplexRules p t.wire (t.code p)) k sys)
    (hjs : sys.Threads js) (hshutdown : ∀ side, ¬ ShutdownFailed (js side).log) :
    ¬ sys.Deadlocked (fun k r => k.Blocks p capacity r.call) js := by
  intro hdead
  obtain ⟨hshut, hstalled, side, r, hA, hstarved⟩ :=
    (t.promised p).deadlocked (t.tends p) hfresh h hjs hdead
  exact unstalled hcapacity hshut hshutdown hstalled hA hstarved

/-! ### A run without errors

Every chunk is sent with one call and received with one call, so the connection is empty after
each, and the last one makes up the total. -/

section Success

variable {s : Process} {x : HandleId} {fd retries n : Nat} {sendBuffer receiveBuffer : Bytes}

/-- What is left of a number of chunks. -/
theorem chunks_left {i n : Nat} (h : ¬ i * chunkBytes < n * chunkBytes) (hle : i ≤ n) : i = n := by
  have hge := Nat.le_of_mul_le_mul_right (Nat.not_lt.mp h) (show 0 < chunkBytes by decide)
  omega

/-- The main thread of `Throughput`. -/
theorem wp_throughputClient_whole (hx : s.handles x = some (some fd)) (hne : sendBuffer ≠ [])
    (hfits : sendBuffer.length ≤ intMax) :
    wp followEnv (throughputClient p (retries + 1) x sendBuffer (n * chunkBytes))
      (fun error _ events => error.hasError = false ∧ events = []) (fun _ _ _ => False) s
      (List.replicate n [sentWhole p x fd sendBuffer]).flatten := by
  have hloop : wp followEnv (Calls.Code.loopN .assertion
      (sendChunk p (retries + 1) x sendBuffer (n * chunkBytes)) (n * chunkBytes + 1) 0)
      (fun error _ events => error.hasError = false ∧ events = []) (fun _ _ _ => False) s
      (List.replicate n [sentWhole p x fd sendBuffer]).flatten := by
    -- after `i` chunks, the others are left
    apply Calls.wp_loopN_total (fun sent s' events => s'.handles = s.handles ∧ ∃ i ≤ n,
      sent = i * chunkBytes ∧
        events = (List.replicate (n - i) [sentWhole p x fd sendBuffer]).flatten)
      fun sent => n * chunkBytes - sent
    · intro sent s₁ w₁ hinv
      obtain ⟨hs₁, i, hi, rfl, rfl⟩ := hinv
      rw [sendChunk]
      split
      case isFalse hdone =>
        obtain rfl := chunks_left hdone hi
        exact ⟨rfl, by simp⟩
      case isTrue hlt =>
        have hless : i < n := Nat.lt_of_mul_lt_mul_right hlt
        obtain ⟨m, hm⟩ : ∃ m, n - i = m + 1 := ⟨n - (i + 1), by omega⟩
        rw [hm, List.replicate_succ, List.flatten_cons, List.singleton_append, Calls.wp_bind]
        refine (wp_sendAll_whole (by rw [hs₁, hx]) hne hfits).imp ?_
        intro error s₂ w₂ h
        obtain ⟨hs₂, herror, rfl⟩ := h
        simp only [herror, Bool.false_eq_true, if_false, Calls.wp_pure]
        have hchunk : 0 < chunkBytes := by decide
        refine ⟨⟨hs₂.trans hs₁, i + 1, hless, (Nat.succ_mul ..).symm, ?_⟩, by omega⟩
        rw [show n - (i + 1) = m by omega]
    · exact ⟨rfl, 0, Nat.zero_le _, (Nat.zero_mul _).symm, rfl⟩
    · omega
  rw [throughputClient, Calls.wp_bind]
  refine hloop.imp ?_
  intro error s₁ w₁ h
  simp only [h.1, Bool.false_eq_true, if_false]
  exact h

/-- The worker of `Throughput`. -/
theorem wp_throughputWorker_whole (hx : s.handles x = some (some fd))
    (hsend : sendBuffer.length = chunkBytes) (hreceive : receiveBuffer.length = chunkBytes)
    (hfits : sendBuffer.length ≤ min chunkBytes intMax) :
    wp followEnv (throughputWorker p (retries + 1) x (n * chunkBytes) receiveBuffer)
      (fun r _ events => (r.1.hasError = false ∧ r.2 = n * chunkBytes) ∧ events = [])
      (fun _ _ _ => False) s
      (List.replicate n [receivedWhole x fd chunkBytes sendBuffer hfits]).flatten := by
  have hchunk : 0 < chunkBytes := by decide
  have hloop : wp followEnv (Calls.Code.loopN .assertion
      (countReceived p (retries + 1) x (n * chunkBytes)) (n * chunkBytes + 1) (0, receiveBuffer))
      (fun r _ events => (r.1.hasError = false ∧ r.2 = n * chunkBytes) ∧ events = [])
      (fun _ _ _ => False) s
      (List.replicate n [receivedWhole x fd chunkBytes sendBuffer hfits]).flatten := by
    -- after `i` chunks, the others are left
    apply Calls.wp_loopN_total (fun b s' events => s'.handles = s.handles ∧
      b.2.length = chunkBytes ∧ ∃ i ≤ n, b.1 = i * chunkBytes ∧
        events = (List.replicate (n - i) [receivedWhole x fd chunkBytes sendBuffer hfits]).flatten)
      fun b => n * chunkBytes - b.1
    · intro b s₁ w₁ hinv
      obtain ⟨received, buffer⟩ := b
      obtain ⟨hs₁, hbuffer, i, hi, hreceived, rfl⟩ := hinv
      dsimp only at hbuffer hreceived
      subst hreceived
      rw [countReceived]
      split
      case isFalse hdone =>
        obtain rfl := chunks_left hdone hi
        exact ⟨⟨rfl, rfl⟩, by simp⟩
      case isTrue hlt =>
        have hless : i < n := Nat.lt_of_mul_lt_mul_right hlt
        obtain ⟨m, hm⟩ : ∃ m, n - i = m + 1 := ⟨n - (i + 1), by omega⟩
        rw [hm, List.replicate_succ, List.flatten_cons, List.singleton_append, Calls.wp_bind]
        refine (wp_receive_whole (by rw [hs₁, hx]) (List.ne_nil_of_length_pos (hbuffer ▸ hchunk))
          hbuffer hsend hfits).imp ?_
        intro r s₂ w₂ h
        obtain ⟨hs₂, rfl, rfl⟩ := h
        simp only [if_neg (Nat.ne_of_gt hchunk), Calls.wp_pure]
        refine ⟨⟨hs₂.trans hs₁, hsend, i + 1, hless, (Nat.succ_mul ..).symm, ?_⟩, by omega⟩
        rw [show n - (i + 1) = m by omega]
    · exact ⟨rfl, hreceive, 0, Nat.zero_le _, (Nat.zero_mul _).symm, rfl⟩
    · omega
  rw [throughputWorker, Calls.wp_bind]
  refine hloop.imp ?_
  intro r s₁ w₁ h
  obtain ⟨serverError, received⟩ := r
  obtain ⟨⟨herror, hreceived⟩, rfl⟩ := h
  dsimp only at herror hreceived ⊢
  simp only [herror, Bool.false_eq_true, if_false]
  exact ⟨⟨herror, hreceived⟩, rfl⟩

end Success

/-- What the threads return if there is no error. -/
def Good (t : Throughput) : Side → StreamEnd → Prop
  | .client, .client clientError => clientError.hasError = false
  | .server, .server serverError received => serverError.hasError = false ∧ received = t.total
  | _, _ => False

/-- Both threads can return without an error. -/
theorem succeeds (t : Throughput) (p : Platform) (hretries : 0 < t.retries)
    (hfresh : t.wire.Fresh k) :
    ∃ (sys : System os Process Exit StreamEnd Side Side Kernel)
      (js : Side → Job os Process Exit StreamEnd Side),
      System.Reachable (duplexRules p t.wire (t.code p)) k sys ∧ sys.Threads js ∧
        ∀ side, ∃ a s, (js side).state = .ret a s ∧ t.Good side a := by
  obtain ⟨retries, hretries⟩ : ∃ n, t.retries = n + 1 := Nat.exists_eq_add_one.mpr hretries
  obtain ⟨n, hn⟩ := t.dvd_total
  rw [Nat.mul_comm] at hn
  have hchunk : chunkBytes ≤ intMax := by decide
  have hfits : t.sendBuffer.length ≤ min chunkBytes intMax := by
    rw [t.sendBuffer_length]
    exact Nat.le_min.mpr ⟨le_refl _, hchunk⟩
  have hne : t.sendBuffer ≠ [] := by
    apply List.ne_nil_of_length_pos
    rw [t.sendBuffer_length]
    decide
  -- a chunk that is sent and received leaves the kernel as it was
  have hturn : Plays (duplexRules p t.wire (t.code p))
      [(.client, sentWhole p (t.socket .client) (t.wire.fd .client) t.sendBuffer),
        (.server, receivedWhole (t.socket .server) (t.wire.fd .server) chunkBytes t.sendBuffer
          hfits)] k k := hfresh.passes .client hne hfits
  obtain ⟨sys₁, h₁, henv₁, hjs₁⟩ := System.Reachable.threads
    (duplexRules p t.wire (t.code p)) k [.client, .server] (by decide)
    (by intro side; cases side <;> decide) id fun _ => rfl
  have hcode : ∀ side, (t.code p side).wp followEnv
      (fun a _ rest => t.Good side a ∧ rest = []) (fun _ _ _ => False)
      (part side (List.replicate n
        [(.client, sentWhole p (t.socket .client) (t.wire.fd .client) t.sendBuffer),
          (.server, receivedWhole (t.socket .server) (t.wire.fd .server) chunkBytes t.sendBuffer
            hfits)]).flatten) := by
    intro side
    rw [System.part_repeated]
    cases side with
    | client =>
        refine (Calls.wp_bind _ _).mpr ?_
        rw [hretries, hn]
        exact wp_throughputClient_whole (t.attached .client) hne
          (hfits.trans (Nat.min_le_right ..))
    | server =>
        refine (Calls.wp_bind _ _).mpr ?_
        rw [hretries, hn]
        refine (wp_throughputWorker_whole (t.attached .server) t.sendBuffer_length
          t.receiveBuffer_length hfits).imp ?_
        intro r s w h
        exact ⟨⟨h.1.1, h.1.2.trans hn.symm⟩, h.2⟩
  obtain ⟨sys, js, h, -, hjs, hreturned⟩ :=
    h₁.played (P := fun side a _ => t.Good side a) hjs₁ (henv₁.symm ▸ hturn.repeated n) hcode
  exact ⟨sys, js, h, hjs, hreturned⟩

/-! ### One MiB to send

Sixteen chunks, followed to the end. -/

/-- One MiB. -/
def ofMiB : Throughput where
  toEnds := .one
  retries := 1
  sendBuffer := List.replicate chunkBytes 0x5a
  receiveBuffer := List.replicate chunkBytes 0
  streamMiB := 1
  sendBuffer_length := List.length_replicate
  receiveBuffer_length := List.length_replicate

/-- Both threads have been started, and the worker waits. -/
theorem ofMiB_waiting : ∃ (sys : System os Process Exit StreamEnd Side Side Kernel)
    (js : Side → Job os Process Exit StreamEnd Side),
    System.Reachable (duplexRules .linux ofMiB.wire (ofMiB.code .linux)) Kernel.one sys ∧
      sys.Threads js ∧ (∀ side, (js side).log = []) ∧
      (js .server).Waits fun r : Request => sys.env.Blocks .linux 1 r.call := by
  obtain ⟨sys, h, henv, hjs⟩ := System.Reachable.threads
    (duplexRules .linux ofMiB.wire (ofMiB.code .linux)) Kernel.one [.client, .server]
    (by decide) (by intro side; cases side <;> decide) id fun _ => rfl
  refine ⟨sys, _, h, hjs, fun _ => rfl, ?_⟩
  rw [henv]
  exact ⟨_, _, _, rfl, 4, 0, .server, rfl, rfl, rfl, rfl, rfl⟩

/-- In a run to the end, one MiB is counted. -/
theorem stream_is_counted_ofMiB : ∃ (sys : System os Process Exit StreamEnd Side Side Kernel)
    (js : Side → Job os Process Exit StreamEnd Side) (clientError serverError : SocketError)
    (received : Nat) (s s' : Process),
    System.Reachable (duplexRules .linux ofMiB.wire (ofMiB.code .linux)) Kernel.one sys ∧
      sys.Threads js ∧ (js .client).state = .ret (.client clientError) s ∧
      (js .server).state = .ret (.server serverError received) s' ∧
      serverError.hasError = false ∧ received = 1048576 ∧
      throughputVerdict clientError serverError received 1048576 = .measured ∧
      ofMiB.Counts js := by
  have htotal : ofMiB.total = 1048576 := by decide
  obtain ⟨sys, js, h, hjs, hgood⟩ := ofMiB.succeeds .linux (by decide) Kernel.one_fresh
  have hcounts := ofMiB.stream_is_counted .linux Kernel.one_fresh h hjs
  obtain ⟨a, s, hstate, hclient⟩ := hgood .client
  obtain ⟨a', s', hstate', hserver⟩ := hgood .server
  cases a with
  | server serverError received => exact hclient.elim
  | client clientError =>
      cases a' with
      | client clientError => exact hserver.elim
      | server serverError received =>
          have hverdict := hcounts.verdict _ _ _ _ _ hstate hstate'
          rw [if_neg (by simp [hserver.1]), htotal] at hverdict
          obtain ⟨hall, -⟩ := hcounts.complete _ _ _ hstate' hserver.1
          exact ⟨sys, js, clientError, serverError, received, s, s', h, hjs, hstate, hstate',
            hserver.1, hall.trans htotal, hverdict, hcounts⟩

theorem stream_never_deadlocks_ofMiB : ∃ (sys : System os Process Exit StreamEnd Side Side Kernel)
    (js : Side → Job os Process Exit StreamEnd Side),
    ((js .server).Waits fun r : Request => sys.env.Blocks .linux 1 r.call) ∧
      ¬ sys.Deadlocked (fun k r => k.Blocks .linux 1 r.call) js := by
  obtain ⟨sys, js, h, hjs, hlog, hwaits⟩ := ofMiB_waiting
  refine ⟨sys, js, hwaits,
    ofMiB.stream_never_deadlocks .linux Nat.one_pos Kernel.one_fresh h hjs ?_⟩
  intro side h
  obtain ⟨x, handle, how, e, hmem⟩ := h
  rw [hlog side] at hmem
  exact absurd hmem List.not_mem_nil

end Throughput

end BenchTcp

end Net

end CoreSystems
