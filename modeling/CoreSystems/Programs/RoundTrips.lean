import CoreSystems.Net.WholeTransfers
import CoreSystems.Programs.BenchTcp

/-!
# CoreSystems.Programs.RoundTrips

The round trips of the benchmark: a client that sends a request and waits for it to come
back, and a worker that echoes it.

Where a thread is in its loop can be read off what it has transferred. So the two loops are
specified by their own logs, one round after another, and the account of the connection puts
the two together: what comes back is the request, and nobody waits for ever.

`ClientCalls` and `WorkerCalls` are what each thread may call, given its log; `ClientReturns`
and `WorkerReturns` what it promises when it is done. They are proved for each thread by
itself, in the environment that records its log. Two results are read off them with the
account of the connection (`CoreSystems.Net.Duplex`): `requests_come_back`, for every
reachable state, and `echo_never_deadlocks`. The last part shows that runs to a successful end
exist for every number of rounds.
-/

namespace CoreSystems

open Buffer (Bytes)
open Calls (Job Prog System wp)
open Calls.System (Plays followEnv part)

namespace Net

open SocketHandle

namespace BenchTcp

variable {p : Platform} {s : Process} {x : HandleId} {fd retries : Nat} {log : List Event}
variable {request reply echo : Bytes} {k count n : Nat}

/-! ### The client

It has made `k` exchanges when it has sent `k` requests and received as many bytes. -/

/-- So many requests, one after another. -/
def requests (request : Bytes) (k : Nat) : Bytes := (List.replicate k request).flatten

theorem requests_succ (request : Bytes) (k : Nat) :
    requests request (k + 1) = requests request k ++ request := by
  rw [requests, List.replicate_succ', List.flatten_append, List.flatten_singleton, requests]

theorem length_requests (request : Bytes) (k : Nat) :
    (requests request k).length = k * request.length := by
  induction k with
  | zero => simp [requests]
  | succ k ih => rw [requests_succ, List.length_append, ih, Nat.succ_mul]

theorem requests_front {k n : Nat} (h : k ≤ n) : requests request k <+: requests request n := by
  induction h with
  | refl => exact List.prefix_rfl
  | step _ ih =>
      rw [requests_succ]
      exact ih.trans (List.prefix_append ..)

/-- The calls of the client: in round `k` it sends what is left of the request, then receives
what is left of the reply. -/
inductive ClientCalls (p : Platform) (x : HandleId) (fd : Nat) (request : Bytes) (n : Nat)
    (r : Request) (log : List Event) : Prop
  | send (k : Nat) (rest : Bytes) (hk : k < n) (hrest : rest ≠ [])
      (hput : bytesPut log ++ rest = requests request (k + 1))
      (hgot : (bytesGot log).length = k * request.length) (hcall : r = ⟨x, sendCall p fd rest⟩)
  | receive (k room : Nat) (hk : k < n) (hroom : 0 < room)
      (hput : bytesPut log = requests request (k + 1))
      (hgot : (bytesGot log).length + room = (k + 1) * request.length)
      (hcall : r = ⟨x, recvCall fd room⟩)
  | shutdown (hput : bytesPut log <+: requests request n)
      (hcall : r = ⟨x, .shutdown (some fd) p.SHUT_RDWR⟩)

/-- The client has made `k` exchanges. -/
structure Exchanged (request : Bytes) (k : Nat) (reply : Bytes) (log : List Event) : Prop where
  put : bytesPut log = requests request k
  got : (bytesGot log).length = k * request.length
  /-- The reply is what was received last. -/
  reply : k ≠ 0 → reply <:+ bytesGot log

/-- `exchange`, from round `k` on. -/
theorem wp_exchange (hx : s.handles x = some (some fd)) (hreply : reply.length = request.length)
    (hn : k + count ≤ n) (hdone : Exchanged request k reply log) :
    wp (anyEnv (ClientCalls p x fd request n)) (exchange p retries x request count reply)
      (fun r s' log' => s'.handles = s.handles ∧ r.2.length = request.length ∧
        bytesPut log' <+: requests request n ∧
        (r.1.hasError = false → Exchanged request (k + count) r.2 log'))
      (fun e _ log' => e = .gaveUp ∧ bytesPut log' <+: requests request n) s log := by
  induction count generalizing k reply s log with
  | zero =>
      refine ⟨rfl, hreply, ?_, fun _ => hdone⟩
      rw [hdone.put]
      exact requests_front hn
  | succ count ih =>
      obtain ⟨hput, hgot, -⟩ := hdone
      have hround : requests request (k + 1) <+: requests request n := requests_front (by omega)
      rw [exchange, Calls.wp_bind]
      apply Calls.Prog.wp.mono (wp_sendAll_log hx ?_)
      · intro error s₁ log₁ hsent
        obtain ⟨hs₁, rest, -, ⟨hput₁, hgot₁⟩, -, herror⟩ := hsent
        rw [hput, ← requests_succ] at hput₁
        by_cases hfailed : error.hasError = true
        · simp only [hfailed, if_true, Calls.wp_bind, Calls.wp_pure]
          refine ⟨hs₁, hreply, ?_, by simp⟩
          exact List.IsPrefix.trans ⟨rest, hput₁⟩ hround
        · have hok : error.hasError = false := by simpa using hfailed
          obtain rfl := herror.mp hok
          rw [List.append_nil] at hput₁
          simp only [hok, Bool.false_eq_true, if_false]
          rw [Calls.wp_bind]
          apply Calls.Prog.wp.mono (wp_receiveExact_log (x := x) (by rw [hs₁, hx]) ?_)
          · intro r s₂ log₂ hreceived
            obtain ⟨error₂, reply₂⟩ := r
            obtain ⟨hs₂, got, ⟨hgot₂, hput₂⟩, -, hfits, hreply₂, hfull⟩ := hreceived
            dsimp only at hreply₂ hfull ⊢
            have hlength : reply₂.length = request.length := by
              rw [hreply₂, ← hreply]
              simp [hfits]
            have hkeep : s₂.handles = s.handles := hs₂.trans hs₁
            rw [hput₁] at hput₂
            split
            case isTrue hfailed₂ =>
              exact ⟨hkeep, hlength, by rwa [hput₂], by simp [hfailed₂]⟩
            case isFalse hok₂ =>
              have hall : got.length = reply.length := hfull.mp (by simpa using hok₂)
              rw [hall, List.drop_length, List.append_nil] at hreply₂
              subst hreply₂
              -- the next round starts with another reply in the buffer
              have hnext : Exchanged request (k + 1) reply₂ log₂ := by
                refine ⟨hput₂, ?_, fun _ => hgot₂ ▸ List.suffix_append ..⟩
                rw [hgot₂, hgot₁, List.length_append, hgot, hlength, Nat.succ_mul]
              have hsum : k + (count + 1) = k + 1 + count := by omega
              rw [hsum]
              refine (ih (by rw [hkeep, hx]) hlength (by omega) hnext).imp ?_
              intro r s₃ log₃ hr
              exact ⟨hr.1.trans hkeep, hr.2⟩
          · intro e s₂ log₂ h
            obtain ⟨he, got, -, -, hput₂⟩ := h
            exact ⟨he, by rwa [hput₂, hput₁]⟩
          · intro got log₂ hlt hgot₂ hput₂
            refine .receive k (reply.length - got.length) (by omega) (by omega)
              (hput₂.trans hput₁) ?_ rfl
            rw [hgot₂, hgot₁, List.length_append, hgot, Nat.succ_mul]
            omega
      · intro e s₁ log₁ h
        obtain ⟨he, rest, -, hput₁, -⟩ := h
        rw [hput, ← requests_succ] at hput₁
        exact ⟨he, List.IsPrefix.trans ⟨rest, hput₁⟩ hround⟩
      · intro rest log₁ hsuffix hne hput₁ hgot₁
        rw [hput, ← requests_succ] at hput₁
        exact .send k rest (by omega) hne hput₁ (hgot₁ ▸ hgot) rfl

/-- What the main thread of `RoundTrips` promises: without an error it has sent all requests
and the last reply it has received is in `reply`, and after one it has shut its end down. -/
def ClientReturns (p : Platform) (request : Bytes) (n : Nat) (clientError : SocketError)
    (reply : Bytes) (log : List Event) : Prop :=
  bytesPut log <+: requests request n ∧
    if clientError.hasError then TriedShut p log
    else reply.length = request.length ∧ Exchanged request n reply log

theorem wp_roundTripsClient {rounds : Nat} (hx : s.handles x = some (some fd))
    (hreply : reply.length = request.length) :
    wp (anyEnv (ClientCalls p x fd request (warmupRounds + rounds)))
      (roundTripsClient p retries x request reply rounds) (fun r s' log' => s'.handles = s.handles ∧
        ClientReturns p request (warmupRounds + rounds) r.1 r.2 log')
      (fun e _ log' => e = .gaveUp ∧ bytesPut log' <+: requests request (warmupRounds + rounds))
      s [] := by
  have hstart : Exchanged request 0 reply [] := ⟨rfl, by simp, by simp⟩
  -- both calls of `exchange` end alike
  have hend : ∀ {clientError : SocketError} {reply₁ : Bytes} {s₁ : Process} {log₁ : List Event},
      s₁.handles = s.handles → reply₁.length = request.length →
      bytesPut log₁ <+: requests request (warmupRounds + rounds) →
      (clientError.hasError = false →
        Exchanged request (warmupRounds + rounds) reply₁ log₁) →
      wp (anyEnv (ClientCalls p x fd request (warmupRounds + rounds)))
        (if clientError.hasError then do
            let _ ← TcpSocket.shutdown p x .both
            return (clientError, reply₁)
          else return (clientError, reply₁))
        (fun r s' log' => s'.handles = s.handles ∧
          ClientReturns p request (warmupRounds + rounds) r.1 r.2 log')
        (fun e _ log' => e = .gaveUp ∧ bytesPut log' <+: requests request (warmupRounds + rounds))
        s₁ log₁ := by
    intro clientError reply₁ s₁ log₁ hs₁ hlength hput hok
    apply wp_shutdown_if (hs₁ ▸ hx) fun _ => .shutdown hput rfl
    · intro hfailed s₂ log₂ hs₂ hshut hput₂ hgot₂
      refine ⟨hs₂.trans hs₁, by rwa [hput₂], ?_⟩
      rw [if_pos hfailed]
      exact hshut
    · intro hnone
      refine ⟨hs₁, hput, ?_⟩
      rw [if_neg (by simp [hnone])]
      exact ⟨hlength, hok hnone⟩
  rw [roundTripsClient, Calls.wp_bind]
  refine (wp_exchange hx hreply (by omega) hstart).imp ?_
  intro r s₁ log₁ hr
  rw [Nat.zero_add] at hr
  obtain ⟨hs₁, hlength, hput, hok⟩ := hr
  obtain ⟨clientError, reply₁⟩ := r
  dsimp only at hlength hok ⊢
  by_cases hfailed : clientError.hasError = true
  · rw [if_pos hfailed]
    exact hend hs₁ hlength hput (by simp [hfailed])
  · have hnone : clientError.hasError = false := by simpa using hfailed
    simp only [hnone, Bool.false_eq_true, if_false]
    rw [Calls.wp_bind]
    apply (wp_exchange (x := x) (by rw [hs₁, hx]) hlength (Nat.le_refl _) (hok hnone)).imp
    intro r s₂ log₂ hr
    obtain ⟨hs₂, hlength₂, hput₂, hok₂⟩ := hr
    exact hend (hs₂.trans hs₁) hlength₂ hput₂ hok₂

/-! ### The worker

It sends back what it has received, so its log is read by comparing its two directions. -/

/-- The calls of the worker: in round `k` it receives what is left of a message, then sends
what is left of the echo. -/
inductive WorkerCalls (p : Platform) (x : HandleId) (fd m n : Nat) (r : Request)
    (log : List Event) : Prop
  | receive (k room : Nat) (hk : k < n) (hroom : 0 < room)
      (hput : (bytesPut log).length = k * m) (hecho : bytesPut log <+: bytesGot log)
      (hgot : (bytesGot log).length + room = (k + 1) * m) (hcall : r = ⟨x, recvCall fd room⟩)
  | send (k : Nat) (rest : Bytes) (hk : k < n) (hrest : rest ≠ [])
      (hecho : bytesPut log ++ rest = bytesGot log) (hgot : (bytesGot log).length = (k + 1) * m)
      (hcall : r = ⟨x, sendCall p fd rest⟩)
  | shutdown (hecho : bytesPut log <+: bytesGot log) (hput : (bytesPut log).length < n * m)
      (hcall : r = ⟨x, .shutdown (some fd) p.SHUT_RDWR⟩)

/-- What the worker promises: it sends nothing but what it has received, and either all of
it or less than it should, with its end shut down. -/
def WorkerReturns (p : Platform) (m n : Nat) (serverError : SocketError) (log : List Event) :
    Prop :=
  bytesPut log <+: bytesGot log ∧
    if serverError.hasError then
      (bytesPut log).length < n * m ∧ TriedShut p log
    else (bytesPut log).length = n * m ∧ (bytesGot log).length = n * m

/-- What the worker has done if its calls are interrupted for ever. -/
def WorkerGaveUp (m n : Nat) (log : List Event) : Prop :=
  bytesPut log <+: bytesGot log ∧ (bytesPut log).length < n * m

/-- The worker, from round `k` on. -/
theorem wp_echoWorker {serverError : SocketError} {m : Nat} (hx : s.handles x = some (some fd))
    (hecho : echo.length = m) (hm : 0 < m) (hn : k + count = n)
    (hnone : serverError.hasError = false) (hput : bytesPut log = bytesGot log)
    (hgot : (bytesGot log).length = k * m) :
    wp (anyEnv (WorkerCalls p x fd m n)) (echoWorker p retries x count serverError echo)
      (fun r s' log' => s'.handles = s.handles ∧ WorkerReturns p m n r log')
      (fun e _ log' => e = .gaveUp ∧ WorkerGaveUp m n log') s log := by
  induction count generalizing k serverError echo s log with
  | zero =>
      obtain rfl : k = n := hn
      refine ⟨rfl, hput ▸ List.prefix_rfl, ?_⟩
      rw [if_neg (by simp [hnone]), hput]
      exact ⟨hgot, hgot⟩
  | succ count ih =>
      have hround : k * m < n * m := Nat.mul_lt_mul_of_pos_right (by omega) hm
      have hlast : (k + 1) * m ≤ n * m := Nat.mul_le_mul_right _ (by omega)
      have hsucc : (k + 1) * m = k * m + m := Nat.succ_mul ..
      -- a round that fails ends with a shutdown
      have hfail : ∀ {error : SocketError} {s₁ : Process} {log₁ : List Event}
          {rest : N SocketError}, s₁.handles = s.handles → bytesPut log₁ <+: bytesGot log₁ →
          (error.hasError = true → (bytesPut log₁).length < n * m) →
          (error.hasError = false → wp (anyEnv (WorkerCalls p x fd m n)) rest
            (fun r s' log' => s'.handles = s.handles ∧ WorkerReturns p m n r log')
            (fun e _ log' => e = .gaveUp ∧ WorkerGaveUp m n log') s₁ log₁) →
          wp (anyEnv (WorkerCalls p x fd m n)) (if error.hasError then do
              let _ ← TcpSocket.shutdown p x .both
              return error
            else rest) (fun r s' log' => s'.handles = s.handles ∧ WorkerReturns p m n r log')
            (fun e _ log' => e = .gaveUp ∧ WorkerGaveUp m n log') s₁ log₁ := by
        intro error s₁ log₁ rest hs₁ hechoed hless hrest
        apply wp_shutdown_if (hs₁ ▸ hx) (fun h => .shutdown hechoed (hless h) rfl) _ hrest
        intro herror s₂ log₂ hs₂ hshut hput₂ hgot₂
        refine ⟨hs₂.trans hs₁, by rwa [hput₂, hgot₂], ?_⟩
        rw [if_pos herror, hput₂]
        exact ⟨hless herror, hshut⟩
      rw [echoWorker, Calls.wp_bind]
      apply Calls.Prog.wp.mono (wp_receiveExact_log hx ?_)
      · intro r s₁ log₁ hreceived
        obtain ⟨error, echo₁⟩ := r
        obtain ⟨hs₁, got, ⟨hgot₁, hput₁⟩, -, hfits, hecho₁, hfull⟩ := hreceived
        dsimp only at hecho₁ hfull ⊢
        have hless : (bytesPut log₁).length < n * m := by rwa [hput₁, hput, hgot]
        have hechoed : bytesPut log₁ <+: bytesGot log₁ := by
          rw [hgot₁, hput₁, hput]
          exact List.prefix_append ..
        by_cases hfailed : error.hasError = true
        · rw [if_pos hfailed]
          exact hfail hs₁ hechoed (fun _ => hless) fun hnone => by simp [hfailed] at hnone
        · have hok : error.hasError = false := by simpa using hfailed
          have hall : got.length = echo.length := hfull.mp hok
          rw [hall, List.drop_length, List.append_nil] at hecho₁
          subst hecho₁
          have hlength : (bytesGot log₁).length = (k + 1) * m := by
            rw [hgot₁, List.length_append, hgot, hall, hecho, hsucc]
          have hwhole : bytesPut log₁ ++ echo₁ = bytesGot log₁ := by rw [hput₁, hput, hgot₁]
          -- while something is left of the message, less is sent than it should
          have hrest_less : ∀ {rest log₂}, rest ≠ [] → bytesPut log₂ ++ rest = bytesGot log₂ →
              bytesGot log₂ = bytesGot log₁ → (bytesPut log₂).length < n * m := by
            intro rest log₂ hrest hput₂ hgot₂
            have hpos := List.length_pos_iff.mpr hrest
            have hsum := congrArg List.length hput₂
            rw [List.length_append, hgot₂, hlength] at hsum
            omega
          simp only [hok, Bool.false_eq_true, if_false]
          rw [Calls.wp_bind]
          apply Calls.Prog.wp.mono (wp_sendAll_log (x := x) (by rw [hs₁, hx]) ?_)
          · intro error₂ s₂ log₂ hsent
            obtain ⟨hs₂, rest, -, ⟨hput₂, hgot₂⟩, -, herror₂⟩ := hsent
            rw [hwhole, ← hgot₂] at hput₂
            have hkeep : s₂.handles = s.handles := hs₂.trans hs₁
            apply hfail hkeep ⟨rest, hput₂⟩
            · intro hfailed₂
              exact hrest_less (fun hnil => by simp [herror₂.mpr hnil] at hfailed₂) hput₂ hgot₂
            · intro hok₂
              obtain rfl := herror₂.mp hok₂
              rw [List.append_nil] at hput₂
              rw [← hkeep]
              exact ih (by rw [hkeep, hx]) (hall.trans hecho) (by omega) hok₂ hput₂
                (hgot₂ ▸ hlength)
          · intro e s₂ log₂ h
            obtain ⟨he, rest, hrest, hput₂, hgot₂⟩ := h
            rw [hwhole, ← hgot₂] at hput₂
            exact ⟨he, ⟨rest, hput₂⟩, hrest_less hrest hput₂ hgot₂⟩
          · intro rest log₂ hsuffix hne hput₂ hgot₂
            rw [hwhole, ← hgot₂] at hput₂
            exact .send k rest (by omega) hne hput₂ (hgot₂ ▸ hlength) rfl
      · intro e s₁ log₁ h
        obtain ⟨he, got, -, hgot₁, hput₁⟩ := h
        refine ⟨he, ?_, by rwa [hput₁, hput, hgot]⟩
        rw [hgot₁, hput₁, hput]
        exact List.prefix_append ..
      · intro got log₁ hlt hgot₁ hput₁
        refine .receive k (echo.length - got.length) (by omega) (by omega)
          (by rw [hput₁, hput, hgot]) ?_ ?_ rfl
        · rw [hgot₁, hput₁, hput]
          exact List.prefix_append ..
        · rw [hgot₁, List.length_append, hgot]
          omega

/-! ### Both threads

One structure for all that the threads start with, so that the results are about any
connection and any buffers. -/

/-- What the threads of `RoundTrips` start with: a connection, and buffers of one length. -/
structure RoundTrips extends Ends where
  retries : Nat
  request : Bytes
  reply : Bytes
  echo : Bytes
  rounds : Nat
  request_pos : 0 < request.length
  reply_length : reply.length = request.length
  echo_length : echo.length = request.length
  /-- What `main` lets through. -/
  rounds_le : rounds ≤ 1000000

/-- What a thread of `RoundTrips` ends with. -/
inductive TripEnd
  | client (clientError : SocketError) (reply : Bytes)
  | server (serverError : SocketError)

namespace RoundTrips

/-- The threads. The worker counts its rounds in 64 bits. -/
def code (t : RoundTrips) (p : Platform) : Side → Prog os Process Exit TripEnd
  | .client => (do
      let (clientError, reply) ←
        roundTripsClient p t.retries (t.socket .client) t.request t.reply t.rounds
      return .client clientError reply : N TripEnd) (t.process .client)
  | .server => (do
      let serverError ← echoWorker p t.retries (t.socket .server)
        ((warmupRounds + t.rounds) % 2 ^ 64) .success t.echo
      return .server serverError : N TripEnd) (t.process .server)

/-- How many exchanges there are. -/
def total (t : RoundTrips) : Nat := warmupRounds + t.rounds

/-- The calls of the threads. -/
def Allowed (t : RoundTrips) (p : Platform) : Side → Request → List Event → Prop
  | .client => ClientCalls p (t.socket .client) (t.wire.fd .client) t.request t.total
  | .server => WorkerCalls p (t.socket .server) (t.wire.fd .server) t.request.length t.total

/-- What the threads promise. -/
def Returns (t : RoundTrips) (p : Platform) : Side → TripEnd → List Event → Prop
  | .client, .client clientError reply => ClientReturns p t.request t.total clientError reply
  | .server, .server serverError => WorkerReturns p t.request.length t.total serverError
  | _, _ => fun _ => False

/-- What they have done if they are interrupted for ever. -/
def GaveUp (t : RoundTrips) : Side → List Event → Prop
  | .client => fun log => bytesPut log <+: requests t.request t.total
  | .server => WorkerGaveUp t.request.length t.total

variable {t : RoundTrips} {k : Kernel} {capacity : Nat}
variable {sys : System os Process Exit TripEnd Side Side Kernel}
variable {js : Side → Job os Process Exit TripEnd Side}

/-- The worker's count does not wrap around. -/
theorem rounds_mod (t : RoundTrips) : (warmupRounds + t.rounds) % 2 ^ 64 = t.total := by
  have hle := t.rounds_le
  rw [total, warmupRounds]
  omega

/-- A thread leaves its objects where they are. -/
theorem promised_handles (t : RoundTrips) (p : Platform) :
    Promised p t.wire (t.code p) (t.Allowed p)
      (fun side r s log => s.handles = (t.process side).handles ∧ t.Returns p side r log)
      (fun side e _ log => e = .gaveUp ∧ t.GaveUp side log) := by
  intro i side _
  cases side with
  | client =>
      exact (Calls.wp_bind _ _).mpr ((wp_roundTripsClient (t.attached .client) t.reply_length).imp
        fun r s log h => h)
  | server =>
      have hworker : wp (anyEnv (t.Allowed p .server)) (echoWorker p t.retries (t.socket .server)
          ((warmupRounds + t.rounds) % 2 ^ 64) .success t.echo)
          (fun r s log => s.handles = (t.process .server).handles ∧
            WorkerReturns p t.request.length t.total r log)
          (fun e _ log => e = .gaveUp ∧ WorkerGaveUp t.request.length t.total log)
          (t.process .server) [] := by
        rw [t.rounds_mod]
        exact wp_echoWorker (t.attached .server) t.echo_length t.request_pos (Nat.zero_add _) rfl
          rfl (by simp)
      exact (Calls.wp_bind _ _).mpr hworker

theorem promised (t : RoundTrips) (p : Platform) : Promised p t.wire (t.code p) (t.Allowed p)
    (fun side r _ => t.Returns p side r) (fun side e _ log => e = .gaveUp ∧ t.GaveUp side log) :=
  (t.promised_handles p).imp (fun _ _ _ _ h => h.2) fun _ _ _ _ h => h

theorem tends (t : RoundTrips) (p : Platform) (side : Side) (r : Request) (log : List Event)
    (h : t.Allowed p side r log) : Tends (t.wire.fd side) r.call := by
  cases side with
  | client => rcases h with ⟨_, _, _, _, _, _, rfl⟩ | ⟨_, _, _, _, _, _, rfl⟩ | ⟨_, rfl⟩ <;> rfl
  | server =>
      rcases h with ⟨_, _, _, _, _, _, _, rfl⟩ | ⟨_, _, _, _, _, _, rfl⟩ | ⟨_, _, rfl⟩ <;> rfl

/-! ### What comes back

Four streams, each the front of the one before: what the client sends, what the worker
receives, what it sends back, and what the client receives. -/

/-- At any moment, the client has sent nothing but requests. -/
theorem client_front (h : Along (t.Allowed p .client) (fun r _ => t.Returns p .client r)
    (fun e _ log => e = .gaveUp ∧ t.GaveUp .client log) (js .client)) :
    bytesPut (js .client).log <+: requests t.request t.total := by
  rw [Along] at h
  cases hstate : (js .client).state with
  | ret r s =>
      rw [hstate] at h
      cases r with
      | client clientError reply => exact h.1
      | server serverError => exact h.elim
  | exit e s =>
      rw [hstate] at h
      exact h.2
  | call r seen cont =>
      rw [hstate] at h
      rcases h with ⟨k, rest, hk, -, hput, -, -⟩ | ⟨k, room, hk, -, hput, -, -⟩ | ⟨hput, -⟩
      · exact List.IsPrefix.trans ⟨rest, hput⟩ (requests_front hk)
      · rw [hput]
        exact requests_front hk
      · exact hput

/-- At any moment, the worker has sent nothing but what it has received, and unless it has
returned without an error, less than it should. -/
theorem server_front (h : Along (t.Allowed p .server) (fun r _ => t.Returns p .server r)
    (fun e _ log => e = .gaveUp ∧ t.GaveUp .server log) (js .server)) :
    bytesPut (js .server).log <+: bytesGot (js .server).log ∧
      ((bytesPut (js .server).log).length < t.total * t.request.length ∨
        ∃ serverError s, (js .server).state = .ret (.server serverError) s ∧
          serverError.hasError = false) := by
  -- in a round that is not over, less was sent back than is to be sent
  have hround : ∀ {k}, k < t.total →
      k * t.request.length < t.total * t.request.length ∧
        (k + 1) * t.request.length ≤ t.total * t.request.length := fun hk =>
    ⟨Nat.mul_lt_mul_of_pos_right hk t.request_pos, Nat.mul_le_mul_right _ hk⟩
  rw [Along] at h
  cases hstate : (js .server).state with
  | ret r s =>
      rw [hstate] at h
      cases r with
      | client clientError reply => exact h.elim
      | server serverError =>
          obtain ⟨hechoed, hreturned⟩ := h
          split at hreturned
          case isTrue herror => exact ⟨hechoed, .inl hreturned.1⟩
          case isFalse hnone => exact ⟨hechoed, .inr ⟨_, s, rfl, by simpa using hnone⟩⟩
  | exit e s =>
      rw [hstate] at h
      exact ⟨h.2.1, .inl h.2.2⟩
  | call r seen cont =>
      rw [hstate] at h
      rcases h with ⟨k, room, hk, -, hput, hecho, -, -⟩ | ⟨k, rest, hk, hrest, hecho, hgot, -⟩ |
        ⟨hecho, hput, -⟩
      · exact ⟨hecho, .inl (hput ▸ (hround hk).1)⟩
      · refine ⟨⟨rest, hecho⟩, .inl ?_⟩
        have hpos := List.length_pos_iff.mpr hrest
        have hsum := congrArg List.length hecho
        rw [List.length_append, hgot] at hsum
        have hle := (hround hk).2
        omega
      · exact ⟨hecho, .inl hput⟩

/-- What goes out, comes in, goes back and comes back, each the front of the one before. -/
theorem fronts (t : RoundTrips) (p : Platform) (hfresh : t.wire.Fresh k)
    (h : System.Reachable (duplexRules p t.wire (t.code p)) k sys) (hjs : sys.Threads js) :
    bytesGot (js .client).log <+: bytesPut (js .server).log ∧
      bytesPut (js .server).log <+: bytesGot (js .server).log ∧
      bytesGot (js .server).log <+: bytesPut (js .client).log ∧
      bytesPut (js .client).log <+: requests t.request t.total := by
  have hcode := t.promised p
  obtain ⟨hecho, -⟩ := server_front (hcode.place h hjs .server)
  exact ⟨hcode.front (t.tends p) hfresh h hjs .server, hecho,
    hcode.front (t.tends p) hfresh h hjs .client, client_front (hcode.place h hjs .client)⟩

/-- A client that is done without an error has received all its requests. -/
theorem whole (t : RoundTrips) (p : Platform) (hfresh : t.wire.Fresh k)
    (h : System.Reachable (duplexRules p t.wire (t.code p)) k sys) (hjs : sys.Threads js)
    {clientError : SocketError} {reply : Bytes} {s : Process}
    (hstate : (js .client).state = .ret (.client clientError reply) s)
    (hnone : clientError.hasError = false) : reply.length = t.request.length ∧
      reply <:+ bytesGot (js .client).log ∧
        bytesGot (js .client).log = requests t.request t.total := by
  obtain ⟨hback, hecho, hforth, hclient⟩ := t.fronts p hfresh h hjs
  have hplace := (t.promised p).place h hjs .client
  rw [Along, hstate] at hplace
  obtain ⟨-, hreturned⟩ := hplace
  rw [if_neg (by simp [hnone])] at hreturned
  obtain ⟨hlength, -, hgot, hreply⟩ := hreturned
  refine ⟨hlength, hreply (by rw [total, warmupRounds]; omega), ?_⟩
  exact (((hback.trans hecho).trans hforth).trans hclient).eq_of_length
    (by rw [hgot, length_requests])

/-- A client that is done without an error has its request back, and the worker is done. -/
theorem answered (t : RoundTrips) (p : Platform) (hfresh : t.wire.Fresh k)
    (h : System.Reachable (duplexRules p t.wire (t.code p)) k sys) (hjs : sys.Threads js)
    {clientError : SocketError} {reply : Bytes} {s : Process}
    (hstate : (js .client).state = .ret (.client clientError reply) s)
    (hnone : clientError.hasError = false) : reply = t.request ∧
      ∃ serverError s', (js .server).state = .ret (.server serverError) s' ∧
        serverError.hasError = false := by
  obtain ⟨hback, -, -, -⟩ := t.fronts p hfresh h hjs
  obtain ⟨-, hserver⟩ := server_front ((t.promised p).place h hjs .server)
  obtain ⟨hlength, hsuffix, hwhole⟩ := t.whole p hfresh h hjs hstate hnone
  constructor
  · -- everything came back, so the last reply is the last request
    have hlast : t.request <:+ requests t.request t.total := by
      rw [total, warmupRounds, show 256 + t.rounds = 255 + t.rounds + 1 by omega, requests_succ]
      exact List.suffix_append ..
    rw [hwhole] at hsuffix
    exact (List.suffix_of_suffix_length_le hsuffix hlast hlength.le).eq_of_length hlength
  · refine hserver.resolve_left ?_
    have hle := hback.length_le
    rw [hwhole, length_requests] at hle
    omega

/-- The payloads never mismatch. -/
theorem verdict (t : RoundTrips) (p : Platform) (hfresh : t.wire.Fresh k)
    (h : System.Reachable (duplexRules p t.wire (t.code p)) k sys) (hjs : sys.Threads js)
    {clientError serverError : SocketError} {reply : Bytes} {s s' : Process}
    (hstate : (js .client).state = .ret (.client clientError reply) s)
    (hstate' : (js .server).state = .ret (.server serverError) s') :
    roundTripsVerdict clientError serverError t.request reply =
      if clientError.hasError then .failed else .measured := by
  by_cases hfailed : clientError.hasError = true
  · simp [roundTripsVerdict, reportErrors, hfailed]
  · obtain ⟨rfl, serverError₁, s₁, hstate₁, hok⟩ :=
      t.answered p hfresh h hjs hstate (by simpa using hfailed)
    rw [hstate'] at hstate₁
    cases hstate₁
    simp [roundTripsVerdict, reportErrors, hfailed, hok]

/-- What `RoundTrips` relies on. -/
structure Echoes (t : RoundTrips) (js : Side → Job os Process Exit TripEnd Side) : Prop where
  /-- Requests go out, and come back in order, however the system calls cut them. -/
  fronts : bytesGot (js .client).log <+: bytesPut (js .server).log ∧
    bytesPut (js .server).log <+: bytesGot (js .server).log ∧
    bytesGot (js .server).log <+: bytesPut (js .client).log ∧
    bytesPut (js .client).log <+: requests t.request t.total
  /-- When the client is done without an error, its reply is the request, and the worker is
  done as well, without an error. -/
  answered : ∀ clientError reply s, (js .client).state = .ret (.client clientError reply) s →
    clientError.hasError = false → reply = t.request ∧
      ∃ serverError s', (js .server).state = .ret (.server serverError) s' ∧
        serverError.hasError = false
  /-- So the payloads never mismatch, and an error on the client's side is the only failure. -/
  verdict : ∀ clientError reply s serverError s',
    (js .client).state = .ret (.client clientError reply) s →
    (js .server).state = .ret (.server serverError) s' →
    roundTripsVerdict clientError serverError t.request reply =
      if clientError.hasError then .failed else .measured
  /-- No thread leaves in any other way than by being interrupted for ever. -/
  leaves : ∀ side e s, (js side).state = .exit e s → e = .gaveUp

/-- **The echo**, in every interleaving of the client and the worker, whatever the system
calls transfer and whichever of them fail. -/
theorem requests_come_back (t : RoundTrips) (p : Platform) (hfresh : t.wire.Fresh k)
    (h : System.Reachable (duplexRules p t.wire (t.code p)) k sys) (hjs : sys.Threads js) :
    t.Echoes js where
  fronts := t.fronts p hfresh h hjs
  answered _ _ _ := t.answered p hfresh h hjs
  verdict _ _ _ _ _ := t.verdict p hfresh h hjs
  leaves _ _ _ := (t.promised p).leaves h hjs

/-! ### Nobody waits for ever

A thread that waits is in some round; two threads that wait for each other would be in rounds
that contradict each other. -/

variable {own other : List Event} {r : Request}

/-- A client that waits has sent part of a request, with no room for the rest, or waits for
the rest of a reply. -/
theorem client_starved (hcapacity : 0 < capacity) (hA : t.Allowed p .client r own)
    (h : Starved capacity own other r.call) : ∃ k < t.total,
      ((bytesPut own).length < (k + 1) * t.request.length ∧
          (bytesGot own).length = k * t.request.length ∧
          (bytesGot other).length < (bytesPut own).length) ∨
        ((bytesPut own).length = (k + 1) * t.request.length ∧
          (bytesGot own).length < (k + 1) * t.request.length ∧
          (bytesGot own).length = (bytesPut other).length) := by
  rcases hA with ⟨k, rest, hk, hrest, hput, hgot, rfl⟩ | ⟨k, room, hk, hroom, hput, hgot, rfl⟩ |
    ⟨-, rfl⟩
  · have hpos := List.length_pos_iff.mpr hrest
    have hsum := congrArg List.length hput
    rw [List.length_append, length_requests] at hsum
    have hfull : (bytesGot other).length + capacity ≤ (bytesPut own).length := h
    exact ⟨k, hk, .inl ⟨by omega, hgot, by omega⟩⟩
  · exact ⟨k, hk, .inr ⟨by rw [hput, length_requests], by omega, h⟩⟩
  · exact h.elim

/-- A worker that waits waits for the rest of a message, or has sent part of it back, with no
room for the rest. -/
theorem server_starved (hcapacity : 0 < capacity) (hA : t.Allowed p .server r own)
    (h : Starved capacity own other r.call) : ∃ k < t.total,
      ((bytesPut own).length < (k + 1) * t.request.length ∧
          (bytesGot own).length = (k + 1) * t.request.length ∧
          (bytesGot other).length < (bytesPut own).length) ∨
        ((bytesPut own).length = k * t.request.length ∧
          (bytesGot own).length < (k + 1) * t.request.length ∧
          (bytesGot own).length = (bytesPut other).length) := by
  rcases hA with ⟨k, room, hk, hroom, hput, -, hgot, rfl⟩ | ⟨k, rest, hk, hrest, hecho, hgot, rfl⟩ |
    ⟨-, -, rfl⟩
  · exact ⟨k, hk, .inr ⟨hput, by omega, h⟩⟩
  · have hpos := List.length_pos_iff.mpr hrest
    have hsum := congrArg List.length hecho
    rw [List.length_append] at hsum
    have hfull : (bytesGot other).length + capacity ≤ (bytesPut own).length := h
    exact ⟨k, hk, .inl ⟨by omega, hgot, by omega⟩⟩
  · exact h.elim

/-- A thread that has returned, on a connection that was not shut down and where no shutdown
failed, has transferred everything. -/
theorem returned_all {side : Side} {a : TripEnd} (h : t.Returns p side a own)
    (hshut : ¬ HasShut p own) (hfailed : ¬ ShutdownFailed own) :
    (bytesPut own).length = t.total * t.request.length ∧
      (bytesGot own).length = t.total * t.request.length := by
  have hnone : ¬ TriedShut p own := fun htried => htried.result.elim hshut hfailed
  cases side <;> cases a
  case client.client clientError reply =>
    obtain ⟨-, h⟩ := h
    split at h
    case isTrue =>
      exact absurd h hnone
    case isFalse => exact ⟨by rw [h.2.put, length_requests], h.2.got⟩
  case server.server serverError =>
    obtain ⟨-, h⟩ := h
    split at h
    case isTrue =>
      exact absurd h.2 hnone
    case isFalse => exact h
  all_goals exact h.elim

/-- While nothing was shut down, a client and a worker that both wait or have returned have both
returned. -/
theorem unstalled (hcapacity : 0 < capacity) (hshut : ∀ side, ¬ HasShut p (js side).log)
    (hshutdown : ∀ side, ¬ ShutdownFailed (js side).log)
    (hstalled : ∀ side, Stalled capacity (t.Allowed p side) (fun r _ => t.Returns p side r)
      (js side).log (js side.peer).log) {side : Side} (hA : t.Allowed p side r (js side).log) :
    ¬ Starved capacity (js side).log (js side.peer).log r.call := by
  intro hstarved
  have hmul : ∀ {i j}, i ≤ j → i * t.request.length ≤ j * t.request.length :=
    fun hij => Nat.mul_le_mul_right _ hij
  have hlt : ∀ {i j}, i * t.request.length < j * t.request.length → i < j :=
    fun hij => Nat.lt_of_mul_lt_mul_right hij
  have hdone : ∀ side a, t.Returns p side a (js side).log →
      (bytesPut (js side).log).length = t.total * t.request.length ∧
        (bytesGot (js side).log).length = t.total * t.request.length :=
    fun side a h => returned_all h (hshut side) (hshutdown side)
  -- both wait, or one waits and the other has returned
  have hboth : ¬ ((∃ r, t.Allowed p .client r (js .client).log ∧
        Starved capacity (js .client).log (js .server).log r.call) ∧
      ∃ r, t.Allowed p .server r (js .server).log ∧
        Starved capacity (js .server).log (js .client).log r.call) := by
    intro h
    obtain ⟨⟨r₁, hA₁, hs₁⟩, r₂, hA₂, hs₂⟩ := h
    obtain ⟨k₁, hk₁, hclient⟩ := client_starved hcapacity hA₁ hs₁
    obtain ⟨k₂, hk₂, hserver⟩ := server_starved hcapacity hA₂ hs₂
    rcases hclient with ⟨hput₁, hgot₁, hfull₁⟩ | ⟨hput₁, hgot₁, hdry₁⟩ <;>
      rcases hserver with ⟨hput₂, hgot₂, hfull₂⟩ | ⟨hput₂, hgot₂, hdry₂⟩
    · -- the worker is sending back a message that the client has yet to send
      have hk := hlt (show (k₂ + 1) * t.request.length < (k₁ + 1) * t.request.length by omega)
      have hle := hmul (show k₂ + 1 ≤ k₁ by omega)
      omega
    · omega
    · omega
    · -- the worker has a message to receive that the client has already sent
      have hk := hlt (show (k₁ + 1) * t.request.length < (k₂ + 1) * t.request.length by omega)
      have hle := hmul (show k₁ + 1 ≤ k₂ by omega)
      omega
  cases side with
  | client =>
      rcases hstalled .server with ⟨a, -, hreturned⟩ | hserver
      · obtain ⟨hput, hgot⟩ := hdone .server a hreturned
        obtain ⟨k₁, hk₁, hclient⟩ := client_starved hcapacity hA hstarved
        have hle := hmul (show k₁ + 1 ≤ t.total from hk₁)
        rw [Side.peer_client] at hclient
        omega
      · exact hboth ⟨⟨r, hA, hstarved⟩, hserver⟩
  | server =>
      rcases hstalled .client with ⟨a, -, hreturned⟩ | hclient
      · obtain ⟨hput, hgot⟩ := hdone .client a hreturned
        obtain ⟨k₂, hk₂, hserver⟩ := server_starved hcapacity hA hstarved
        have hle := hmul (show k₂ + 1 ≤ t.total from hk₂)
        rw [Side.peer_server] at hserver
        omega
      · exact hboth ⟨hclient, r, hA, hstarved⟩

/-- **No deadlock.** Whatever fits into the connection, the client and the worker never wait
for each other, unless a call of `Shutdown` has failed. -/
theorem echo_never_deadlocks (t : RoundTrips) (p : Platform) (hcapacity : 0 < capacity)
    (hfresh : t.wire.Fresh k) (h : System.Reachable (duplexRules p t.wire (t.code p)) k sys)
    (hjs : sys.Threads js) (hshutdown : ∀ side, ¬ ShutdownFailed (js side).log) :
    ¬ sys.Deadlocked (fun k r => k.Blocks p capacity r.call) js := by
  intro hdead
  obtain ⟨hshut, hstalled, side, r, hA, hstarved⟩ :=
    (t.promised p).deadlocked (t.tends p) hfresh h hjs hdead
  exact unstalled hcapacity hshut hshutdown hstalled hA hstarved

/-! ### A run without errors

Every call transfers all it is asked for, so the connection is empty after each exchange. The
two threads then make the same exchange again. -/

section Success

variable {s : Process} {x : HandleId} {fd retries : Nat} {request reply echo : Bytes}
variable {events : List Event}

/-- The exchanges of the client. -/
theorem wp_exchange_whole (hx : s.handles x = some (some fd)) (hne : request ≠ [])
    (hfits : request.length ≤ min request.length intMax) (hreply : reply.length = request.length)
    (count : Nat) :
    wp followEnv (exchange p (retries + 1) x request count reply) (fun r s' events' =>
      s'.handles = s.handles ∧ r.1.hasError = false ∧ r.2.length = request.length ∧
        (0 < count ∨ reply = request → r.2 = request) ∧ events' = events)
      (fun _ _ _ => False) s ((List.replicate count [sentWhole p x fd request,
        receivedWhole x fd request.length request hfits]).flatten ++ events) := by
  induction count generalizing s reply with
  | zero => exact ⟨rfl, rfl, hreply, fun h => h.resolve_left (Nat.lt_irrefl 0), rfl⟩
  | succ count ih =>
      simp only [List.replicate_succ, List.flatten_cons, List.cons_append, List.nil_append]
      rw [exchange, Calls.wp_bind]
      refine (wp_sendAll_whole hx hne (hfits.trans (Nat.min_le_right ..))).imp ?_
      intro error s₁ w₁ h
      obtain ⟨hs₁, herror, rfl⟩ := h
      simp only [herror, Bool.false_eq_true, if_false]
      rw [Calls.wp_bind]
      refine (wp_receiveExact_whole (by rw [hs₁, hx]) hne hreply rfl hfits).imp ?_
      intro r s₂ w₂ h
      obtain ⟨error₂, reply₂⟩ := r
      obtain ⟨hs₂, herror₂, rfl, rfl⟩ := h
      simp only [herror₂, Bool.false_eq_true, if_false]
      refine (ih (by rw [hs₂, hs₁, hx]) rfl).imp ?_
      intro r s₃ w₃ h
      obtain ⟨hs₃, herror₃, hlength, hreply₃, hw₃⟩ := h
      exact ⟨by rw [hs₃, hs₂, hs₁], herror₃, hlength, fun _ => hreply₃ (.inr rfl), hw₃⟩

/-- The main thread of `RoundTrips`. -/
theorem wp_roundTripsClient_whole {rounds : Nat} (hx : s.handles x = some (some fd))
    (hne : request ≠ []) (hfits : request.length ≤ min request.length intMax)
    (hreply : reply.length = request.length) :
    wp followEnv (roundTripsClient p (retries + 1) x request reply rounds) (fun r _ events =>
      r.1.hasError = false ∧ r.2 = request ∧ events = [])
      (fun _ _ _ => False) s (List.replicate (warmupRounds + rounds) [sentWhole p x fd request,
        receivedWhole x fd request.length request hfits]).flatten := by
  rw [List.replicate_add, List.flatten_append, roundTripsClient, Calls.wp_bind]
  refine (wp_exchange_whole hx hne hfits hreply warmupRounds).imp ?_
  intro r s₁ w₁ h
  obtain ⟨clientError, reply₁⟩ := r
  obtain ⟨hs₁, herror, hlength, hreply₁, rfl⟩ := h
  -- the warm-up has left the request in the buffer
  obtain rfl := hreply₁ (.inl (by decide))
  simp only [herror, Bool.false_eq_true, if_false]
  rw [Calls.wp_bind, ← List.append_nil (List.flatten _)]
  refine (wp_exchange_whole (by rw [hs₁, hx]) hne hfits rfl rounds).imp ?_
  intro r s₂ w₂ h
  obtain ⟨clientError₂, reply₂⟩ := r
  obtain ⟨-, herror₂, -, hreply₂, hw₂⟩ := h
  simp only [herror₂, Bool.false_eq_true, if_false]
  exact ⟨herror₂, hreply₂ (.inr rfl), hw₂⟩

/-- The worker of `RoundTrips`. -/
theorem wp_echoWorker_whole {serverError : SocketError} (hx : s.handles x = some (some fd))
    (hne : request ≠ []) (hfits : request.length ≤ min request.length intMax)
    (hecho : echo.length = request.length) (hnone : serverError.hasError = false) (count : Nat) :
    wp followEnv (echoWorker p (retries + 1) x count serverError echo) (fun error _ events =>
      error.hasError = false ∧ events = [])
      (fun _ _ _ => False) s (List.replicate count [
        receivedWhole x fd request.length request hfits, sentWhole p x fd request]).flatten := by
  induction count generalizing s serverError echo with
  | zero => exact ⟨hnone, rfl⟩
  | succ count ih =>
      simp only [List.replicate_succ, List.flatten_cons, List.cons_append, List.nil_append]
      rw [echoWorker, Calls.wp_bind]
      refine (wp_receiveExact_whole hx hne hecho rfl hfits).imp ?_
      intro r s₁ w₁ h
      obtain ⟨error, echo₁⟩ := r
      obtain ⟨hs₁, herror, rfl, rfl⟩ := h
      simp only [herror, Bool.false_eq_true, if_false]
      rw [Calls.wp_bind]
      refine (wp_sendAll_whole (by rw [hs₁, hx]) hne (hfits.trans (Nat.min_le_right ..))).imp ?_
      intro error₂ s₂ w₂ h
      obtain ⟨hs₂, herror₂, rfl⟩ := h
      simp only [herror₂, Bool.false_eq_true, if_false]
      exact ih (by rw [hs₂, hs₁, hx]) rfl herror₂

end Success

/-- The calls of one exchange. -/
def turn (t : RoundTrips) (p : Platform)
    (hfits : t.request.length ≤ min t.request.length intMax) : List (Side × Event) :=
  [(.client, sentWhole p (t.socket .client) (t.wire.fd .client) t.request),
    (.server, receivedWhole (t.socket .server) (t.wire.fd .server) t.request.length t.request
      hfits),
    (.server, sentWhole p (t.socket .server) (t.wire.fd .server) t.request),
    (.client, receivedWhole (t.socket .client) (t.wire.fd .client) t.request.length t.request
      hfits)]

/-- What the threads return if there is no error. -/
def Good (t : RoundTrips) : Side → TripEnd → Prop
  | .client, .client clientError reply => clientError.hasError = false ∧ reply = t.request
  | .server, .server serverError => serverError.hasError = false
  | _, _ => False

/-- Both threads can return without an error. -/
theorem succeeds (t : RoundTrips) (p : Platform) (hretries : 0 < t.retries)
    (hfits : t.request.length ≤ intMax) (hfresh : t.wire.Fresh k) :
    ∃ (sys : System os Process Exit TripEnd Side Side Kernel)
      (js : Side → Job os Process Exit TripEnd Side),
      System.Reachable (duplexRules p t.wire (t.code p)) k sys ∧ sys.Threads js ∧
        ∀ side, ∃ a s, (js side).state = .ret a s ∧ t.Good side a := by
  obtain ⟨n, hn⟩ : ∃ n, t.retries = n + 1 := Nat.exists_eq_add_one.mpr hretries
  have hne : t.request ≠ [] := List.ne_nil_of_length_pos t.request_pos
  have hmin : t.request.length ≤ min t.request.length intMax := Nat.le_min.mpr ⟨le_refl _, hfits⟩
  -- one exchange leaves the kernel as it was, so it can be played once a round
  have hturn : Plays (duplexRules p t.wire (t.code p)) (t.turn p hmin) k k :=
    (hfresh.passes .client hne hmin).append (hfresh.passes .server hne hmin)
  obtain ⟨sys₁, h₁, henv₁, hjs₁⟩ := System.Reachable.threads
    (duplexRules p t.wire (t.code p)) k [.client, .server] (by decide)
    (by intro side; cases side <;> decide) id fun _ => rfl
  have hcode : ∀ side, (t.code p side).wp followEnv
      (fun a _ rest => t.Good side a ∧ rest = []) (fun _ _ _ => False)
      (part side (List.replicate t.total (t.turn p hmin)).flatten) := by
    intro side
    rw [System.part_repeated]
    cases side with
    | client =>
        refine (Calls.wp_bind _ _).mpr ?_
        rw [hn]
        refine (wp_roundTripsClient_whole (t.attached .client) hne hmin t.reply_length).imp ?_
        intro r s w h
        exact ⟨⟨h.1, h.2.1⟩, h.2.2⟩
    | server =>
        refine (Calls.wp_bind _ _).mpr ?_
        rw [hn, t.rounds_mod]
        exact wp_echoWorker_whole (t.attached .server) hne hmin t.echo_length rfl t.total
  obtain ⟨sys, js, h, -, hjs, hreturned⟩ :=
    h₁.played (P := fun side a _ => t.Good side a) hjs₁ (henv₁.symm ▸ hturn.repeated t.total) hcode
  exact ⟨sys, js, h, hjs, hreturned⟩

/-! ### One byte on its way

The shortest messages, which are exchanged in full and followed to the end. -/

/-- Messages of one byte. -/
def ofByte : RoundTrips where
  toEnds := .one
  retries := 1
  request := [90]
  reply := [0]
  echo := [0]
  rounds := 1
  request_pos := by decide
  reply_length := rfl
  echo_length := rfl
  rounds_le := by decide

/-- The client has sent the first request and waits for the reply; the worker has been
started. -/
theorem ofByte_waiting : ∃ (sys : System os Process Exit TripEnd Side Side Kernel)
    (js : Side → Job os Process Exit TripEnd Side),
    System.Reachable (duplexRules .linux ofByte.wire (ofByte.code .linux)) Kernel.one sys ∧
      sys.Threads js ∧ (∀ side, ¬ ShutdownFailed (js side).log) ∧
      (js .client).Waits fun r : Request => sys.env.Blocks .linux 1 r.call := by
  obtain ⟨sys₁, h₁, henv₁, hjs₁⟩ := System.Reachable.threads
    (duplexRules .linux ofByte.wire (ofByte.code .linux)) Kernel.one [.client, .server]
    (by decide) (by intro side; cases side <;> decide) id fun _ => rfl
  have hsent : (duplexRules .linux ofByte.wire (ofByte.code .linux)).serves .client 0 sys₁.env
      (⟨.user 6, .send (some 3) [90] 16384⟩ : Request) (.ok (1 : Fin 2))
      (Kernel.one.carry 0 .client [90]) := by
    rw [henv₁]
    exact ⟨3, 0, .client, rfl, rfl, rfl, rfl⟩
  obtain ⟨sys, h₂, henv, hjs₂⟩ := h₁.answered hjs₁ .client _ rfl hsent
  refine ⟨sys, _, h₂, hjs₂, ?_, ?_⟩
  · intro side h
    obtain ⟨x, handle, how, e, hmem⟩ := h
    cases side with
    | client => cases List.mem_singleton.mp hmem
    | server => exact absurd hmem List.not_mem_nil
  · rw [henv]
    exact ⟨_, _, _, rfl, 3, 0, .client, rfl, rfl, rfl, rfl, rfl⟩

/-- In a run to the end, the reply is the request. -/
theorem requests_come_back_ofByte : ∃ (sys : System os Process Exit TripEnd Side Side Kernel)
    (js : Side → Job os Process Exit TripEnd Side) (clientError serverError : SocketError)
    (reply : Bytes) (s s' : Process),
    System.Reachable (duplexRules .linux ofByte.wire (ofByte.code .linux)) Kernel.one sys ∧
      sys.Threads js ∧ (js .client).state = .ret (.client clientError reply) s ∧
      (js .server).state = .ret (.server serverError) s' ∧ clientError.hasError = false ∧
      reply = [90] ∧ roundTripsVerdict clientError serverError [90] reply = .measured ∧
      bytesGot (js .client).log = requests [90] 257 ∧ ofByte.Echoes js := by
  obtain ⟨sys, js, h, hjs, hgood⟩ :=
    ofByte.succeeds .linux (by decide) (by decide) Kernel.one_fresh
  have hechoes := ofByte.requests_come_back .linux Kernel.one_fresh h hjs
  obtain ⟨a, s, hstate, hclient⟩ := hgood .client
  obtain ⟨a', s', hstate', hserver⟩ := hgood .server
  cases a with
  | server serverError => exact hclient.elim
  | client clientError reply =>
      cases a' with
      | client clientError reply => exact hserver.elim
      | server serverError =>
          have hverdict := hechoes.verdict _ _ _ _ _ hstate hstate'
          rw [if_neg (by simp [hclient.1])] at hverdict
          obtain ⟨-, -, hwhole⟩ :=
            ofByte.whole .linux Kernel.one_fresh h hjs hstate hclient.1
          exact ⟨sys, js, clientError, serverError, reply, s, s', h, hjs, hstate, hstate',
            hclient.1, (hechoes.answered _ _ _ hstate hclient.1).1, hverdict, hwhole, hechoes⟩

theorem echo_never_deadlocks_ofByte : ∃ (sys : System os Process Exit TripEnd Side Side Kernel)
    (js : Side → Job os Process Exit TripEnd Side),
    ((js .client).Waits fun r : Request => sys.env.Blocks .linux 1 r.call) ∧
      ¬ sys.Deadlocked (fun k r => k.Blocks .linux 1 r.call) js := by
  obtain ⟨sys, js, h, hjs, hshutdown, hwaits⟩ := ofByte_waiting
  exact ⟨sys, js, hwaits,
    ofByte.echo_never_deadlocks .linux Nat.one_pos Kernel.one_fresh h hjs hshutdown⟩

end RoundTrips

end BenchTcp

end Net

end CoreSystems
