import CoreSystems.Net.SocketRuntime
import CoreSystems.Net.Transfers
import CoreSystems.Programs.Loopback

/-!
# CoreSystems.Programs.TcpLoopback

The TCP example: one thread that connects to itself, sends a message, echoes it, and
compares what comes back.

A single thread that waits waits for ever. The example never does, as long as the message
fits into the connection, and what comes back is the message.

The exchange is followed with `Carries` of `CoreSystems.Net.Transfers`: what is on both
directions is known after every call, so each loop has an invariant about the part of the
message that has passed it (`Echoing`, `Receiving`). Its rounds are enough because every round
but the last moves at least one byte.

`main_echoes` is the result. `wp_withRuntime` carries it from the body of `main` to `main`.
-/

namespace CoreSystems

open Buffer (Bytes)
open Calls (Code wp)

namespace Net

open SocketHandle

namespace TcpLoopback

/-! ### The program

The names of objects are numbers; the locals of `main` have the first four. -/

def listener : HandleId := .user 0

def client : HandleId := .user 1

/-- The socket in `accepted`. -/
def accepted : HandleId := .user 2

def server : HandleId := .user 3

/-- How the program ends. -/
inductive Ending
  /-- Some operation failed. -/
  | failed (error : SocketError)
  /-- `Echo did not match the request`. -/
  | mismatch
  /-- It returns zero, and this is what it has printed after `Client received`. -/
  | echoed (printed : Bytes)

/-- One round of `SendAll`. -/
def sendAllRound (p : Platform) (rounds : Nat) (socket : HandleId) (bytes : Bytes) :
    N (Bytes ⊕ SocketResult Unit) := do
  if bytes = [] then
    return .inr (.success ())
  else
    match ← TcpSocket.send p rounds socket bytes with
    | .failure error => return .inr (← failure error)
    | .success sent =>
      if sent = 0 then
        return .inr (← failure (.ofErrc p .ioError))
      else
        return .inl (← checked (subspan bytes sent))

/-- `SendAll`. The rounds are enough: every round but the last sends something. -/
def sendAll (p : Platform) (rounds : Nat) (socket : HandleId) (bytes : Bytes) :
    N (SocketResult Unit) :=
  Code.loopN .gaveUp (sendAllRound p rounds socket) (bytes.length + 1) bytes

/-- One round of the loop that echoes what the server receives. The loop ends with the
buffer, or with the error of an operation. -/
def echoRound (p : Platform) (rounds : Nat) (buffer : Bytes) :
    N (Bytes ⊕ Except SocketError Bytes) := do
  let (received, buffer) ← TcpSocket.receive p rounds server buffer
  match received with
  | .failure error => return .inr (.error error)
  | .success count =>
    if count = 0 then
      return .inr (.ok buffer)
    else
      match ← sendAll p rounds server (buffer.take count) with
      | .failure error => return .inr (.error error)
      | .success _ => return .inl buffer

/-- The locals of the loop that receives the echo. -/
structure Echo where
  buffer : Bytes
  echoed : Nat
  isMatch : Bool
  printed : Bytes

/-- One round of the loop that receives the echo and compares it with the message. -/
def receiveRound (p : Platform) (rounds : Nat) (message : Bytes) (e : Echo) :
    N (Echo ⊕ Except SocketError Echo) := do
  let (received, buffer) ← TcpSocket.receive p rounds client e.buffer
  match received with
  | .failure error => return .inr (.error error)
  | .success count =>
    if count = 0 then
      return .inr (.ok { e with buffer := buffer })
    else
      let chunk := buffer.take count
      return .inl {
        buffer := buffer
        echoed := e.echoed + count
        isMatch := e.isMatch && e.echoed ≤ message.length &&
          chunk = (message.drop e.echoed).take chunk.length
        printed := e.printed ++ chunk }

/-- `main` once the connection is made. The rounds are enough: every round but the last of
either loop receives something. Running out of them would show as a failed assertion. -/
def exchange (p : Platform) (rounds : Nat) (message : Bytes) : N Ending := do
  match ← sendAll p rounds client message with
  | .failure error => return .failed error
  | .success _ =>
    match ← TcpSocket.shutdown p client .send with
    | .failure error => return .failed error
    | .success _ =>
      match ← Code.loopN .assertion (echoRound p rounds) (message.length + 1)
          (List.replicate 64 0) with
      | .error error => return .failed error
      | .ok buffer =>
        match ← TcpSocket.shutdown p server .send with
        | .failure error => return .failed error
        | .success _ =>
          match ← Code.loopN .assertion (receiveRound p rounds message) (message.length + 1)
              ⟨buffer, 0, true, []⟩ with
          | .error error => return .failed error
          | .ok e =>
            if !e.isMatch || e.echoed ≠ message.length then
              return .mismatch
            else
              return .echoed e.printed

/-- `main` inside the scope of `client`. -/
def connectTo (p : Platform) (rounds : Nat) (message : Bytes) (endpoint : SocketEndpoint) :
    N Ending := do
  match ← TcpSocket.connect p client endpoint with
  | .failure error => return .failed error
  | .success _ =>
    match ← TcpListener.accept p rounds accepted listener with
    | .failure error => return .failed error
    | .success _ =>
      leaving accepted do
        moveConstruct server accepted
        leaving server do
          close listener
          exchange p rounds message

/-- `main` inside the runtime. -/
def body (p : Platform) (SOMAXCONN : Int) (rounds : Nat) (message : Bytes) : N Ending := do
  construct listener none
  leaving listener do
    match ← TcpListener.bind p listener (.construct (.loopback .IPv4) 0 0) with
    | .failure error => return .failed error
    | .success _ =>
      match ← TcpListener.listen p listener SOMAXCONN with
      | .failure error => return .failed error
      | .success _ =>
        match ← queryEndpoint p listener (← get listener) false with
        | .failure error => return .failed error
        | .success endpoint =>
          construct client none
          leaving client (connectTo p rounds message endpoint)

/-- `main`. -/
def main (p : Platform) (SOMAXCONN : Int) (rounds : Nat) (message : Bytes) :
    Code (os.sum winsock) Process Exit Ending :=
  withRuntime p .failed (body p SOMAXCONN rounds message)

/-! ### The exchange

Client and server are ends of one connection and both belong to the thread, so a call that
blocks would block for ever. -/

/-- The two directions of the connection. -/
def flows (toServer toClient : Channel) : Side → Channel
  | .client => toServer
  | .server => toClient

@[simp] theorem flows_client (a b : Channel) : flows a b .client = a := rfl

@[simp] theorem flows_server (a b : Channel) : flows a b .server = b := rfl

@[simp] theorem update_flows_client (a b c : Channel) :
    Function.update (flows a b) .client c = flows c b := by
  funext side
  cases side <;> rfl

@[simp] theorem update_flows_server (a b c : Channel) :
    Function.update (flows a b) .server c = flows a c := by
  funext side
  cases side <;> rfl

/-- How the program may end: an ending other than these would be a defect of the library or of
the example. -/
def Ending.Right (message : Bytes) : Ending → Prop
  | failed error => error.hasError = true
  | mismatch => False
  | echoed printed => printed = message

variable {p : Platform} {capacity rounds n c d : Nat} {s : Process} {k : Kernel}
variable {sockets : Nat → Option Socket} {message : Bytes}

/-- `SendAll` of bytes for which there is room. -/
theorem wp_sendAll_kernel {x : HandleId} {fd : Nat} {side : Side} {f : Side → Channel}
    {bytes : Bytes} {R : SocketResult Unit → Process → Kernel → Prop}
    (hx : s.handles x = some (some fd)) (hfd : sockets fd = some (.connected n side))
    (hk : k.Carries sockets n f) (hroom : (f side).queue.length + bytes.length ≤ capacity)
    (hok : ∀ s' k', s'.handles = s.handles →
      k'.Carries sockets n (Function.update f side
        { f side with queue := (f side).queue ++ bytes }) → R (.success ()) s' k')
    (hfail : ∀ error s' k', error.hasError = true → s'.handles = s.handles →
      k'.sockets = sockets → R (.failure error) s' k') :
    wp (kernelEnv p capacity) (sendAll p rounds x bytes) R GaveUp s k := by
  rw [sendAll, show sendAllRound p rounds x = sendRound p rounds x (.success ()) failure from rfl]
  refine wp_sendRounds_kernel hx hfd hk hroom hok ?_
  intro error s' k' herror hs' hk'
  exact (wp_failure herror).mpr (hfail error s' k' herror hs' hk')

/-- What the server's loop has done after `j` rounds: what it has received it has sent back. -/
def Echoing (h : HandleId → Option NativeHandle) (sockets : Nat → Option Socket) (n : Nat)
    (message : Bytes) (j : Nat) (buffer : Bytes) (s : Process) (k : Kernel) : Prop :=
  s.handles = h ∧ buffer.length = 64 ∧ ∃ got rest, j ≤ got.length ∧ got ++ rest = message ∧
    k.Carries sockets n (flows ⟨rest, true, false⟩ ⟨got, false, false⟩)

/-- How the server's loop ends. -/
def EchoEnds (h : HandleId → Option NativeHandle) (sockets : Nat → Option Socket) (n : Nat)
    (message : Bytes) : Except SocketError Bytes → Process → Kernel → Prop
  | .error error, s, k => s.handles = h ∧ error.hasError = true ∧ k.sockets = sockets
  | .ok buffer, s, k => s.handles = h ∧ buffer.length = 64 ∧
      k.Carries sockets n (flows ⟨[], true, false⟩ ⟨message, false, false⟩)

/-- The loop that echoes: it ends when the client's message is on its way back. -/
theorem wp_echo {h : HandleId → Option NativeHandle} (hserver : h server = some (some d))
    (hd : sockets d = some (.connected n .server)) (hmessage : message.length ≤ capacity)
    {buffer : Bytes} (hstart : Echoing h sockets n message 0 buffer s k) :
    wp (kernelEnv p capacity)
      (Code.loopN .assertion (echoRound p rounds) (message.length + 1) buffer)
      (EchoEnds h sockets n message) GaveUp s k := by
  refine Calls.wp_loopN_counted (Echoing h sockets n message) (message.length + 1) 0 ?_ ?_ hstart
  · intro j _ buffer s k hinv
    obtain ⟨hs, hbuffer, got, rest, hj, hmade, hk⟩ := hinv
    have hne : buffer ≠ [] := List.ne_nil_of_length_pos (by omega)
    rw [echoRound, Calls.wp_bind]
    refine (wp_receive_kernel (x := server) (by rw [hs, hserver]) hd hk hne rfl rfl).imp ?_
    intro r s₁ k₁ hr
    obtain ⟨received, buffer₁⟩ := r
    obtain ⟨hs₁, hr⟩ := hr
    have hkeep : s₁.handles = h := hs₁.trans hs
    cases received with
    | failure error => exact ⟨hkeep, hr⟩
    | success count =>
        obtain ⟨bytes, rest₁, rfl, hfits, hbuffer₁, hqueue, hend, hk₁⟩ := hr
        have hlength : buffer₁.length = 64 := by
          rw [hbuffer₁, ← hbuffer]
          simp [hfits]
        replace hqueue : rest = bytes ++ rest₁ := hqueue
        rw [Side.peer_server, update_flows_client, flows_client] at hk₁
        dsimp only
        by_cases hzero : bytes.length = 0
        · -- nothing is left of what the client has sent
          have hnil := List.length_eq_zero_iff.mp hzero
          rw [hnil, hend hnil, List.append_nil] at hqueue
          rw [if_pos hzero]
          rw [hqueue, List.append_nil] at hmade
          rw [hend hnil, hmade] at hk₁
          exact ⟨hkeep, hlength, hk₁⟩
        -- what was received is sent back; there is room, since no more than the message is
        -- under way
        · rw [if_neg hzero, hbuffer₁, List.take_left, Calls.wp_bind]
          have hlengths := congrArg List.length hmade
          rw [hqueue, List.length_append, List.length_append] at hlengths
          refine wp_sendAll_kernel (x := server) (by rw [hkeep, hserver]) hd hk₁ ?_ ?_ ?_
          · show got.length + bytes.length ≤ capacity
            omega
          · intro s₂ k₂ hs₂ hk₂
            rw [update_flows_server, flows_server] at hk₂
            refine ⟨hs₂.trans hkeep, hbuffer₁ ▸ hlength, got ++ bytes, rest₁, ?_, ?_, hk₂⟩
            · rw [List.length_append]
              omega
            · rw [List.append_assoc, ← hqueue, hmade]
          · intro error s₂ k₂ herror hs₂ hk₂
            exact ⟨hs₂.trans hkeep, herror, hk₂⟩
  · -- more rounds than bytes
    intro buffer s k hinv
    obtain ⟨-, -, got, rest, hj, hmade, -⟩ := hinv
    have hlengths := congrArg List.length hmade
    rw [List.length_append] at hlengths
    omega

/-- What the client's loop has done after `j` rounds: all it has received matches. -/
def Receiving (h : HandleId → Option NativeHandle) (sockets : Nat → Option Socket) (n : Nat)
    (message : Bytes) (j : Nat) (e : Echo) (s : Process) (k : Kernel) : Prop :=
  s.handles = h ∧ e.buffer.length = 64 ∧ e.isMatch = true ∧ j ≤ e.printed.length ∧
    e.echoed = e.printed.length ∧ ∃ rest, e.printed ++ rest = message ∧
      k.Carries sockets n (flows ⟨[], true, false⟩ ⟨rest, true, false⟩)

/-- How the client's loop ends. -/
def ReceiveEnds (h : HandleId → Option NativeHandle) (sockets : Nat → Option Socket)
    (message : Bytes) : Except SocketError Echo → Process → Kernel → Prop
  | .error error, s, k => s.handles = h ∧ error.hasError = true ∧ k.sockets = sockets
  | .ok e, s, k => s.handles = h ∧ k.sockets = sockets ∧ e.isMatch = true ∧
      e.echoed = message.length ∧ e.printed = message

/-- The loop that receives: it ends when the whole message has come back. -/
theorem wp_receiveEcho {h : HandleId → Option NativeHandle} (hclient : h client = some (some c))
    (hc : sockets c = some (.connected n .client)) {e : Echo}
    (hstart : Receiving h sockets n message 0 e s k) :
    wp (kernelEnv p capacity)
      (Code.loopN .assertion (receiveRound p rounds message) (message.length + 1) e)
      (ReceiveEnds h sockets message) GaveUp s k := by
  refine Calls.wp_loopN_counted (Receiving h sockets n message) (message.length + 1) 0 ?_ ?_ hstart
  · intro j _ e s k hinv
    obtain ⟨hs, hbuffer, hmatch, hj, hechoed, rest, hmade, hk⟩ := hinv
    have hne : e.buffer ≠ [] := List.ne_nil_of_length_pos (by omega)
    rw [receiveRound, Calls.wp_bind]
    refine (wp_receive_kernel (x := client) (by rw [hs, hclient]) hc hk hne rfl rfl).imp ?_
    intro r s₁ k₁ hr
    obtain ⟨received, buffer₁⟩ := r
    obtain ⟨hs₁, hr⟩ := hr
    have hkeep : s₁.handles = h := hs₁.trans hs
    cases received with
    | failure error => exact ⟨hkeep, hr⟩
    | success count =>
        obtain ⟨bytes, rest₁, rfl, hfits, hbuffer₁, hqueue, hend, hk₁⟩ := hr
        have hlength : buffer₁.length = 64 := by
          rw [hbuffer₁, ← hbuffer]
          simp [hfits]
        replace hqueue : rest = bytes ++ rest₁ := hqueue
        rw [Side.peer_client, update_flows_server, flows_server] at hk₁
        dsimp only
        by_cases hzero : bytes.length = 0
        · have hnil := List.length_eq_zero_iff.mp hzero
          rw [hnil, hend hnil, List.append_nil] at hqueue
          rw [hqueue, List.append_nil] at hmade
          rw [if_pos hzero]
          exact ⟨hkeep, hk₁.sockets, hmatch, by rw [hechoed, hmade], hmade⟩
        · rw [if_neg hzero, hbuffer₁, List.take_left]
          -- what has come is what comes next in the message
          have hchunk : (message.drop e.echoed).take bytes.length = bytes := by
            rw [← hmade, hqueue, hechoed, List.drop_left, List.take_left]
          have hlengths := congrArg List.length hmade
          rw [List.length_append] at hlengths
          refine ⟨hkeep, hbuffer₁ ▸ hlength, ?_, ?_, ?_, rest₁, ?_, hk₁⟩
          · simp only [hmatch, hchunk, Bool.true_and, decide_true, Bool.and_true, decide_eq_true_eq]
            omega
          · show j + 1 ≤ (e.printed ++ bytes).length
            rw [List.length_append]
            omega
          · show e.echoed + bytes.length = (e.printed ++ bytes).length
            rw [List.length_append, hechoed]
          · show (e.printed ++ bytes) ++ rest₁ = message
            rw [List.append_assoc, ← hqueue, hmade]
  · intro e s k hinv
    obtain ⟨-, -, -, hj, -, rest, hmade, -⟩ := hinv
    have hlengths := congrArg List.length hmade
    rw [List.length_append] at hlengths
    omega

/-- Both descriptors are the ends of one connection, on which nothing has been sent. -/
theorem wp_exchange (hclient : s.handles client = some (some c))
    (hserver : s.handles server = some (some d)) (hc : k.sockets c = some (.connected n .client))
    (hd : k.sockets d = some (.connected n .server)) (hnew : ∀ side, k.channels n side = .new)
    (hmessage : message.length ≤ capacity) (hreceive : p.SHUT_WR ≠ p.SHUT_RD)
    (hboth : p.SHUT_WR ≠ p.SHUT_RDWR) :
    wp (kernelEnv p capacity) (exchange p rounds message) (fun r s' k' =>
      s'.handles = s.handles ∧ k'.sockets = k.sockets ∧ r.Right message) GaveUp s k := by
  have hk : k.Carries k.sockets n (flows .new .new) := by
    refine ⟨rfl, ?_⟩
    funext side
    cases side <;> exact hnew _
  rw [exchange, Calls.wp_bind]
  refine wp_sendAll_kernel hclient hc hk (by simpa [Channel.new] using hmessage) ?_ ?_
  · intro s₁ k₁ hs₁ hk₁
    rw [update_flows_client, flows_client] at hk₁
    dsimp only
    rw [Calls.wp_bind]
    refine (wp_finish_kernel (x := client) (by rw [hs₁, hclient]) hc hk₁ hreceive hboth).imp ?_
    intro r s₂ k₂ hr
    obtain ⟨hs₂, hr⟩ := hr
    have hkeep₂ : s₂.handles = s.handles := hs₂.trans hs₁
    cases r with
    | failure error => exact ⟨hkeep₂, hr.2, hr.1⟩
    | success v =>
        replace hr : k₂.Carries _ _ _ := hr
        rw [update_flows_client, flows_client] at hr
        -- the message is on its way to the server, and the client sends no more
        have hstart : Echoing s.handles k.sockets n message 0 (List.replicate 64 0) s₂ k₂ :=
          ⟨hkeep₂, List.length_replicate, [], message, Nat.zero_le _, rfl, hr⟩
        dsimp only
        rw [Calls.wp_bind]
        refine (wp_echo hserver hd hmessage hstart).imp ?_
        intro r s₃ k₃ hr₃
        cases r with
        | error error => exact ⟨hr₃.1, hr₃.2.2, hr₃.2.1⟩
        | ok buffer =>
            obtain ⟨hs₃, hbuffer, hk₃⟩ := hr₃
            dsimp only
            rw [Calls.wp_bind]
            refine (wp_finish_kernel (x := server) (by rw [hs₃, hserver]) hd hk₃ hreceive
              hboth).imp ?_
            intro r s₄ k₄ hr₄
            obtain ⟨hs₄, hr₄⟩ := hr₄
            have hkeep₄ : s₄.handles = s.handles := hs₄.trans hs₃
            cases r with
            | failure error => exact ⟨hkeep₄, hr₄.2, hr₄.1⟩
            | success v =>
                replace hr₄ : k₄.Carries _ _ _ := hr₄
                rw [update_flows_server, flows_server] at hr₄
                -- the message is on its way back, and the server sends no more
                have hstart₄ : Receiving s.handles k.sockets n message 0 ⟨buffer, 0, true, []⟩ s₄
                    k₄ := ⟨hkeep₄, hbuffer, rfl, Nat.zero_le _, rfl, message, rfl, hr₄⟩
                dsimp only
                rw [Calls.wp_bind]
                refine (wp_receiveEcho hclient hc hstart₄).imp ?_
                intro r s₅ k₅ hr₅
                cases r with
                | error error => exact ⟨hr₅.1, hr₅.2.2, hr₅.2.1⟩
                | ok e =>
                    obtain ⟨hs₅, hk₅, hmatch, hechoed, hprinted⟩ := hr₅
                    simp only [hmatch, hechoed, Bool.not_true, ne_eq, not_true_eq_false,
                      decide_false, Bool.or_self, Bool.false_eq_true, if_false, Calls.wp_pure]
                    exact ⟨hs₅, hk₅, hprinted⟩
  · intro error s₁ k₁ herror hs₁ hk₁
    exact ⟨hs₁, hk₁, herror⟩

/-! ### The whole program

What was opened is closed in the order of the scopes, whichever operation failed. -/

/-- What `main` has done when `client` is destroyed: the listener and the client may hold a
descriptor, and all else is as before. -/
def Connecting (h : HandleId → Option NativeHandle) (k₀ : Kernel) (message : Bytes) (r : Ending)
    (s' : Process) (k' : Kernel) : Prop :=
  r.Right message ∧ ∃ a b : NativeHandle, k₀.Beside (b.toList ++ a.toList) k' ∧
    s'.handles = Function.update (Function.update h listener (some a)) client (some b)

/-- `main` inside the scope of `client`. -/
theorem wp_connectTo {endpoint : SocketEndpoint} {l : Nat} {limit : Int} {k₀ : Kernel}
    {h : HandleId → Option NativeHandle} (hidle : s.Idle)
    (hdead : h accepted = none ∧ h server = none)
    (hs : s.handles = Function.update (Function.update h listener (some (some l))) client
      (some none)) (hl : k₀.sockets l = none)
    (hk : k = k₀.put l (some (.listening endpoint limit []))) (honly : k.Only l endpoint)
    (hlimit : 0 < limit) (hmessage : message.length ≤ capacity)
    (hreceive : p.SHUT_WR ≠ p.SHUT_RD) (hboth : p.SHUT_WR ≠ p.SHUT_RDWR) :
    wp (kernelEnv p capacity) (connectTo p rounds message endpoint) (Connecting h k₀ message)
      GaveUp s k := by
  have hclientAt : ∀ a, Function.update s.handles client a =
      Function.update (Function.update h listener (some (some l))) client a := by
    intro a
    rw [hs, Function.update_idem]
  show wp (kernelEnv p capacity) (joining p rounds (.user 1) (.user 2) (.user 0) endpoint
    (fun error => return Ending.failed error) _) _ _ _ _
  refine wp_joining (Yields.pure Ending.failed) hidle (by simp) (by simp [hs, client])
    (by simp [hs, client, listener]) (by simp [hk]) honly hlimit
    (hk ▸ Kernel.Beside.refl.new hl rfl : k₀.Beside [l] k) ?_ ?_
  · intro error s₁ k₁ b herror hs₁ hk₁
    exact ⟨herror, some l, b, hk₁, hs₁.trans (hclientAt _)⟩
  · intro c d s₁ k₁ hjoined _ hs₁
    replace hs₁ : s₁.handles = Function.update (Function.update (Function.update h listener
        (some (some l))) client (some (some c))) accepted (some (some d)) := by
      rw [hs₁, hs]
      exact Process.written_congr [(_, _), (_, _), (_, _), (_, _)] [(_, _), (_, _), (_, _)]
        (by simp [Process.written, client, listener, accepted])
    rw [wp_leaving, Calls.wp_bind, wp_moveConstruct (h := some d) (by simp [hs₁, accepted]),
      wp_leaving,
      Calls.wp_bind]
    -- the listener is closed, and the connection stays
    refine (wp_close_asks (Q := fun k' => k' = k₁.free l) (x := listener) (h := some l)
      (by simp [hs₁, listener, client, server, accepted])
      (fun h => absurd h (Option.some_ne_none _)) ?_).imp ?_
    · intro fd hfd
      cases hfd
      exact Closes.kernel rfl
    · intro _ s₂ k₂ hs₂
      obtain ⟨hs₂, rfl⟩ := hs₂
      replace hjoined : Joined k₀ c d (k₁.free l) := hjoined.unlisten hl hk
      replace hs₂ : s₂.handles = Function.update (Function.update (Function.update
          (Function.update h client (some (some c))) accepted (some none)) server (some (some d)))
          listener (some none) := by
        rw [hs₂, Process.put, Process.put, hs₁]
        exact Process.written_congr [(_, _), (_, _), (_, _), (_, _), (_, _), (_, _)]
          [(_, _), (_, _), (_, _), (_, _)]
          (by simp [Process.written, client, listener, accepted, server])
      refine (wp_exchange (c := c) (d := d) (by simp [hs₂, client, listener, accepted, server])
        (by simp [hs₂, listener, server]) hjoined.sockets.1 hjoined.sockets.2 hjoined.channels
        hmessage hreceive hboth).imp ?_
      intro r s₃ k₃ hr
      obtain ⟨hs₃, hk₃, hright⟩ := hr
      -- `server` and `accepted` are destroyed, `client` and `listener` are not yet
      refine (wp_destroy_kernel (h := some d) (by simp [hs₃, hs₂, listener, server])).imp ?_
      intro _ s₄ k₄ hs₄
      obtain ⟨hs₄, rfl⟩ := hs₄
      refine (wp_destroy_kernel (h := none)
        (by simp [hs₄, hs₃, hs₂, listener, server, accepted])).imp ?_
      intro _ s₅ k₅ hs₅
      obtain ⟨hs₅, rfl⟩ := hs₅
      refine ⟨hright, none, some c, ?_, ?_⟩
      · have hbeside : k₀.Beside [d, c] k₃ := by
          intro fd
          rw [hk₃]
          exact hjoined.beside fd
        exact hbeside.free
      · obtain ⟨haccepted, hserver⟩ := hdead
        rw [hs₅, hs₄, hs₃, hs₂]
        exact Process.written_congr [(_, _), (_, _), (_, _), (_, _), (_, _), (_, _)]
          [(_, _), (_, _)] (by
            simp only [accepted, server] at haccepted hserver
            simp [Process.written, client, listener, accepted, server, haccepted, hserver])

/-- `main` inside the runtime: it closes everything it has opened. -/
theorem wp_body {SOMAXCONN : Int} (hidle : s.Idle)
    (hdead : ∀ n ≤ 3, s.handles (.user n) = none) (hlimit : 0 < SOMAXCONN)
    (hmessage : message.length ≤ capacity) (hreceive : p.SHUT_WR ≠ p.SHUT_RD)
    (hboth : p.SHUT_WR ≠ p.SHUT_RDWR) :
    wp (kernelEnv p capacity) (body p SOMAXCONN rounds message) (fun r s' k' =>
      r.Right message ∧ s'.handles = s.handles ∧ k'.sockets = k.sockets) GaveUp s k := by
  show wp (kernelEnv p capacity) (listening p (.user 0) SOMAXCONN
    (fun error => return Ending.failed error) fun endpoint => do
      construct client none
      leaving client (connectTo p rounds message endpoint)) _ _ _ _
  refine wp_listening (Yields.pure Ending.failed) hidle (hdead 0 (by decide)) hlimit ?_ ?_
  · exact fun error s' k' herror hs' hk' => ⟨herror, hs', hk'⟩
  · intro endpoint l s₁ k₁ hl hs₁ hk₁ honly
    rw [Calls.wp_bind, wp_construct, wp_leaving]
    refine (wp_connectTo (hidle.update hs₁).put ⟨hdead 2 (by decide), hdead 3 (by decide)⟩ ?_ hl
      hk₁ honly hlimit hmessage hreceive hboth).imp ?_
    · funext z
      simp only [Process.handles_put, hs₁, Function.update_apply, listener, client]
    · intro r s₂ k₂ hr
      obtain ⟨hright, a, b, hk₂, hs₂⟩ := hr
      refine (wp_destroy_kernel (h := b) (by simp [hs₂])).imp ?_
      intro _ s₃ k₃ hs₃
      obtain ⟨hs₃, rfl⟩ := hs₃
      refine (wp_destroy_kernel (h := a) (by simp [hs₃, hs₂, client, listener])).imp ?_
      intro _ s₄ k₄ hs₄
      obtain ⟨hs₄, rfl⟩ := hs₄
      refine ⟨hright, ?_, Kernel.Beside.sockets (Kernel.Beside.freed (by simpa using hk₂.freed))⟩
      have hlistener := hdead 0 (by decide)
      have hclient := hdead 1 (by decide)
      rw [hs₄, hs₃, hs₂]
      exact Process.written_congr [(_, _), (_, _), (_, _), (_, _)] []
        (by simp [Process.written, client, listener, hlistener, hclient])

/-- **The TCP example.** On a host where nobody else connects to it, it never waits, closes
everything it has opened, and prints the message that it has sent or reports an error. What
comes back never differs from what was sent. It uses no socket while Winsock is not started,
and leaves Winsock as it was. -/
theorem main_echoes {SOMAXCONN : Int} {starts : Nat} (hidle : s.Idle)
    (hdead : ∀ n ≤ 3, s.handles (.user n) = none) (hlimit : 0 < SOMAXCONN)
    (hmessage : message.length ≤ capacity) (hreceive : p.SHUT_WR ≠ p.SHUT_RD)
    (hboth : p.SHUT_WR ≠ p.SHUT_RDWR) :
    wp ((kernelEnv p capacity).beside (Started p) (winsockEnv p Process))
      (main p SOMAXCONN rounds message) (fun r s' w' =>
        (r.Right message ∧ s'.handles = s.handles ∧ w'.1.sockets = k.sockets) ∧ w'.2 = starts)
      (fun e _ _ => e = .gaveUp) s (k, starts) :=
  wp_withRuntime (w := (k, starts)) (fun _ herror => ⟨herror, rfl, rfl⟩)
    (wp_body hidle hdead hlimit hmessage hreceive hboth)

/-- `Hello from the TCP client!` on a host without sockets. -/
theorem main_echoes_hello :
    wp ((kernelEnv .linux 4096).beside (Started .linux) (winsockEnv .linux Process))
      (main .linux 4096 3 ("Hello from the TCP client!".toList.map
        fun c => UInt8.ofNat c.toNat)) (fun r s' w' =>
          (r.Right ("Hello from the TCP client!".toList.map fun c => UInt8.ofNat c.toNat) ∧
            s'.handles = (fun _ => none) ∧ w'.1.sockets = fun _ => none) ∧ w'.2 = 0)
      (fun e _ _ => e = .gaveUp) ⟨fun _ => none, 0⟩ (⟨fun _ => none, fun _ _ => .new, 0⟩, 0) :=
  main_echoes (p := .linux) (k := ⟨fun _ => none, fun _ _ => .new, 0⟩) (fun _ _ => rfl)
    (fun _ _ => rfl) (by decide) (by decide) (by decide) (by decide)

end TcpLoopback

end Net

end CoreSystems
