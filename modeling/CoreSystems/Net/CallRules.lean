import CoreSystems.Net.Sockets

/-!
# CoreSystems.Net.CallRules

System calls in every environment.

What the library functions do to descriptors, to a kernel, to a record of phases or to a
log differs, but each function makes the same calls in the same order everywhere. So a
function is executed once, for an environment that is left open, and a rule is what
remains: the calls, where they are made, and what follows from their answers.

`Asks` is one call. It is made while objects hold given handles, because an environment
may ask who owns the descriptor. `Repeats` is a call that is made again when it was
interrupted; its invariant counts the rounds, so a rule also says what a call does that is
answered at once. The rules of the functions themselves are in `CoreSystems.Net.TcpRules`,
`CoreSystems.Net.TcpOpening` and `CoreSystems.Net.UdpRules`.
-/

namespace CoreSystems

open Calls (Env wp)

namespace Net

open SocketHandle

/-! ### Calls

The environment accepts a call, and something follows from whatever it answers. -/

section Calls

variable {ω : Type}

/-- A call is accepted that is made while objects hold `handles`, and `Q` follows from its
answer. -/
def Asks (env : Env os Process ω) (handles : HandleId → Option NativeHandle) (r : Request)
    (Q : os.Answer r → ω → Prop) (w : ω) : Prop :=
  (∀ seen : Process, seen.handles = handles → env.accepts r seen w) ∧
    ∀ a w', env.answers w r a w' → Q a w'

/-- What an answer gives: an interruption keeps an invariant, any other gives a result. -/
def Answered {α : Type} (p : Platform) (inv : ω → Prop) (Q : SocketResult α → ω → Prop) :
    Except Errno α → ω → Prop
  | .ok v, w => Q (.success v) w
  | .error e, w =>
    (SocketError.isInterrupted p (.ofCode e) = true → inv w) ∧
    (SocketError.isInterrupted p (.ofCode e) = false → Q (.failure (.ofCode e)) w)

/-- A call that is made again when it was interrupted, until it gives a result or the rounds
run out. -/
def Repeats (env : Env os Process ω) (p : Platform) (rounds : Nat)
    (handles : HandleId → Option NativeHandle) (r : Request) (E : Exit → ω → Prop)
    (Q : SocketResult r.call.Value → ω → Prop) (w : ω) : Prop :=
  ∃ inv : Nat → ω → Prop, inv 0 w ∧ (∀ w', inv rounds w' → E .gaveUp w') ∧
    ∀ k w', inv k w' → Asks env handles r (Answered p (inv (k + 1)) Q) w'

variable {env : Env os Process ω} {p : Platform} {r : Request} {E : Exit → ω → Prop} {w : ω}
variable {handles : HandleId → Option NativeHandle} {rounds : Nat}

theorem Asks.imp {Q Q' : os.Answer r → ω → Prop} (h : Asks env handles r Q w)
    (hQ : ∀ a w', Q a w' → Q' a w') : Asks env handles r Q' w :=
  ⟨h.1, fun a w' ha => hQ a w' (h.2 a w' ha)⟩

theorem Answered.imp {α : Type} {inv inv' : ω → Prop} {Q Q' : SocketResult α → ω → Prop}
    {a : Except Errno α} (h : Answered p inv Q a w) (hinv : ∀ w', inv w' → inv' w')
    (hQ : ∀ v w', Q v w' → Q' v w') : Answered p inv' Q' a w := by
  cases a with
  | ok v => exact hQ _ _ h
  | error e => exact ⟨fun hagain => hinv _ (h.1 hagain), fun hlast => hQ _ _ (h.2 hlast)⟩

theorem Repeats.imp {Q Q' : SocketResult r.call.Value → ω → Prop}
    (h : Repeats env p rounds handles r E Q w) (hQ : ∀ v w', Q v w' → Q' v w') :
    Repeats env p rounds handles r E Q' w := by
  obtain ⟨inv, hinv, hout, hround⟩ := h
  refine ⟨inv, hinv, hout, fun k w' hw' => (hround k w' hw').imp ?_⟩
  exact fun a w'' ha => ha.imp (fun _ h => h) hQ

/-- An invariant that no error disturbs. It need not count the rounds; what it says in
addition once an error was answered is `asked`. -/
theorem Repeats.of_inv {Q : SocketResult r.call.Value → ω → Prop} (inv asked : ω → Prop)
    (hasked : ∀ w', asked w' → inv w') (hinv : inv w) (hout : ∀ w', inv w' → E .gaveUp w')
    (hcall : ∀ w', inv w' → Asks env handles r (fun a w'' =>
      match a with
      | .ok v => Q (.success v) w''
      | .error _ => asked w'') w')
    (hfailure : ∀ error w', error.hasError = true → asked w' → Q (.failure error) w') :
    Repeats env p rounds handles r E Q w := by
  refine ⟨fun _ => inv, hinv, hout, fun _ w' hw' => (hcall w' hw').imp ?_⟩
  intro a w'' ha
  cases a with
  | ok v => exact ha
  | error e => exact ⟨fun _ => hasked _ ha, fun _ => hfailure _ _ (decide_eq_true e.2) ha⟩

/-- A call that is not interrupted is made once. -/
theorem Repeats.once {Q : SocketResult r.call.Value → ω → Prop}
    (h : Asks env handles r (Answered p (fun _ => False) Q) w) :
    Repeats env p (rounds + 1) handles r E Q w := by
  refine ⟨fun k w' => k = 0 ∧ w' = w, ⟨rfl, rfl⟩, fun w' hw' => absurd hw'.1 (by omega), ?_⟩
  intro k w' h
  obtain ⟨rfl, rfl⟩ := h
  exact h.imp fun _ _ ha => ha.imp (fun _ hfalse => hfalse.elim) fun _ _ hQ => hQ

variable {s : Process} {x : HandleId} {c : Call} {h : NativeHandle}

/-- Reading the handle of a live object. -/
theorem get_bind {α : Type} (hx : s.handles x = some h) (f : NativeHandle → N α) :
    (get x >>= f) s = f h s := by
  simp only [get, Bind.bind, Calls.Code.get, Calls.Prog.bind, hx]
  rfl

/-- A call that says no more than that it failed. What follows may use the number that was
left in `errno`, but not what else the memory holds. -/
theorem wp_once {E : Exit → Process → ω → Prop} {Q : Except Errno c.Value → Process → ω → Prop}
    (h : Asks env s.handles ⟨x, c⟩ (fun a w' => ∀ s' : Process, s'.handles = s.handles →
      (∀ e, a = .error e → s'.errno = e) → Q a s' w') w) :
    wp env (sys x c) Q E s w := by
  rw [wp_sys]
  refine ⟨h.1 s rfl, ?_⟩
  intro a w' ha
  refine h.2 a w' ha _ (Process.handles_noted a) ?_
  intro e heq
  subst heq
  rfl

/-- A call that is made until it is not interrupted: each round that was interrupted takes
the invariant one further, the last one gives the result. -/
theorem wp_untilAnswered {α : Type} {E : Exit → Process → ω → Prop} {call : N (Except Errno α)}
    {Q : SocketResult α → Process → ω → Prop} (inv : Nat → Process → ω → Prop)
    (hcall : ∀ k s w, inv k s w → wp env call (fun a s' w' =>
      match a with
      | .ok v => Q (.success v) s' w'
      | .error e => s'.errno = e ∧
          (SocketError.isInterrupted p (.ofCode e) = true → inv (k + 1) s' w') ∧
          (SocketError.isInterrupted p (.ofCode e) = false →
            Q (.failure (.ofCode e)) s' w')) E s w)
    (hout : ∀ s w, inv rounds s w → E .gaveUp s w) (hinv : inv 0 s w) :
    wp env (untilAnswered p rounds call) Q E s w := by
  refine wp_retry inv ?_ hout hinv
  intro k s w hs
  rw [Calls.wp_bind]
  refine (hcall k s w hs).imp ?_
  intro a s' w' ha
  cases a with
  | ok v => simpa using ha
  | error e =>
      obtain ⟨herrno, hagain, hlast⟩ := ha
      simp only [Calls.wp_bind, wp_last, herrno]
      cases hint : SocketError.isInterrupted p (.ofCode e) with
      | true => simpa using hagain hint
      | false => simpa using hlast hint

/-- The loop around a call that is made again, reduced to `Repeats`: the process is the same
in every round but for `errno`. -/
theorem wp_repeats {call : N (Except Errno c.Value)} {Q : SocketResult c.Value → ω → Prop}
    (hcall : ∀ s' : Process, s'.handles = s.handles → call s' = sys x c s')
    (h : Repeats env p rounds s.handles ⟨x, c⟩ E Q w) :
    wp env (untilAnswered p rounds call) (fun r s' w' => s'.handles = s.handles ∧ Q r w' ∧
      ∀ error, r = .failure error → error.hasError = true) (fun e _ w' => E e w') s w := by
  obtain ⟨inv, hinv, hout, hround⟩ := h
  refine wp_untilAnswered (fun k s' w' => s'.handles = s.handles ∧ inv k w') ?_
    (fun s' w' hs' => hout w' hs'.2) ⟨rfl, hinv⟩
  intro k s' w' hs'
  obtain ⟨hhandles, hw'⟩ := hs'
  obtain ⟨haccepts, hanswers⟩ := hround k w' hw'
  rw [wp, hcall s' hhandles]
  refine ⟨haccepts _ hhandles, ?_⟩
  intro a w'' ha
  have hanswer := hanswers a w'' ha
  cases a with
  | ok v => exact ⟨hhandles, hanswer, nofun⟩
  | error e =>
      refine ⟨rfl, fun hagain => ⟨hhandles, hanswer.1 hagain⟩,
        fun hlast => ⟨hhandles, hanswer.2 hlast, ?_⟩⟩
      intro error h
      obtain ⟨⟩ := h
      exact decide_eq_true e.2

end Calls

/-! ### Locals

The functions that open a socket hold it in locals, which are gone when they return. -/

/-- No library function is running: none of its locals is alive. Every operation of a client
starts and ends so. -/
def Process.Idle (s : Process) : Prop := ∀ x, (∀ name, x ≠ .user name) → s.handles x = none

section Locals

variable {ω : Type} {env : Env os Process ω} {s s' : Process} {w : ω} {p : Platform}
variable {E : Exit → Process → ω → Prop} {x y : HandleId} {h : NativeHandle}

theorem Process.Idle.put (hidle : s.Idle) {name : Nat} : (s.put (.user name) h).Idle := by
  intro z hz
  simp [hz name, hidle z hz]

theorem Process.Idle.update (hidle : s.Idle) {name : Nat} {v : Option NativeHandle}
    (hs : s'.handles = Function.update s.handles (.user name) v) : s'.Idle := by
  intro z hz
  rw [hs, Function.update_of_ne (hz name), hidle z hz]

/-- `CreateSocket` makes one call; its locals leave no trace. -/
theorem wp_createSocket {Q : SocketResult Unit → Process → ω → Prop} {result : HandleId}
    {version : IPVersion} {type protocol : Nat} (hversion : version = .IPv4 ∨ version = .IPv6)
    (hhandle : s.handles (.handle .createSocket) = none) (hvalue : s.handles .value = none)
    (hres : result ≠ .handle .createSocket) (hres' : result ≠ .value)
    (h : ∀ family, Asks env s.handles ⟨.handle .createSocket, .socket family type protocol⟩
      (fun a w' =>
        match a with
        | .ok fd => Q (.success ()) (s.put result (some fd)) w'
        | .error e => Q (.failure (.ofCode e)) { s with errno := e } w') w) :
    wp env (createSocket p result version type protocol) Q E s w := by
  rw [createSocket, if_neg (by rcases hversion with rfl | rfl <;> decide)]
  simp only [Calls.wp_bind, wp_sys]
  refine ⟨(h _).1 s rfl, ?_⟩
  intro a w' ha
  have hQ := (h _).2 a w' ha
  cases a with
  | error e =>
      have hgone : (Process.put { s with errno := e } (.handle .createSocket) none).drop
          (.handle .createSocket) = { s with errno := e } := Process.drop_put hhandle
      simpa [Except.toOption, wp_destroy_invalid, hgone] using hQ
  | ok fd =>
      have hgone : (((s.put (.handle .createSocket) none).put result (some fd)).drop
          (.handle .createSocket)) = s.put result (some fd) := by
        rw [Process.put_drop_comm hres.symm, Process.drop_put hhandle]
      simpa [Except.toOption, wp_success, hvalue, hres', hres.symm, wp_destroy_invalid, hgone]
        using hQ

theorem wp_constructTcpSocket {Q : Unit → Process → ω → Prop}
    (hdead : s.handles (.handle .tcpSocket) = none) (hx : x ≠ .handle .tcpSocket)
    (hy : y ≠ .handle .tcpSocket) (hh : s.handles y = some h) :
    wp env (TcpSocket.construct x y) Q E s w ↔ Q () ((s.put y none).put x h) w := by
  have hmoved : (((s.put y none).put (.handle .tcpSocket) none).put x h).drop
      (.handle .tcpSocket) = (s.put y none).put x h := by
    rw [Process.put_drop_comm hx.symm, Process.drop_put]
    simp [hy.symm, hdead]
  simp [TcpSocket.construct, hh, hx.symm, wp_destroy_invalid, hmoved]

/-- The parameter of `Success` only passes the descriptor on. -/
theorem wp_tcpSuccess {Q : Unit → Process → ω → Prop}
    (hparam : s.handles (.handle .tcpSocket) = none) (hvalue : s.handles .value = none)
    (hx : x ≠ .value) (hy : y ≠ .handle .tcpSocket) (hy' : y ≠ .value)
    (hh : s.handles y = some h) :
    wp env (TcpSocket.success x y) Q E s w ↔ Q () ((s.put y none).put x h) w := by
  have hmoved : (((s.put y none).put .value none).put x h).drop .value =
      (s.put y none).put x h := by
    rw [Process.put_drop_comm hx.symm, Process.drop_put]
    simp [hy'.symm, hvalue]
  rw [TcpSocket.success, Calls.wp_bind, wp_constructTcpSocket hparam (by simp) hy hh]
  simp [hx.symm, wp_destroy_invalid, hmoved]

end Locals

end Net

end CoreSystems
