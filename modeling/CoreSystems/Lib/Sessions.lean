import CoreSystems.Lib.Calls

/-!
# CoreSystems.Lib.Sessions

A client that runs one operation after another.

The client has a memory and meets an environment. It starts an operation where that is
allowed, the environment answers the calls that the operation makes, and between operations
the environment may change by itself.

What every operation keeps holds between operations, and every call that is ever made is one
that the environment accepts: `Client.Reachable.between` and `Client.Reachable.accepted`.

Unlike in a `System` there is one client, so what an operation may rely on includes the
environment itself, and not only a log. An invariant between operations therefore relates the
memory of the client to the world it works in.
-/

namespace Calls

/-! ### Runs of a client -/

/-- The operations of a client, when they may be started, and what they meet. -/
structure Client (I : Interface) (σ ε ω Op : Type) where
  env : Env I σ ω
  code : Op → Code I σ ε Unit
  allowed : σ → ω → Op → Prop
  drifts : σ → ω → ω → Prop

namespace Client

variable {I : Interface} {σ ε ω Op : Type}

/-- A moment of a run: between operations, or inside one. Inside, the client is at a call, or
at the end of the operation. -/
inductive Moment (I : Interface) (σ ε ω : Type)
  | between (s : σ) (w : ω)
  | inside (x : Prog I σ ε Unit) (w : ω)

variable {client : Client I σ ε ω Op}

/-- A step of a run. -/
inductive Step (client : Client I σ ε ω Op) : Moment I σ ε ω → Moment I σ ε ω → Prop
  | start {s : σ} {w : ω} (op : Op) (h : client.allowed s w op) :
      Step client (.between s w) (.inside (client.code op s) w)
  | answer {c : I.Call} {seen : σ} {k : I.Answer c → Prog I σ ε Unit} {r : I.Answer c} {w w' : ω}
      (h : client.env.answers w c r w') :
      Step client (.inside (.call c seen k) w) (.inside (k r) w')
  | finish {s : σ} {w : ω} : Step client (.inside (.ret () s) w) (.between s w)
  | drift {s : σ} {w w' : ω} (h : client.drifts s w w') :
      Step client (.between s w) (.between s w')

/-- The moments of the runs from a memory and an environment. -/
def Reachable (client : Client I σ ε ω Op) (s : σ) (w : ω) (m : Moment I σ ε ω) : Prop :=
  Relation.ReflTransGen (Step client) (.between s w) m

/-! ### Invariants

An invariant has to be proved of each operation once, with the rules of `wp`; the induction
over the run is done here. -/

/-- Every operation keeps `inv` or leaves with `E`, and so do changes of the environment. -/
structure Keeps (client : Client I σ ε ω Op) (inv : σ → ω → Prop) (E : ε → σ → ω → Prop) :
    Prop where
  operation : ∀ op s w, inv s w → client.allowed s w op →
    wp client.env (client.code op) (fun _ => inv) E s w
  drift : ∀ s w w', inv s w → client.drifts s w w' → inv s w'

/-- What an invariant says of a moment. -/
def Moment.Holds (env : Env I σ ω) (inv : σ → ω → Prop) (E : ε → σ → ω → Prop) :
    Moment I σ ε ω → Prop
  | between s w => inv s w
  | inside x w => x.wp env (fun _ => inv) E w

variable {inv : σ → ω → Prop} {E : ε → σ → ω → Prop} {s s' : σ} {w w' : ω}
variable {m m' : Moment I σ ε ω}

/-- A step keeps what operations keep. -/
theorem Keeps.step (h : client.Keeps inv E) (hm : m.Holds client.env inv E)
    (hstep : client.Step m m') : m'.Holds client.env inv E := by
  cases hstep with
  | start op hop => exact h.operation op _ _ hm hop
  | answer ha => exact hm.2 _ _ ha
  | finish => exact hm
  | drift hd => exact h.drift _ _ _ hm hd

/-- So does a run. -/
theorem Keeps.run (h : client.Keeps inv E) (hinit : inv s w) (hrun : client.Reachable s w m) :
    m.Holds client.env inv E := by
  induction hrun with
  | refl => exact hinit
  | tail _ hstep ih => exact h.step ih hstep

/-- The invariant holds between operations. -/
theorem Reachable.between (hrun : client.Reachable s w (.between s' w')) (h : client.Keeps inv E)
    (hinit : inv s w) : inv s' w' :=
  h.run hinit hrun

/-- Every call that is made is accepted. -/
theorem Reachable.accepted {c : I.Call} {seen : σ} {k : I.Answer c → Prog I σ ε Unit}
    (hrun : client.Reachable s w (.inside (.call c seen k) w')) (h : client.Keeps inv E)
    (hinit : inv s w) : client.env.accepts c seen w' :=
  (h.run hinit hrun).1

/-- An operation that does not return leaves as it may. -/
theorem Reachable.left {e : ε} (hrun : client.Reachable s w (.inside (.exit e s') w'))
    (h : client.Keeps inv E) (hinit : inv s w) : E e s' w' :=
  h.run hinit hrun

end Client

end Calls
