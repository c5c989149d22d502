import Mathlib.Logic.Function.Basic
import Mathlib.Logic.Relation
import Mathlib.Data.List.Basic

/-!
# CoreSystems.Lib.Calls

Programs that talk to an environment through calls.

A program over a memory is a tree: it returns, it leaves with an exit, or it makes a
call, shows the memory at that point, and goes on with whatever the environment
answers. The environment is not part of the program, so one program can be run
against an environment of its own or share one with others.

`wp e x Q E s w` says that `x`, run from the memory `s` in the environment `e` at `w`,
returns with `Q` or leaves with `E` and makes only calls that `e` accepts, whatever the
answers are. `Steps` is a run of one program up to any point, and `Prog.wp.steps`
carries the precondition along it.

A `System` is any number of slots, each running one job after another against a shared
environment, interleaved at calls. What a job has been answered is its log. A
precondition over logs, proved of a job's code alone, holds of the job at every moment
of every interleaving: `System.Reachable.job`.

## Shape of the rules

The rules of `wp` follow the program text: one for each command, one for composition, three
for loops. A loop is bounded, because the programs are trees of finite depth; a proof either
lets running out of rounds be an exit (`wp_loopN`) or shows with a measure that it never
happens (`wp_loopN_total`).

The environment enters through `Env`: which calls it accepts, and how it may answer. So one
specification can speak of a log (`logEnv`), of a script (`servedBy`) or of a shared world,
and the same code is verified against each of them.
-/

namespace Calls

/-- Calls and their answers. The type of an answer depends on the call, so a program cannot
take the answer to one call for the answer to another. -/
structure Interface where
  Call : Type
  Answer : Call → Type

/-- A call that has been answered. -/
abbrev Event (I : Interface) := Σ c : I.Call, I.Answer c

/-- A program at some point of its run. The state in a `call` is the memory at the moment of
the call: an environment may look at it, and what it says about the call may depend on it. -/
inductive Prog (I : Interface) (σ ε α : Type)
  | ret (a : α) (s : σ)
  | exit (e : ε) (s : σ)
  | call (c : I.Call) (seen : σ) (k : I.Answer c → Prog I σ ε α)

variable {I : Interface} {σ ε α β γ ω : Type}

namespace Prog

/-- Go on with `f` where the program returns. Where it leaves, nothing more is run: exits pass
through everything that follows. -/
def bind (x : Prog I σ ε α) (f : α → σ → Prog I σ ε β) : Prog I σ ε β :=
  match x with
  | ret a s => f a s
  | exit e s => exit e s
  | call c seen k => call c seen fun r => (k r).bind f

/-- The program has nothing more to do. -/
def Finished : Prog I σ ε α → Prop
  | ret _ _ => True
  | exit _ _ => True
  | call _ _ _ => False

end Prog

/-- Program text: a program from every memory. This is the monad the embedded code is written
in. -/
def Code (I : Interface) (σ ε α : Type) : Type := σ → Prog I σ ε α

namespace Code

instance : Monad (Code I σ ε) where
  pure a := fun s => .ret a s
  bind x f := fun s => (x s).bind fun a s' => f a s'

/-- Leave. -/
def leave (e : ε) : Code I σ ε α := fun s => .exit e s

/-- The memory. -/
def get : Code I σ ε σ := fun s => .ret s s

/-- Change the memory. -/
def modify (f : σ → σ) : Code I σ ε Unit := fun s => .ret () (f s)

/-- Make a call, showing the memory `seen`. -/
def askFrom (seen : σ) (c : I.Call) : Code I σ ε (I.Answer c) :=
  fun s => .call c seen fun r => .ret r s

/-- Make a call. -/
def ask (c : I.Call) : Code I σ ε (I.Answer c) := fun s => askFrom s c s

/-- Run `body` from `b`, again from every state it answers with `.inl`, until it
answers with `.inr`; leave with `out` after `n` rounds. -/
def loopN (out : ε) (body : β → Code I σ ε (β ⊕ γ)) : Nat → β → Code I σ ε γ
  | 0, _ => leave out
  | n + 1, b => do
    match ← body b with
    | .inl b' => loopN out body n b'
    | .inr c => pure c

end Code

/-! ### Preconditions

A precondition is computed along the tree, so it is a statement about every answer to every
call. The rules below take it apart along the text. -/

/-- What a program meets: which calls may be made, and how they may be answered. To accept a
call is an obligation of the program, to answer it is a choice of the environment. -/
structure Env (I : Interface) (σ ω : Type) where
  accepts : I.Call → σ → ω → Prop
  answers : ω → (c : I.Call) → I.Answer c → ω → Prop

/-- In the environment `env` from `w`, the program makes only calls that are accepted,
and returns with `Q` or leaves with `E`. -/
def Prog.wp (env : Env I σ ω) (x : Prog I σ ε α) (Q : α → σ → ω → Prop)
    (E : ε → σ → ω → Prop) (w : ω) : Prop :=
  match x with
  | .ret a s => Q a s w
  | .exit e s => E e s w
  | .call c seen k => env.accepts c seen w ∧
      ∀ r w', env.answers w c r w' → (k r).wp env Q E w'

/-- The same for program text run from a memory. -/
def wp (env : Env I σ ω) (x : Code I σ ε α) (Q : α → σ → ω → Prop) (E : ε → σ → ω → Prop)
    (s : σ) (w : ω) : Prop :=
  (x s).wp env Q E w

section Rules

variable {env : Env I σ ω} {Q Q' : α → σ → ω → Prop} {E E' : ε → σ → ω → Prop} {s : σ} {w : ω}

theorem Prog.wp.mono {x : Prog I σ ε α} (h : x.wp env Q E w)
    (hQ : ∀ a s w', Q a s w' → Q' a s w') (hE : ∀ e s w', E e s w' → E' e s w') :
    x.wp env Q' E' w := by
  induction x generalizing w with
  | ret a s => exact hQ a s w h
  | exit e s => exact hE e s w h
  | call c seen k ih => exact ⟨h.1, fun r w' hr => ih r (h.2 r w' hr)⟩

/-- Two specifications of one program. -/
theorem Prog.wp.and {x : Prog I σ ε α} (h : x.wp env Q E w) (h' : x.wp env Q' E' w) :
    x.wp env (fun a s w' => Q a s w' ∧ Q' a s w') (fun e s w' => E e s w' ∧ E' e s w') w := by
  induction x generalizing w with
  | ret a s => exact ⟨h, h'⟩
  | exit e s => exact ⟨h, h'⟩
  | call c seen k ih => exact ⟨h.1, fun r w' hr => ih r (h.2 r w' hr) (h'.2 r w' hr)⟩

theorem Prog.wp_bind {x : Prog I σ ε α} {f : α → σ → Prog I σ ε β} {R : β → σ → ω → Prop} :
    (x.bind f).wp env R E w ↔ x.wp env (fun a s w' => (f a s).wp env R E w') E w := by
  induction x generalizing w with
  | ret a s => rfl
  | exit e s => rfl
  | call c seen k ih =>
      constructor
      · intro h
        exact ⟨h.1, fun r w' hr => (ih r).mp (h.2 r w' hr)⟩
      · intro h
        exact ⟨h.1, fun r w' hr => (ih r).mpr (h.2 r w' hr)⟩

/-- Weakening the postcondition. -/
theorem wp.imp {x : Code I σ ε α} (h : wp env x Q E s w)
    (hQ : ∀ a s w', Q a s w' → Q' a s w') : wp env x Q' E s w :=
  Prog.wp.mono h hQ fun _ _ _ he => he

@[simp] theorem wp_pure (a : α) : wp env (pure a : Code I σ ε α) Q E s w ↔ Q a s w := Iff.rfl

@[simp] theorem wp_leave (e : ε) :
    wp env (Code.leave e : Code I σ ε α) Q E s w ↔ E e s w := Iff.rfl

@[simp] theorem wp_get {Q : σ → σ → ω → Prop} :
    wp env (Code.get : Code I σ ε σ) Q E s w ↔ Q s s w := Iff.rfl

@[simp] theorem wp_modify {Q : Unit → σ → ω → Prop} (f : σ → σ) :
    wp env (Code.modify f : Code I σ ε Unit) Q E s w ↔ Q () (f s) w := Iff.rfl

@[simp] theorem wp_askFrom {c : I.Call} {seen : σ} {Q : I.Answer c → σ → ω → Prop} :
    wp env (Code.askFrom seen c : Code I σ ε (I.Answer c)) Q E s w ↔
      env.accepts c seen w ∧ ∀ r w', env.answers w c r w' → Q r s w' := Iff.rfl

@[simp] theorem wp_bind (x : Code I σ ε α) (f : α → Code I σ ε β) {Q : β → σ → ω → Prop} :
    wp env (x >>= f) Q E s w ↔ wp env x (fun a s' w' => wp env (f a) Q E s' w') E s w :=
  Prog.wp_bind

/-- The rule of composition, for a first command with a specification of its own. -/
theorem wp.bind {x : Code I σ ε α} {f : α → Code I σ ε β} {R : β → σ → ω → Prop}
    (hx : wp env x Q E s w) (hf : ∀ a s' w', Q a s' w' → wp env (f a) R E s' w') :
    wp env (x >>= f) R E s w :=
  (wp_bind x f).mpr (hx.imp hf)

/-- One round of a loop. -/
theorem wp_loopN_succ (out : ε) (body : β → Code I σ ε (β ⊕ γ)) (n : Nat) (b : β)
    {Q : γ → σ → ω → Prop} :
    wp env (Code.loopN out body (n + 1) b) Q E s w ↔
      wp env (body b) (fun r s' w' =>
        match r with
        | .inl b' => wp env (Code.loopN out body n b') Q E s' w'
        | .inr c => Q c s' w') E s w := by
  rw [Code.loopN, wp_bind]
  constructor
  all_goals
    intro h
    apply h.imp
    intro r s' w' hr
    cases r <;> exact hr

/-- **A loop with an invariant that counts the rounds.** A round that goes on takes the
invariant from `j` to `j + 1`, one that leaves gives the postcondition; after the last round
running out is an exit. -/
theorem wp_loopN_counted {out : ε} {body : β → Code I σ ε (β ⊕ γ)} {Q : γ → σ → ω → Prop}
    (inv : Nat → β → σ → ω → Prop) (n k : Nat)
    (hbody : ∀ j < k + n, ∀ b s w, inv j b s w → wp env (body b) (fun r s' w' =>
      match r with
      | .inl b' => inv (j + 1) b' s' w'
      | .inr c => Q c s' w') E s w)
    (hout : ∀ b s w, inv (k + n) b s w → E out s w)
    {b : β} {s : σ} {w : ω} (hinv : inv k b s w) :
    wp env (Code.loopN out body n b) Q E s w := by
  induction n generalizing k b s w with
  | zero => exact hout b s w hinv
  | succ n ih =>
      rw [wp_loopN_succ]
      apply (hbody k (by omega) b s w hinv).imp
      intro r s' w' hr
      have hsum : k + 1 + n = k + (n + 1) := by omega
      cases r with
      | inl b' => exact ih (k + 1) (by rwa [hsum]) (by rwa [hsum]) hr
      | inr c => exact hr

/-- **A loop with an invariant.** The invariant is kept by every round that goes on
and gives the postcondition when the loop leaves; running out of rounds is an exit. -/
theorem wp_loopN {out : ε} {body : β → Code I σ ε (β ⊕ γ)} {Q : γ → σ → ω → Prop}
    (inv : β → σ → ω → Prop)
    (hbody : ∀ b s w, inv b s w → wp env (body b) (fun r s' w' =>
      match r with
      | .inl b' => inv b' s' w'
      | .inr c => Q c s' w') E s w)
    (hout : ∀ b s w, inv b s w → E out s w)
    (n : Nat) {b : β} {s : σ} {w : ω} (hinv : inv b s w) :
    wp env (Code.loopN out body n b) Q E s w :=
  wp_loopN_counted (fun _ => inv) n 0 (fun _ _ => hbody) hout hinv

/-- **Total correctness of a loop.** With a measure that every further round
decreases, enough rounds never run out. -/
theorem wp_loopN_total {out : ε} {body : β → Code I σ ε (β ⊕ γ)} {Q : γ → σ → ω → Prop}
    (inv : β → σ → ω → Prop) (μ : β → Nat)
    (hbody : ∀ b s w, inv b s w → wp env (body b) (fun r s' w' =>
      match r with
      | .inl b' => inv b' s' w' ∧ μ b' < μ b
      | .inr c => Q c s' w') E s w)
    {n : Nat} {b : β} {s : σ} {w : ω} (hinv : inv b s w) (hn : μ b < n) :
    wp env (Code.loopN out body n b) Q E s w := by
  induction n generalizing b s w with
  | zero => omega
  | succ n ih =>
      rw [wp_loopN_succ]
      apply (hbody b s w hinv).imp
      intro r s' w' hr
      cases r with
      | inl b' => exact ih hr.1 (by omega)
      | inr c => exact hr

end Rules

/-! ### Runs of one program

A run stops anywhere, also in the middle of a call. What a precondition says of the rest of
the program is known there. -/

/-- A run of a program up to some point. -/
inductive Steps (env : Env I σ ω) : Prog I σ ε α → ω → Prog I σ ε α → ω → Prop
  | refl {x : Prog I σ ε α} {w : ω} : Steps env x w x w
  | answer {c : I.Call} {seen : σ} {k : I.Answer c → Prog I σ ε α} {r : I.Answer c}
      {y : Prog I σ ε α} {w w' w'' : ω} (hr : env.answers w c r w')
      (hrun : Steps env (k r) w' y w'') : Steps env (.call c seen k) w y w''

/-- What holds before a run holds at every point of it. -/
theorem Prog.wp.steps {env : Env I σ ω} {x y : Prog I σ ε α} {Q : α → σ → ω → Prop}
    {E : ε → σ → ω → Prop} {w w' : ω} (h : x.wp env Q E w) (hrun : Steps env x w y w') :
    y.wp env Q E w' := by
  induction hrun with
  | refl => exact h
  | answer hr _ ih => exact ih (h.2 _ _ hr)

/-! ### Runs against a script

An environment that leaves no choice makes a program computable: `Prog.run` evaluates it, and
the precondition tells the outcome. -/

/-- How a program stops whose environment leaves no choice: it returns, leaves, or makes a
call that is not answered. -/
inductive Outcome (σ ε α : Type)
  | ret (a : α) (s : σ)
  | exit (e : ε) (s : σ)
  | blocked

/-- Run a program. `serve` gives the answer to a call, if there is one. -/
def Prog.run (serve : ω → (c : I.Call) → Option (I.Answer c × ω)) :
    Prog I σ ε α → ω → Outcome σ ε α × ω
  | .ret a s, w => (.ret a s, w)
  | .exit e s, w => (.exit e s, w)
  | .call c _ k, w =>
    match serve w c with
    | none => (.blocked, w)
    | some (r, w') => (k r).run serve w'

/-- The environment that answers as `serve` does. -/
def servedBy (serve : ω → (c : I.Call) → Option (I.Answer c × ω))
    (accepts : I.Call → σ → ω → Prop) : Env I σ ω where
  accepts := accepts
  answers w c r w' := serve w c = some (r, w')

/-- A precondition tells how the run stops, and if it blocks, on which call. -/
theorem Prog.wp.run {serve : ω → (c : I.Call) → Option (I.Answer c × ω)}
    {accepts : I.Call → σ → ω → Prop} {x : Prog I σ ε α} {Q : α → σ → ω → Prop}
    {E : ε → σ → ω → Prop} {w : ω} (h : x.wp (servedBy serve accepts) Q E w) :
    match x.run serve w with
    | (.ret a s, w') => Q a s w'
    | (.exit e s, w') => E e s w'
    | (.blocked, w') => ∃ c seen, accepts c seen w' ∧ serve w' c = none := by
  induction x generalizing w with
  | ret a s => exact h
  | exit e s => exact h
  | call c seen k ih =>
      rw [Prog.run]
      cases hserve : serve w c with
      | none => exact ⟨c, seen, h.1, hserve⟩
      | some answer =>
          obtain ⟨r, w'⟩ := answer
          exact ih r (h.2 r w' hserve)

/-! ### Interleaved jobs

Slots share one environment and run their jobs against it in any interleaving of single
answers. The order of the answers is the only thing the jobs do not control; so what is proved
of one job must hold whatever the others do.

The proof rule is `Reachable.job`: a precondition over the log of the job alone. It says
nothing of the environment, and therefore cannot be disturbed. -/

/-- The environment of a single job: its log. A call is answered within `legal` and
recorded. -/
def logEnv (accepts : I.Call → σ → List (Event I) → Prop)
    (legal : (c : I.Call) → I.Answer c → Prop) : Env I σ (List (Event I)) where
  accepts := accepts
  answers log c r log' := legal c r ∧ log' = log ++ [⟨c, r⟩]

/-- A task that has been started: what has been answered so far, and what is left. -/
structure Job (I : Interface) (σ ε α τ : Type) where
  task : τ
  log : List (Event I)
  state : Prog I σ ε α

/-- Slots that share an environment. Each runs one job after another; the last job of
a slot is the one in progress. -/
structure System (I : Interface) (σ ε α τ κ ν : Type) where
  env : ν
  jobs : κ → List (Job I σ ε α τ)

/-- The rules of a system: the code of a task, who may start it, how the environment
answers the `n`th job of a slot, and what the environment does by itself. -/
structure Rules (I : Interface) (σ ε α τ κ ν : Type) where
  code : τ → Prog I σ ε α
  allowed : κ → τ → Prop
  serves : κ → Nat → ν → (c : I.Call) → I.Answer c → ν → Prop
  drifts : ν → ν → Prop

namespace System

variable {τ κ ν : Type} [DecidableEq κ] {rules : Rules I σ ε α τ κ ν}

/-- One step of an interleaving. Starting a job makes no call; code between two calls takes no
step of its own, since nobody else can see it. -/
inductive Step (rules : Rules I σ ε α τ κ ν) :
    System I σ ε α τ κ ν → System I σ ε α τ κ ν → Prop
  /-- A slot that is idle starts a task. -/
  | start {sys : System I σ ε α τ κ ν} (i : κ) (t : τ) (ht : rules.allowed i t)
      (hidle : ∀ j ∈ sys.jobs i, j.state.Finished) :
      Step rules sys ⟨sys.env,
        Function.update sys.jobs i (sys.jobs i ++ [⟨t, [], rules.code t⟩])⟩
  /-- The call of a slot's last job is answered. -/
  | answer {sys : System I σ ε α τ κ ν} (i : κ) {done : List (Job I σ ε α τ)} {t : τ}
      {log : List (Event I)} {c : I.Call} {seen : σ} {k : I.Answer c → Prog I σ ε α}
      {r : I.Answer c} {env' : ν} (hjob : sys.jobs i = done ++ [⟨t, log, .call c seen k⟩])
      (hserves : rules.serves i done.length sys.env c r env') :
      Step rules sys ⟨env',
        Function.update sys.jobs i (done ++ [⟨t, log ++ [⟨c, r⟩], k r⟩])⟩
  /-- The environment moves. -/
  | drift {sys : System I σ ε α τ κ ν} {env' : ν} (h : rules.drifts sys.env env') :
      Step rules sys ⟨env', sys.jobs⟩

/-- No job has been started. -/
def initial (env : ν) : System I σ ε α τ κ ν := ⟨env, fun _ => []⟩

/-- The states of the runs from an environment, in which no job has been started yet. -/
def Reachable (rules : Rules I σ ε α τ κ ν) (env : ν) (sys : System I σ ε α τ κ ν) : Prop :=
  Relation.ReflTransGen (Step rules) (initial env) sys

/-- A task is one its slot may run, and what is left of the job is right for its log. -/
def Sound (rules : Rules I σ ε α τ κ ν) (accepts : τ → I.Call → σ → List (Event I) → Prop)
    (legal : (c : I.Call) → I.Answer c → Prop) (Q : τ → α → σ → List (Event I) → Prop)
    (E : τ → ε → σ → List (Event I) → Prop) (i : κ) (j : Job I σ ε α τ) : Prop :=
  rules.allowed i j.task ∧
    j.state.wp (logEnv (accepts j.task) legal) (Q j.task) (E j.task) j.log

/-- A job after the jobs of one slot have changed. -/
theorem mem_update {J : Type} {jobs : κ → List J} {i i' : κ} {js : List J} {j : J}
    (h : j ∈ Function.update jobs i js i') : i' = i ∧ j ∈ js ∨ j ∈ jobs i' := by
  by_cases hi : i' = i
  · subst hi
    rw [Function.update_self] at h
    exact .inl ⟨rfl, h⟩
  · rw [Function.update_of_ne hi] at h
    exact .inr h

/-- **Interleaving.** What is proved of each task's code by itself, against any legal
answers, holds of every job in every reachable state. -/
theorem Reachable.job {accepts : τ → I.Call → σ → List (Event I) → Prop}
    {legal : (c : I.Call) → I.Answer c → Prop} {Q : τ → α → σ → List (Event I) → Prop}
    {E : τ → ε → σ → List (Event I) → Prop} {env : ν} {sys : System I σ ε α τ κ ν}
    (hcode : ∀ i t, rules.allowed i t →
      (rules.code t).wp (logEnv (accepts t) legal) (Q t) (E t) [])
    (hlegal : ∀ i n env c r env', rules.serves i n env c r env' → legal c r)
    (h : Reachable rules env sys) :
    ∀ i, ∀ j ∈ sys.jobs i, Sound rules accepts legal Q E i j := by
  induction h with
  | refl => exact fun i j hj => absurd hj List.not_mem_nil
  | tail _ hstep ih =>
      intro i j hj
      cases hstep with
      | start i₀ t ht hidle =>
          rcases mem_update hj with ⟨rfl, hmem⟩ | hj
          · rw [List.mem_append, List.mem_singleton] at hmem
            rcases hmem with hj | rfl
            · exact ih i j hj
            · exact ⟨ht, hcode i t ht⟩
          · exact ih i j hj
      | answer i₀ hjob hserves =>
          rcases mem_update hj with ⟨rfl, hmem⟩ | hj
          · have hlast := ih i _ (by rw [hjob]; exact List.mem_append_right _ List.mem_cons_self)
            rw [List.mem_append, List.mem_singleton] at hmem
            rcases hmem with hj | rfl
            · exact ih i j (by rw [hjob]; exact List.mem_append_left _ hj)
            · exact ⟨hlast.1, hlast.2.2 _ _ ⟨hlegal _ _ _ _ _ _ hserves, rfl⟩⟩
          · exact ih i j hj
      | drift h => exact ih i j hj

/-- What a job meets that has the environment to itself. -/
def slotEnv (rules : Rules I σ ε α τ κ ν) (i : κ) (n : Nat) : Env I σ ν where
  accepts _ _ _ := True
  answers := rules.serves i n

/-- Running a job without interruption is one interleaving. -/
theorem Reachable.run {env env' : ν} {sys : System I σ ε α τ κ ν} {x : Prog I σ ε α}
    (h : Reachable rules env sys) (i : κ) (t : τ) (ht : rules.allowed i t)
    (hidle : ∀ j ∈ sys.jobs i, j.state.Finished)
    (hrun : Steps (slotEnv rules i (sys.jobs i).length) (rules.code t) sys.env x env') :
    ∃ log, Reachable rules env
      ⟨env', Function.update sys.jobs i (sys.jobs i ++ [⟨t, log, x⟩])⟩ := by
  have hstart := h.tail (Step.start i t ht hidle)
  generalize [] = log at hstart
  generalize sys.env = env₁ at hrun hstart
  generalize rules.code t = y at hrun hstart
  induction hrun generalizing log with
  | refl => exact ⟨log, hstart⟩
  | @answer c seen k r y w w' w'' hr hrun ih =>
      have hnext := hstart.tail (Step.answer i (Function.update_self ..) hr)
      rw [Function.update_idem] at hnext
      exact ih _ hnext

/-! ### Logs and the environment

The job rule knows only what a job has been answered. What the environment has kept of it is
the subject of the rules here: a relation between logs and environment that each answer keeps.
`Reachable.link` is about one job and must be stable under the answers to the others,
`Reachable.histories` about all of them at once. -/

/-- What the `n`th job of a slot has been answered: nothing, if it has not been started. -/
def logOf (sys : System I σ ε α τ κ ν) (i : κ) (n : Nat) : List (Event I) :=
  ((sys.jobs i)[n]?.map Job.log).getD []

/-- What the jobs of a slot have been answered, one after another. -/
def history (sys : System I σ ε α τ κ ν) (i : κ) : List (Event I) :=
  (sys.jobs i).flatMap Job.log

omit [DecidableEq κ] in
theorem logOf_eq {sys : System I σ ε α τ κ ν} {i : κ} {n : Nat} {j : Job I σ ε α τ}
    (h : (sys.jobs i)[n]? = some j) : sys.logOf i n = j.log := by
  rw [logOf, h]
  rfl

/-- Starting a job answers nothing. -/
theorem logOf_start {env : ν} {jobs : κ → List (Job I σ ε α τ)} {i i' : κ} {n : Nat} {t : τ}
    {x : Prog I σ ε α} :
    logOf ⟨env, Function.update jobs i (jobs i ++ [⟨t, [], x⟩])⟩ i' n = logOf ⟨env, jobs⟩ i' n := by
  simp only [logOf]
  by_cases hi : i' = i
  · subst hi
    rw [Function.update_self, List.getElem?_append]
    split
    case isTrue hlt => rfl
    case isFalse hge =>
      rw [List.getElem?_eq_none (Nat.le_of_not_lt hge)]
      cases n - (jobs i').length <;> rfl
  · rw [Function.update_of_ne hi]

/-- An answer is recorded by the job that called, and by no other. -/
theorem logOf_answer {env env' : ν} {jobs : κ → List (Job I σ ε α τ)} {i i' : κ} {n : Nat} {t : τ}
    {done : List (Job I σ ε α τ)} {log : List (Event I)} {e : Event I} {x y : Prog I σ ε α}
    (hjob : jobs i = done ++ [⟨t, log, x⟩]) :
    logOf ⟨env', Function.update jobs i (done ++ [⟨t, log ++ [e], y⟩])⟩ i' n =
      if i' = i ∧ n = done.length then logOf ⟨env, jobs⟩ i' n ++ [e]
      else logOf ⟨env, jobs⟩ i' n := by
  simp only [logOf]
  by_cases hi : i' = i
  · subst hi
    rw [Function.update_self, hjob]
    rcases Nat.lt_trichotomy n done.length with hn | rfl | hn
    · rw [if_neg (by omega), List.getElem?_append_left hn, List.getElem?_append_left hn]
    · simp
    · rw [if_neg (by omega), List.getElem?_eq_none (by simp; omega),
        List.getElem?_eq_none (by simp; omega)]
  · rw [Function.update_of_ne hi, if_neg fun h => hi h.1]

/-- **Logs and the environment.** A relation between what a job has been answered and the
environment holds in every reachable state, if the answer to a call the job may make keeps
it and nobody else's answers disturb it. -/
theorem Reachable.link {accepts : τ → I.Call → σ → List (Event I) → Prop}
    {legal : (c : I.Call) → I.Answer c → Prop} {Q : τ → α → σ → List (Event I) → Prop}
    {E : τ → ε → σ → List (Event I) → Prop} {Link : κ → Nat → List (Event I) → ν → Prop}
    {env : ν} {sys : System I σ ε α τ κ ν}
    (hcode : ∀ i t, rules.allowed i t →
      (rules.code t).wp (logEnv (accepts t) legal) (Q t) (E t) [])
    (hlegal : ∀ i n env c r env', rules.serves i n env c r env' → legal c r)
    (hinitial : ∀ i n, Link i n [] env)
    (hserves : ∀ i n t c seen log r env env', rules.allowed i t → accepts t c seen log →
      rules.serves i n env c r env' → Link i n log env → Link i n (log ++ [⟨c, r⟩]) env')
    (hframe : ∀ i n c r env env', rules.serves i n env c r env' → ∀ i' n' log,
      ¬ (i' = i ∧ n' = n) → Link i' n' log env → Link i' n' log env')
    (hdrifts : ∀ env env', rules.drifts env env' → ∀ i n log, Link i n log env →
      Link i n log env')
    (h : Reachable rules env sys) : ∀ i n, Link i n (sys.logOf i n) sys.env := by
  induction h with
  | refl => exact hinitial
  | @tail mid _ hreach hstep ih =>
      intro i n
      cases hstep with
      | start i₀ t ht hidle =>
          rw [logOf_start]
          exact ih i n
      | @answer i₀ done t log c seen k r env' hjob hserved =>
          rw [logOf_answer hjob]
          split
          case isTrue heq =>
            obtain ⟨rfl, rfl⟩ := heq
            -- the job that called: its call was accepted, so the link may be carried on
            have hlast : (mid.jobs i)[done.length]? = some ⟨t, log, .call c seen k⟩ := by
              rw [hjob, List.getElem?_concat_length]
            have hsound := Reachable.job hcode hlegal hreach i _ (List.mem_of_getElem? hlast)
            have hlink := ih i done.length
            rw [logOf_eq hlast] at hlink ⊢
            exact hserves _ _ _ _ _ _ _ _ _ hsound.1 hsound.2.1 hserved hlink
          -- another job, which the answer does not concern
          case isFalse hne => exact hframe _ _ _ _ _ _ hserved _ _ _ hne (ih i n)
      | drift hdrift => exact hdrifts _ _ hdrift i n _ (ih i n)

theorem history_start {env : ν} {jobs : κ → List (Job I σ ε α τ)} {i : κ} {t : τ}
    {x : Prog I σ ε α} :
    history ⟨env, Function.update jobs i (jobs i ++ [⟨t, [], x⟩])⟩ = history ⟨env, jobs⟩ := by
  funext i'
  simp only [history]
  by_cases hi : i' = i
  · subst hi
    simp
  · rw [Function.update_of_ne hi]

theorem history_answer {env env' : ν} {jobs : κ → List (Job I σ ε α τ)} {i : κ} {t : τ}
    {done : List (Job I σ ε α τ)} {log : List (Event I)} {e : Event I} {x y : Prog I σ ε α}
    (hjob : jobs i = done ++ [⟨t, log, x⟩]) :
    history ⟨env', Function.update jobs i (done ++ [⟨t, log ++ [e], y⟩])⟩ =
      Function.update (history ⟨env, jobs⟩) i (history ⟨env, jobs⟩ i ++ [e]) := by
  funext i'
  by_cases hi : i' = i
  · subst hi
    simp [history, hjob]
  · simp only [history, Function.update_of_ne hi]

/-- **Histories and the environment.** A relation between what all slots have been answered
and the environment that every answer keeps holds in every reachable state. -/
theorem Reachable.histories {Inv : (κ → List (Event I)) → ν → Prop} {env : ν}
    {sys : System I σ ε α τ κ ν} (hinitial : Inv (fun _ => []) env)
    (hserves : ∀ i n c r env env' H, rules.serves i n env c r env' → Inv H env →
      Inv (Function.update H i (H i ++ [⟨c, r⟩])) env')
    (hdrifts : ∀ env env' H, rules.drifts env env' → Inv H env → Inv H env')
    (h : Reachable rules env sys) : Inv sys.history sys.env := by
  induction h with
  | refl => exact hinitial
  | tail hreach hstep ih =>
      cases hstep with
      | start i t ht hidle =>
          rw [history_start]
          exact ih
      | answer i hjob hserved =>
          rw [history_answer hjob]
          exact hserves _ _ _ _ _ _ _ hserved ih
      | drift hdrift => exact hdrifts _ _ _ hdrift ih

end System

end Calls
