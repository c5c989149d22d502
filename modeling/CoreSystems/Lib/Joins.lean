import CoreSystems.Lib.Layers
import CoreSystems.Lib.Threads

/-!
# CoreSystems.Lib.Joins

Programs that start threads and wait for them.

To the thread that waits this is one call. It is answered by a run of the threads in which all
of them have come to an end, and it may be made when no run of them ends in a deadlock:
`Forks.env`. What is known of the threads in every interleaving is known of the call, by
`Forks.wp_ask`.

So a program with threads is verified in two parts. The threads are a `System` of their own,
with the invariants and the absence of deadlocks proved of all their interleavings; the
program that starts them sees the outcome. Nothing of it depends on who the threads are.
-/

namespace Calls

variable {F I : Interface} {σ ε τ κ ν β : Type} [DecidableEq κ]

/-! ### Threads behind a call -/

/-- What the calls of `F` start, and how they are answered. -/
structure Forks (F I : Interface) (σ ε τ κ ν : Type) where
  /-- What a thread returns. -/
  Result : F.Call → Type
  /-- The threads that a call starts. -/
  starts : (f : F.Call) → ν → Rules I σ ε (Result f) τ κ ν → Prop
  /-- What the call is answered when all of them are over. -/
  yields : (f : F.Call) → (κ → Job I σ ε (Result f) τ) → F.Answer f → Prop
  /-- The calls on which a thread waits. -/
  blocks : ν → I.Call → Prop
  /-- After this, threads may wait for each other. -/
  excuses : List (Event I) → Prop

namespace Forks

variable {forks : Forks F I σ ε τ κ ν} {f : F.Call} {w w' : ν} {a : F.Answer f}

/-- No run of the threads ends in a deadlock, unless something has happened that excuses it. -/
def Lively (forks : Forks F I σ ε τ κ ν) (f : F.Call) (w : ν)
    (rules : Rules I σ ε (forks.Result f) τ κ ν) : Prop :=
  ∀ sys js, System.Reachable rules w sys → sys.Threads js → (∀ i, ¬ forks.excuses (js i).log) →
    ¬ sys.Deadlocked forks.blocks js

/-- A run of the threads to their end. -/
structure Runs (forks : Forks F I σ ε τ κ ν) (f : F.Call) (w : ν) (a : F.Answer f) (w' : ν)
    (rules : Rules I σ ε (forks.Result f) τ κ ν) (sys : System I σ ε (forks.Result f) τ κ ν)
    (js : κ → Job I σ ε (forks.Result f) τ) : Prop where
  starts : forks.starts f w rules
  reachable : System.Reachable rules w sys
  threads : sys.Threads js
  finished : ∀ i, (js i).state.Finished
  yields : forks.yields f js a
  world : w' = sys.env

/-- The threads as the environment of the one that waits for them. That no run of them is
stuck is an obligation of the caller; which run it was is a choice of the environment. -/
def env (forks : Forks F I σ ε τ κ ν) : Env F σ ν where
  accepts f _ w := ∃ rules, forks.starts f w rules ∧ forks.Lively f w rules
  answers w f a w' := ∃ rules sys js, forks.Runs f w a w' rules sys js

/-- **The rule for a call.** The threads can be started, they are lively, and every run of
them to the end gives the postcondition. -/
theorem wp_ask {Q : F.Answer f → σ → ν → Prop} {E : β → σ → ν → Prop} {s : σ}
    (hstarts : ∃ rules, forks.starts f w rules)
    (hlively : ∀ rules, forks.starts f w rules → forks.Lively f w rules)
    (hends : ∀ a w' rules sys js, forks.Runs f w a w' rules sys js → Q a s w') :
    wp forks.env (Code.ask f : Code F σ β (F.Answer f)) Q E s w := by
  obtain ⟨rules, hrules⟩ := hstarts
  refine ⟨⟨rules, hrules, hlively rules hrules⟩, ?_⟩
  intro a w' hrun
  obtain ⟨rules', sys, js, hrun⟩ := hrun
  exact hends a w' rules' sys js hrun

end Forks

end Calls
