import CoreSystems.Lib.Calls

/-!
# CoreSystems.Lib.Threads

Threads: systems in which every slot runs one job, and where a call may have to wait.

`Reachable.account` carries a relation between all logs and the environment through every
interleaving, when only the calls that the jobs may make are known to keep it. A deadlock is
a state in which some thread waits and no other can go on.

A run is shown to exist by a schedule: a list of who is answered next, and how. When the
environment may give these answers (`Plays`) and each thread's code makes just the calls that
the schedule has for it (`followEnv`), the threads have a run to their end:
`Reachable.played`.
-/

namespace Calls

variable {I : Interface} {σ ε α τ κ ν : Type}

namespace Job

/-- A job that has returned. -/
def Returned (j : Job I σ ε α τ) : Prop := ∃ a s, j.state = .ret a s

/-- A job whose next call is one that `blocks`. -/
def Waits (blocks : I.Call → Prop) (j : Job I σ ε α τ) : Prop :=
  ∃ c seen k, j.state = .call c seen k ∧ blocks c

end Job

/-- The same slots with an environment that does nothing by itself. -/
def Rules.alone (rules : Rules I σ ε α τ κ ν) : Rules I σ ε α τ κ ν :=
  { rules with drifts := fun _ _ => False }

namespace System

/-- Every slot has been started once. -/
def Threads (sys : System I σ ε α τ κ ν) (js : κ → Job I σ ε α τ) : Prop :=
  ∀ i, sys.jobs i = [js i]

/-- Some thread waits, and every other waits too or has returned. -/
def Deadlocked (blocks : ν → I.Call → Prop) (sys : System I σ ε α τ κ ν)
    (js : κ → Job I σ ε α τ) : Prop :=
  (∃ i, (js i).Waits (blocks sys.env)) ∧ ∀ i, (js i).Returned ∨ (js i).Waits (blocks sys.env)

variable {sys : System I σ ε α τ κ ν} {js : κ → Job I σ ε α τ}

theorem Threads.mem (h : sys.Threads js) (i : κ) : js i ∈ sys.jobs i := by
  rw [h i]
  exact List.mem_singleton_self _

theorem Threads.history (h : sys.Threads js) (i : κ) : sys.history i = (js i).log := by
  rw [System.history, h i, List.flatMap_singleton]

/-! ### Schedules

A schedule says whose call is answered next, and how. -/

section Schedules

variable {rules : Rules I σ ε α τ κ ν} {env : ν}

/-- The answers of a schedule may be given one after another. -/
inductive Plays (rules : Rules I σ ε α τ κ ν) : List (κ × Event I) → ν → ν → Prop
  | nil {env : ν} : Plays rules [] env env
  | cons {i : κ} {c : I.Call} {r : I.Answer c} {schedule : List (κ × Event I)}
      {env env' env'' : ν} (hserves : rules.serves i 0 env c r env')
      (hrest : Plays rules schedule env' env'') :
      Plays rules ((i, ⟨c, r⟩) :: schedule) env env''

theorem Plays.append {as bs : List (κ × Event I)} {env env' env'' : ν} (h : Plays rules as env env')
    (h' : Plays rules bs env' env'') : Plays rules (as ++ bs) env env'' := by
  induction h with
  | nil => exact h'
  | cons hserves _ ih => exact .cons hserves (ih h')

/-- A schedule that ends where it began can be repeated. -/
theorem Plays.repeated {schedule : List (κ × Event I)} (h : Plays rules schedule env env)
    (n : Nat) : Plays rules (List.replicate n schedule).flatten env env := by
  induction n with
  | zero => exact .nil
  | succ n ih =>
      rw [List.replicate_succ, List.flatten_cons]
      exact h.append ih

end Schedules

/-! ### Runs of threads -/

variable [DecidableEq κ] {rules : Rules I σ ε α τ κ ν}
variable {accepts : τ → I.Call → σ → List (Event I) → Prop}
variable {legal : (c : I.Call) → I.Answer c → Prop} {Q : τ → α → σ → List (Event I) → Prop}
variable {E : τ → ε → σ → List (Event I) → Prop} {env : ν}

/-- A run in which the environment does nothing by itself is a run. -/
theorem Reachable.of_alone (h : Reachable rules.alone env sys) : Reachable rules env sys := by
  induction h with
  | refl => exact .refl
  | tail _ hstep ih =>
      refine ih.tail ?_
      cases hstep with
      | start i t ht hidle => exact .start i t ht hidle
      | answer i hjob hserves => exact .answer i hjob hserves
      | drift h => exact h.elim

/-- **Accounts.** A relation between what all slots have been answered and the environment
holds in every reachable state, if the answer to a call that the job may make keeps it and
the environment does not disturb it. -/
theorem Reachable.account {Inv : (κ → List (Event I)) → ν → Prop}
    (hcode : ∀ i t, rules.allowed i t →
      (rules.code t).wp (logEnv (accepts t) legal) (Q t) (E t) [])
    (hlegal : ∀ i n env c r env', rules.serves i n env c r env' → legal c r)
    (hinitial : Inv (fun _ => []) env)
    (hserves : ∀ i t n c seen log r env env' H, rules.allowed i t → accepts t c seen log →
      rules.serves i n env c r env' → Inv H env →
      Inv (Function.update H i (H i ++ [⟨c, r⟩])) env')
    (hdrifts : ∀ env env' H, rules.drifts env env' → Inv H env → Inv H env')
    (h : Reachable rules env sys) : Inv sys.history sys.env := by
  induction h with
  | refl => exact hinitial
  | tail hreach hstep ih =>
      cases hstep with
      | start i t ht hidle =>
          rw [history_start]
          exact ih
      | @answer i done t log c seen k r env' hjob hserved =>
          -- the job is right for its log, so its call is one it may make
          have hjobs := Reachable.job hcode hlegal hreach i
          rw [hjob] at hjobs
          obtain ⟨hallowed, hsound⟩ := hjobs _ (List.mem_append_right _ List.mem_cons_self)
          rw [history_answer hjob]
          exact hserves i t _ c seen log r _ _ _ hallowed hsound.1 hserved ih
      | drift hdrift => exact hdrifts _ _ _ hdrift ih

/-- What a thread's code promises: it may make its call, or has returned, or has left. -/
theorem Threads.place (hcode : ∀ i t, rules.allowed i t →
      (rules.code t).wp (logEnv (accepts t) legal) (Q t) (E t) [])
    (hlegal : ∀ i n env c r env', rules.serves i n env c r env' → legal c r)
    (h : Reachable rules env sys) (hjs : sys.Threads js) (i : κ) :
    rules.allowed i (js i).task ∧
      match (js i).state with
      | .ret a s => Q (js i).task a s (js i).log
      | .exit e s => E (js i).task e s (js i).log
      | .call c seen _ => accepts (js i).task c seen (js i).log := by
  obtain ⟨hallowed, hsound⟩ := Reachable.job hcode hlegal h i _ (hjs.mem i)
  refine ⟨hallowed, ?_⟩
  cases hstate : (js i).state with
  | ret a s => rwa [hstate] at hsound
  | exit e s => rwa [hstate] at hsound
  | call c seen k =>
      rw [hstate] at hsound
      exact hsound.1

/-- Threads are started one after another. -/
theorem Reachable.started (is : List κ) (hnodup : is.Nodup) (t : κ → τ)
    (ht : ∀ i, rules.allowed i (t i)) :
    Reachable rules env ⟨env, fun i => if i ∈ is then [⟨t i, [], rules.code (t i)⟩] else []⟩ := by
  induction is with
  | nil =>
      simp only [List.not_mem_nil, if_false]
      exact .refl
  | cons i is ih =>
      obtain ⟨hi, hnodup⟩ := List.nodup_cons.mp hnodup
      have hidle : ∀ j ∈ (if i ∈ is then [⟨t i, [], rules.code (t i)⟩] else [] :
          List (Job I σ ε α τ)), j.state.Finished := by
        simp [hi]
      have hstart := (ih hnodup).tail (Step.start i (t i) (ht i) hidle)
      dsimp only at hstart
      rw [if_neg hi, List.nil_append] at hstart
      have hjobs : (fun i' => if i' ∈ i :: is then [⟨t i', [], rules.code (t i')⟩] else [] :
          κ → List (Job I σ ε α τ)) = Function.update
            (fun i' => if i' ∈ is then [⟨t i', [], rules.code (t i')⟩] else []) i
            [⟨t i, [], rules.code (t i)⟩] := by
        funext i'
        by_cases heq : i' = i
        · subst heq
          simp
        · simp [heq]
      rw [hjobs]
      exact hstart

/-- All threads can be started. -/
theorem Reachable.threads (rules : Rules I σ ε α τ κ ν) (env : ν) (is : List κ)
    (hnodup : is.Nodup) (hall : ∀ i, i ∈ is) (t : κ → τ) (ht : ∀ i, rules.allowed i (t i)) :
    ∃ sys, Reachable rules env sys ∧ sys.env = env ∧
      sys.Threads fun i => ⟨t i, [], rules.code (t i)⟩ :=
  ⟨_, started is hnodup t ht, rfl, fun i => if_pos (hall i)⟩

/-- The call of a thread is answered. -/
theorem Reachable.answered {env' : ν} {c : I.Call} {seen : σ} {k : I.Answer c → Prog I σ ε α}
    (h : Reachable rules env sys) (hjs : sys.Threads js) (i : κ) (r : I.Answer c)
    (hstate : (js i).state = .call c seen k) (hserves : rules.serves i 0 sys.env c r env') :
    ∃ sys', Reachable rules env sys' ∧ sys'.env = env' ∧
      sys'.Threads (Function.update js i ⟨(js i).task, (js i).log ++ [⟨c, r⟩], k r⟩) := by
  have hjob : sys.jobs i = [] ++ [⟨(js i).task, (js i).log, .call c seen k⟩] := by
    rw [hjs i, ← hstate, List.nil_append]
  refine ⟨_, h.tail (Step.answer i hjob hserves), rfl, ?_⟩
  intro i'
  by_cases heq : i' = i
  · subst heq
    simp
  · simp [heq, hjs i']

/-! ### Following a schedule

Threads that make the calls of a schedule, with answers that the environment may give, have a
run in which all of them return. -/

/-- What a schedule says of one thread. -/
def part (i : κ) (schedule : List (κ × Event I)) : List (Event I) :=
  schedule.filterMap fun e => if e.1 = i then some e.2 else none

theorem part_append (i : κ) (as bs : List (κ × Event I)) :
    part i (as ++ bs) = part i as ++ part i bs :=
  List.filterMap_append

theorem part_repeated (i : κ) (n : Nat) (schedule : List (κ × Event I)) :
    part i (List.replicate n schedule).flatten = (List.replicate n (part i schedule)).flatten := by
  induction n with
  | zero => rfl
  | succ n ih =>
      simp only [List.replicate_succ, List.flatten_cons]
      rw [part_append, ih]

/-- What one thread meets of a schedule: its calls are the next ones, and are answered as the
schedule says. -/
def followEnv : Env I σ (List (Event I)) where
  accepts c _ events := ∃ r rest, events = ⟨c, r⟩ :: rest
  answers events c r rest := events = ⟨c, r⟩ :: rest

/-- **Threads that follow a schedule** return. -/
theorem Reachable.played {P : κ → α → σ → Prop} {schedule : List (κ × Event I)} {env' : ν}
    (h : Reachable rules env sys) (hjs : sys.Threads js)
    (hplays : Plays rules schedule sys.env env')
    (hcode : ∀ i, (js i).state.wp followEnv (fun a s rest => P i a s ∧ rest = [])
      (fun _ _ _ => False) (part i schedule)) :
    ∃ sys' js', Reachable rules env sys' ∧ sys'.env = env' ∧ sys'.Threads js' ∧
      ∀ i, ∃ a s, (js' i).state = .ret a s ∧ P i a s := by
  generalize henv : sys.env = env₁ at hplays
  induction hplays generalizing sys js with
  | nil =>
      refine ⟨sys, js, h, henv, hjs, ?_⟩
      intro i
      have hdone := hcode i
      cases hstate : (js i).state with
      | ret a s =>
          rw [hstate] at hdone
          exact ⟨a, s, rfl, hdone.1⟩
      | exit e s =>
          rw [hstate] at hdone
          exact hdone.elim
      | call c seen k =>
          rw [hstate] at hdone
          obtain ⟨r, rest, hnil⟩ := hdone.1
          cases hnil
  | @cons i c r schedule env₁ env₂ env₃ hserves _ ih =>
      have hnext : part i ((i, ⟨c, r⟩) :: schedule) = ⟨c, r⟩ :: part i schedule := by
        simp [part]
      have hcall := hcode i
      rw [hnext] at hcall
      cases hstate : (js i).state with
      | ret a s =>
          rw [hstate] at hcall
          cases hcall.2
      | exit e s =>
          rw [hstate] at hcall
          exact hcall.elim
      | call c' seen k =>
          rw [hstate] at hcall
          -- the thread is at the call that the schedule has next
          obtain ⟨⟨r', rest, heq⟩, hthen⟩ := hcall
          cases heq
          obtain ⟨sys₂, h₂, henv₂, hjs₂⟩ := h.answered hjs i r hstate (henv ▸ hserves)
          refine ih h₂ hjs₂ ?_ henv₂
          intro i'
          by_cases hi : i' = i
          · subst hi
            rw [Function.update_self]
            exact hthen r _ rfl
          · rw [Function.update_of_ne hi]
            have hother := hcode i'
            rwa [part, List.filterMap_cons, if_neg (Ne.symm hi)] at hother

end System

end Calls
