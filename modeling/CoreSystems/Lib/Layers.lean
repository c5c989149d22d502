import CoreSystems.Lib.Calls

/-!
# CoreSystems.Lib.Layers

Programs that talk to two environments.

A program of either interface is a program of both. `Env.beside` puts two environments side by
side, where the first is only to be called while the second is in some state. What a program
does is not changed by an environment that it does not call: `wp_left`, `wp_right`. With
`Env.also` there are two kinds of calls to one world.

The two are different cases. Side by side, each environment has a state of its own, and a rule
carries over because the other state stands still. With two kinds of calls to one world there
is one state, and the rule carries over because the program makes no calls of the other kind.
-/

namespace Calls

variable {I J : Interface} {σ ε α ω ν : Type}

/-! ### Programs of both interfaces -/

/-- The calls of both interfaces. -/
def Interface.sum (I J : Interface) : Interface where
  Call := I.Call ⊕ J.Call
  Answer
    | .inl c => I.Answer c
    | .inr c => J.Answer c

/-- A program of the first interface. -/
def Prog.left : Prog I σ ε α → Prog (I.sum J) σ ε α
  | ret a s => .ret a s
  | exit e s => .exit e s
  | call c seen k => .call (I := I.sum J) (.inl c) seen fun r => (k r).left

/-- A program of the second interface. -/
def Prog.right : Prog J σ ε α → Prog (I.sum J) σ ε α
  | ret a s => .ret a s
  | exit e s => .exit e s
  | call c seen k => .call (I := I.sum J) (.inr c) seen fun r => (k r).right

/-- Program text of the first interface. -/
def Code.left (x : Code I σ ε α) : Code (I.sum J) σ ε α := fun s => (x s).left

/-- Program text of the second interface. -/
def Code.right (x : Code J σ ε α) : Code (I.sum J) σ ε α := fun s => (x s).right

/-! ### Two environments -/

/-- Two environments. The first may be called while the second is `up`: it is a library that
has to be started before it is used, and `up` says that it has been. -/
def Env.beside (env : Env I σ ω) (up : ν → Prop) (env' : Env J σ ν) :
    Env (I.sum J) σ (ω × ν) where
  accepts
    | .inl c => fun seen w => up w.2 ∧ env.accepts c seen w.1
    | .inr c => fun seen w => env'.accepts c seen w.2
  answers w
    | .inl c => fun r w' => env.answers w.1 c r w'.1 ∧ w'.2 = w.2
    | .inr c => fun r w' => env'.answers w.2 c r w'.2 ∧ w'.1 = w.1

/-- More calls to the same world. -/
def Env.also (env : Env I σ ω) (env' : Env J σ ω) : Env (I.sum J) σ ω where
  accepts
    | .inl c => env.accepts c
    | .inr c => env'.accepts c
  answers w
    | .inl c => env.answers w c
    | .inr c => env'.answers w c

section Rules

variable {env : Env I σ ω} {up : ν → Prop} {env' : Env J σ ν} {s : σ} {w : ω × ν}

theorem Prog.wp_left {x : Prog I σ ε α} {Q : α → σ → ω → Prop} {E : ε → σ → ω → Prop}
    (hup : up w.2) (h : x.wp env Q E w.1) :
    (Prog.left (J := J) x).wp (env.beside up env') (fun a s w' => Q a s w'.1 ∧ w'.2 = w.2)
      (fun e s w' => E e s w'.1 ∧ w'.2 = w.2) w := by
  induction x generalizing w with
  | ret a s => exact ⟨h, rfl⟩
  | exit e s => exact ⟨h, rfl⟩
  | call c seen k ih =>
      refine ⟨⟨hup, h.1⟩, ?_⟩
      intro r w' hr
      obtain ⟨ha, hsame⟩ := hr
      have hnext := ih r (w := w') (by rwa [hsame]) (h.2 r w'.1 ha)
      rwa [hsame] at hnext

theorem Prog.wp_right {x : Prog J σ ε α} {Q : α → σ → ν → Prop} {E : ε → σ → ν → Prop}
    (h : x.wp env' Q E w.2) :
    (Prog.right (I := I) x).wp (env.beside up env') (fun a s w' => Q a s w'.2 ∧ w'.1 = w.1)
      (fun e s w' => E e s w'.2 ∧ w'.1 = w.1) w := by
  induction x generalizing w with
  | ret a s => exact ⟨h, rfl⟩
  | exit e s => exact ⟨h, rfl⟩
  | call c seen k ih =>
      refine ⟨h.1, ?_⟩
      intro r w' hr
      obtain ⟨ha, hsame⟩ := hr
      have hnext := ih r (w := w') (h.2 r w'.2 ha)
      rwa [hsame] at hnext

/-- The first environment sees the program as if it were alone. -/
theorem wp_left {x : Code I σ ε α} {Q : α → σ → ω → Prop} {E : ε → σ → ω → Prop} (hup : up w.2)
    (h : wp env x Q E s w.1) :
    wp (env.beside up env') (Code.left (J := J) x) (fun a s' w' => Q a s' w'.1 ∧ w'.2 = w.2)
      (fun e s' w' => E e s' w'.1 ∧ w'.2 = w.2) s w :=
  Prog.wp_left hup h

/-- So does the second. -/
theorem wp_right {x : Code J σ ε α} {Q : α → σ → ν → Prop} {E : ε → σ → ν → Prop}
    (h : wp env' x Q E s w.2) :
    wp (env.beside up env') (Code.right (I := I) x) (fun a s' w' => Q a s' w'.2 ∧ w'.1 = w.1)
      (fun e s' w' => E e s' w'.2 ∧ w'.1 = w.1) s w :=
  Prog.wp_right h

variable {also : Env J σ ω} {v : ω}

theorem Prog.wp_also_left {x : Prog I σ ε α} {Q : α → σ → ω → Prop} {E : ε → σ → ω → Prop}
    (h : x.wp env Q E v) : (Prog.left (J := J) x).wp (env.also also) Q E v := by
  induction x generalizing v with
  | ret a s => exact h
  | exit e s => exact h
  | call c seen k ih => exact ⟨h.1, fun r v' hr => ih r (h.2 r v' hr)⟩

theorem Prog.wp_also_right {x : Prog J σ ε α} {Q : α → σ → ω → Prop} {E : ε → σ → ω → Prop}
    (h : x.wp also Q E v) : (Prog.right (I := I) x).wp (env.also also) Q E v := by
  induction x generalizing v with
  | ret a s => exact h
  | exit e s => exact h
  | call c seen k ih => exact ⟨h.1, fun r v' hr => ih r (h.2 r v' hr)⟩

/-- A program that makes no more calls than before. -/
theorem wp_also_left {x : Code I σ ε α} {Q : α → σ → ω → Prop} {E : ε → σ → ω → Prop}
    (h : wp env x Q E s v) : wp (env.also also) (Code.left (J := J) x) Q E s v :=
  Prog.wp_also_left h

theorem wp_also_right {x : Code J σ ε α} {Q : α → σ → ω → Prop} {E : ε → σ → ω → Prop}
    (h : wp also x Q E s v) : wp (env.also also) (Code.right (I := I) x) Q E s v :=
  Prog.wp_also_right h

end Rules

end Calls
