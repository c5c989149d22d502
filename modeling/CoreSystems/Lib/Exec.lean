import Mathlib.Init

/-!
# CoreSystems.Lib.Exec

Rules for reasoning about `EStateM` programs.

A program either returns in a state or leaves with an exit in a state. `wp x Q E s`
says that running `x` from `s` returns with `Q` or leaves with `E`; the rules below
push it through `pure`, `bind`, branches and bounded loops, so that the proof of a
program follows the program text.

Loops are bounded: `loopN out body n b` gives up with the exit `out` after `n`
rounds. `wp_loopN` is the rule for total correctness — an invariant, and a measure
that every further round decreases — so a loop proved with it never gives up.

The environment of such a program is nothing but its state, so the rules are those of a
sequential language. Programs that ask somebody else are the subject of
`CoreSystems.Lib.Calls`.
-/

namespace Exec

variable {ε σ α β γ : Type}

/-! ### Weakest preconditions

The rules of composition, and the ways back from a precondition to the run it speaks of. With
`wp.reads` a program that only looks at its state is known by its value. -/

/-- Running `x` from `s` returns with `Q` or leaves with `E`. -/
def wp (x : EStateM ε σ α) (Q : α → σ → Prop) (E : ε → σ → Prop) (s : σ) : Prop :=
  match x s with
  | .ok a s' => Q a s'
  | .error e s' => E e s'

theorem wp_of_ok {x : EStateM ε σ α} {Q : α → σ → Prop} {E : ε → σ → Prop} {s s' : σ} {a : α}
    (hx : x s = .ok a s') (h : Q a s') : wp x Q E s := by
  unfold wp; rw [hx]; exact h

theorem wp_of_error {x : EStateM ε σ α} {Q : α → σ → Prop} {E : ε → σ → Prop} {s s' : σ} {e : ε}
    (hx : x s = .error e s') (h : E e s') : wp x Q E s := by
  unfold wp; rw [hx]; exact h

/-- Reading a precondition off a run that returned. -/
theorem wp.ok {x : EStateM ε σ α} {Q : α → σ → Prop} {E : ε → σ → Prop} {s s' : σ} {a : α}
    (h : wp x Q E s) (hx : x s = .ok a s') : Q a s' := by
  unfold wp at h; rw [hx] at h; exact h

/-- Reading a precondition off a run that left. -/
theorem wp.error {x : EStateM ε σ α} {Q : α → σ → Prop} {E : ε → σ → Prop} {s s' : σ} {e : ε}
    (h : wp x Q E s) (hx : x s = .error e s') : E e s' := by
  unfold wp at h; rw [hx] at h; exact h

/-- A program with no exit returns. -/
theorem wp.returns {x : EStateM ε σ α} {Q : α → σ → Prop} {s : σ}
    (h : wp x Q (fun _ _ => False) s) : ∃ a s', x s = .ok a s' ∧ Q a s' := by
  cases hx : x s with
  | ok a s' => exact ⟨a, s', rfl, h.ok hx⟩
  | error e s' => exact (h.error hx).elim

/-- A program that can only return one value, in the state it started in. -/
theorem wp.reads {x : EStateM ε σ α} {s : σ} {a : α}
    (h : wp x (fun b s' => b = a ∧ s' = s) (fun _ _ => False) s) : x s = .ok a s := by
  obtain ⟨b, s', hx, rfl, rfl⟩ := h.returns
  exact hx

theorem wp.mono {x : EStateM ε σ α} {Q Q' : α → σ → Prop} {E E' : ε → σ → Prop} {s : σ}
    (h : wp x Q E s) (hQ : ∀ a s', Q a s' → Q' a s') (hE : ∀ e s', E e s' → E' e s') :
    wp x Q' E' s := by
  unfold wp at h ⊢
  cases hx : x s with
  | ok a s' => rw [hx] at h; exact hQ a s' h
  | error e s' => rw [hx] at h; exact hE e s' h

@[simp] theorem wp_pure (a : α) (Q : α → σ → Prop) (E : ε → σ → Prop) (s : σ) :
    wp (pure a) Q E s ↔ Q a s := Iff.rfl

@[simp] theorem wp_throw (e : ε) (Q : α → σ → Prop) (E : ε → σ → Prop) (s : σ) :
    wp (throw e) Q E s ↔ E e s := Iff.rfl

@[simp] theorem wp_bind (x : EStateM ε σ α) (f : α → EStateM ε σ β) (Q : β → σ → Prop)
    (E : ε → σ → Prop) (s : σ) :
    wp (x >>= f) Q E s ↔ wp x (fun a s' => wp (f a) Q E s') E s := by
  simp only [wp, bind, EStateM.bind]
  cases x s <;> rfl

/-- The rule of composition, for a first command with a specification of its own. -/
theorem wp.bind {x : EStateM ε σ α} {f : α → EStateM ε σ β} {R : α → σ → Prop}
    {Q : β → σ → Prop} {E : ε → σ → Prop} {s : σ} (hx : wp x R E s)
    (hf : ∀ a s', R a s' → wp (f a) Q E s') : wp (x >>= f) Q E s :=
  (wp_bind x f Q E s).mpr (hx.mono hf fun _ _ h => h)

/-! ### Bounded loops

A loop is structural recursion on the rounds it may take, so that a closed run can be
evaluated. Whoever calls it chooses a bound that the measure never reaches. -/

/-- Run `body` from `b`, again from every state it answers with `.inl`, until it
answers with `.inr`; give up with `out` after `n` rounds. -/
def loopN (out : ε) (body : β → EStateM ε σ (β ⊕ γ)) : Nat → β → EStateM ε σ γ
  | 0, _ => throw out
  | n + 1, b => do
    match ← body b with
    | .inl b' => loopN out body n b'
    | .inr c => pure c

/-- One round of a loop. -/
theorem wp_loopN_succ (out : ε) (body : β → EStateM ε σ (β ⊕ γ)) (n : Nat) (b : β)
    (Q : γ → σ → Prop) (E : ε → σ → Prop) (s : σ) :
    wp (loopN out body (n + 1) b) Q E s ↔
      wp (body b) (fun r s' =>
        match r with
        | .inl b' => wp (loopN out body n b') Q E s'
        | .inr c => Q c s') E s := by
  rw [loopN, wp_bind]
  constructor <;> intro h <;> refine h.mono ?_ (fun _ _ h => h) <;> intro r s' hr <;>
    cases r <;> exact hr

/-- **Total correctness of a loop.** An invariant kept by every round that goes on,
with a measure that decreases, and implying the postcondition when the loop leaves. -/
theorem wp_loopN {out : ε} {body : β → EStateM ε σ (β ⊕ γ)} {Q : γ → σ → Prop}
    {E : ε → σ → Prop} (I : β → σ → Prop) (μ : β → σ → Nat)
    (hbody : ∀ b s, I b s → wp (body b) (fun r s' =>
      match r with
      | .inl b' => I b' s' ∧ μ b' s' < μ b s
      | .inr c => Q c s') E s)
    {n : Nat} {b : β} {s : σ} (hI : I b s) (hn : μ b s < n) :
    wp (loopN out body n b) Q E s := by
  induction n generalizing b s with
  | zero => omega
  | succ n ih =>
      rw [wp_loopN_succ]
      refine (hbody b s hI).mono ?_ (fun _ _ h => h)
      intro r s' hr
      cases r with
      | inl b' => exact ih hr.1 (by omega)
      | inr c => exact hr

end Exec
