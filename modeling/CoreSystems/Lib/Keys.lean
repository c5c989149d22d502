import Mathlib.Data.Prod.Lex
import Mathlib.Order.Compare

/-!
# CoreSystems.Lib.Keys

Keys of ordered and of hashed containers.

An ordered container tells two keys apart by a three-way comparison, a hashed one by a
hash and an equality. `Ranked rank compare equal` says that a key has a rank in a linear
order, that the comparison compares ranks, and that equality is equality of keys; then the
comparison is a strict total order (`Ranked.strictTotalOrder`) and both containers identify
the same keys (`Ranked.same_key`).

The hash plays no part in this but to be equal on equal keys. That different keys have
different hashes cannot hold of all keys; where it holds of some of them is a matter of the
hash, not of the containers.
-/

namespace Keys

variable {κ ρ σ η : Type} [LinearOrder ρ] [LinearOrder σ]

/-! ### Comparisons

A three-way comparison that is written out by components is the comparison of a lexicographic
order. -/

/-- Lexicographic comparison of pairs, one component after the other. -/
theorem cmp_toLex (a b : ρ × σ) :
    cmp (toLex a) (toLex b) = (cmp a.1 b.1).then (cmp a.2 b.2) := by
  rcases lt_trichotomy a.1 b.1 with h | h | h
  · rw [h.cmp_eq_lt, (Prod.Lex.toLex_lt_toLex.mpr (.inl h)).cmp_eq_lt]
    rfl
  · rw [h.cmp_eq_eq, Ordering.then]
    rcases lt_trichotomy a.2 b.2 with h' | h' | h'
    · rw [h'.cmp_eq_lt, (Prod.Lex.toLex_lt_toLex.mpr (.inr ⟨h, h'⟩)).cmp_eq_lt]
    · rw [h'.cmp_eq_eq, (congrArg toLex (Prod.ext h h')).cmp_eq_eq]
    · rw [h'.cmp_eq_gt, (Prod.Lex.toLex_lt_toLex.mpr (.inr ⟨h.symm, h'⟩)).cmp_eq_gt]
  · rw [h.cmp_eq_gt, (Prod.Lex.toLex_lt_toLex.mpr (.inl h)).cmp_eq_gt]
    rfl

/-- The comparison that `<` and `=` give is that of an order the type embeds in. -/
theorem compareOfLessAndEq_eq_cmp [LT κ] [DecidableLT κ] [DecidableEq κ] {f : κ → ρ}
    (hf : Function.Injective f) (hlt : ∀ a b, a < b ↔ f a < f b) (a b : κ) :
    compareOfLessAndEq a b = cmp (f a) (f b) := by
  rw [compareOfLessAndEq, cmp_eq_compareOfLessAndEq, compareOfLessAndEq]
  simp only [hlt, hf.eq_iff]

/-! ### Ranks -/

/-- A comparison and an equality that go by the ranks of the keys. A rank is injective, so
nothing of a key is left out of its comparisons. -/
structure Ranked (rank : κ → ρ) (compare : κ → κ → Ordering) (equal : κ → κ → Bool) : Prop where
  injective : Function.Injective rank
  compare_eq : ∀ a b, compare a b = cmp (rank a) (rank b)
  equal_iff : ∀ a b, equal a b = true ↔ a = b

section Ranked

variable {rank : κ → ρ} {compare : κ → κ → Ordering} {equal : κ → κ → Bool} {a b c : κ}

theorem Ranked.lt_iff (h : Ranked rank compare equal) : compare a b = .lt ↔ rank a < rank b := by
  rw [h.compare_eq, cmp_eq_lt_iff]

/-- Only a key itself compares equal to it. -/
theorem Ranked.compare_eq_iff (h : Ranked rank compare equal) : compare a b = .eq ↔ a = b := by
  rw [h.compare_eq, cmp_eq_eq_iff, h.injective.eq_iff]

/-- The comparison is a strict total order. -/
theorem Ranked.strictTotalOrder (h : Ranked rank compare equal) :
    IsStrictTotalOrder κ fun a b => compare a b = .lt where
  irrefl a := by rw [h.lt_iff]; exact lt_irrefl _
  trans a b c hab hbc := h.lt_iff.mpr ((h.lt_iff.mp hab).trans (h.lt_iff.mp hbc))
  trichotomous a b hab hba := by
    rw [h.lt_iff, not_lt] at hab hba
    exact h.injective (le_antisymm hba hab)

/-- **Ordered and hashed containers identify the same keys**, whatever the hash. -/
theorem Ranked.same_key (h : Ranked rank compare equal) (hash : κ → η) :
    (compare a b ≠ .lt ∧ compare b a ≠ .lt) ↔ (hash a = hash b ∧ equal a b = true) := by
  rw [ne_eq, ne_eq, h.lt_iff, h.lt_iff, not_lt, not_lt, h.equal_iff]
  constructor
  · intro ⟨hba, hab⟩
    obtain rfl := h.injective (le_antisymm hab hba)
    exact ⟨rfl, rfl⟩
  · intro ⟨_, hab⟩
    subst hab
    exact ⟨le_refl _, le_refl _⟩

/-- What containers expect of a comparison, an equality and a hash of their keys. -/
structure Agree (rank : κ → ρ) (compare : κ → κ → Ordering) (equal : κ → κ → Bool)
    (hash : κ → η) : Prop where
  /-- The comparison compares ranks. -/
  compare_eq : ∀ a b, compare a b = cmp (rank a) (rank b)
  /-- It is a strict total order. -/
  strictTotalOrder : IsStrictTotalOrder κ fun a b => compare a b = .lt
  /-- It finds equal what equality finds equal. -/
  eq_iff : ∀ a b, compare a b = .eq ↔ equal a b = true
  /-- Equal keys have one hash. -/
  hash_eq : ∀ a b, equal a b = true → hash a = hash b
  /-- A set by order and a set by hash take the same keys for one. -/
  same_key : ∀ a b, (compare a b ≠ .lt ∧ compare b a ≠ .lt) ↔ (hash a = hash b ∧ equal a b = true)

theorem Ranked.agree (h : Ranked rank compare equal) (hash : κ → η) :
    Agree rank compare equal hash where
  compare_eq := h.compare_eq
  strictTotalOrder := h.strictTotalOrder
  eq_iff a b := by rw [h.compare_eq_iff, h.equal_iff]
  hash_eq a b hab := congrArg hash ((h.equal_iff a b).mp hab)
  same_key a b := h.same_key hash

end Ranked

end Keys
