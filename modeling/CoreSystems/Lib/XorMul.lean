import Mathlib.Algebra.Group.Units.Basic
import Mathlib.Data.BitVec

/-!
# CoreSystems.Lib.XorMul

Hashes that absorb one word a round: exclusive or, then multiplication modulo `2 ^ w`.

When the multiplier is a unit every round is a bijection of the hash for a fixed word, and
of the word for a fixed hash. Two messages that differ in one word only therefore have
different hashes (`absorb_ne`): the round that absorbs that word tells them apart, and
every later round keeps them apart.

The argument is the same for every width and every multiplier that is a unit, so the constants
of a concrete hash do not appear. Nothing is said of messages that differ in several words:
their hashes may collide.
-/

namespace XorMul

variable {w : Nat} {prime : BitVec w}

/-- One round: the word is mixed in, and the product spreads it over the higher bits. -/
def round (prime hash x : BitVec w) : BitVec w := (hash ^^^ x) * prime

/-- The rounds of a message. -/
def absorb (prime hash : BitVec w) (message : List (BitVec w)) : BitVec w :=
  message.foldl (round prime) hash

@[simp] theorem absorb_nil (hash : BitVec w) : absorb prime hash [] = hash := rfl

@[simp] theorem absorb_cons (hash x : BitVec w) (message : List (BitVec w)) :
    absorb prime hash (x :: message) = absorb prime (round prime hash x) message := rfl

theorem absorb_append (hash : BitVec w) (xs ys : List (BitVec w)) :
    absorb prime hash (xs ++ ys) = absorb prime (absorb prime hash xs) ys :=
  List.foldl_append

/-- For a fixed word a round does not identify hashes. -/
theorem round_left_injective (hp : IsUnit prime) (x : BitVec w) :
    Function.Injective fun hash => round prime hash x := by
  intro hash hash' h
  exact (BitVec.xor_left_inj x).mp (hp.mul_left_injective h)

/-- For a fixed hash a round does not identify words. -/
theorem round_right_injective (hp : IsUnit prime) (hash : BitVec w) :
    Function.Injective (round prime hash) := by
  intro x x' h
  exact (BitVec.xor_right_inj hash).mp (hp.mul_left_injective h)

/-- No later round identifies hashes. -/
theorem absorb_injective (hp : IsUnit prime) (message : List (BitVec w)) :
    Function.Injective fun hash => absorb prime hash message := by
  induction message with
  | nil => exact fun _ _ h => h
  | cons x message ih => exact ih.comp (round_left_injective hp x)

/-- **A single changed word changes the hash**, wherever it is in the message. -/
theorem absorb_ne (hp : IsUnit prime) (hash : BitVec w) (before after : List (BitVec w))
    {x y : BitVec w} (hxy : x ≠ y) :
    absorb prime hash (before ++ x :: after) ≠ absorb prime hash (before ++ y :: after) := by
  rw [absorb_append, absorb_append, absorb_cons, absorb_cons]
  intro heq
  -- the rounds of the rest keep apart what the round of the changed word told apart
  have hround := absorb_injective hp after heq
  exact hxy (round_right_injective hp _ hround)

end XorMul
