import Mathlib.Logic.Function.Basic

/-!
# CoreSystems.SList.Sequences

What a program that uses `SList<T>` is written against: some variables, each holding a
finite sequence or nothing, and the operations on sequences that the methods stand for.
Nothing here knows about nodes, pointers or exceptions.

`SeqOp.step` is the meaning of one operation. `SeqOp.step_frame` says which variables an
operation leaves alone, and the `…_self` theorems that assigning or exchanging a variable
with itself does nothing.

The model is the answer to what a client may think of a list object. It is also used with
nodes in place of values: the proofs of the methods run the same operations on sequences of
nodes, and forget the addresses at the end.
-/

namespace CoreSystems

variable {ι α : Type} [DecidableEq ι]

/-! ### Operations on sequences -/

/-- The sequence every variable holds, where it holds one. A variable without an object,
before its constructor or after its destructor, is `none`. -/
abbrev Seqs (ι α : Type) := ι → Option (List α)

/-- The operations on sequences. A position `i` is the gap in front of the element at
index `i`, so `0` is in front of everything. -/
inductive SeqOp (ι α : Type)
  | init (x : ι) (vs : List α)
  | copy (x y : ι)
  | move (x y : ι)
  | append (x : ι) (v : α)
  | prepend (x : ι) (v : α)
  | insertAfter (x : ι) (i : Nat) (v : α)
  | dropLast (x : ι)
  | dropFirst (x : ι)
  | deleteAfter (x : ι) (i : Nat)
  | deleteRange (x : ι) (i j : Nat)
  | makeEmpty (x : ι)
  | exchange (x y : ι)
  | destroy (x : ι)

/-- Change the sequence of one variable. -/
def Seqs.modify (S : Seqs ι α) (x : ι) (f : List α → List α) : Seqs ι α :=
  Function.update S x ((S x).map f)

/-- The meaning of an operation. A moved-from variable is left empty, and moving a
variable to itself leaves what it held. -/
def SeqOp.step : SeqOp ι α → Seqs ι α → Seqs ι α
  | .init x vs, S => Function.update S x (some vs)
  | .copy x y, S => Function.update S x (S y)
  | .move x y, S => Function.update (Function.update S y (some [])) x (S y)
  | .append x v, S => S.modify x (· ++ [v])
  | .prepend x v, S => S.modify x (v :: ·)
  | .insertAfter x i v, S => S.modify x fun vs => vs.insertIdx i v
  | .dropLast x, S => S.modify x List.dropLast
  | .dropFirst x, S => S.modify x List.tail
  | .deleteAfter x i, S => S.modify x fun vs => vs.eraseIdx i
  | .deleteRange x i j, S => S.modify x fun vs => vs.take i ++ vs.drop j
  | .makeEmpty x, S => S.modify x fun _ => []
  | .exchange x y, S => Function.update (Function.update S x (S y)) y (S x)
  | .destroy x, S => Function.update S x none

/-! ### Frame

A moved-from variable changes, so it counts as written; the source of a copy does not. -/

/-- The variables an operation may change. -/
def SeqOp.writes : SeqOp ι α → List ι
  | .init x _ | .copy x _ | .append x _ | .prepend x _ | .insertAfter x _ _ | .dropLast x
  | .dropFirst x | .deleteAfter x _ | .deleteRange x _ _ | .makeEmpty x | .destroy x => [x]
  | .move x y | .exchange x y => [x, y]

/-- The meaning of a sequence of operations, from variables that hold nothing. -/
def SeqOp.run (ops : List (SeqOp ι α)) : Seqs ι α :=
  ops.foldl (fun S op => op.step S) fun _ => none

@[simp] theorem SeqOp.run_nil : SeqOp.run ([] : List (SeqOp ι α)) = fun _ => none := rfl

@[simp] theorem SeqOp.run_concat (ops : List (SeqOp ι α)) (op : SeqOp ι α) :
    SeqOp.run (ops ++ [op]) = op.step (SeqOp.run ops) := by
  simp [SeqOp.run]

/-- An operation leaves every variable alone that it does not write. -/
theorem SeqOp.step_frame (op : SeqOp ι α) (S : Seqs ι α) {z : ι} (hz : z ∉ op.writes) :
    op.step S z = S z := by
  cases op <;> simp_all [step, writes, Seqs.modify, Function.update_of_ne]

theorem SeqOp.copy_self (S : Seqs ι α) (x : ι) : (SeqOp.copy x x).step S = S := by
  simp [step]

theorem SeqOp.move_self (S : Seqs ι α) (x : ι) : (SeqOp.move x x).step S = S := by
  simp [step]

theorem SeqOp.exchange_self (S : Seqs ι α) (x : ι) : (SeqOp.exchange x x).step S = S := by
  simp [step]

end CoreSystems
