import Mathlib.Data.List.InsertIdx
import CoreSystems.SList.Sequences

/-!
# CoreSystems.SList.Elements

What becomes of a single element while the sequences around it change.

An element that carries a label keeps it wherever an operation puts it; the elements an
operation brings into being are labelled anew (`SeqOp.label`), and the labels have no
part in what happens to the values (`SeqOp.values_step`). `SeqOp.track` says where an
operation takes the element at a place, if anywhere, and `SeqOp.step_at` that the
element is found there.
-/

namespace CoreSystems

variable {ι α κ : Type} [DecidableEq ι]

/-! ### Labels

An element is more than its value: two elements of one list may be equal. The label is what an
iterator holds on to, an address for the lists of `CoreSystems.SList.Run`. -/

/-- The values of labelled elements. -/
def Seqs.values (S : Seqs ι (κ × α)) : Seqs ι α := fun x => (S x).map (List.map Prod.snd)

/-- Values with the labels of `label`, in order. -/
def number (label : Nat → κ) (vs : List α) : List (κ × α) := vs.zipIdx.map fun n => (label n.2, n.1)

@[simp] theorem map_snd_number (label : Nat → κ) (vs : List α) :
    (number label vs).map Prod.snd = vs := by
  rw [number, List.map_map]
  exact List.zipIdx_map_fst 0 vs

/-- An operation on labelled elements. A copy consists of new elements: it takes the values of
its source and none of its labels. -/
def SeqOp.label (label : Nat → κ) (S : Seqs ι (κ × α)) : SeqOp ι α → SeqOp ι (κ × α)
  | .init x vs => .init x (number label vs)
  | .copy x y =>
    match S.values y with
    | some vs => .init x (number label vs)
    | none => .copy x y
  | .move x y => .move x y
  | .append x v => .append x (label 0, v)
  | .prepend x v => .prepend x (label 0, v)
  | .insertAfter x i v => .insertAfter x i (label 0, v)
  | .dropLast x => .dropLast x
  | .dropFirst x => .dropFirst x
  | .deleteAfter x i => .deleteAfter x i
  | .deleteRange x i j => .deleteRange x i j
  | .makeEmpty x => .makeEmpty x
  | .exchange x y => .exchange x y
  | .destroy x => .destroy x

theorem Seqs.values_update (S : Seqs ι (κ × α)) (x : ι) (o : Option (List (κ × α))) :
    Seqs.values (Function.update S x o) =
      Function.update S.values x (o.map (List.map Prod.snd)) := by
  funext y
  by_cases h : y = x
  · subst h; simp [Seqs.values]
  · simp [Seqs.values, Function.update_of_ne h]

theorem Seqs.values_modify (S : Seqs ι (κ × α)) (x : ι) {f : List (κ × α) → List (κ × α)}
    {g : List α → List α} (hfg : ∀ ns, (f ns).map Prod.snd = g (ns.map Prod.snd)) :
    Seqs.values (S.modify x f) = S.values.modify x g := by
  rw [Seqs.modify, Seqs.values_update, Seqs.modify]
  cases hx : S x with
  | none => simp [Seqs.values, hx]
  | some ns => simp [Seqs.values, hx, hfg]

/-- Labels do not change what an operation does to the values. -/
theorem SeqOp.values_step (label : Nat → κ) (S : Seqs ι (κ × α)) (op : SeqOp ι α) :
    Seqs.values ((op.label label S).step S) = op.step S.values := by
  cases op with
  | init x vs => simp [SeqOp.label, step, Seqs.values_update]
  | copy x y =>
      cases hy : S.values y with
      | none =>
          have hnone : S y = none := by simpa [Seqs.values] using hy
          simp [SeqOp.label, hy, step, Seqs.values_update, hnone]
      | some vs => simp [SeqOp.label, hy, step, Seqs.values_update]
  | move x y | exchange x y => simp [SeqOp.label, step, Seqs.values_update, Seqs.values]
  | append x v | prepend x v | dropFirst x | makeEmpty x =>
      exact Seqs.values_modify S x fun ns => by simp
  | insertAfter x i v => exact Seqs.values_modify S x fun ns => List.map_insertIdx ..
  | dropLast x => exact Seqs.values_modify S x fun ns => List.map_dropLast ..
  | deleteAfter x i => exact Seqs.values_modify S x fun ns => (List.eraseIdx_map ..).symm
  | deleteRange x i j => exact Seqs.values_modify S x fun ns => by simp
  | destroy x => simp [SeqOp.label, step, Seqs.values_update]

/-! ### Where an element goes

The place of an element is a variable and an index. An operation moves it by what it inserts
or removes in front of it, or hands it to another variable. -/

/-- The element at an index of a variable. -/
def Seqs.at (S : Seqs ι α) (p : ι × Nat) : Option α := (S p.1).bind fun vs => vs[p.2]?

/-- The place an operation takes the element at `p` to; an element that is dropped, deleted
or overwritten goes nowhere. -/
def SeqOp.track (S : Seqs ι α) (p : ι × Nat) : SeqOp ι α → Option (ι × Nat)
  | .init x _ | .copy x _ | .makeEmpty x | .destroy x => if p.1 = x then none else some p
  | .move x y =>
    if p.1 = y then some (x, p.2)
    else if p.1 = x then none
    else some p
  | .append _ _ => some p
  | .prepend x _ => if p.1 = x then some (x, p.2 + 1) else some p
  | .insertAfter x i _ => if p.1 = x ∧ i ≤ p.2 then some (x, p.2 + 1) else some p
  | .dropLast x => if p.1 = x ∧ some (p.2 + 1) = (S x).map List.length then none else some p
  | .dropFirst x =>
    if p.1 = x then
      if p.2 = 0 then none else some (x, p.2 - 1)
    else some p
  | .deleteAfter x i =>
    if p.1 = x then
      if p.2 = i then none else if i < p.2 then some (x, p.2 - 1) else some p
    else some p
  | .deleteRange x i j =>
    if p.1 = x then
      if p.2 < i then some p else if p.2 < j then none else some (x, p.2 - (j - i))
    else some p
  | .exchange x y => some (if p.1 = x then y else if p.1 = y then x else p.1, p.2)

/-- A range ends where it begins or behind. -/
def SeqOp.Ordered : SeqOp ι α → Prop
  | .deleteRange _ i j => i ≤ j
  | _ => True

theorem Seqs.at_update_of_ne (S : Seqs ι α) {x : ι} (o : Option (List α)) {p : ι × Nat}
    (hp : p.1 ≠ x) : Seqs.at (Function.update S x o) p = S.at p := by
  rw [Seqs.at, Function.update_of_ne hp, Seqs.at]

theorem Seqs.at_modify_self (S : Seqs ι α) {x : ι} (f : List α → List α) {k : Nat} {vs : List α}
    (hx : S x = some vs) : (S.modify x f).at (x, k) = (f vs)[k]? := by
  simp [Seqs.at, Seqs.modify, hx]

/-- An operation that rewrites one variable takes the elements of the others nowhere, and
those of that variable where the rewriting takes them. -/
theorem Seqs.at_modify (S : Seqs ι α) (x : ι) (f : List α → List α) {p q : ι × Nat} {e : α}
    (hp : S.at p = some e)
    (hother : p.1 ≠ x → q = p)
    (hself : ∀ vs, p.1 = x → S x = some vs → vs[p.2]? = some e → q.1 = x ∧ (f vs)[q.2]? = some e) :
    (S.modify x f).at q = some e := by
  by_cases hpx : p.1 = x
  · subst hpx
    obtain ⟨vs, hvs, he⟩ := Option.bind_eq_some_iff.mp hp
    obtain ⟨hq, hget⟩ := hself vs rfl hvs he
    obtain ⟨z, k⟩ := q
    obtain rfl : z = p.1 := hq
    rw [S.at_modify_self f hvs, hget]
  · rw [hother hpx, Seqs.modify, S.at_update_of_ne _ hpx, hp]

/-- **An element is where its operation takes it.** -/
theorem SeqOp.step_at (S : Seqs ι α) (op : SeqOp ι α) (hord : op.Ordered) {p q : ι × Nat} {e : α}
    (hp : S.at p = some e) (hq : op.track S p = some q) : (op.step S).at q = some e := by
  cases op with
  | init x vs | copy x y | destroy x =>
      obtain ⟨hne, rfl⟩ : ¬ p.1 = x ∧ p = q := by simpa [track] using hq
      rw [step, S.at_update_of_ne _ hne, hp]
  | makeEmpty x =>
      obtain ⟨hne, rfl⟩ : ¬ p.1 = x ∧ p = q := by simpa [track] using hq
      exact S.at_modify x _ hp (fun _ => rfl) fun _ hx => absurd hx hne
  | move x y =>
      simp only [track] at hq
      by_cases hy : p.1 = y
      · obtain rfl : (x, p.2) = q := by simpa [hy] using hq
        simpa [Seqs.at, step, hy] using hp
      · obtain ⟨hx, rfl⟩ : ¬ p.1 = x ∧ p = q := by simpa [hy] using hq
        rw [step, Seqs.at_update_of_ne _ _ hx, Seqs.at_update_of_ne _ _ hy, hp]
  | exchange x y =>
      obtain rfl : (if p.1 = x then y else if p.1 = y then x else p.1, p.2) = q := by
        simpa [track] using hq
      by_cases hx : p.1 = x
      · simpa [Seqs.at, step, hx] using hp
      · by_cases hy : p.1 = y
        · -- `y` is updated before `x`, and is another variable
          have hyx : ¬ y = x := fun h => hx (hy.trans h)
          simpa [Seqs.at, step, hy, hyx, Function.update_of_ne (Ne.symm hyx)] using hp
        · simpa [Seqs.at, step, hx, hy, Function.update_of_ne] using hp
  | append x v =>
      obtain rfl : p = q := by simpa [track] using hq
      refine S.at_modify x _ hp (fun _ => rfl) fun vs hx _ he => ⟨hx, ?_⟩
      rw [List.getElem?_append_left (List.getElem?_eq_some_iff.mp he).1, he]
  | prepend x v =>
      refine S.at_modify x _ hp (fun hx => ?_) fun vs hx _ he => ?_
      · simpa [track, hx, eq_comm] using hq
      · obtain rfl : (x, p.2 + 1) = q := by simpa [track, hx] using hq
        exact ⟨rfl, by simpa using he⟩
  | insertAfter x i v =>
      refine S.at_modify x _ hp (fun hx => ?_) fun vs hx _ he => ?_
      · simpa [track, hx, eq_comm] using hq
      · -- what lies behind the gap is one place further
        by_cases hi : i ≤ p.2
        · obtain rfl : (x, p.2 + 1) = q := by simpa [track, hx, hi] using hq
          refine ⟨rfl, ?_⟩
          rw [List.getElem?_insertIdx_of_gt (Nat.lt_succ_of_le hi)]
          exact he
        · obtain rfl : p = q := by simpa [track, hi] using hq
          exact ⟨hx, by rw [List.getElem?_insertIdx_of_lt (by omega), he]⟩
  | dropLast x =>
      refine S.at_modify x _ hp (fun hx => ?_) fun vs hx hvs he => ?_
      · simpa [track, hx, eq_comm] using hq
      · obtain ⟨hlast, rfl⟩ : ¬ p.2 + 1 = vs.length ∧ p = q := by simpa [track, hx, hvs] using hq
        have hlt := (List.getElem?_eq_some_iff.mp he).1
        exact ⟨hx, by rw [List.getElem?_dropLast, if_pos (by omega), he]⟩
  | dropFirst x =>
      refine S.at_modify x _ hp (fun hx => ?_) fun vs hx _ he => ?_
      · simpa [track, hx, eq_comm] using hq
      · obtain ⟨h0, rfl⟩ : ¬ p.2 = 0 ∧ (x, p.2 - 1) = q := by simpa [track, hx] using hq
        refine ⟨rfl, ?_⟩
        rw [List.getElem?_tail, Nat.sub_add_cancel (Nat.pos_of_ne_zero h0), he]
  | deleteAfter x i =>
      refine S.at_modify x _ hp (fun hx => ?_) fun vs hx _ he => ?_
      · simpa [track, hx, eq_comm] using hq
      · obtain ⟨hi, hq⟩ : ¬ p.2 = i ∧ (if i < p.2 then some (x, p.2 - 1) else some p) = some q := by
          simpa [track, hx] using hq
        -- what lies behind the deleted element moves up
        by_cases hlt : i < p.2
        · obtain rfl : (x, p.2 - 1) = q := by simpa [hlt] using hq
          refine ⟨rfl, ?_⟩
          rw [List.getElem?_eraseIdx_of_ge (by simp; omega), Nat.sub_add_cancel (by omega), he]
        · obtain rfl : p = q := by simpa [hlt] using hq
          exact ⟨hx, by rw [List.getElem?_eraseIdx_of_lt (by omega), he]⟩
  | deleteRange x i j =>
      have hij : i ≤ j := hord
      refine S.at_modify x _ hp (fun hx => ?_) fun vs hx _ he => ?_
      · simpa [track, hx, eq_comm] using hq
      · have hlen := (List.getElem?_eq_some_iff.mp he).1
        by_cases hi : p.2 < i
        · obtain rfl : p = q := by simpa [track, hi] using hq
          refine ⟨hx, ?_⟩
          rw [List.getElem?_append_left (by simp; omega), List.getElem?_take, if_pos hi, he]
        · -- behind the range: the place in the second half is the distance from `j`
          obtain ⟨hj, rfl⟩ : ¬ p.2 < j ∧ (x, p.2 - (j - i)) = q := by
            simpa [track, hx, hi] using hq
          refine ⟨rfl, ?_⟩
          rw [List.getElem?_append_right (by simp; omega), List.getElem?_drop, List.length_take,
            Nat.min_eq_left (by omega)]
          rw [← he]
          congr 1
          omega

/-- Labels have no part in where an element goes. -/
theorem SeqOp.track_label (label : Nat → κ) (S : Seqs ι (κ × α)) (op : SeqOp ι α) (p : ι × Nat) :
    (op.label label S).track S p = op.track S.values p := by
  cases op with
  | copy x y => cases hy : S.values y <;> simp [SeqOp.label, hy, track]
  | dropLast x => cases hx : S x <;> simp [SeqOp.label, track, Seqs.values, hx]
  | _ => rfl

omit [DecidableEq ι] in
theorem SeqOp.Ordered.label {op : SeqOp ι α} (h : op.Ordered) (label : Nat → κ)
    (S : Seqs ι (κ × α)) : (op.label label S).Ordered := by
  cases op with
  | copy x y => cases hy : S.values y <;> simp [SeqOp.label, hy, Ordered]
  | deleteRange x i j => exact h
  | _ => trivial

end CoreSystems
