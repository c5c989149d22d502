import CoreSystems.SList.Client

/-!
# CoreSystems.SList.Exceptions

The strong exception guarantee: an operation that throws has changed nothing.

An operation throws exactly when the allocator does not serve all of its requests,
whichever of them it refuses first. What it had built until then is gone again, because
the memory it leaves holds the family it was given, and a family determines the objects
and the node store (`Represents.unique`).

So the guarantee is not proved by looking at each way out of each method. It follows from two
facts: a method that throws leaves a memory that holds the same family, and there is only one
node store and one object table that do.
-/

namespace CoreSystems

open Chain Exec

variable {α : Type} {s s' : Mem α} {F : Family α} {allocs : List (Option Addr)}

/-- An operation returns only when all of its requests were served. -/
theorem Settled.served_of_ok (h : Settled s F) {op : Op α} (hv : op.Valid s)
    (hx : op.exec s = .ok () s') : s.Served (op.demand s) := by
  obtain ⟨F', as, -, hgave, hlen, -⟩ := (Op.relinks h op hv).ok hx
  exact hlen ▸ hgave.served

/-- An operation leaves by an exception exactly when a request is refused. -/
theorem Settled.error_iff (h : Settled s F) (op : Op α) (hv : op.Valid s) :
    (∃ e s', op.exec s = .error e s') ↔ ¬ s.Served (op.demand s) := by
  constructor
  · intro ⟨e, s', hx⟩
    exact ((Op.relinks h op hv).error hx).2.1
  · intro hrefused
    cases hx : op.exec s with
    | ok u s' => exact absurd (h.served_of_ok hv hx) hrefused
    | error e s' => exact ⟨e, s', rfl⟩

theorem Settled.unchanged (h : Settled s F) {op : Op α} (hv : op.Valid s) {e : Exit}
    (hx : op.exec s = .error e s') : e = .threw ∧ s'.nodes = s.nodes ∧ s'.lists = s.lists := by
  obtain ⟨he, -, h'⟩ := (Op.relinks h op hv).error hx
  exact ⟨he, h'.toRepresents.unique h.toRepresents⟩

/-- The nodes of a list are read off the node store and the object table. -/
theorem Mem.chain_congr (hnodes : s'.nodes = s.nodes) (hlists : s'.lists = s.lists) (l : ObjId) :
    s'.chain l = s.chain l := by
  simp only [Mem.chain, Mem.fuel, hnodes, hlists]

/-- **The strong exception guarantee.** An operation on the lists of any program throws
exactly when one of its requests for nodes is refused. Whichever request that is, the
exception leaves the same live nodes, with the same links and values, and the same list
objects, with the same members. -/
theorem strong_guarantee (allocs : List (Option Addr)) (s : Mem α) (h : Reachable allocs s)
    (op : Op α) (hv : op.Valid s) :
    ((∃ e s', op.exec s = .error e s') ↔ ¬ s.Served (op.demand s)) ∧
    ∀ e s', op.exec s = .error e s' →
      e = .threw ∧ s'.nodes = s.nodes ∧ s'.lists = s.lists ∧ ∀ l, s'.chain l = s.chain l := by
  obtain ⟨F, hF⟩ := h.settled
  refine ⟨hF.error_iff op hv, fun e s' hx => ?_⟩
  obtain ⟨he, hnodes, hlists⟩ := hF.unchanged hv hx
  exact ⟨he, hnodes, hlists, Mem.chain_congr hnodes hlists⟩

/-- A list of one value and one more is assigned to itself; the second copy is refused. -/
theorem strong_guarantee_assign : ∃ s s' : Mem Nat,
    s.chain (.var 0) = [(4, 7), (2, 8)] ∧
    (Op.assignCopy 0 0 : Op Nat).exec s = .error .threw s' ∧
    s'.nodes = s.nodes ∧ s'.lists = s.lists ∧ s'.chain (.var 0) = s.chain (.var 0) := by
  have h₁ : Reachable (α := Nat) [some 4, some 2, some 9, none]
      ⟨Finmap.singleton 4 ⟨none, 7⟩, Finmap.singleton (.var 0) ⟨some 4, some 4, some 4, 1⟩,
        [some 2, some 9, none]⟩ :=
    Reachable.start.called (show (Op.constructValue 0 7).Valid _ from Finmap.notMem_empty) rfl
  have h₂ : Reachable (α := Nat) [some 4, some 2, some 9, none]
      ⟨(Finmap.singleton 2 ⟨none, 8⟩).insert 4 ⟨some 2, 7⟩,
        Finmap.singleton (.var 0) ⟨some 4, some 4, some 2, 2⟩, [some 9, none]⟩ :=
    h₁.called (show (Op.insertAfter 0 (some (.node 4)) 8).Valid _ from ⟨by simp, 1, rfl⟩) rfl
  have hv : (Op.assignCopy 0 0 : Op Nat).Valid
      ⟨(Finmap.singleton 2 ⟨none, 8⟩).insert 4 ⟨some 2, 7⟩,
        Finmap.singleton (.var 0) ⟨some 4, some 4, some 2, 2⟩, [some 9, none]⟩ := by
    simp [Op.Valid]
  obtain ⟨hthrows, hunchanged⟩ := strong_guarantee _ _ h₂ _ hv
  obtain ⟨e, s', hx⟩ := hthrows.mpr (by
    intro hserved
    obtain ⟨fresh, rest, hal, hlen, -, -⟩ := hserved
    obtain ⟨a, b, rfl⟩ := List.length_eq_two.mp hlen
    simp at hal)
  obtain ⟨rfl, hnodes, hlists, hchain⟩ := hunchanged e s' hx
  exact ⟨_, s', rfl, hx, hnodes, hlists, hchain _⟩

end CoreSystems
