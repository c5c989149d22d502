import Mathlib.Algebra.BigOperators.Group.Finset.Basic
import CoreSystems.SList.Run

/-!
# CoreSystems.SList.Ownership

What holds of the nodes and the list objects themselves, after any run.

`WellFormed` relates the redundant members of one object: the chain from `m_head` is
finite and ends in null, and `m_tail`, `m_size` and the sentinel agree with it
(`run_wellFormed`). `Owned` is about all objects together: the chains share out the live
nodes, so nothing leaks, nothing is shared and nothing dangles (`run_owned`).
-/

namespace CoreSystems

open Chain Exec

variable {α : Type} {s s' : Mem α} {F : Family α} {ns : List (Addr × α)}

/-! ### The members of one list

All of this is redundant: the head and the links determine the rest. Each method keeps the
redundancy by hand, in the cases that its rule distinguishes. -/

/-- The members of a list object agree with its chain. The chain is walked from `m_head`, so
it is no member; every other field is. -/
structure WellFormed (s : Mem α) (l : ObjId) (o : SList) : Prop where
  /-- The chain from `m_head` is finite and ends in null. -/
  chain : Seg (link s.nodes) o.head (s.chain l) none
  /-- It visits no node twice. -/
  nodup : (addrs (s.chain l)).Nodup
  /-- `m_tail` is its last node. -/
  tail : o.tail = last (s.chain l)
  /-- `m_size` is its length. -/
  size : o.size = (s.chain l).length
  /-- The sentinel is linked to the head. -/
  beforeHead : o.beforeHead = o.head
  /-- The three members agree on whether the list is empty. -/
  head_eq_none : o.head = none ↔ o.tail = none
  tail_eq_none : o.tail = none ↔ o.size = 0

theorem Settled.wellFormed (h : Settled s F) {l : ObjId} {o : SList}
    (ho : s.lists.lookup l = some o) : WellFormed s l o := by
  rw [h.obj, Option.map_eq_some_iff] at ho
  obtain ⟨ns, hns, rfl⟩ := ho
  have hchain := h.chain_eq hns
  exact
    { chain := by rw [hchain]; exact h.seg hns
      nodup := by rw [hchain]; exact h.nodup hns
      tail := by rw [hchain]; rfl
      size := by rw [hchain]; rfl
      beforeHead := rfl
      head_eq_none := by simp [SList.ofNodes]
      tail_eq_none := by simp [SList.ofNodes] }

/-- An operation called on valid positions ends, and where it ends every list is well
formed again. -/
def Op.Reestablishes (op : Op α) (s : Mem α) : Prop :=
  ∃ s', (op.exec s = .ok () s' ∨ op.exec s = .error .threw s') ∧
    ∀ l o, s'.lists.lookup l = some o → WellFormed s' l o

theorem Settled.reestablishes (h : Settled s F) (op : Op α) (hv : op.Valid s) :
    op.Reestablishes s := by
  cases hx : op.exec s with
  | ok u s' =>
      obtain ⟨F', hF', -⟩ := (Op.steps h op hv).ok hx
      exact ⟨s', .inl hx, fun l o ho => hF'.wellFormed ho⟩
  | error e s' =>
      obtain ⟨rfl, -, h'⟩ := (Op.steps h op hv).error hx
      exact ⟨s', .inr hx, fun l o ho => h'.wellFormed ho⟩

/-- **Every list is well formed after every run**, and every operation keeps it so. -/
theorem run_wellFormed (allocs : List (Option Addr)) (ops : List (SeqOp Nat α)) (s : Mem α)
    (h : Run allocs ops s) :
    (∀ l o, s.lists.lookup l = some o → WellFormed s l o) ∧
      ∀ op : Op α, op.Valid s → op.Reestablishes s := by
  obtain ⟨F, hF, -⟩ := h.settled
  exact ⟨fun l o ho => hF.wellFormed ho, hF.reestablishes⟩

/-- Two values are left after a push that was refused, two that were not, an insertion between
them and an erasure. -/
theorem run_wellFormed_push : ∃ (ops : List (SeqOp Nat Nat)) (s : Mem Nat),
    Run [none, some 4, some 5, some 6] ops s ∧ s.chain (.var 0) = [(4, 7), (5, 8)] ∧
      6 ∉ s.nodes ∧ WellFormed s (.var 0) ⟨some 4, some 4, some 5, 2⟩ := by
  let list (tail : Option Addr) (size : Nat) : Finmap (fun _ : ObjId => SList) :=
    Finmap.singleton (.var 0) ⟨tail.map fun _ => 4, tail.map fun _ => 4, tail, size⟩
  have h₁ : Run (α := Nat) [none, some 4, some 5, some 6] [.init 0 []]
      ⟨∅, list none 0, [none, some 4, some 5, some 6]⟩ :=
    Run.start.returned (show (Op.construct 0).Valid _ from Finmap.notMem_empty) rfl
  have h₂ : Run (α := Nat) [none, some 4, some 5, some 6] [.init 0 []]
      ⟨∅, list none 0, [some 4, some 5, some 6]⟩ :=
    h₁.threw (show (Op.pushBack 0 7).Valid _ by simp [Op.Valid, list]) rfl
  have h₃ : Run [none, some 4, some 5, some 6] [.init 0 [], .append 0 7]
      ⟨Finmap.singleton 4 ⟨none, 7⟩, list (some 4) 1, [some 5, some 6]⟩ :=
    h₂.returned (show (Op.pushBack 0 7).Valid _ by simp [Op.Valid, list]) rfl
  have h₄ : Run [none, some 4, some 5, some 6] [.init 0 [], .append 0 7, .append 0 8]
      ⟨(Finmap.singleton 5 ⟨none, 8⟩).insert 4 ⟨some 5, 7⟩, list (some 5) 2, [some 6]⟩ :=
    h₃.returned (show (Op.pushBack 0 8).Valid _ by simp [Op.Valid, list]) rfl
  have h₅ : Run [none, some 4, some 5, some 6]
      [.init 0 [], .append 0 7, .append 0 8, .insertAfter 0 1 9]
      ⟨((Finmap.singleton 5 ⟨none, 8⟩).insert 6 ⟨some 5, 9⟩).insert 4 ⟨some 6, 7⟩,
        list (some 5) 3, []⟩ :=
    h₄.returned (show (Op.insertAfter 0 (some (.node 4)) 9).Valid _ from
      ⟨by simp [list], 1, rfl⟩) rfl
  have h₆ : Run [none, some 4, some 5, some 6]
      [.init 0 [], .append 0 7, .append 0 8, .insertAfter 0 1 9, .deleteAfter 0 1]
      ⟨(Finmap.singleton 5 ⟨none, 8⟩).insert 4 ⟨some 5, 7⟩, list (some 5) 2, []⟩ :=
    h₅.returned (show (Op.eraseAfter 0 (some (.node 4))).Valid _ from
      ⟨by simp [list], 1, rfl, by decide⟩) rfl
  exact ⟨_, _, h₆, rfl, by simp, (run_wellFormed _ _ _ h₆).1 _ _ rfl⟩

/-! ### The nodes of all lists

Ownership is a property of the whole memory. It is read off the partition of the node store
into chains, and the count follows because the chains are disjoint. -/

/-- The live nodes are shared out between the live lists. -/
structure Owned (s : Mem α) : Prop where
  /-- Every live node is on the chain of exactly one live list. -/
  owner : ∀ a ∈ s.nodes, ∃! l, l ∈ s.lists ∧ a ∈ addrs (s.chain l)
  /-- Every chain ends in null and consists of live nodes. -/
  live : ∀ l o, s.lists.lookup l = some o → Seg (link s.nodes) o.head (s.chain l) none ∧
    ∀ a ∈ addrs (s.chain l), a ∈ s.nodes
  /-- There are as many live nodes as the sizes of the live lists add up to. -/
  count : s.nodes.keys.card = ∑ l ∈ s.lists.keys, ((s.lists.lookup l).map SList.size).getD 0
  /-- Without lists there are no nodes. -/
  released : s.lists = ∅ → s.nodes = ∅

/-- The chain of an object, live or not, is what the family says. -/
theorem Settled.chain_eq_nodes (h : Settled s F) (l : ObjId) : s.chain l = F.nodes l := by
  cases hl : F l with
  | some ns => rw [h.chain_eq hl, Family.nodes_of_eq hl]
  | none =>
      have hnone : s.lists.lookup l = none := by rw [h.obj, hl]; rfl
      rw [Family.nodes_of_none hl, Mem.chain, hnone]

theorem Settled.lists_of_mem_chain (h : Settled s F) {l : ObjId} {a : Addr}
    (ha : a ∈ addrs (s.chain l)) : l ∈ s.lists := by
  rw [h.mem_lists]
  cases hl : F l with
  | some ns => rfl
  | none =>
      rw [h.chain_eq_nodes, Family.nodes_of_none hl] at ha
      cases ha

/-- The live nodes are the disjoint union of the chains. -/
theorem Settled.keys_eq_biUnion (h : Settled s F) :
    s.nodes.keys = s.lists.keys.biUnion fun l => (addrs (s.chain l)).toFinset := by
  ext a
  simp only [Finset.mem_biUnion, Finmap.mem_keys, List.mem_toFinset]
  rw [h.mem_nodes_iff]
  constructor
  · intro ⟨l, hl⟩
    rw [← h.chain_eq_nodes] at hl
    exact ⟨l, h.lists_of_mem_chain hl, hl⟩
  · intro ⟨l, _, hl⟩
    exact ⟨l, by rwa [← h.chain_eq_nodes]⟩

theorem Settled.count (h : Settled s F) :
    s.nodes.keys.card = ∑ l ∈ s.lists.keys, ((s.lists.lookup l).map SList.size).getD 0 := by
  rw [h.keys_eq_biUnion, Finset.card_biUnion]
  · refine Finset.sum_congr rfl fun l hl => ?_
    obtain ⟨ns, hns⟩ := Option.isSome_iff_exists.mp (h.mem_lists.mp (Finmap.mem_keys.mp hl))
    rw [h.chain_eq hns, h.lookup hns, List.toFinset_card_of_nodup (h.nodup hns), length_addrs]
    rfl
  · intro l _ l' _ hne
    refine Finset.disjoint_left.mpr ?_
    intro a ha ha'
    rw [List.mem_toFinset, h.chain_eq_nodes] at ha ha'
    exact hne (h.chains.unique l l' a ha ha')

theorem Settled.owned (h : Settled s F) : Owned s where
  owner a ha := by
    obtain ⟨l, hl⟩ := h.mem_nodes_iff.mp ha
    rw [← h.chain_eq_nodes] at hl
    refine ⟨l, ⟨h.lists_of_mem_chain hl, hl⟩, fun l' hl' => ?_⟩
    rw [h.chain_eq_nodes] at hl hl'
    exact h.chains.unique l' l a hl'.2 hl
  live l o ho := by
    refine ⟨(h.wellFormed ho).chain, fun a ha => ?_⟩
    rw [h.chain_eq_nodes] at ha
    exact h.mem_nodes_iff.mpr ⟨l, ha⟩
  count := h.count
  released hempty := by
    have hcount := h.count
    rw [hempty] at hcount
    have hkeys : s.nodes.keys = ∅ := by simpa using hcount
    refine Finmap.ext_lookup fun a => ?_
    rw [Finmap.lookup_empty, Finmap.lookup_eq_none, ← Finmap.mem_keys, hkeys]
    exact Finset.notMem_empty a

/-- **No node leaks, is shared, or is used after it was deleted.** After every run the live
nodes are shared out between the live lists, whatever operation comes next — returning or
throwing — leaves them so, and no operation leaves by a fault, which is what reading,
linking through or deleting a node that is not live would be. -/
theorem run_owned (allocs : List (Option Addr)) (ops : List (SeqOp Nat α)) (s : Mem α)
    (h : Run allocs ops s) :
    Owned s ∧ ∀ op : Op α, op.Valid s →
      (∀ s', op.exec s = .ok () s' → Owned s') ∧
      (∀ e s', op.exec s = .error e s' → e ≠ .fault ∧ e ≠ .diverged ∧ Owned s') := by
  obtain ⟨F, hF, -⟩ := h.settled
  refine ⟨hF.owned, fun op hv => ⟨fun s' hx => ?_, fun e s' hx => ?_⟩⟩
  · obtain ⟨F', hF', -⟩ := (Op.steps hF op hv).ok hx
    exact hF'.owned
  · obtain ⟨rfl, -, h'⟩ := (Op.steps hF op hv).error hx
    exact ⟨by simp, by simp, h'.owned⟩

/-- One list's node handed to another list. -/
theorem run_owned_move :
    Owned (α := Nat) ⟨Finmap.singleton 4 ⟨none, 7⟩,
      (Finmap.singleton (.var 1) ⟨some 4, some 4, some 4, 1⟩).insert (.var 0) {}, []⟩ := by
  have h₁ : Run (α := Nat) [some 4] [.init 0 [7]] ⟨Finmap.singleton 4 ⟨none, 7⟩,
      Finmap.singleton (.var 0) ⟨some 4, some 4, some 4, 1⟩, []⟩ :=
    Run.start.returned (show (Op.constructValue 0 7).Valid _ from Finmap.notMem_empty) rfl
  have hmove : (Op.constructMove 1 0 : Op Nat).Valid ⟨Finmap.singleton 4 ⟨none, 7⟩,
      Finmap.singleton (.var 0) ⟨some 4, some 4, some 4, 1⟩, []⟩ := by
    simp [Op.Valid]
  exact ((run_owned _ _ _ h₁).2 _ hmove).1 _ rfl

end CoreSystems
