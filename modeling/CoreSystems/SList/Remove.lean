import CoreSystems.SList.Insert

/-!
# CoreSystems.SList.Remove

What the removing methods do to the family of node sequences: `pop_front`, `pop_back`,
`erase_after` and `clear`. None of them takes an answer of the allocator, none throws,
and none touches a node after deleting it.

`erase_after(pos)` is one application of `Represents.removeNode`; the range overload
repeats it, by induction on the nodes still to go. While `clear` runs, only `m_head`
follows the chain and the other members are stale, so its loop is stated about the
chains alone (`Chain.Partition`).
-/

namespace CoreSystems

open Chain Exec

namespace SList

variable {α : Type} {s : Mem α} {F : Family α} {this : ObjId} {ns xs ys : List (Addr × α)}
  {a : Addr} {v : α} {E : Exit → Mem α → Prop}

/-! ### Single nodes

Both methods take the node out of the chain and free it. They differ in the order in which
they do it, and in who finds the node. -/

theorem wp_eraseAfter {Q : Iterator → Mem α → Prop} (h : Represents s F)
    (hl : F this = some (xs ++ (a, v) :: ys))
    (hQ : ∀ s', s'.allocs = s.allocs →
      Represents s' (Function.update F this (some (xs ++ ys))) →
      Q ((first ys none).map Pos.node) s') :
    wp (eraseAfter this (some (posAfter this xs))) Q E s := by
  have hlook := h.lookup hl
  have hnd := h.nodup hl
  have ha := h.node_at xs ys hl
  have hmem := Finmap.mem_of_lookup_eq_some ha
  have htail : some a = last (xs ++ (a, v) :: ys) ↔ ys = [] := by
    rw [eq_comm]; exact last_eq_self_iff hnd
  unfold eraseAfter
  rcases List.eq_nil_or_concat xs with rfl | ⟨init, ⟨b, w⟩, rfl⟩
  · -- the first node goes
    rw [List.nil_append] at *
    simp only [posAfter_nil, nextOf, setNextOf, syncBeforeHead, wp_bind, wp_pure, wp_obj,
      wp_modifyObj, wp_deref, Option.bind_some, hlook, ofNodes, ha, first_cons,
      Finmap.lookup_insert, Finmap.insert_insert, ↓reduceIte, htail]
    by_cases hys : ys = []
    · subst hys
      simp only [wp_bind, wp_pure, wp_modifyObj, wp_deleteNode, hmem, ↓reduceIte,
        Finmap.lookup_insert, Finmap.insert_insert]
      exact hQ _ rfl (h.removeFront [] hl rfl rfl)
    · simp only [hys, wp_bind, wp_pure, wp_modifyObj, wp_deleteNode, hmem, ↓reduceIte,
        Finmap.lookup_insert, Finmap.insert_insert]
      refine hQ _ rfl (h.removeFront ys hl rfl ?_)
      obtain ⟨n, zs, rfl⟩ := List.exists_cons_of_ne_nil hys
      simp [ofNodes]
  · -- a node behind another goes, and the tail moves back when it was the last
    rw [List.concat_eq_append] at *
    have hb : s.nodes.lookup b = some ⟨some a, w⟩ :=
      h.node_at init ((a, v) :: ys) (by simpa using hl)
    have hne : b ≠ a ∧ first init (some b) ≠ some a := by
      have hfirst := mt (first_eq_self_iff (q := none) hnd).mp (by simp)
      simp only [addrs_append, addrs_cons, List.nodup_append] at hnd
      exact ⟨hnd.2.2 b (by simp) a (by simp), by simpa using hfirst⟩
    have hmem' : a ∈ s.nodes.insert b ⟨first ys none, w⟩ := Finmap.mem_insert.mpr (.inr hmem)
    simp only [posAfter_concat, nextOf, setNextOf, syncBeforeHead, asNode, wp_bind, wp_pure, wp_obj,
      wp_deref, wp_setNext, Option.bind_some, hlook, ofNodes, ha, hb, htail,
      first_append, first_cons, hne.2.symm, Option.some.injEq, reduceCtorEq, ↓reduceIte]
    by_cases hys : ys = []
    · subst hys
      simp only [wp_bind, wp_pure, wp_modifyObj, wp_deleteNode, hmem', hlook, ofNodes, ↓reduceIte,
        Finmap.lookup_insert, Finmap.insert_insert]
      refine hQ _ rfl (h.removeBehind init [] hl ?_ ?_ ?_ ?_)
      · simp [ofNodes]
      · simp
      · simp [link_erase_of_ne hne.1]
      · exact fun c hc hcb => by rw [link_erase_of_ne hc, link_insert_of_ne hcb]
    · simp only [hys, wp_bind, wp_pure, wp_modifyObj, wp_deleteNode, hmem', hlook, ofNodes,
        ↓reduceIte, Finmap.lookup_insert, Finmap.insert_insert]
      refine hQ _ rfl (h.removeBehind init ys hl ?_ ?_ ?_ ?_)
      · obtain ⟨n, zs, rfl⟩ := List.exists_cons_of_ne_nil hys
        simp [ofNodes]
      · simp
      · simp [link_erase_of_ne hne.1]
      · exact fun c hc hcb => by rw [link_erase_of_ne hc, link_insert_of_ne hcb]

/-- On an empty list there is nothing to remove. -/
theorem wp_popFront_nil {Q : Unit → Mem α → Prop} (h : Represents s F) (hl : F this = some [])
    (hQ : Q () s) : wp (popFront this) Q E s := by
  simpa only [popFront, wp_bind, wp_pure, wp_obj, h.lookup hl, ofNodes, first_nil, ↓reduceIte]
    using hQ

theorem wp_popFront {Q : Unit → Mem α → Prop} (h : Represents s F)
    (hl : F this = some ((a, v) :: ys))
    (hQ : ∀ s', s'.allocs = s.allocs →
      Represents s' (Function.update F this (some ys)) → Q () s') :
    wp (popFront this) Q E s := by
  have hlook := h.lookup hl
  have ha := h.node_at [] ys hl
  have hmem := Finmap.mem_of_lookup_eq_some ha
  unfold popFront
  simp only [syncBeforeHead, wp_bind, wp_obj, wp_modifyObj, wp_deref, Option.bind_some,
    hlook, ofNodes, ha, first_cons, reduceCtorEq, Finmap.lookup_insert, Finmap.insert_insert,
    ↓reduceIte]
  cases ys with
  | nil =>
      -- the only node goes, and `m_tail` with it
      simp only [first_nil, wp_bind, wp_modifyObj, wp_deleteNode, hmem,
        Finmap.lookup_insert, Finmap.insert_insert, ↓reduceIte]
      exact hQ _ rfl (h.removeFront [] hl rfl rfl)
  | cons n zs =>
      simp only [first_cons, reduceCtorEq, wp_bind, wp_modifyObj, wp_deleteNode, hmem,
        Finmap.lookup_insert, Finmap.insert_insert, ↓reduceIte]
      refine hQ _ rfl (h.removeFront (n :: zs) hl rfl ?_)
      simp [ofNodes]

/-! ### The last node

A singly linked list has no way back from its tail, so `pop_back` walks. The invariant of the
walk is that `prev` and `curr` are neighbours. -/

/-- The two-pointer walk of `pop_back` ends at the last two nodes. -/
theorem wp_popBackWalk {Q : Option Addr × Option Addr → Mem α → Prop}
    (xs : List (Addr × α)) {m n : Addr × α} (h : Represents s F)
    (hl : F this = some (xs ++ m :: n :: ys)) {k : Nat} (hk : ys.length < k)
    (hQ : ∀ zs m' n', xs ++ m :: n :: ys = zs ++ [m'] ++ [n'] → Q (some m'.1, some n'.1) s) :
    wp (loopN .diverged popBackWalk k (some m.1, some n.1)) Q E s := by
  induction ys generalizing xs m n k with
  | nil =>
      obtain ⟨k, rfl⟩ := Nat.exists_eq_succ_of_ne_zero (by omega : k ≠ 0)
      have hn := h.node_at (xs ++ [m]) [] (a := n.1) (v := n.2) (by simpa using hl)
      simp only [wp_loopN_succ, popBackWalk, wp_bind, wp_pure, wp_deref, Option.bind_some, hn,
        first_nil, ↓reduceIte]
      exact hQ xs m n (by simp)
  | cons r ys ih =>
      obtain ⟨k, rfl⟩ := Nat.exists_eq_succ_of_ne_zero (by omega : k ≠ 0)
      have hm := h.node_at xs (n :: r :: ys) (a := m.1) (v := m.2) hl
      have hn := h.node_at (xs ++ [m]) (r :: ys) (a := n.1) (v := n.2) (by simpa using hl)
      simp only [wp_loopN_succ, popBackWalk, wp_bind, wp_pure, wp_deref, Option.bind_some, hm, hn,
        first_cons, reduceCtorEq, ↓reduceIte]
      refine ih (xs ++ [m]) (by simpa using hl) (by simpa using hk) fun zs m' n' hzs => ?_
      exact hQ zs m' n' (by simpa using hzs)

theorem wp_popBack_nil {Q : Unit → Mem α → Prop} (h : Represents s F) (hl : F this = some [])
    (hQ : Q () s) : wp (popBack this) Q E s := by
  simpa only [popBack, wp_bind, wp_pure, wp_obj, h.lookup hl, ofNodes, first_nil, ↓reduceIte]
    using hQ

theorem wp_popBack {Q : Unit → Mem α → Prop} (h : Represents s F)
    (hl : F this = some (xs ++ [(a, v)]))
    (hQ : ∀ s', s'.allocs = s.allocs →
      Represents s' (Function.update F this (some xs)) → Q () s') :
    wp (popBack this) Q E s := by
  have hlook := h.lookup hl
  have ha := h.node_at xs [] hl
  have hmem := Finmap.mem_of_lookup_eq_some ha
  have hnd := h.nodup hl
  unfold popBack
  cases xs with
  | nil =>
      simp only [syncBeforeHead, wp_bind, wp_obj, wp_modifyObj, wp_deref, wp_deleteNode, hmem,
        Option.bind_some, hlook, ofNodes, ha, List.nil_append, first_nil, first_cons,
        reduceCtorEq, Finmap.lookup_insert, Finmap.insert_insert, ↓reduceIte]
      exact hQ _ rfl (h.removeFront [] hl rfl rfl)
  | cons m zs =>
      obtain ⟨n, ys, hys⟩ : ∃ n ys, zs ++ [(a, v)] = n :: ys := by
        cases zs <;> simp
      have hl' : F this = some ([] ++ m :: n :: ys) := by rw [hl, List.cons_append, hys]; rfl
      have hm := h.node_at [] (n :: ys) (a := m.1) (v := m.2) hl'
      have hlen := h.length_lt_fuel hl'
      simp only [wp_bind, wp_obj, wp_deref, wp_loop, Option.bind_some, hlook, ofNodes, hm,
        List.cons_append, first_cons, reduceCtorEq, ↓reduceIte]
      refine wp_popBackWalk [] h hl' (by simp at hlen; omega) fun ws p q hws => ?_
      -- the walk stopped at the node before the last and the last
      have hend : m :: zs ++ [(a, v)] = ws ++ [p] ++ [q] := by
        rw [← hws, List.cons_append, hys]
        rfl
      obtain ⟨hpre, hq⟩ := List.append_inj' hend rfl
      obtain rfl : (a, v) = q := by simpa using hq
      obtain ⟨b, w⟩ := p
      rw [hpre] at hl hnd hlook
      rw [hpre, ← List.append_nil (ws ++ [(b, w)])] at hQ
      have hb : s.nodes.lookup b = some ⟨some a, w⟩ := h.node_at ws [(a, v)] (by simpa using hl)
      have hba : b ≠ a := by
        simp only [addrs_append, addrs_cons, List.nodup_append] at hnd
        exact hnd.2.2 b (by simp) a (by simp)
      simp only [syncBeforeHead, wp_modifyObj, wp_setNext, wp_deleteNode, hmem, hlook, hb, ofNodes,
        Finmap.lookup_insert, Finmap.lookup_erase_ne hba, Finmap.insert_insert, ↓reduceIte]
      refine hQ _ rfl (h.removeBehind ws [] hl ?_ ?_ ?_ ?_)
      · simp [ofNodes]
      · simp [hba.symm]
      · simp
      · exact fun c hc hcb => by rw [link_insert_of_ne hcb, link_erase_of_ne hc]

/-! ### Ranges

The position `first` stays, and the nodes behind it go one after another. The induction is on
the nodes still between the two positions. -/

/-- The position in front of the nodes `ys` of a list; behind the last node it is `end()`. -/
def iterTo (ys : List (Addr × α)) : Iterator := (first ys none).map Pos.node

@[simp] theorem iterTo_cons (n : Addr × α) : iterTo (n :: ys) = some (.node n.1) := rfl

/-- `erase_after(first, last)` erases one node a round until `last` is reached. -/
theorem wp_eraseAfterRangeLoop {Q : Unit → Mem α → Prop} (h : Represents s F)
    (ms : List (Addr × α)) (hl : F this = some (xs ++ (ms ++ ys))) {k : Nat} (hk : ms.length < k)
    (hQ : ∀ s', s'.allocs = s.allocs →
      Represents s' (Function.update F this (some (xs ++ ys))) → Q () s') :
    wp (loopN .diverged (eraseAfterRangeRound this (some (posAfter this xs)) (iterTo ys)) k ())
      Q E s := by
  induction ms generalizing s F k with
  | nil =>
      obtain ⟨k, rfl⟩ := Nat.exists_eq_succ_of_ne_zero (by omega : k ≠ 0)
      rw [wp_loopN_succ, eraseAfterRangeRound, wp_bind]
      refine wp_nextOf h hl ?_
      simp only [List.nil_append, iterTo, ↓reduceIte, wp_pure]
      exact hQ s rfl (by rwa [← List.nil_append ys, ← hl, Function.update_eq_self])
  | cons n ms ih =>
      obtain ⟨k, rfl⟩ := Nat.exists_eq_succ_of_ne_zero (by omega : k ≠ 0)
      -- the successor is a node of the range, so it is not the one in front of `ys`
      have hne : some (Pos.node n.1) ≠ iterTo ys := by
        intro heq
        have hnd := h.nodup hl
        simp only [addrs_append, addrs_cons, List.cons_append, List.nodup_append,
          List.nodup_cons] at hnd
        cases ys with
        | nil => cases heq
        | cons m ys =>
            have hnm : n.1 = m.1 := by simpa using heq
            exact hnd.2.1.1 (by simp [hnm])
      rw [wp_loopN_succ, eraseAfterRangeRound, wp_bind]
      refine wp_nextOf h hl ?_
      simp only [List.cons_append, first_cons, Option.map_some, hne, ↓reduceIte, wp_bind, wp_pure]
      refine wp_eraseAfter h hl fun s' hs' h' => ?_
      refine ih h' (by simp) (by simpa using hk) fun s'' hs'' h'' => ?_
      rw [Function.update_idem] at h''
      exact hQ s'' (hs''.trans hs') h''

theorem wp_eraseAfterRange {Q : Iterator → Mem α → Prop} (h : Represents s F)
    (ms : List (Addr × α)) (hl : F this = some (xs ++ (ms ++ ys)))
    (hQ : ∀ s', s'.allocs = s.allocs →
      Represents s' (Function.update F this (some (xs ++ ys))) → Q (iterTo ys) s') :
    wp (eraseAfterRange this (some (posAfter this xs)) (iterTo ys)) Q E s := by
  have hlen := h.length_lt_fuel hl
  unfold eraseAfterRange
  simp only [wp_bind, wp_pure, wp_loop]
  exact wp_eraseAfterRangeLoop h ms hl (by simp at hlen; omega) hQ

/-! ### Whole lists

In the middle of `clear` the object is no list: its tail points to a node that has been freed,
and its size is too large. The invariant `Clearing` therefore knows only the head. -/

/-- While `clear` runs, the chain of `this` is `ns`, `m_head` is its start, and the other
members are stale. -/
structure Clearing (s : Mem α) (F : Family α) (this : ObjId) (ns : List (Addr × α)) : Prop where
  head : ∃ o, s.lists.lookup this = some o ∧ o.head = first ns none
  others : ∀ l, l ≠ this → s.lists.lookup l = (F l).map SList.ofNodes
  chains : Partition (link s.nodes) (Function.update F.nodes this ns)

/-- One node goes. -/
theorem Clearing.step (h : Clearing s F this ((a, v) :: ns)) (o : SList) :
    Clearing ⟨s.nodes.erase a, s.lists.insert this { o with head := first ns none }, s.allocs⟩
      F this ns := by
  have hseg := h.chains.seg this
  rw [Function.update_self] at hseg
  have hnd := hseg.nodup
  rw [addrs_cons, List.nodup_cons] at hnd
  obtain ⟨-, r, -, hrest⟩ := hseg
  refine ⟨⟨_, Finmap.lookup_insert _, rfl⟩, fun l hl => ?_, ?_⟩
  · rw [Finmap.lookup_insert_of_ne _ hl, h.others l hl]
  · have hframe : ∀ b ∈ addrs ns, link (s.nodes.erase a) b = link s.nodes b :=
      fun b hb => link_erase_of_ne fun hba => hnd.1 (hba ▸ hb)
    have hupd : Partition (link (s.nodes.erase a))
        (Function.update (Function.update F.nodes this ((a, v) :: ns)) this ns) := by
      refine h.chains.update this ?_ ?_ ?_ ?_
      · have := hrest.frame hframe
        rwa [this.start] at this
      · intro b hb _
        rw [Function.update_self] at hb
        exact link_erase_of_ne fun hba => hb (by simp [hba])
      · exact fun b hb => .inl (by simp [hb])
      · intro b hb hb'
        rw [Function.update_self] at hb
        obtain rfl : b = a := by simpa [hb'] using hb
        exact link_erase_self
    rwa [Function.update_idem] at hupd

theorem wp_clearLoop {Q : Unit → Mem α → Prop} (h : Clearing s F this ns) {k : Nat}
    (hk : ns.length < k)
    (hQ : ∀ s', s'.allocs = s.allocs → Clearing s' F this [] → Q () s') :
    wp (loopN .diverged (clearRound this) k ()) Q E s := by
  induction ns generalizing s k with
  | nil =>
      obtain ⟨k, rfl⟩ := Nat.exists_eq_succ_of_ne_zero (by omega : k ≠ 0)
      obtain ⟨o, ho, hhead⟩ := h.head
      simp only [wp_loopN_succ, clearRound, wp_bind, wp_pure, wp_obj, ho, hhead, first_nil,
        ↓reduceIte]
      exact hQ s rfl h
  | cons n ns ih =>
      obtain ⟨k, rfl⟩ := Nat.exists_eq_succ_of_ne_zero (by omega : k ≠ 0)
      obtain ⟨o, ho, hhead⟩ := h.head
      have hseg := h.chains.seg this
      rw [Function.update_self] at hseg
      obtain ⟨-, r, hr, hrest⟩ := hseg
      have hn : s.nodes.lookup n.1 = some ⟨first ns none, n.2⟩ := by
        rw [← link_eq_some, hr, hrest.start]
      simp only [wp_loopN_succ, clearRound, wp_bind, wp_pure, wp_obj, wp_modifyObj, wp_deref,
        wp_deleteNode, Option.bind_some, ho, hhead, hn, Finmap.mem_of_lookup_eq_some hn, first_cons,
        reduceCtorEq, ↓reduceIte]
      exact ih (h.step o) (by simpa using hk) hQ

theorem wp_clear {Q : Unit → Mem α → Prop} (h : Represents s F) (hl : F this = some ns)
    (hQ : ∀ s', s'.allocs = s.allocs →
      Represents s' (Function.update F this (some [])) → Q () s') :
    wp (clear this) Q E s := by
  have hstart : Clearing s F this ns := by
    refine ⟨⟨_, h.lookup hl, rfl⟩, fun l _ => h.obj l, ?_⟩
    rw [← Family.nodes_of_eq hl, Function.update_eq_self]
    exact h.chains
  unfold clear
  rw [wp_bind, wp_loop]
  refine wp_clearLoop hstart (h.length_lt_fuel hl) fun s' hs' hend => ?_
  obtain ⟨o, ho, -⟩ := hend.head
  simp only [syncBeforeHead, wp_bind, wp_modifyObj, ho, Finmap.lookup_insert, Finmap.insert_insert]
  refine hQ _ hs' ⟨fun l => ?_, ?_⟩
  · by_cases hlt : l = this
    · subst hlt; simp [ofNodes]
    · rw [Finmap.lookup_insert_of_ne _ hlt, Function.update_of_ne hlt, hend.others l hlt]
  · rw [Family.nodes_update]
    exact hend.chains

theorem wp_destroy {Q : Unit → Mem α → Prop} (h : Represents s F) (hl : F this = some ns)
    (hQ : ∀ s', s'.allocs = s.allocs → Represents s' (Function.update F this none) → Q () s') :
    wp (destroy this) Q E s := by
  unfold destroy
  rw [wp_bind]
  refine wp_clear h hl fun s' hs' h' => ?_
  have hrel := h'.release (l := this) (by simp)
  rw [Function.update_idem] at hrel
  exact hQ _ hs' hrel

end SList

end CoreSystems
