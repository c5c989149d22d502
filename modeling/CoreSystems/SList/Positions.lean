import CoreSystems.SList.Client
import CoreSystems.SList.Ownership

/-!
# CoreSystems.SList.Positions

The operations at positions against the dedicated ones, and against positions that are
not what they ask for.

Where two operations lead to the same family of nodes they lead to the same memory, since
a family determines its memory: `push_front`, `push_back`, `pop_front`, `pop_back` and
`clear` are `emplace_after` and `erase_after` at the ends of the list (`ends_agree`).

`erase_after(first, last)` erases behind `first` until it meets `last`. When `last` is not
behind `first` it erases everything there is, and then follows a null pointer
(`range_erase`).
-/

namespace CoreSystems

open Chain Exec

variable {α : Type} {s s' : Mem α} {F : Family α} {x : Nat} {ns xs ys : List (Addr × α)} {v : α}

/-! ### Programs that lead to one family

Two methods with different statements are compared by what they leave. Both may allocate, so
they are also compared by what they take from the allocator. -/

/-- The live nodes, the objects and the answers of the allocator make up the memory. -/
theorem Mem.eq_of (hallocs : s'.allocs = s.allocs)
    (h : s'.nodes = s.nodes ∧ s'.lists = s.lists) : s' = s := by
  obtain ⟨nodes, lists, allocs⟩ := s
  obtain ⟨nodes', lists', allocs'⟩ := s'
  obtain ⟨rfl, rfl⟩ := h
  obtain rfl := hallocs
  rfl

/-- Two programs that put the node they are given at the same place run alike. -/
theorem run_eq_of_took {m m' : M α Unit} (G : Addr → Family α)
    (h : wp m (fun _ s' => ∃ a, Took s a s' ∧ Represents s' (G a)) (Threw s) s)
    (h' : wp m' (fun _ s' => ∃ a, Took s a s' ∧ Represents s' (G a)) (Threw s) s) :
    m s = m' s := by
  cases hm : m s with
  | ok u s₁ =>
      obtain ⟨a, ht, hr⟩ := h.ok hm
      cases hm' : m' s with
      | ok u' s₂ =>
          obtain ⟨a', ht', hr'⟩ := h'.ok hm'
          -- the allocator gives both the same answer
          obtain ⟨ha, hallocs⟩ := List.cons.inj (ht.1.symm.trans ht'.1)
          obtain rfl := Option.some.inj ha
          rw [Mem.eq_of hallocs (hr.unique hr')]
      | error e s₂ => exact absurd ht.gave.served (h'.error hm').2.2
  | error e s₁ =>
      obtain ⟨rfl, rfl, hrefused⟩ := h.error hm
      cases hm' : m' s with
      | ok u' s₂ =>
          obtain ⟨a', ht', -⟩ := h'.ok hm'
          exact absurd ht'.gave.served hrefused
      | error e' s₂ =>
          obtain ⟨rfl, rfl, -⟩ := h'.error hm'
          rfl

/-- Two programs that allocate nothing and leave the same nodes run alike. -/
theorem run_eq_of_represents {m m' : M α Unit} (G : Family α)
    (h : wp m (fun _ s' => s'.allocs = s.allocs ∧ Represents s' G) (fun _ _ => False) s)
    (h' : wp m' (fun _ s' => s'.allocs = s.allocs ∧ Represents s' G) (fun _ _ => False) s) :
    m s = m' s := by
  obtain ⟨u, s₁, hm, hallocs, hr⟩ := h.returns
  obtain ⟨u', s₂, hm', hallocs', hr'⟩ := h'.returns
  rw [hm, hm', Mem.eq_of (hallocs.trans hallocs'.symm) (hr.unique hr')]

/-! ### The ends of a list

Five pairs of methods. On an empty list `pop_front` and `pop_back` do nothing, where
`erase_after` would follow a null pointer; so two of the pairs are about nonempty lists. -/

/-- The two ways to do something at an end of the list `x`, which leave the same memory: not
only equal sequences, but the same addresses, members and answers of the allocator. -/
structure EndsAgree (s : Mem α) (x : Nat) : Prop where
  pushFront : ∀ v, (Op.pushFront x v).exec s =
    (Op.emplaceAfter x (SList.beforeBegin (.var x)) v).exec s
  pushBack : ∀ v, (Op.pushBack x v).exec s =
    (Op.emplaceAfter x (some (SList.posAfter (.var x) (s.chain (.var x)))) v).exec s
  popFront : s.chain (.var x) ≠ [] → (Op.popFront x).exec s =
    (Op.eraseAfter x (SList.beforeBegin (.var x))).exec s
  popBack : s.chain (.var x) ≠ [] → (Op.popBack x).exec s =
    (Op.eraseAfter x (some (SList.posAfter (.var x) (s.chain (.var x)).dropLast))).exec s
  clear : (Op.clear x).exec s =
    (Op.eraseAfterRange x (SList.beforeBegin (.var x)) none).exec s

theorem wp_exec_emplaceAfter (h : Represents s F) (hl : F (.var x) = some (xs ++ ys)) :
    wp (Op.emplaceAfter x (some (SList.posAfter (.var x) xs)) v).exec
      (fun _ s' => ∃ a, Took s a s' ∧
        Represents s' (Function.update F (.var x) (some (xs ++ (a, v) :: ys)))) (Threw s) s := by
  rw [Op.exec, wp_bind]
  exact SList.wp_emplaceAfter h hl (fun a s' ht h' => ⟨a, ht, h'⟩) fun _ _ ht => ht

theorem wp_exec_eraseAfter {n : Addr × α} (h : Represents s F)
    (hl : F (.var x) = some (xs ++ n :: ys)) :
    wp (Op.eraseAfter x (some (SList.posAfter (.var x) xs))).exec
      (fun _ s' => s'.allocs = s.allocs ∧
        Represents s' (Function.update F (.var x) (some (xs ++ ys)))) (fun _ _ => False) s := by
  rw [Op.exec, wp_bind]
  exact SList.wp_eraseAfter h hl fun s' hal h' => ⟨hal, h'⟩

theorem Represents.pushFront_agrees (h : Represents s F) (hl : F (.var x) = some ns) (v : α) :
    (Op.pushFront x v).exec s = (Op.emplaceAfter x (SList.beforeBegin (.var x)) v).exec s :=
  run_eq_of_took (fun a => Function.update F (.var x) (some ((a, v) :: ns)))
    (SList.wp_emplaceFront h hl (fun a _ ht h' => ⟨a, ht, h'⟩) fun _ _ ht => ht)
    (wp_exec_emplaceAfter h (show F (.var x) = some ([] ++ ns) from hl))

theorem Represents.pushBack_agrees (h : Represents s F) (hl : F (.var x) = some ns) (v : α) :
    (Op.pushBack x v).exec s =
      (Op.emplaceAfter x (some (SList.posAfter (.var x) ns)) v).exec s :=
  run_eq_of_took (fun a => Function.update F (.var x) (some (ns ++ [(a, v)])))
    (SList.wp_emplaceBack h hl (fun a _ ht h' => ⟨a, ht, h'⟩) fun _ _ ht => ht)
    (wp_exec_emplaceAfter h (by rw [hl, List.append_nil]))

theorem Represents.popFront_agrees {n : Addr × α} (h : Represents s F)
    (hl : F (.var x) = some (n :: ns)) :
    (Op.popFront x).exec s = (Op.eraseAfter x (SList.beforeBegin (.var x))).exec s :=
  run_eq_of_represents (Function.update F (.var x) (some ns))
    (SList.wp_popFront h hl fun _ hal h' => ⟨hal, h'⟩)
    (wp_exec_eraseAfter h (show F (.var x) = some ([] ++ n :: ns) from hl))

theorem Represents.popBack_agrees {n : Addr × α} (h : Represents s F)
    (hl : F (.var x) = some (ns ++ [n])) :
    (Op.popBack x).exec s = (Op.eraseAfter x (some (SList.posAfter (.var x) ns))).exec s := by
  have herase := wp_exec_eraseAfter h hl
  rw [List.append_nil] at herase
  exact run_eq_of_represents _ (SList.wp_popBack h hl fun _ hal h' => ⟨hal, h'⟩) herase

theorem Represents.clear_agrees (h : Represents s F) (hl : F (.var x) = some ns) :
    (Op.clear x).exec s = (Op.eraseAfterRange x (SList.beforeBegin (.var x)) none).exec s := by
  refine run_eq_of_represents (Function.update F (.var x) (some []))
    (SList.wp_clear h hl fun _ hal h' => ⟨hal, h'⟩) ?_
  rw [Op.exec, wp_bind]
  have hsplit : F (.var x) = some ([] ++ (ns ++ [])) := by rw [hl, List.append_nil]; rfl
  exact SList.wp_eraseAfterRange h ns hsplit fun _ hal h' => ⟨hal, h'⟩

/-- **The dedicated operations are the positional ones at the ends**, down to the node
store, the members of every object and the answers left to the allocator. -/
theorem ends_agree (allocs : List (Option Addr)) (s : Mem α) (h : Reachable allocs s) (x : Nat)
    (hx : .var x ∈ s.lists) : EndsAgree s x := by
  obtain ⟨F, hF⟩ := h.settled
  obtain ⟨ns, hns⟩ := hF.live hx
  have hchain := hF.chain_eq hns
  refine ⟨hF.pushFront_agrees hns, fun v => ?_, fun hne => ?_, fun hne => ?_,
    hF.clear_agrees hns⟩
  · rw [hchain]
    exact hF.pushBack_agrees hns v
  · rw [hchain] at hne
    obtain ⟨n, ms, rfl⟩ := List.exists_cons_of_ne_nil hne
    exact hF.popFront_agrees hns
  · rw [hchain] at hne ⊢
    obtain ⟨ms, n, rfl⟩ := (List.eq_nil_or_concat ns).resolve_left hne
    rw [List.concat_eq_append] at hns ⊢
    rw [List.dropLast_concat]
    exact hF.popBack_agrees hns

/-- On a list of two values. -/
theorem ends_agree_two : EndsAgree (α := Nat) ⟨(Finmap.singleton 2 ⟨none, 8⟩).insert 4 ⟨some 2, 7⟩,
    Finmap.singleton (.var 0) ⟨some 4, some 4, some 2, 2⟩, [some 9]⟩ 0 := by
  have h₁ : Reachable (α := Nat) [some 4, some 2, some 9]
      ⟨Finmap.singleton 4 ⟨none, 7⟩, Finmap.singleton (.var 0) ⟨some 4, some 4, some 4, 1⟩,
        [some 2, some 9]⟩ :=
    Reachable.start.called (show (Op.constructValue 0 7).Valid _ from Finmap.notMem_empty) rfl
  have h₂ := h₁.called (show (Op.insertAfter 0 (some (.node 4)) 8).Valid _ from ⟨by simp, 1, rfl⟩)
    rfl
  exact ends_agree _ _ h₂ 0 (by simp)

/-! ### Ranges

Whether `last` is behind `first` is nowhere checked. The call is right if it is, and otherwise
erases the rest of the list before it goes wrong. -/

/-- Behind the last node there is nothing to erase: `erase_after` follows a null pointer. -/
theorem SList.wp_eraseAfter_end {this : ObjId} {Q : Iterator → Mem α → Prop}
    {E : Exit → Mem α → Prop} (h : Represents s F) (hl : F this = some xs) (hE : E .fault s) :
    wp (SList.eraseAfter this (some (SList.posAfter this xs))) Q E s := by
  have hsplit : F this = some (xs ++ []) := by rw [hl, List.append_nil]
  rw [SList.eraseAfter, wp_bind]
  refine SList.wp_nextOf h hsplit ?_
  simpa only [first_nil, wp_bind, wp_deref, Option.bind_none] using hE

/-- A range whose end is not among the nodes `ms` behind its beginning: they are erased one
by one, and then the loop runs off the list. -/
theorem SList.wp_eraseAfterRangeLoop_fault {this : ObjId} {last : Iterator} (h : Represents s F)
    (ms : List (Addr × α)) (hl : F this = some (xs ++ ms)) (hnone : last ≠ none)
    (hms : ∀ a ∈ addrs ms, last ≠ some (.node a)) {k : Nat} (hk : ms.length < k) :
    wp (loopN .diverged (SList.eraseAfterRangeRound this (some (SList.posAfter this xs)) last) k ())
      (fun _ _ => False) (fun e _ => e = .fault) s := by
  induction ms generalizing s F k with
  | nil =>
      obtain ⟨k, rfl⟩ := Nat.exists_eq_succ_of_ne_zero (by omega : k ≠ 0)
      rw [wp_loopN_succ, SList.eraseAfterRangeRound, wp_bind]
      refine SList.wp_nextOf h hl ?_
      simp only [first_nil, Option.map_none, hnone.symm, ↓reduceIte, wp_bind, wp_pure]
      exact SList.wp_eraseAfter_end h (by rw [hl, List.append_nil]) rfl
  | cons n ms ih =>
      obtain ⟨k, rfl⟩ := Nat.exists_eq_succ_of_ne_zero (by omega : k ≠ 0)
      have hne : some (Pos.node n.1) ≠ last := (hms n.1 (by simp)).symm
      rw [wp_loopN_succ, SList.eraseAfterRangeRound, wp_bind]
      refine SList.wp_nextOf h hl ?_
      simp only [first_cons, Option.map_some, hne, ↓reduceIte, wp_bind, wp_pure]
      refine SList.wp_eraseAfter h hl fun s' _ h' => ?_
      exact ih h' (by simp) (fun a ha => hms a (by simp [ha])) (by simpa using hk)

/-- What `erase_after(first, last)` leaves of the list `x` when `i` elements are in front of
the range and `j` in front of its end. -/
structure RangeErased (s s' : Mem α) (x i j : Nat) : Prop where
  /-- The elements in front of the range and from its end on are what they were. -/
  chain : s'.chain (.var x) = (s.chain (.var x)).take i ++ (s.chain (.var x)).drop j
  /-- The members agree with what is left, and the size is down by the length of the range. -/
  members : ∃ o o', s.lists.lookup (.var x) = some o ∧ s'.lists.lookup (.var x) = some o' ∧
    WellFormed s' (.var x) o' ∧ o'.size + (j - i) = o.size
  /-- The nodes of the range are gone, and no others. -/
  nodes : ∀ a, a ∈ s'.nodes ↔
    a ∈ s.nodes ∧ a ∉ addrs (((s.chain (.var x)).drop i).take (j - i))
  /-- No other list is touched. -/
  others : ∀ l, l ≠ .var x → s'.lists.lookup l = s.lists.lookup l ∧ s'.chain l = s.chain l
  /-- Nothing is allocated. -/
  allocs : s'.allocs = s.allocs

theorem Settled.rangeErased (h : Settled s F) {i j : Nat} (hl : F (.var x) = some ns)
    (hij : i ≤ j) (hj : j ≤ ns.length) (hal : s'.allocs = s.allocs)
    (h' : Represents s' (Function.update F (.var x) (some (ns.take i ++ ns.drop j)))) :
    RangeErased s s' x i j := by
  have hs' : Settled s' (Function.update F (.var x) (some (ns.take i ++ ns.drop j))) :=
    ⟨h', by simpa using h.temp, by simpa using h.rvalue⟩
  have hself := hs'.chain_eq (Function.update_self ..)
  have hlook' := h'.lookup (l := .var x) (Function.update_self ..)
  have hnodes : Family.nodes (Function.update F (.var x) (some (ns.take i ++ ns.drop j))) =
      Function.update F.nodes (.var x) (ns.take i ++ ns.drop j) := Family.nodes_update ..
  have hrange : addrs ns = addrs (ns.take i) ++
      (addrs ((ns.drop i).take (j - i)) ++ addrs (ns.drop j)) := by
    rw [← addrs_append, ← addrs_append, take_append_range ns hij]
  refine ⟨by rw [hself, h.chain_eq hl], ⟨_, _, h.lookup hl, hlook', hs'.wellFormed hlook', ?_⟩,
    fun a => ?_, fun l hne => ⟨?_, ?_⟩, hal⟩
  · simp only [SList.ofNodes, List.length_append, List.length_take, List.length_drop]
    omega
  -- a node lives on unless it is in the range: the three parts of the chain share none
  · rw [h.chain_eq hl, h'.mem_nodes_iff, h.mem_nodes_iff, hnodes]
    have hnd := h.nodup hl
    rw [hrange, List.nodup_append, List.nodup_append] at hnd
    obtain ⟨-, ⟨-, -, hdisj⟩, hdisj'⟩ := hnd
    constructor
    · intro hin
      obtain ⟨l, ha⟩ := hin
      by_cases hlx : l = .var x
      · subst hlx
        rw [Function.update_self, addrs_append, List.mem_append] at ha
        refine ⟨⟨.var x, by rw [Family.nodes_of_eq hl, hrange]; simp; tauto⟩, fun hmid => ?_⟩
        rcases ha with ha | ha
        · exact hdisj' a ha a (by simp [hmid]) rfl
        · exact hdisj a hmid a ha rfl
      · rw [Function.update_of_ne hlx] at ha
        refine ⟨⟨l, ha⟩, fun hmid => hlx (h.chains.unique l (.var x) a ha ?_)⟩
        rw [Family.nodes_of_eq hl, hrange]
        simp [hmid]
    · intro hin
      obtain ⟨⟨l, ha⟩, hmid⟩ := hin
      refine ⟨l, ?_⟩
      by_cases hlx : l = .var x
      · subst hlx
        rw [Family.nodes_of_eq hl, hrange] at ha
        rw [Function.update_self, addrs_append]
        simp only [List.mem_append] at ha ⊢
        tauto
      · rwa [Function.update_of_ne hlx]
  · rw [h'.obj, h.obj, Function.update_of_ne hne]
  · rw [hs'.chain_eq_nodes, h.chain_eq_nodes, hnodes, Function.update_of_ne hne]

/-- The end of a range behind the first `i` nodes: `end()`, or one of the other nodes. -/
def EndsRange (ns : List (Addr × α)) (i : Nat) (last : Iterator) : Prop :=
  last = none ∨ ∃ a ∈ addrs (ns.drop i), last = some (.node a)

/-- Such an end has a place, behind the first `i` nodes. -/
theorem EndsRange.gap {i : Nat} {last : Iterator} (h : EndsRange ns i last) (hi : i ≤ ns.length)
    (hnd : (addrs ns).Nodup) : ∃ j, gapBefore ns last = some j ∧ i ≤ j := by
  rcases h with rfl | ⟨a, ha, rfl⟩
  · exact ⟨ns.length, rfl, hi⟩
  · have hsplit : addrs ns = addrs (ns.take i) ++ addrs (ns.drop i) := by
      rw [← addrs_append, List.take_append_drop]
    have hmem : a ∈ addrs ns := by rw [hsplit]; simp [ha]
    refine ⟨(addrs ns).idxOf a, by simp [gapBefore, hmem], ?_⟩
    rw [hsplit] at hnd ⊢
    have hnot : a ∉ addrs (ns.take i) := fun h' => List.disjoint_of_nodup_append hnd h' ha
    rw [List.idxOf_append_of_notMem hnot, length_addrs, List.length_take, Nat.min_eq_left hi]
    exact Nat.le_add_right ..

/-- Towards such an end the call returns. -/
theorem Settled.eraseAfterRange_returns (h : Settled s F) (hl : F (.var x) = some ns) {i : Nat}
    {last : Iterator} (hi : i ≤ ns.length) (hends : EndsRange ns i last) :
    wp (SList.eraseAfterRange (.var x) (some (SList.posAfter (.var x) (ns.take i))) last)
      (fun it s' => it = last ∧ ∃ j, gapBefore ns last = some j ∧ i ≤ j ∧ RangeErased s s' x i j)
      (fun _ _ => False) s := by
  obtain ⟨j, hj, hij⟩ := hends.gap hi (h.nodup hl)
  obtain ⟨hle, rfl⟩ := gapBefore_eq hj
  refine SList.wp_eraseAfterRange h.toRepresents ((ns.drop i).take (j - i)) ?_ fun s' hal h' => ?_
  · rw [take_append_range ns hij, hl]
  · exact ⟨rfl, j, hj, hij, h.rangeErased hl hij hle hal h'⟩

/-- Towards any other it runs off the list. -/
theorem Settled.eraseAfterRange_faults (h : Settled s F) (hl : F (.var x) = some ns) {i : Nat}
    {last : Iterator} (hends : ¬ EndsRange ns i last) :
    wp (SList.eraseAfterRange (.var x) (some (SList.posAfter (.var x) (ns.take i))) last)
      (fun _ _ => False) (fun e _ => e = .fault) s := by
  have hlen := h.length_lt_fuel hl
  rw [SList.eraseAfterRange, wp_bind, wp_loop]
  refine (SList.wp_eraseAfterRangeLoop_fault h.toRepresents (ns.drop i) ?_ (fun hnone => ?_)
    (fun a ha hnode => ?_) ?_).mono (fun _ _ hf => hf.elim) fun _ _ he => he
  · rw [List.take_append_drop, hl]
  · exact hends (.inl hnone)
  · exact hends (.inr ⟨a, ha, hnode⟩)
  · rw [List.length_drop]
    omega

/-- **Range erase.** `first` is `before_begin()` or an element, with `i` elements up to and
including it; `last` is `before_begin()`, any element or `end()`. The call returns exactly
when `last` is `end()` or behind `first`, and follows a null pointer otherwise. When it
returns, it returns `last`, and the elements between the two are gone. -/
theorem range_erase (allocs : List (Option Addr)) (s : Mem α) (h : Reachable allocs s) (x : Nat)
    (hx : .var x ∈ s.lists) (first last : Iterator) (i : Nat)
    (hfirst : gapAfter (.var x) (s.chain (.var x)) first = some i) :
    ((∃ it s', SList.eraseAfterRange (.var x) first last s = .ok it s') ↔
      EndsRange (s.chain (.var x)) i last) ∧
    (¬ EndsRange (s.chain (.var x)) i last →
      ∃ s', SList.eraseAfterRange (.var x) first last s = .error .fault s') ∧
    ∀ it s', SList.eraseAfterRange (.var x) first last s = .ok it s' → it = last ∧
      ∃ j, gapBefore (s.chain (.var x)) last = some j ∧ i ≤ j ∧ RangeErased s s' x i j := by
  obtain ⟨F, hF⟩ := h.settled
  obtain ⟨ns, hns⟩ := hF.live hx
  rw [hF.chain_eq hns] at hfirst ⊢
  obtain ⟨hi, rfl⟩ := gapAfter_eq hfirst
  by_cases hends : EndsRange ns i last
  · have hreturns := hF.eraseAfterRange_returns hns hi hends
    obtain ⟨it, s', hrun, -⟩ := hreturns.returns
    exact ⟨iff_of_true ⟨it, s', hrun⟩ hends, fun hnot => absurd hends hnot,
      fun it s' hrun => hreturns.ok hrun⟩
  -- a range that does not end runs off the list and dereferences null
  · have hfaults := hF.eraseAfterRange_faults hns hends
    have hnever : ∀ it s', SList.eraseAfterRange (.var x)
        (some (SList.posAfter (.var x) (ns.take i))) last s ≠ .ok it s' :=
      fun it s' hrun => hfaults.ok hrun
    refine ⟨iff_of_false (fun ⟨it, s', hrun⟩ => hnever it s' hrun) hends, fun _ => ?_,
      fun it s' hrun => absurd hrun (hnever it s')⟩
    cases hrun :
      SList.eraseAfterRange (.var x) (some (SList.posAfter (.var x) (ns.take i))) last s with
    | ok it s' => exact absurd hrun (hnever it s')
    | error e s' =>
        obtain rfl := hfaults.error hrun
        exact ⟨s', rfl⟩

/-- From behind the first element of a list of two: to the second, nothing; to the first, off
the list. -/
theorem range_erase_two : ∃ s : Mem Nat, s.chain (.var 0) = [(4, 7), (2, 8)] ∧
    (∃ s', SList.eraseAfterRange (.var 0) (some (.node 4)) (some (.node 2)) s =
      .ok (some (.node 2)) s' ∧ RangeErased s s' 0 1 1) ∧
    ∃ s', SList.eraseAfterRange (.var 0) (some (.node 4)) (some (.node 4)) s =
      .error .fault s' := by
  have h₁ : Reachable (α := Nat) [some 4, some 2]
      ⟨Finmap.singleton 4 ⟨none, 7⟩, Finmap.singleton (.var 0) ⟨some 4, some 4, some 4, 1⟩,
        [some 2]⟩ :=
    Reachable.start.called (show (Op.constructValue 0 7).Valid _ from Finmap.notMem_empty) rfl
  have h₂ : Reachable (α := Nat) [some 4, some 2]
      ⟨(Finmap.singleton 2 ⟨none, 8⟩).insert 4 ⟨some 2, 7⟩,
        Finmap.singleton (.var 0) ⟨some 4, some 4, some 2, 2⟩, []⟩ :=
    h₁.called (show (Op.insertAfter 0 (some (.node 4)) 8).Valid _ from ⟨by simp, 1, rfl⟩) rfl
  refine ⟨⟨(Finmap.singleton 2 ⟨none, 8⟩).insert 4 ⟨some 2, 7⟩,
    Finmap.singleton (.var 0) ⟨some 4, some 4, some 2, 2⟩, []⟩, rfl, ?_, ?_⟩
  · obtain ⟨hiff, -, hreturns⟩ :=
      range_erase _ _ h₂ 0 (by simp) (some (.node 4)) (some (.node 2)) 1 rfl
    obtain ⟨it, s', hrun⟩ := hiff.mpr (.inr ⟨2, List.mem_singleton_self _, rfl⟩)
    obtain ⟨rfl, j, hj, -, herased⟩ := hreturns it s' hrun
    obtain rfl : 1 = j := Option.some.inj hj
    exact ⟨s', hrun, herased⟩
  · refine (range_erase _ _ h₂ 0 (by simp) (some (.node 4)) (some (.node 4)) 1 rfl).2.1 ?_
    rintro (hnone | ⟨a, ha, hlast⟩)
    · cases hnone
    · obtain rfl : 4 = a := by simpa using hlast
      exact absurd (show (4 : Addr) ∈ [2] from ha) (by decide)

end CoreSystems
