import CoreSystems.SList.Client
import CoreSystems.SList.Ownership
import CoreSystems.SList.Simulation

/-!
# CoreSystems.SList.Iterators

Iterators stay valid while the lists change around them.

An iterator to an element holds the address of a node. `Action.track` says where an action
takes the element: methods take it where their sequence operations take it
(`SeqOp.track`), and writing through an iterator leaves it where it is. As long as the
element is taken anywhere, the node at that place is the one the iterator holds
(`Followed.denotes`), so the iterator reads the element's value and increments to the
element's successor.

A `before_begin()` iterator holds the sentinel inside a list object and no node. Its
fields are those of whatever sequence the object owns, so it needs no history.
-/

namespace CoreSystems

open Chain Exec

variable {α : Type} {s s' : Mem α} {F F' : Family α} {a : Addr}

/-! ### What an iterator denotes -/

/-- An element: the variable that owns it, its index there, and its value. -/
structure Held (α : Type) where
  list : Nat
  index : Nat
  value : α

/-- The iterator to the node `a` denotes the element `e`. -/
structure Denotes (s : Mem α) (a : Addr) (e : Held α) : Prop where
  /-- The node is at the element's index of the list that owns it. -/
  found : (s.chain (.var e.list))[e.index]? = some (a, e.value)
  /-- It is at no other place of any list. -/
  unique : ∀ l k v, (s.chain l)[k]? = some (a, v) → l = .var e.list ∧ k = e.index
  /-- The iterator reads the element's value. -/
  value : SList.dereference (some (.node a)) s = .ok e.value s
  /-- Incrementing it gives the successor, or `end()`. -/
  next : SList.increment (some (.node a)) s =
    .ok ((s.chain (.var e.list))[e.index + 1]?.map fun n => .node n.1) s

/-- The `before_begin()` iterator of the variable `x` belongs to the list `x` holds now. -/
structure Anchored (s : Mem α) (x : Nat) : Prop where
  /-- Incrementing it gives `begin()`. -/
  next : SList.increment (SList.beforeBegin (.var x)) s = SList.begin (.var x) s
  /-- `begin()` is the first element, or `end()`. -/
  begins : SList.begin (.var x) s = .ok ((s.chain (.var x))[0]?.map fun n => .node n.1) s
  /-- `emplace_after` puts a new first element into the list, and touches no other list. -/
  emplace : ∀ v it s', SList.emplaceAfter (.var x) (SList.beforeBegin (.var x)) v s = .ok it s' →
    ∃ b, it = some (.node b) ∧ s'.chain (.var x) = (b, v) :: s.chain (.var x) ∧
      ∀ l, l ≠ .var x → s'.chain l = s.chain l
  /-- It does so whenever there is a node to be had. -/
  emplaces : ∀ v, s.Served 1 → ∃ it s',
    SList.emplaceAfter (.var x) (SList.beforeBegin (.var x)) v s = .ok it s'
  /-- `erase_after` takes the first element out of the list, and touches no other list. -/
  erase : ∀ n ns, s.chain (.var x) = n :: ns → ∃ s',
    SList.eraseAfter (.var x) (SList.beforeBegin (.var x)) s =
      .ok (ns[0]?.map fun n => .node n.1) s' ∧
    s'.chain (.var x) = ns ∧ ∀ l, l ≠ .var x → s'.chain l = s.chain l

/-! ### Following an element

The history of an element is that of its label. `Followed` is the run of a client together
with where the element is in each memory of it; it ends when the element is taken away. -/

/-- What becomes of the element at the node `a`; an element that is erased, popped or
cleared, or whose list is destroyed or assigned over, goes nowhere. -/
def Action.track (s : Mem α) (a : Addr) (e : Held α) : Action α → Option (Held α)
  | .call op => ((op.toSeq s).track s.view (e.list, e.index)).map fun p => ⟨p.1, p.2, e.value⟩
  | .assign it v => some (if it = some (.node a) then { e with value := v } else e)

/-- From `s₀`, where the node `a` holds the element `e₀`, a program comes to `s`, where the
element has become `e`. -/
inductive Followed (a : Addr) (s₀ : Mem α) (e₀ : Held α) : Mem α → Held α → Prop
  | start : Followed a s₀ e₀ s₀ e₀
  | returned {s s' : Mem α} {e e' : Held α} {act : Action α} : Followed a s₀ e₀ s e →
      act.Valid s → act.exec s = .ok () s' → act.track s a e = some e' → Followed a s₀ e₀ s' e'
  | threw {s s' : Mem α} {e : Held α} {act : Action α} : Followed a s₀ e₀ s e →
      act.Valid s → act.exec s = .error .threw s' → Followed a s₀ e₀ s' e

/-- The range of a valid call ends where it begins or behind. -/
theorem Op.Valid.ordered {op : Op α} (hv : op.Valid s) : (op.toSeq s).Ordered := by
  cases op with
  | eraseAfterRange x first last =>
      obtain ⟨-, i, j, hi, hj, hij⟩ := hv
      simpa [Op.toSeq, SeqOp.Ordered, hi, hj] using hij
  | _ => trivial

/-- The element of a family at a place is the node there. -/
theorem Settled.at_eq (h : Settled s F) (p : Nat × Nat) :
    F.lists.at p = (s.chain (.var p.1))[p.2]? := by
  rw [h.chain_eq_nodes, Seqs.at, Family.lists, Family.nodes]
  cases F (.var p.1) <;> simp

/-- A node is at the same index of a list after a value was stored. -/
theorem at_assign {b : Addr} {v w : α} {p : Nat × Nat} (hp : F.lists.at p = some (a, w)) :
    (F.assign b v).lists.at p = some (a, if a = b then v else w) := by
  obtain ⟨ns, hns, hn⟩ := Option.bind_eq_some_iff.mp hp
  have hlist : F (.var p.1) = some ns := hns
  by_cases hab : a = b <;> simp [Seqs.at, Family.lists, Family.assign, hlist, assignAt, hn, hab]

/-- **The element is at the node, wherever an action takes it.** -/
theorem Settled.track_at (h : Settled s F) {act : Action α} (hv : act.Valid s) {e e' : Held α}
    (hr : act.Relinked s F s') (ht : act.track s a e = some e')
    (he : F.lists.at (e.list, e.index) = some (a, e.value)) :
    ∃ F', Settled s' F' ∧ F'.lists.at (e'.list, e'.index) = some (a, e'.value) := by
  cases act with
  | call op =>
      obtain ⟨F', as, hF', -, -, hlists⟩ := hr
      obtain ⟨q, hq, rfl⟩ := Option.map_eq_some_iff.mp ht
      refine ⟨F', hF', ?_⟩
      rw [hlists]
      refine SeqOp.step_at F.lists _ (hv.ordered.label ..) he ?_
      have hview : s.view = Seqs.values F.lists := h.view_eq
      exact (SeqOp.track_label ..).trans (hview ▸ hq)
  | assign it v =>
      obtain ⟨b, rfl, hF'⟩ := hr
      refine ⟨_, hF', ?_⟩
      obtain rfl := Option.some.inj ht
      have hat := at_assign (b := b) (v := v) he
      by_cases hba : b = a
      · simpa [hba] using hat
      · simpa [hba, show ¬ a = b from fun hab => hba hab.symm] using hat

theorem Followed.at {s₀ : Mem α} {e₀ e : Held α} {F₀ : Family α} (h : Followed a s₀ e₀ s e)
    (hF₀ : Settled s₀ F₀) (he₀ : F₀.lists.at (e₀.list, e₀.index) = some (a, e₀.value)) :
    ∃ F, Settled s F ∧ F.lists.at (e.list, e.index) = some (a, e.value) := by
  induction h with
  | start => exact ⟨F₀, hF₀, he₀⟩
  | @returned s s' e e' act _ hv hx ht ih =>
      obtain ⟨F, hF, he⟩ := ih
      exact hF.track_at hv ((Action.relinks hF act hv).ok hx) ht he
  | @threw s s' e act _ hv hx ih =>
      obtain ⟨F, hF, he⟩ := ih
      exact ⟨F, ((Action.relinks hF act hv).error hx).2, he⟩

/-! ### Using an iterator -/

/-- The link behind the first `k` nodes leads to the node at index `k`. -/
theorem first_drop (ns : List (Addr × α)) (k : Nat) :
    (first (ns.drop k) none).map Pos.node = ns[k]?.map fun n => .node n.1 := by
  rw [first, List.head?_drop, Option.or_none, Option.map_map]
  rfl

/-- An iterator to a node that is on a list. -/
theorem Settled.denotes (h : Settled s F) {e : Held α}
    (he : F.lists.at (e.list, e.index) = some (a, e.value)) : Denotes s a e := by
  obtain ⟨ns, hns, hn⟩ := Option.bind_eq_some_iff.mp he
  have hlist : F (.var e.list) = some ns := hns
  have hget : ns[e.index]? = some (a, e.value) := hn
  have hchain := h.chain_eq hlist
  obtain ⟨hlt, hnode⟩ := List.getElem?_eq_some_iff.mp hget
  have hsplit : F (.var e.list) =
      some (ns.take e.index ++ (a, e.value) :: ns.drop (e.index + 1)) := by
    rw [hlist, ← hnode, ← List.drop_eq_getElem_cons hlt, List.take_append_drop]
  have hlook := h.node_at _ _ hsplit
  refine ⟨by rw [hchain, hget], fun l k v hk => ?_, wp.reads ?_, wp.reads ?_⟩
  · -- two lists share no node, and one list visits none twice
    rw [h.chain_eq_nodes] at hk
    have hmem : a ∈ addrs (F.nodes (.var e.list)) := by
      rw [Family.nodes_of_eq hlist]
      exact List.mem_map_of_mem (List.mem_of_getElem? hget)
    obtain rfl := h.chains.unique _ _ a (List.mem_map_of_mem (List.mem_of_getElem? hk)) hmem
    rw [Family.nodes_of_eq hlist] at hk
    have hsame : (addrs ns)[k]? = (addrs ns)[e.index]? := by simp [addrs, hget, hk]
    have hk' : k < (addrs ns).length := by
      rw [length_addrs]
      exact (List.getElem?_eq_some_iff.mp hk).1
    exact ⟨rfl, (List.getElem?_inj hk' (h.nodup hlist)).mp hsame⟩
  · simp only [SList.dereference, asNode, wp_bind, wp_pure, wp_deref, Option.bind_some, hlook,
      and_self]
  · simp only [SList.increment, nextOf, wp_bind, wp_pure, wp_deref, Option.bind_some, hlook,
      hchain, first_drop, and_self]

/-- The nodes of a list in a memory that differs in one list only. -/
theorem Settled.chain_update (h : Settled s F) {x : Nat} {ns : List (Addr × α)}
    (h' : Represents s' (Function.update F (.var x) (some ns))) :
    s'.chain (.var x) = ns ∧ ∀ l, l ≠ .var x → s'.chain l = s.chain l := by
  have hs' : Settled s' (Function.update F (.var x) (some ns)) :=
    ⟨h', by simpa using h.temp, by simpa using h.rvalue⟩
  refine ⟨hs'.chain_eq (Function.update_self ..), fun l hl => ?_⟩
  rw [hs'.chain_eq_nodes, h.chain_eq_nodes, Family.nodes, Function.update_of_ne hl]
  rfl

theorem Settled.emplace_first (h : Settled s F) {x : Nat} {ns : List (Addr × α)}
    (hx : F (.var x) = some ns) (v : α) :
    wp (SList.emplaceAfter (.var x) (SList.beforeBegin (.var x)) v)
      (fun it s' => ∃ b, it = some (.node b) ∧ s'.chain (.var x) = (b, v) :: ns ∧
        ∀ l, l ≠ .var x → s'.chain l = s.chain l)
      (fun _ _ => ¬ s.Served 1) s :=
  SList.wp_emplaceAfter h.toRepresents (show F (.var x) = some ([] ++ ns) from hx)
    (fun b _ _ h' => ⟨b, rfl, h.chain_update h'⟩) fun _ _ ht => ht.2.2

/-- The sentinel of a list object. -/
theorem Settled.anchored (h : Settled s F) {x : Nat} {ns : List (Addr × α)}
    (hx : F (.var x) = some ns) : Anchored s x := by
  have hchain := h.chain_eq hx
  have hbegin : SList.begin (.var x) s = .ok ((first ns none).map Pos.node) s := by
    refine wp.reads ?_
    simp only [SList.begin, wp_bind, wp_pure, wp_obj, h.lookup hx, SList.ofNodes, and_self]
  refine ⟨?_, ?_, fun v it s' hs' => ?_, fun v hserved => ?_, fun n ms hns => ?_⟩
  · rw [hbegin]
    refine wp.reads ?_
    simp only [SList.beforeBegin, SList.increment, nextOf, wp_bind, wp_pure, wp_obj, h.lookup hx,
      SList.ofNodes, and_self]
  · rw [hbegin, hchain]
    exact congrArg (EStateM.Result.ok · s) (first_drop ns 0)
  · rw [hchain]
    exact (h.emplace_first hx v).ok hs'
  · cases hs : SList.emplaceAfter (.var x) (SList.beforeBegin (.var x)) v s with
    | ok it s' => exact ⟨it, s', rfl⟩
    | error e s' => exact absurd hserved ((h.emplace_first hx v).error hs)
  · rw [hchain] at hns
    subst hns
    obtain ⟨it, s', hs', rfl, h'⟩ := wp.returns (SList.wp_eraseAfter h.toRepresents
      (show F (.var x) = some ([] ++ (n.1, n.2) :: ms) from hx)
      (Q := fun it s' => it = (first ms none).map Pos.node ∧
        Represents s' (Function.update F (.var x) (some ms)))
      (E := fun _ _ => False) fun s' _ h' => ⟨rfl, h'⟩)
    refine ⟨s', ?_, h.chain_update h'⟩
    exact hs'.trans (congrArg (EStateM.Result.ok · s') (first_drop ms 0))

/-- **Iterators are stable.** In every memory a program reaches, the `before_begin()`
iterator of every list belongs to that list. And an iterator to the node `a`, obtained while
the node holds the element `e₀`, denotes that element for as long as the program does not
take it away, wherever the element is by then. -/
theorem iterators_stable (allocs : List (Option Addr)) (s₀ : Mem α) (h : Reachable allocs s₀) :
    (∀ x, .var x ∈ s₀.lists → Anchored s₀ x) ∧
    ∀ (a : Addr) (e₀ e : Held α) (s : Mem α),
      (s₀.chain (.var e₀.list))[e₀.index]? = some (a, e₀.value) → Followed a s₀ e₀ s e →
      Denotes s a e := by
  obtain ⟨F₀, hF₀⟩ := h.settled
  constructor
  · intro x hx
    obtain ⟨ns, hns⟩ := hF₀.live hx
    exact hF₀.anchored hns
  · intro a e₀ e s he₀ hf
    obtain ⟨F, hF, he⟩ := hf.at hF₀ ((hF₀.at_eq _).trans he₀)
    exact hF.denotes he

/-- The iterator to the only node of a list, after a node was put in front of it, the list
was moved to another variable, and the element was written to. -/
theorem iterators_stable_move : ∃ s : Mem Nat, Denotes s 4 ⟨1, 1, 5⟩ := by
  have h₀ : Reachable (α := Nat) [some 4, some 2] ⟨Finmap.singleton 4 ⟨none, 7⟩,
      Finmap.singleton (.var 0) ⟨some 4, some 4, some 4, 1⟩, [some 2]⟩ :=
    Reachable.start.called (show (Op.constructValue 0 7).Valid _ from Finmap.notMem_empty) rfl
  have h₁ : Followed (α := Nat) 4 ⟨Finmap.singleton 4 ⟨none, 7⟩,
      Finmap.singleton (.var 0) ⟨some 4, some 4, some 4, 1⟩, [some 2]⟩ ⟨0, 0, 7⟩
      ⟨(Finmap.singleton 4 ⟨none, 7⟩).insert 2 ⟨some 4, 8⟩,
        Finmap.singleton (.var 0) ⟨some 2, some 2, some 4, 2⟩, []⟩ ⟨0, 1, 7⟩ :=
    Followed.start.returned (show (Action.call (Op.pushFront 0 8)).Valid _ by
      simp [Action.Valid, Op.Valid]) rfl rfl
  have h₂ : Followed (α := Nat) 4 _ ⟨0, 0, 7⟩
      ⟨(Finmap.singleton 4 ⟨none, 7⟩).insert 2 ⟨some 4, 8⟩,
        (Finmap.singleton (.var 1) ⟨some 2, some 2, some 4, 2⟩).insert (.var 0) {}, []⟩ ⟨1, 1, 7⟩ :=
    h₁.returned (show (Action.call (Op.constructMove 1 0)).Valid _ by
      simp [Action.Valid, Op.Valid]) rfl rfl
  have h₃ : Followed (α := Nat) 4 _ ⟨0, 0, 7⟩ _ ⟨1, 1, 5⟩ :=
    h₂.returned (show (Action.assign (some (.node 4)) 5).Valid _ from ⟨4, rfl, by simp⟩) rfl rfl
  exact ⟨_, (iterators_stable _ _ h₀).2 4 _ _ _ rfl h₃⟩

end CoreSystems
