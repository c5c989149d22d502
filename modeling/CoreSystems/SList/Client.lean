import CoreSystems.SList.Run

/-!
# CoreSystems.SList.Client

Programs that call the methods and also write to elements through iterators.

`Reachable allocs s` says that such a program can bring the memory to `s`. Writing
through an iterator replaces one value and relinks nothing (`Family.assign`), so every
reachable memory holds a family as the memories of `Run` do (`Reachable.settled`).

The runs of `CoreSystems.SList.Run` remember which operations returned. A client that also
writes to elements has no such history in terms of sequences of values alone, so what is said
about it is said of a reachable memory.
-/

namespace CoreSystems

open Chain Exec

variable {α : Type}

/-! ### Actions -/

/-- What a program does next: call a method, or write through an iterator. -/
inductive Action (α : Type)
  | call (op : Op α)
  | assign (it : Iterator) (v : α)

/-- The code of an action. -/
def Action.exec : Action α → M α Unit
  | .call op => op.exec
  | .assign it v => SList.assignThrough it v

/-- A method is called as `Op.Valid` says; one writes through iterators to elements. -/
def Action.Valid (s : Mem α) : Action α → Prop
  | .call op => op.Valid s
  | .assign it _ => ∃ a, it = some (.node a) ∧ a ∈ s.nodes

/-- The memories a program can reach. An action returns or throws. -/
inductive Reachable (allocs : List (Option Addr)) : Mem α → Prop
  | start : Reachable allocs (Mem.start allocs)
  | returned {s s' : Mem α} {act : Action α} : Reachable allocs s → act.Valid s →
      act.exec s = .ok () s' → Reachable allocs s'
  | threw {s s' : Mem α} {act : Action α} : Reachable allocs s → act.Valid s →
      act.exec s = .error .threw s' → Reachable allocs s'

theorem Reachable.called {allocs : List (Option Addr)} {s s' : Mem α} {op : Op α}
    (h : Reachable allocs s) (hv : op.Valid s) (hx : op.exec s = .ok () s') :
    Reachable allocs s' :=
  h.returned (show (Action.call op).Valid s from hv) hx

/-! ### Writing a value

The value of a node is none of the fields that a list consists of: segments, ends and sizes
are what they were. -/

/-- The node at `a` holds `v` from now on. -/
def assignAt (a : Addr) (v : α) (ns : List (Addr × α)) : List (Addr × α) :=
  ns.map fun n => if n.1 = a then (a, v) else n

/-- The family in which the node at `a` holds `v`. -/
def Family.assign (F : Family α) (a : Addr) (v : α) : Family α := fun l =>
  (F l).map (assignAt a v)

section Assign

variable {s s' : Mem α} {F : Family α} {a : Addr} {v : α} {ns : List (Addr × α)}

@[simp] theorem addrs_assignAt : addrs (assignAt a v ns) = addrs ns := by
  simp only [addrs, assignAt, List.map_map]
  refine List.map_congr_left fun n _ => ?_
  by_cases hn : n.1 = a <;> simp [hn]

@[simp] theorem first_assignAt (q : Option Addr) : first (assignAt a v ns) q = first ns q := by
  cases ns with
  | nil => rfl
  | cons n ns => by_cases hn : n.1 = a <;> simp [assignAt, hn]

@[simp] theorem last_assignAt : last (assignAt a v ns) = last ns := by
  rw [last, last, ← List.getLast?_map, ← List.getLast?_map]
  exact congrArg List.getLast? addrs_assignAt

@[simp] theorem length_assignAt : (assignAt a v ns).length = ns.length :=
  List.length_map _

/-- The fields of a list do not depend on the values. -/
@[simp] theorem ofNodes_assignAt : SList.ofNodes (assignAt a v ns) = SList.ofNodes ns := by
  simp only [SList.ofNodes, first_assignAt, last_assignAt, length_assignAt]

theorem nodes_assign (l : ObjId) : (F.assign a v).nodes l = assignAt a v (F.nodes l) := by
  cases hl : F l <;> simp [Family.nodes, Family.assign, hl, assignAt]

/-- Storing a value does not move a segment. -/
theorem seg_assignAt {nodes : NodeStore α} {r : Option Addr} {w : α} {p : Option Addr}
    (ha : nodes.lookup a = some ⟨r, w⟩) (h : Seg (link nodes) p ns none) :
    Seg (link (nodes.insert a ⟨r, v⟩)) p (assignAt a v ns) none := by
  induction ns generalizing p with
  | nil => exact h
  | cons n ns ih =>
      obtain ⟨b, u⟩ := n
      obtain ⟨rfl, q, hq, hs⟩ := h
      by_cases hb : b = a
      · subst hb
        obtain ⟨rfl, -⟩ : r = q ∧ w = u := by simpa [link, ha] using hq
        have hhead : assignAt b v ((b, u) :: ns) = (b, v) :: assignAt b v ns := by simp [assignAt]
        rw [hhead]
        exact ⟨rfl, r, by simp, ih hs⟩
      · have hhead : assignAt a v ((b, u) :: ns) = (b, u) :: assignAt a v ns := by
          simp [assignAt, hb]
        rw [hhead]
        exact ⟨rfl, q, by rw [link_insert_of_ne hb, hq], ih hs⟩

theorem Represents.assign {r : Option Addr} {w : α} (h : Represents s F)
    (ha : s.nodes.lookup a = some ⟨r, w⟩) (hn : s'.nodes = s.nodes.insert a ⟨r, v⟩)
    (hl : s'.lists = s.lists) : Represents s' (F.assign a v) := by
  refine ⟨fun l => ?_, ⟨fun l => ?_, fun b hb => ?_, fun l l' b hb hb' => ?_⟩⟩
  · rw [hl, h.obj, Family.assign, Option.map_map]
    exact congrArg (Option.map · (F l)) (funext fun ns => ofNodes_assignAt.symm)
  · rw [nodes_assign, hn, first_assignAt]
    exact seg_assignAt ha (h.chains.seg l)
  · have hlive : b ∈ s.nodes := by
      rw [hn, ne_eq, link_eq_none, not_not, Finmap.mem_insert] at hb
      rcases hb with rfl | hb
      · exact Finmap.mem_of_lookup_eq_some ha
      · exact hb
    obtain ⟨l, hl⟩ := h.mem_nodes_iff.mp hlive
    exact ⟨l, by rwa [nodes_assign, addrs_assignAt]⟩
  · rw [nodes_assign, addrs_assignAt] at hb hb'
    exact h.chains.unique l l' b hb hb'

theorem SList.wp_assignThrough {Q : Unit → Mem α → Prop} {E : Exit → Mem α → Prop}
    (h : Represents s F) (ha : a ∈ s.nodes)
    (hQ : ∀ s', s'.allocs = s.allocs → s'.lists = s.lists →
      Represents s' (F.assign a v) → Q () s') :
    wp (SList.assignThrough (some (.node a)) v) Q E s := by
  obtain ⟨⟨r, w⟩, hn⟩ := Finmap.mem_iff.mp ha
  simp only [SList.assignThrough, asNode, wp_bind, wp_pure, wp_storeNode, hn]
  exact hQ _ rfl rfl (h.assign hn rfl rfl)

theorem Settled.assign (h : Settled s F) (h' : Represents s' (F.assign a v)) :
    Settled s' (F.assign a v) :=
  ⟨h', by simp [Family.assign, h.temp], by simp [Family.assign, h.rvalue]⟩

end Assign

/-! ### Reachable memories

One action either relinks as its operation on nodes says, or writes a value, or throws and
leaves the family alone. -/

section Reachable

variable {s s' : Mem α} {F : Family α} {allocs : List (Option Addr)}

/-- What an action that returns does to the nodes. -/
def Action.Relinked (s : Mem α) (F : Family α) (s' : Mem α) : Action α → Prop
  | .call op => op.Relinked s F s'
  | .assign it v => ∃ a, it = some (.node a) ∧ Settled s' (F.assign a v)

/-- **One action.** It relinks the nodes, or it throws and nothing has changed. -/
theorem Action.relinks (h : Settled s F) (act : Action α) (hv : act.Valid s) :
    wp act.exec (fun _ s' => act.Relinked s F s') (fun e s' => e = .threw ∧ Settled s' F) s := by
  cases act with
  | call op => exact (Op.relinks h op hv).mono (fun _ _ hr => hr) fun _ _ he => ⟨he.1, he.2.2⟩
  | assign it v =>
      obtain ⟨a, rfl, ha⟩ := hv
      exact SList.wp_assignThrough h.toRepresents ha fun s' _ _ h' => ⟨a, rfl, h.assign h'⟩

theorem Action.Relinked.settled {act : Action α} (h : act.Relinked s F s') :
    ∃ F', Settled s' F' := by
  cases act with
  | call op =>
      obtain ⟨F', -, hF', -⟩ := h
      exact ⟨F', hF'⟩
  | assign it v =>
      obtain ⟨a, -, hF'⟩ := h
      exact ⟨_, hF'⟩

/-- **Every reachable memory** holds a family. -/
theorem Reachable.settled (h : Reachable allocs s) : ∃ F, Settled s F := by
  induction h with
  | start => exact ⟨fun _ => none, .empty allocs, rfl, rfl⟩
  | @returned s s' act _ hv hx ih =>
      obtain ⟨F, hF⟩ := ih
      exact ((Action.relinks hF act hv).ok hx).settled
  | @threw s s' act _ hv hx ih =>
      obtain ⟨F, hF⟩ := ih
      exact ⟨F, ((Action.relinks hF act hv).error hx).2⟩

end Reachable

end CoreSystems
