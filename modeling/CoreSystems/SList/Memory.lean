import Mathlib.Data.Finmap
import CoreSystems.Lib.Chain
import CoreSystems.Lib.Exec

/-!
# CoreSystems.SList.Memory

The memory an `SList<T>` program runs in, and the commands its methods are made of.

* The **node store** maps the addresses of live `Node`s to their fields. `new` adds
  an address and `delete` removes it, so reading, writing or deleting a node that is
  not live (never allocated, or deleted before) is the exit `Exit.fault`, as is
  following a null pointer.
* The **list objects** are kept by identity (`ObjId`). A method works on the object
  `this` of that table, so two operands that are the same object alias as in C++,
  and the sentinel `m_before_head` is part of the object it is embedded in.
* The **allocator** is a list of answers, one for every `new`: an address, or a
  refusal. A refusal stands for every way in which `new Node(args...)` can throw
  (`operator new` or the element's constructor): nothing is allocated and the
  exception leaves the method (`Exit.threw`). An answer that names a live address is
  none that an allocator gives, and counts as a refusal.

`m_size` is a natural number: every node occupies memory, so a list never has
`2 ^ 64` of them and the counter does not wrap.
-/

namespace CoreSystems

/-- The address of a heap node. -/
abbrev Addr := Nat

/-- The identity of a list object: a variable of the client program, or one of the
two unnamed objects the methods create (`SList temp;` in the constructors and the
temporary of the assignment operators). -/
inductive ObjId
  | var (n : Nat)
  | temp
  | rvalue
  deriving DecidableEq, Repr

/-- `SList::Node`: `m_next` and `m_value`. Links only ever point to nodes. -/
structure Node (α : Type) where
  next : Option Addr := none
  value : α
  deriving DecidableEq, Repr

/-- The fields of an `SList` object; `beforeHead` is `m_before_head.m_next`. -/
structure SList where
  beforeHead : Option Addr := none
  head : Option Addr := none
  tail : Option Addr := none
  size : Nat := 0
  deriving DecidableEq, Repr

/-- A non-null `NodeBase*`: the sentinel inside a list object, or a node. The sentinel of an
object stays where it is when the nodes of the object change hands. -/
inductive Pos
  | beforeHead (l : ObjId)
  | node (a : Addr)
  deriving DecidableEq, Repr

/-- `SListIterator::m_current`; null is `end()`. -/
abbrev Iterator := Option Pos

/-- The live nodes. An address that is not in the store has never been allocated, or has been
deleted. -/
abbrev NodeStore (α : Type) := Finmap (fun _ : Addr => Node α)

/-- The live nodes, the live list objects, and the answers `new` has yet to give. Objects and
nodes do not share addresses: a list object is a variable, and nothing points to it but the
iterator `before_begin()`. -/
structure Mem (α : Type) where
  nodes : NodeStore α
  lists : Finmap (fun _ : ObjId => SList)
  allocs : List (Option Addr)

/-- How a method can leave other than by returning: a C++ exception, undefined
behaviour (a null or dangling node pointer), or a loop that does not end. -/
inductive Exit
  | threw
  | fault
  | diverged
  deriving DecidableEq, Repr

/-- A method body. -/
abbrev M (α : Type) := EStateM Exit (Mem α)

variable {α : Type}

/-- The successor and the value stored at an address, where a node is live. -/
def link (nodes : NodeStore α) (a : Addr) : Option (Option Addr × α) :=
  (nodes.lookup a).map fun n => (n.next, n.value)

/-- A bound on the rounds of a loop that walks one chain: every live node once, and
one more to see that the chain ends. -/
def Mem.fuel (s : Mem α) : Nat := s.nodes.keys.card + 1

/-! ### Commands

Each command is one access of the C++ abstract machine. A method is written with these and
nothing else, so whatever a method may do wrong shows as an exit of one of them. -/

/-- `*p` for a `Node*`. -/
def deref (p : Option Addr) : M α (Node α) := fun s =>
  match p.bind fun a => s.nodes.lookup a with
  | some n => .ok n s
  | none => .error .fault s

/-- Store a node at a live address. -/
def storeNode (p : Option Addr) (f : Node α → Node α) : M α Unit := fun s =>
  match p with
  | none => .error .fault s
  | some a =>
    match s.nodes.lookup a with
    | some n => .ok () { s with nodes := s.nodes.insert a (f n) }
    | none => .error .fault s

/-- `p->set_next(q)`. -/
def setNext (p q : Option Addr) : M α Unit := storeNode p fun n => { n with next := q }

/-- `new Node(v)`. -/
def newNode (v : α) : M α Addr := fun s =>
  match s.allocs with
  | some a :: rest =>
    if a ∈ s.nodes then .error .threw { s with allocs := rest }
    else .ok a { s with nodes := s.nodes.insert a { value := v }, allocs := rest }
  | none :: rest => .error .threw { s with allocs := rest }
  | [] => .error .threw s

/-- `delete p`; deleting null does nothing. -/
def deleteNode (p : Option Addr) : M α Unit := fun s =>
  match p with
  | none => .ok () s
  | some a =>
    if a ∈ s.nodes then .ok () { s with nodes := s.nodes.erase a }
    else .error .fault s

/-- The fields of a live list object. -/
def obj (l : ObjId) : M α SList := fun s =>
  match s.lists.lookup l with
  | some o => .ok o s
  | none => .error .fault s

/-- Assign to fields of a live list object. -/
def modifyObj (l : ObjId) (f : SList → SList) : M α Unit := fun s =>
  match s.lists.lookup l with
  | some o => .ok () { s with lists := s.lists.insert l (f o) }
  | none => .error .fault s

/-- The storage of an object comes into being with these fields. -/
def createObj (l : ObjId) (o : SList) : M α Unit := fun s =>
  .ok () { s with lists := s.lists.insert l o }

/-- The storage of an object goes away. -/
def releaseObj (l : ObjId) : M α Unit := fun s =>
  .ok () { s with lists := s.lists.erase l }

/-- `p->m_next` for a `NodeBase*`. -/
def nextOf : Iterator → M α (Option Addr)
  | none => throw .fault
  | some (.beforeHead l) => do return (← obj l).beforeHead
  | some (.node a) => do return (← deref (some a)).next

/-- `p->m_next = q` for a `NodeBase*`. -/
def setNextOf : Iterator → Option Addr → M α Unit
  | none, _ => throw .fault
  | some (.beforeHead l), q => modifyObj l fun o => { o with beforeHead := q }
  | some (.node a), q => setNext (some a) q

/-- `static_cast<Node*>(p)`; the sentinel is no `Node`. The cast of null is null; the cast of
the sentinel would be undefined behaviour, hence a fault. -/
def asNode : Iterator → M α (Option Addr)
  | none => pure none
  | some (.beforeHead _) => throw .fault
  | some (.node a) => pure (some a)

/-- A loop over one chain, with the exit of a loop that never ends. A walk that needs more
rounds than there are live nodes has come back to a node, and would go on for ever. -/
def loop {β γ : Type} (body : β → M α (β ⊕ γ)) (b : β) : M α γ := fun s =>
  Exec.loopN .diverged body s.fuel b s

/-! ### Links of an updated store

`link` is the view of the node store that `CoreSystems.Lib.Chain` works with. It follows an
insertion or a deletion at its own address and nowhere else. -/

section Link

variable {nodes : NodeStore α} {a b : Addr} {n : Node α}

theorem link_eq_some {r : Option Addr} {v : α} :
    link nodes a = some (r, v) ↔ nodes.lookup a = some ⟨r, v⟩ := by
  unfold link
  cases nodes.lookup a with
  | none => simp
  | some n => obtain ⟨r', v'⟩ := n; simp

@[simp] theorem link_eq_none : link nodes a = none ↔ a ∉ nodes := by
  simp [link, Finmap.lookup_eq_none]

@[simp] theorem link_insert_self : link (nodes.insert a n) a = some (n.next, n.value) := by
  simp [link]

theorem link_insert_of_ne (h : b ≠ a) : link (nodes.insert a n) b = link nodes b := by
  simp [link, Finmap.lookup_insert_of_ne _ h]

@[simp] theorem link_erase_self : link (nodes.erase a) a = none := by
  simp

theorem link_erase_of_ne (h : b ≠ a) : link (nodes.erase a) b = link nodes b := by
  simp [link, Finmap.lookup_erase_ne h]

end Link

/-! ### Running the commands

The simp set of the commands: with it, a method whose branch is known runs by rewriting. -/

section Run

open Exec

variable {s : Mem α} {a : Addr} {l : ObjId}

@[simp] theorem wp_deref {p : Option Addr} {Q : Node α → Mem α → Prop}
    {E : Exit → Mem α → Prop} :
    wp (deref p) Q E s ↔
      match p.bind fun a => s.nodes.lookup a with
      | some n => Q n s
      | none => E .fault s := by
  unfold wp deref
  cases p.bind fun a => s.nodes.lookup a <;> rfl

@[simp] theorem wp_storeNode {f : Node α → Node α} {Q : Unit → Mem α → Prop}
    {E : Exit → Mem α → Prop} :
    wp (storeNode (some a) f) Q E s ↔
      match s.nodes.lookup a with
      | some n => Q () { s with nodes := s.nodes.insert a (f n) }
      | none => E .fault s := by
  simp only [wp, storeNode]
  cases s.nodes.lookup a <;> rfl

@[simp] theorem wp_setNext {q : Option Addr} {Q : Unit → Mem α → Prop}
    {E : Exit → Mem α → Prop} :
    wp (setNext (some a) q) Q E s ↔
      match s.nodes.lookup a with
      | some n => Q () { s with nodes := s.nodes.insert a { n with next := q } }
      | none => E .fault s :=
  wp_storeNode

@[simp] theorem wp_deleteNode {Q : Unit → Mem α → Prop} {E : Exit → Mem α → Prop} :
    wp (deleteNode (some a)) Q E s ↔
      if a ∈ s.nodes then Q () { s with nodes := s.nodes.erase a } else E .fault s := by
  by_cases ha : a ∈ s.nodes <;> simp [wp, deleteNode, ha]

@[simp] theorem wp_obj {Q : SList → Mem α → Prop} {E : Exit → Mem α → Prop} :
    wp (obj l) Q E s ↔
      match s.lists.lookup l with
      | some o => Q o s
      | none => E .fault s := by
  unfold wp obj
  cases s.lists.lookup l <;> rfl

@[simp] theorem wp_modifyObj {f : SList → SList} {Q : Unit → Mem α → Prop}
    {E : Exit → Mem α → Prop} :
    wp (modifyObj l f) Q E s ↔
      match s.lists.lookup l with
      | some o => Q () { s with lists := s.lists.insert l (f o) }
      | none => E .fault s := by
  unfold wp modifyObj
  cases s.lists.lookup l <;> rfl

@[simp] theorem wp_loop {β γ : Type} {body : β → M α (β ⊕ γ)} {b : β} {Q : γ → Mem α → Prop}
    {E : Exit → Mem α → Prop} :
    wp (loop body b) Q E s ↔ wp (loopN .diverged body s.fuel b) Q E s := Iff.rfl

@[simp] theorem wp_createObj {o : SList} {Q : Unit → Mem α → Prop} {E : Exit → Mem α → Prop} :
    wp (createObj l o) Q E s ↔ Q () { s with lists := s.lists.insert l o } := Iff.rfl

@[simp] theorem wp_releaseObj {Q : Unit → Mem α → Prop} {E : Exit → Mem α → Prop} :
    wp (releaseObj l) Q E s ↔ Q () { s with lists := s.lists.erase l } := Iff.rfl

/-! ### What the allocator is asked

A method that throws has to be told from one that returns by what the allocator answers, and
by nothing else. `Served` says it beforehand, `Gave` and `Threw` afterwards. -/

/-- The next `n` answers are fresh addresses: `n` calls of `new` in a row succeed. -/
def Mem.Served (s : Mem α) (n : Nat) : Prop :=
  ∃ (fresh : List Addr) (rest : List (Option Addr)), s.allocs = fresh.map some ++ rest ∧
    fresh.length = n ∧ fresh.Nodup ∧ ∀ a ∈ fresh, a ∉ s.nodes

/-- `new` took the answer `a`, a fresh address, from the allocator. -/
def Took (s : Mem α) (a : Addr) (s' : Mem α) : Prop :=
  s.allocs = some a :: s'.allocs ∧ a ∉ s.nodes

/-- `new` took the answers `as`, distinct fresh addresses, one after the other. -/
def Gave (s : Mem α) (as : List Addr) (s' : Mem α) : Prop :=
  s.allocs = as.map some ++ s'.allocs ∧ as.Nodup ∧ ∀ a ∈ as, a ∉ s.nodes

/-- A refused `new`: one answer of the allocator is gone, nothing else changed. -/
def Threw (s : Mem α) (e : Exit) (s' : Mem α) : Prop :=
  e = .threw ∧ s' = { s with allocs := s.allocs.tail } ∧ ¬ s.Served 1

theorem Gave.served {s' : Mem α} {as : List Addr} (h : Gave s as s') : s.Served as.length :=
  ⟨as, s'.allocs, h.1, rfl, h.2.1, h.2.2⟩

theorem Gave.nil {s' : Mem α} (h : s'.allocs = s.allocs) : Gave s [] s' :=
  ⟨by simp [h], List.nodup_nil, by simp⟩

theorem Took.gave {s' : Mem α} (h : Took s a s') : Gave s [a] s' :=
  ⟨h.1, List.nodup_singleton a, by simpa using h.2⟩

/-- One answer, and then more of them, none of which frees a node. -/
theorem Took.gave_cons {s' s'' : Mem α} {as : List Addr} (h : Took s a s') (hg : Gave s' as s'')
    (hmem : ∀ b, b = a ∨ b ∈ s.nodes → b ∈ s'.nodes) : Gave s (a :: as) s'' := by
  refine ⟨by rw [h.1, hg.1]; rfl, List.nodup_cons.mpr ⟨fun ha => ?_, hg.2.1⟩, fun b hb => ?_⟩
  · exact hg.2.2 a ha (hmem a (.inl rfl))
  · rcases List.mem_cons.mp hb with rfl | hb
    · exact h.2
    · exact fun hold => hg.2.2 b hb (hmem b (.inr hold))

/-- The answers of the allocator and the live nodes are all that matters here. -/
theorem Gave.of_eq {s₁ s' s'' : Mem α} {as : List Addr} (h : Gave s₁ as s')
    (hallocs : s₁.allocs = s.allocs) (hnodes : s₁.nodes = s.nodes)
    (hallocs' : s''.allocs = s'.allocs) : Gave s as s'' := by
  rw [Gave, ← hallocs, ← hnodes, hallocs']
  exact h

theorem Mem.Served.of_le {m n : Nat} (h : s.Served n) (hmn : m ≤ n) : s.Served m := by
  obtain ⟨fresh, rest, hal, hlen, hnd, hfresh⟩ := h
  refine ⟨fresh.take m, (fresh.drop m).map some ++ rest, ?_, ?_, ?_, ?_⟩
  · rw [hal, ← List.append_assoc, ← List.map_append, List.take_append_drop]
  · rw [List.length_take, hlen, Nat.min_eq_left hmn]
  · exact hnd.sublist (List.take_sublist m fresh)
  · exact fun a ha => hfresh a (List.mem_of_mem_take ha)

/-- A request that will be served can only throw when it has a fresh answer to take. -/
theorem Mem.Served.fresh {n : Nat} (h : s.Served (n + 1)) :
    ∃ a rest, s.allocs = some a :: rest ∧ a ∉ s.nodes := by
  obtain ⟨fresh, rest, hal, hlen, -, hfresh⟩ := h
  cases fresh with
  | nil => cases hlen
  | cons a fresh => exact ⟨a, _, hal, hfresh a List.mem_cons_self⟩

/-- After one `new`, one request less has to be served. -/
theorem Took.served {s' : Mem α} {n : Nat} (h : Took s a s') (hs : s.Served (n + 1))
    (hmem : ∀ b ∈ s'.nodes, b = a ∨ b ∈ s.nodes) : s'.Served n := by
  obtain ⟨fresh, rest, hal, hlen, hnd, hfresh⟩ := hs
  cases fresh with
  | nil => cases hlen
  | cons b fresh =>
      rw [h.1, List.map_cons, List.cons_append] at hal
      obtain ⟨hab, hrest⟩ := List.cons.inj hal
      obtain rfl : a = b := Option.some.inj hab
      rw [List.nodup_cons] at hnd
      refine ⟨fresh, rest, hrest, Nat.succ.inj hlen, hnd.2, fun c hc hc' => ?_⟩
      rcases hmem c hc' with rfl | hold
      · exact hnd.1 hc
      · exact hfresh c (List.mem_cons_of_mem _ hc) hold

/-- `new` either adds a fresh node or throws. -/
theorem wp_newNode {v : α} {Q : Addr → Mem α → Prop} {E : Exit → Mem α → Prop}
    (hok : ∀ a rest, s.allocs = some a :: rest → a ∉ s.nodes →
      Q a { s with nodes := s.nodes.insert a { value := v }, allocs := rest })
    (hthrew : ∀ e s', Threw s e s' → E e s') : wp (newNode v) Q E s := by
  have hrefused : (∀ a rest, s.allocs = some a :: rest → a ∈ s.nodes) → ¬ s.Served 1 := by
    intro hnone hs
    obtain ⟨a, rest, hal, ha⟩ := hs.fresh
    exact ha (hnone a rest hal)
  obtain ⟨nodes, lists, allocs⟩ := s
  rcases allocs with _ | ⟨_ | a, rest⟩
  · exact wp_of_error rfl (hthrew _ _ ⟨rfl, rfl, hrefused (by simp)⟩)
  · exact wp_of_error rfl (hthrew _ _ ⟨rfl, rfl, hrefused (by simp)⟩)
  · by_cases ha : a ∈ nodes
    · exact wp_of_error (by simp [newNode, ha]) (hthrew _ _ ⟨rfl, rfl, hrefused (by simp [ha])⟩)
    · exact wp_of_ok (by simp [newNode, ha]) (hok a rest rfl ha)

end Run

end CoreSystems
