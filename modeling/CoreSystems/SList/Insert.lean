import CoreSystems.SList.Family

/-!
# CoreSystems.SList.Insert

What the inserting methods do to the family of node sequences: `emplace_back`,
`emplace_front` and `emplace_after` link one fresh node in at the end, at the front, or
behind a given position, or throw without having touched anything.

Every rule runs the method's statements in the cases the source distinguishes and hands
the resulting store to `Represents.insertFront` or `Represents.insertBehind`.

A throw is part of every rule: its second premise is about the memory in which one answer of
the allocator is gone and nothing else has changed. `hQ` gives the address of the new node,
because iterators and the order of allocation are told of addresses.
-/

namespace CoreSystems

open Chain Exec

namespace SList

variable {α : Type} {s : Mem α} {F : Family α} {this : ObjId} {ns xs ys : List (Addr × α)}
  {v : α} {E : Exit → Mem α → Prop}

/-! ### Positions -/

/-- The position behind the nodes `xs` of a list. -/
def posAfter (this : ObjId) (xs : List (Addr × α)) : Pos :=
  match last xs with
  | none => .beforeHead this
  | some a => .node a

@[simp] theorem posAfter_nil : posAfter this ([] : List (Addr × α)) = .beforeHead this := rfl

@[simp] theorem posAfter_concat (n : Addr × α) : posAfter this (xs ++ [n]) = .node n.1 := by
  simp [posAfter]

/-- Following a position leads to the first node behind it, or to null behind the last one.
The sentinel and a node are the two cases of the proof, and nowhere else. -/
theorem wp_nextOf {Q : Option Addr → Mem α → Prop} (h : Represents s F)
    (hl : F this = some (xs ++ ys)) (hQ : Q (first ys none) s) :
    wp (nextOf (some (posAfter this xs))) Q E s := by
  rcases List.eq_nil_or_concat xs with rfl | ⟨init, ⟨b, w⟩, rfl⟩
  · simpa only [posAfter_nil, nextOf, wp_bind, wp_pure, wp_obj, h.lookup hl, ofNodes,
      List.nil_append] using hQ
  · rw [List.concat_eq_append] at *
    have hb := h.node_at init ys (by simpa using hl)
    simpa only [posAfter_concat, nextOf, wp_bind, wp_pure, wp_deref, Option.bind_some, hb] using hQ

/-- A node just allocated is none of the nodes there were. -/
theorem ne_of_took {a b : Addr} {n : Node α} (ha : a ∉ s.nodes) (hb : s.nodes.lookup b = some n) :
    b ≠ a := by
  rintro rfl
  exact ha (Finmap.mem_of_lookup_eq_some hb)

/-! ### The methods

The cases are those of the source: no head yet, the sentinel, the last node, a node in the
middle. -/

theorem wp_emplaceBack {Q : Unit → Mem α → Prop} (h : Represents s F) (hl : F this = some ns)
    (hQ : ∀ a s', Took s a s' →
      Represents s' (Function.update F this (some (ns ++ [(a, v)]))) → Q () s')
    (hE : ∀ e s', Threw s e s' → E e s') :
    wp (emplaceBack this v) Q E s := by
  have hlook := h.lookup hl
  unfold emplaceBack
  rw [wp_bind]
  refine wp_newNode (fun a rest hal ha => ?_) hE
  rcases List.eq_nil_or_concat ns with rfl | ⟨init, ⟨b, w⟩, rfl⟩
  · -- an empty list: the new node becomes head and tail
    simp only [syncBeforeHead, wp_bind, wp_obj, wp_modifyObj, hlook, ofNodes, first_nil, last_nil,
      List.length_nil, ↓reduceIte, Finmap.lookup_insert, Finmap.insert_insert]
    exact hQ a _ ⟨hal, ha⟩ (h.insertFront [] hl ha rfl rfl)
  · -- the new node is linked in behind the tail
    rw [List.concat_eq_append] at *
    have hb := h.node_at init [] hl
    have hba := ne_of_took ha hb
    simp only [wp_bind, wp_obj, wp_modifyObj, wp_setNext, hlook, ofNodes, first_append, first_cons,
      last_concat, first_eq_none_iff, reduceCtorEq, and_false, ↓reduceIte, Finmap.lookup_insert,
      Finmap.lookup_insert_of_ne _ hba, Finmap.insert_insert, hb]
    refine hQ a _ ⟨hal, ha⟩ (h.insertBehind init [] (by simpa using hl) ha rfl ?_)
    simp [ofNodes]

theorem wp_emplaceFront {Q : Unit → Mem α → Prop} (h : Represents s F) (hl : F this = some ns)
    (hQ : ∀ a s', Took s a s' →
      Represents s' (Function.update F this (some ((a, v) :: ns))) → Q () s')
    (hE : ∀ e s', Threw s e s' → E e s') :
    wp (emplaceFront this v) Q E s := by
  have hlook := h.lookup hl
  unfold emplaceFront
  rw [wp_bind]
  refine wp_newNode (fun a rest hal ha => ?_) hE
  cases ns with
  | nil =>
      simp only [syncBeforeHead, wp_bind, wp_obj, wp_modifyObj, hlook, ofNodes, first_nil, last_nil,
        List.length_nil, ↓reduceIte, Finmap.lookup_insert, Finmap.insert_insert]
      exact hQ a _ ⟨hal, ha⟩ (h.insertFront [] hl ha rfl rfl)
  | cons n ns =>
      simp only [syncBeforeHead, wp_bind, wp_obj, wp_modifyObj, wp_setNext, hlook, ofNodes,
        first_cons, reduceCtorEq, ↓reduceIte, Finmap.lookup_insert, Finmap.insert_insert]
      refine hQ a _ ⟨hal, ha⟩ (h.insertFront (n :: ns) hl ha rfl ?_)
      simp [ofNodes]

theorem wp_emplaceAfter {Q : Iterator → Mem α → Prop} (h : Represents s F)
    (hl : F this = some (xs ++ ys))
    (hQ : ∀ a s', Took s a s' →
      Represents s' (Function.update F this (some (xs ++ (a, v) :: ys))) →
      Q (some (.node a)) s')
    (hE : ∀ e s', Threw s e s' → E e s') :
    wp (emplaceAfter this (some (posAfter this xs)) v) Q E s := by
  have hlook := h.lookup hl
  unfold emplaceAfter
  rw [wp_bind]
  refine wp_newNode (fun a rest hal ha => ?_) hE
  rcases List.eq_nil_or_concat xs with rfl | ⟨init, ⟨b, w⟩, rfl⟩
  · -- behind the sentinel: the new node becomes the head
    rw [List.nil_append] at *
    have htail : (last ys).map Pos.node = some (.beforeHead this) ↔ False := by
      cases last ys <;> simp
    simp only [posAfter_nil, nextOf, setNextOf, syncBeforeHead, wp_bind, wp_pure, wp_obj,
      wp_modifyObj, wp_setNext, hlook, ofNodes, Finmap.lookup_insert, Finmap.insert_insert,
      ↓reduceIte, htail, false_or]
    by_cases hys : last ys = none
    · obtain rfl := last_eq_none_iff.mp hys
      simp only [last_nil, ↓reduceIte, wp_bind, wp_pure, wp_modifyObj, Finmap.lookup_insert,
        Finmap.insert_insert]
      exact hQ a _ ⟨hal, ha⟩ (h.insertFront [] hl ha rfl rfl)
    · simp only [hys, ↓reduceIte, wp_bind, wp_pure, wp_modifyObj, Finmap.lookup_insert,
        Finmap.insert_insert]
      refine hQ a _ ⟨hal, ha⟩ (h.insertFront ys hl ha rfl ?_)
      obtain ⟨n, zs, rfl⟩ := List.exists_cons_of_ne_nil (mt last_eq_none_iff.mpr hys)
      simp [ofNodes]
  · -- behind a node: the tail moves when that node was the last
    rw [List.concat_eq_append] at *
    have hl' : F this = some (init ++ (b, w) :: ys) := by simpa using hl
    have hb := h.node_at init ys hl'
    have hba := ne_of_took ha hb
    have hends : (last (init ++ [(b, w)] ++ ys)).map Pos.node = some (.node b) ↔ ys = [] := by
      simpa using last_eq_self_iff (h.nodup hl')
    simp only [posAfter_concat, nextOf, setNextOf, syncBeforeHead, wp_bind, wp_pure, wp_obj,
      wp_setNext, wp_deref, Option.bind_some, hlook, ofNodes, hb, hends,
      Finmap.lookup_insert, Finmap.lookup_insert_of_ne _ hba, Finmap.insert_insert,
      Option.some.injEq, reduceCtorEq, ↓reduceIte]
    by_cases hys : ys = []
    · subst hys
      simp only [true_or, ↓reduceIte, wp_bind, wp_pure, wp_modifyObj, hlook, Finmap.lookup_insert,
        Finmap.insert_insert]
      refine hQ a _ ⟨hal, ha⟩ (h.insertBehind init [] hl ha rfl ?_)
      simp [ofNodes]
    · simp only [hys, last_eq_none_iff, List.append_eq_nil_iff, and_false, or_self, ↓reduceIte,
        wp_bind, wp_pure, wp_modifyObj, hlook, Finmap.lookup_insert, Finmap.insert_insert]
      refine hQ a _ ⟨hal, ha⟩ (h.insertBehind init ys hl ha rfl ?_)
      obtain ⟨n, zs, rfl⟩ := List.exists_cons_of_ne_nil hys
      simp [ofNodes, Nat.add_assoc]

end SList

end CoreSystems
