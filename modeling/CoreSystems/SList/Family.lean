import CoreSystems.SList.Methods

/-!
# CoreSystems.SList.Family

What the lists of a program are for: a **family** of node sequences, one for every
live list object. `Represents s F` says that the memory `s` holds the family `F`:
the four fields of every list object are those of its sequence (`SList.ofNodes`), and
the chains of `m_next` links share out the live nodes (`Chain.Partition`). Since the
fields and the links are determined by `F`, so is the memory (`Represents.unique`).

Three rules carry the methods' specifications: one list is rewritten
(`Represents.update`), whole sequences change hands (`Represents.permute`), and the
answers of the allocator do not matter (`Represents.of_eq`).

A specification of a method then has one form: from `Represents s F` to `Represents s' F'`,
where `F'` is `F` with the sequences of the operands changed. What a method does not name
stays, because `Function.update` says so; there is no other frame condition.
-/

namespace CoreSystems

open Chain Exec

variable {α : Type}

/-! ### Families -/

/-- The nodes of every live list object, in order. Nodes are kept with their addresses, so a
family tells apart two lists of equal values. -/
abbrev Family (α : Type) := ObjId → Option (List (Addr × α))

/-- The nodes an object owns; an object that is not live owns none. -/
def Family.nodes (F : Family α) (l : ObjId) : List (Addr × α) := (F l).getD []

/-- The fields of the list that owns `ns`. There is one way to store a sequence, so the fields
are a function of it. -/
def SList.ofNodes (ns : List (Addr × α)) : SList where
  beforeHead := first ns none
  head := first ns none
  tail := last ns
  size := ns.length

/-- The memory `s` holds the family `F`. That the links are those of the sequences, that lists
are disjoint and that nothing is leaked is all in `chains`. -/
structure Represents (s : Mem α) (F : Family α) : Prop where
  obj : ∀ l, s.lists.lookup l = (F l).map SList.ofNodes
  chains : Partition (link s.nodes) F.nodes

theorem Family.nodes_of_eq {F : Family α} {l : ObjId} {ns : List (Addr × α)} (h : F l = some ns) :
    F.nodes l = ns := by
  simp [Family.nodes, h]

theorem Family.nodes_of_none {F : Family α} {l : ObjId} (h : F l = none) : F.nodes l = [] := by
  simp [Family.nodes, h]

theorem Family.nodes_update (F : Family α) (l : ObjId) (o : Option (List (Addr × α))) :
    Family.nodes (Function.update F l o) = Function.update F.nodes l (o.getD []) := by
  funext l'
  by_cases h : l' = l
  · subst h; simp [Family.nodes]
  · simp [Family.nodes, Function.update_of_ne h]

namespace Represents

variable {s s' : Mem α} {F : Family α} {l : ObjId} {ns ms : List (Addr × α)} {a : Addr} {v : α}

/-- No lists and no nodes. -/
theorem empty (allocs : List (Option Addr)) :
    Represents (α := α) ⟨∅, ∅, allocs⟩ fun _ => none where
  obj l := by simp
  chains := Partition.empty (fun _ => link_eq_none.mpr Finmap.notMem_empty) fun _ => rfl

/-- The answers of the allocator are no part of a family. -/
theorem of_eq (h : Represents s F) (hn : s'.nodes = s.nodes) (hl : s'.lists = s.lists) :
    Represents s' F where
  obj l := hl ▸ h.obj l
  chains := hn ▸ h.chains

theorem lookup (h : Represents s F) (hl : F l = some ns) :
    s.lists.lookup l = some (SList.ofNodes ns) := by
  rw [h.obj, hl]; rfl

theorem seg (h : Represents s F) (hl : F l = some ns) :
    Seg (link s.nodes) (first ns none) ns none := by
  simpa [Family.nodes_of_eq hl] using h.chains.seg l

theorem nodup (h : Represents s F) (hl : F l = some ns) : (addrs ns).Nodup :=
  (h.seg hl).nodup

/-- The node at a place of a list: its value and the address of the next. -/
theorem node_at (xs ys : List (Addr × α)) (h : Represents s F)
    (hl : F l = some (xs ++ (a, v) :: ys)) :
    s.nodes.lookup a = some ⟨first ys none, v⟩ :=
  link_eq_some.mp (h.seg hl).link_mid

theorem mem_nodes (h : Represents s F) (hl : F l = some ns) (ha : a ∈ addrs ns) :
    a ∈ s.nodes := by
  simpa using (h.seg hl).link_ne_none ha

/-- The live nodes are the nodes the lists own. -/
theorem mem_nodes_iff (h : Represents s F) : a ∈ s.nodes ↔ ∃ l, a ∈ addrs (F.nodes l) := by
  constructor
  · intro ha
    exact h.chains.owner a fun hnone => link_eq_none.mp hnone ha
  · intro howner
    obtain ⟨l, ha⟩ := howner
    by_contra hdead
    exact h.chains.live ha (link_eq_none.mpr hdead)

/-- A list is no longer than the node store. -/
theorem length_lt_fuel (h : Represents s F) (hl : F l = some ns) : ns.length < s.fuel := by
  have hsub : (addrs ns).toFinset ⊆ s.nodes.keys := by
    intro a ha
    exact Finmap.mem_keys.mpr (h.mem_nodes hl (List.mem_toFinset.mp ha))
  have hcard := Finset.card_le_card hsub
  rw [List.toFinset_card_of_nodup (h.nodup hl), length_addrs] at hcard
  exact Nat.lt_succ_of_le hcard

/-- Every live list, and no other, is in the object table. -/
theorem mem_lists (h : Represents s F) : l ∈ s.lists ↔ (F l).isSome := by
  rw [← Finmap.lookup_isSome, h.obj, Option.isSome_map]

/-! ### Rules

An insertion and a removal change one link, or none when they happen at the front. The general
rules `insertNode` and `removeNode` are stated about a node between two parts of a list; their
two cases are what a method really has. -/

/-- The object table after one list has been given other nodes. -/
theorem obj_update (h : Represents s F) (l : ObjId) (ms : List (Addr × α)) (l' : ObjId) :
    (s.lists.insert l (SList.ofNodes ms)).lookup l' =
      (Function.update F l (some ms) l').map SList.ofNodes := by
  by_cases hl : l' = l
  · subst hl; simp
  · rw [Finmap.lookup_insert_of_ne _ hl, Function.update_of_ne hl, h.obj]

/-- **One list is rewritten**, using nodes it had and fresh ones, and freeing the rest. -/
theorem update (h : Represents s F) (hl : F.nodes l = ns)
    (hobj : s'.lists = s.lists.insert l (SList.ofNodes ms))
    (hseg : Seg (link s'.nodes) (first ms none) ms none)
    (hframe : ∀ a, a ∉ addrs ns → a ∉ addrs ms → link s'.nodes a = link s.nodes a)
    (hnew : ∀ a ∈ addrs ms, a ∈ addrs ns ∨ a ∉ s.nodes)
    (hgone : ∀ a ∈ addrs ns, a ∉ addrs ms → a ∉ s'.nodes) :
    Represents s' (Function.update F l (some ms)) := by
  subst hl
  refine ⟨fun l' => by rw [hobj]; exact h.obj_update l ms l', ?_⟩
  rw [Family.nodes_update]
  exact h.chains.update l hseg hframe (fun a ha => (hnew a ha).imp_right link_eq_none.mpr)
    fun a ha ha' => link_eq_none.mpr (hgone a ha ha')

/-- **A fresh node is linked in** between `xs` and `ys`. -/
theorem insertNode (xs ys : List (Addr × α)) (h : Represents s F) (hl : F l = some (xs ++ ys))
    (ha : a ∉ s.nodes)
    (hobj : s'.lists = s.lists.insert l (SList.ofNodes (xs ++ (a, v) :: ys)))
    (hlink : link s'.nodes a = some (first ys none, v))
    (hlast : ∀ b w, xs.getLast? = some (b, w) → link s'.nodes b = some (some a, w))
    (hframe : ∀ b, b ≠ a → last xs ≠ some b → link s'.nodes b = link s.nodes b) :
    Represents s' (Function.update F l (some (xs ++ (a, v) :: ys))) := by
  have hmem : ∀ b ∈ addrs (xs ++ ys), b ≠ a := by
    rintro b hb rfl
    exact ha (h.mem_nodes hl hb)
  refine h.update (Family.nodes_of_eq hl) hobj ?_ ?_ ?_ ?_
  · refine Seg.splice [] [(a, v)] (h.seg hl) ?_ ?_ ?_ ?_
    · exact fun b hb hne => hframe b (hmem b (by simp [hb])) hne
    · exact hlast
    · exact ⟨rfl, _, hlink, rfl⟩
    · intro b hb
      refine hframe b (hmem b (by simp [hb])) fun hx => ?_
      have hnd := h.nodup hl
      rw [addrs_append] at hnd
      exact List.disjoint_of_nodup_append hnd (last_mem_addrs hx) hb
  · intro b hb hb'
    refine hframe b ?_ fun hx => hb (by simp [last_mem_addrs hx])
    rintro rfl
    exact hb' (by simp)
  · intro b hb
    by_cases hba : b = a
    · exact .inr (hba ▸ ha)
    · exact .inl (by simpa [hba] using hb)
  · intro b hb hb'
    exact absurd hb fun hb => hb' (by simp at hb ⊢; tauto)

/-- `insertNode` at the front, where no link changes. -/
theorem insertFront (ys : List (Addr × α)) (h : Represents s F) (hl : F l = some ys)
    (ha : a ∉ s.nodes) (hnodes : s'.nodes = s.nodes.insert a ⟨first ys none, v⟩)
    (hobj : s'.lists = s.lists.insert l (SList.ofNodes ((a, v) :: ys))) :
    Represents s' (Function.update F l (some ((a, v) :: ys))) := by
  refine h.insertNode [] ys hl ha hobj ?_ ?_ ?_
  · rw [hnodes, link_insert_self]
  · intro b w hb
    cases hb
  · intro b hba _
    rw [hnodes, link_insert_of_ne hba]

/-- `insertNode` behind a node `b`, whose link is the only one that changes. -/
theorem insertBehind {b : Addr} {w : α} (xs ys : List (Addr × α)) (h : Represents s F)
    (hl : F l = some (xs ++ [(b, w)] ++ ys)) (ha : a ∉ s.nodes)
    (hnodes : s'.nodes = (s.nodes.insert a ⟨first ys none, v⟩).insert b ⟨some a, w⟩)
    (hobj : s'.lists = s.lists.insert l (SList.ofNodes (xs ++ [(b, w)] ++ (a, v) :: ys))) :
    Represents s' (Function.update F l (some (xs ++ [(b, w)] ++ (a, v) :: ys))) := by
  have hab : a ≠ b := by
    rintro rfl
    exact ha (h.mem_nodes hl (by simp))
  refine h.insertNode (xs ++ [(b, w)]) ys hl ha hobj ?_ ?_ ?_
  · rw [hnodes, link_insert_of_ne hab, link_insert_self]
  · intro c u hc
    obtain ⟨rfl, rfl⟩ : b = c ∧ w = u := by simpa using hc
    rw [hnodes, link_insert_self]
  · intro c hca hcb
    have hne : c ≠ b := by simpa [eq_comm] using hcb
    rw [hnodes, link_insert_of_ne hne, link_insert_of_ne hca]

/-- After one node more went into a list, the allocator serves one request less. -/
theorem served_of_took {n : Nat} (h : Represents s F) (ht : Took s a s')
    (h' : Represents s' (Function.update F l (some ms)))
    (hms : ∀ b ∈ addrs ms, b = a ∨ b ∈ addrs (F.nodes l)) (hs : s.Served (n + 1)) :
    s'.Served n := by
  refine ht.served hs fun b hb => ?_
  obtain ⟨l', hl'⟩ := h'.mem_nodes_iff.mp hb
  rw [Family.nodes_update] at hl'
  by_cases hll : l' = l
  · subst hll
    rw [Function.update_self] at hl'
    exact (hms b hl').imp_right fun hold => h.mem_nodes_iff.mpr ⟨l', hold⟩
  · rw [Function.update_of_ne hll] at hl'
    exact .inr (h.mem_nodes_iff.mpr ⟨l', hl'⟩)

/-- The same node, as the first of several that are given out. -/
theorem gave_of_took {s'' : Mem α} {as : List Addr} (h : Represents s F) (ht : Took s a s')
    (h' : Represents s' (Function.update F l (some ms)))
    (hms : ∀ b, b = a ∨ b ∈ addrs (F.nodes l) → b ∈ addrs ms) (hg : Gave s' as s'') :
    Gave s (a :: as) s'' := by
  refine ht.gave_cons hg fun b hb => h'.mem_nodes_iff.mpr ?_
  rw [Family.nodes_update]
  rcases hb with rfl | hb
  · exact ⟨l, by simpa using hms b (.inl rfl)⟩
  · obtain ⟨l', hl'⟩ := h.mem_nodes_iff.mp hb
    refine ⟨l', ?_⟩
    by_cases hll : l' = l
    · subst hll; simpa using hms b (.inr hl')
    · rwa [Function.update_of_ne hll]

/-- **A node is unlinked** from between `xs` and `ys` and freed. -/
theorem removeNode (xs ys : List (Addr × α)) (h : Represents s F)
    (hl : F l = some (xs ++ (a, v) :: ys))
    (hobj : s'.lists = s.lists.insert l (SList.ofNodes (xs ++ ys)))
    (hdead : a ∉ s'.nodes)
    (hlast : ∀ b w, xs.getLast? = some (b, w) → link s'.nodes b = some (first ys none, w))
    (hframe : ∀ b, b ≠ a → last xs ≠ some b → link s'.nodes b = link s.nodes b) :
    Represents s' (Function.update F l (some (xs ++ ys))) := by
  have hnd := h.nodup hl
  simp only [addrs_append, addrs_cons, List.nodup_append, List.nodup_cons, List.mem_cons] at hnd
  obtain ⟨-, ⟨hay, -⟩, hdisj⟩ := hnd
  have hax : a ∉ addrs xs := fun hx => hdisj a hx a (.inl rfl) rfl
  refine h.update (Family.nodes_of_eq hl) hobj ?_ ?_ ?_ ?_
  · refine Seg.splice [(a, v)] [] (h.seg hl) ?_ hlast rfl ?_
    · exact fun b hb hne => hframe b (fun hba => hax (hba ▸ hb)) hne
    · refine fun b hb => hframe b (fun hba => hay (hba ▸ hb)) fun hx => ?_
      exact hdisj b (last_mem_addrs hx) b (.inr hb) rfl
  · intro b hb _
    refine hframe b ?_ fun hx => hb (by simp [last_mem_addrs hx])
    rintro rfl
    exact hb (by simp)
  · exact fun b hb => .inl (by simp at hb ⊢; tauto)
  · intro b hb hb'
    obtain rfl : b = a := by simp at hb hb'; tauto
    exact hdead

/-- `removeNode` at the front, where no link changes. -/
theorem removeFront (ys : List (Addr × α)) (h : Represents s F) (hl : F l = some ((a, v) :: ys))
    (hnodes : s'.nodes = s.nodes.erase a)
    (hobj : s'.lists = s.lists.insert l (SList.ofNodes ys)) :
    Represents s' (Function.update F l (some ys)) := by
  refine h.removeNode [] ys hl hobj ?_ ?_ ?_
  · rw [hnodes]
    exact Finmap.notMem_erase_self
  · intro b w hb
    cases hb
  · intro b hba _
    rw [hnodes, link_erase_of_ne hba]

/-- `removeNode` behind a node `b`, whose link is the only one that changes. -/
theorem removeBehind {b : Addr} {w : α} (xs ys : List (Addr × α)) (h : Represents s F)
    (hl : F l = some (xs ++ [(b, w)] ++ (a, v) :: ys))
    (hobj : s'.lists = s.lists.insert l (SList.ofNodes (xs ++ [(b, w)] ++ ys)))
    (hdead : a ∉ s'.nodes) (hb : link s'.nodes b = some (first ys none, w))
    (hframe : ∀ c, c ≠ a → c ≠ b → link s'.nodes c = link s.nodes c) :
    Represents s' (Function.update F l (some (xs ++ [(b, w)] ++ ys))) := by
  refine h.removeNode (xs ++ [(b, w)]) ys hl hobj hdead ?_ ?_
  · intro c u hc
    obtain ⟨rfl, rfl⟩ : b = c ∧ w = u := by simpa using hc
    exact hb
  · exact fun c hc hcb => hframe c hc (by simpa [eq_comm] using hcb)

/-- **Sequences change hands**, the node store staying as it is. -/
theorem permute {F' : Family α} (h : Represents s F) (hn : s'.nodes = s.nodes)
    (hobj : ∀ l, s'.lists.lookup l = (F' l).map SList.ofNodes) (σ : Equiv.Perm ObjId)
    (hσ : ∀ l, F'.nodes l = F.nodes (σ l)) : Represents s' F' := by
  refine ⟨hobj, ?_⟩
  have hF : F'.nodes = F.nodes ∘ σ := funext hσ
  rw [hn, hF]
  exact h.chains.permute σ

/-- Two objects exchange their sequences; of the one, there may have been none. -/
theorem exchange {l' : ObjId} (h : Represents s F) (hne : l ≠ l') (hl : F.nodes l = ns)
    (hl' : F.nodes l' = ms) (hn : s'.nodes = s.nodes)
    (hobj : s'.lists.lookup l = some (SList.ofNodes ms))
    (hobj' : s'.lists.lookup l' = some (SList.ofNodes ns))
    (hrest : ∀ k, k ≠ l → k ≠ l' → s'.lists.lookup k = s.lists.lookup k) :
    Represents s' (Function.update (Function.update F l (some ms)) l' (some ns)) := by
  refine h.permute hn (fun k => ?_) (Equiv.swap l l') fun k => ?_
  · by_cases hk' : k = l'
    · subst hk'
      simp [hobj']
    · by_cases hk : k = l
      · subst hk
        simp [hobj, Function.update_of_ne hk']
      · simp [hrest k hk hk', hk, hk', Function.update_of_ne, h.obj]
  · by_cases hk' : k = l'
    · subst hk'
      simp [Family.nodes, ← hl]
    · by_cases hk : k = l
      · subst hk
        simp [Family.nodes, ← hl', Function.update_of_ne hk']
      · simp [Family.nodes, hk, hk', Function.update_of_ne, Equiv.swap_apply_of_ne_of_ne]

/-- An empty list comes into being. -/
theorem create (h : Represents s F) (hl : F l = none) :
    Represents { s with lists := s.lists.insert l (SList.ofNodes ([] : List (Addr × α))) }
      (Function.update F l (some [])) := by
  refine h.permute rfl (fun l' => h.obj_update l [] l') (Equiv.refl _) fun l' => ?_
  by_cases hl' : l' = l
  · subst hl'; simp [Family.nodes, hl]
  · simp [Family.nodes, Function.update_of_ne hl']

/-- An empty list goes away. -/
theorem release (h : Represents s F) (hl : F l = some []) :
    Represents { s with lists := s.lists.erase l } (Function.update F l none) := by
  refine h.permute rfl (fun l' => ?_) (Equiv.refl _) fun l' => ?_
  · by_cases hl' : l' = l
    · subst hl'; simp
    · rw [Finmap.lookup_erase_ne hl', Function.update_of_ne hl', h.obj]
  · by_cases hl' : l' = l
    · subst hl'; simp [Family.nodes, hl]
    · simp [Family.nodes, Function.update_of_ne hl']

/-- A family determines the objects and the node store that hold it. -/
theorem unique (h : Represents s F) (h' : Represents s' F) :
    s.nodes = s'.nodes ∧ s.lists = s'.lists := by
  have hlink : ∀ {s s' : Mem α}, Represents s F → Represents s' F →
      ∀ a n, s.nodes.lookup a = some n → s'.nodes.lookup a = some n := by
    intro s s' h h' a n ha
    obtain ⟨l, hl⟩ := h.chains.owner a (by simp [Finmap.mem_of_lookup_eq_some ha])
    obtain ⟨⟨b, v⟩, hn, rfl⟩ := List.mem_map.mp hl
    obtain ⟨xs, ys, hns⟩ := List.append_of_mem hn
    have hthis := (hns ▸ h.chains.seg l).link_mid
    have hthat := (hns ▸ h'.chains.seg l).link_mid
    rw [link_eq_some] at hthis hthat
    rw [hthat, ← hthis, ha]
  constructor
  · refine Finmap.ext_lookup fun a => ?_
    cases ha : s.nodes.lookup a with
    | some n => exact (hlink h h' a n ha).symm
    | none =>
        cases ha' : s'.nodes.lookup a with
        | none => rfl
        | some n => exact absurd (hlink h' h a n ha') (by simp [ha])
  · exact Finmap.ext_lookup fun l => by rw [h.obj, h'.obj]

end Represents

end CoreSystems
