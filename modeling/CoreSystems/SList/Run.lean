import CoreSystems.SList.Elements
import CoreSystems.SList.Transfer

/-!
# CoreSystems.SList.Run

Programs over `SList<T>` variables: the public operations, what a client has to respect to
call them (`Op.Valid`), and the runs they make up.

`Op.relinks` is the one theorem about a single operation: from a memory that holds a family
of nodes, it returns in a memory that holds the family its operation on nodes leads to, or
throws — when the allocator refused one of its requests — and the family is what it was.
`Op.steps` is what that means for the values, and `Run.settled` carries it over whole runs.

Between the two stands the family of nodes. It has the addresses, which the sequences do not
have and iterators need, so `Op.relinks` is stated about it; and it has no pointers, which the
memory has, so a run is an induction over sequence operations.
-/

namespace CoreSystems

open Chain Exec

variable {α : Type}

/-! ### Positions

The model of sequences counts elements, the methods are given iterators. `gapAfter` and
`gapBefore` translate, in the memory of the moment, and fail on iterators that a caller must
not pass. -/

/-- The nodes of a list object, walked from `m_head`. -/
def Mem.chain (s : Mem α) (l : ObjId) : List (Addr × α) :=
  match s.lists.lookup l with
  | none => []
  | some o => walk (link s.nodes) s.fuel o.head

/-- The number of elements up to and including a position of the list `l`. `end()` has
nothing behind it, and `before_begin()` of another list is no position of this one. -/
def gapAfter (l : ObjId) (ns : List (Addr × α)) : Iterator → Option Nat
  | none => none
  | some (.beforeHead l') => if l' = l then some 0 else none
  | some (.node a) => if a ∈ addrs ns then some ((addrs ns).idxOf a + 1) else none

/-- The number of elements in front of a position; `before_begin()` ends no range. -/
def gapBefore (ns : List (Addr × α)) : Iterator → Option Nat
  | none => some ns.length
  | some (.beforeHead _) => none
  | some (.node a) => if a ∈ addrs ns then some ((addrs ns).idxOf a) else none

/-- The node of a list that has a given address. -/
theorem getElem_idxOf_addrs {ns : List (Addr × α)} {a : Addr} (ha : a ∈ addrs ns) :
    ∃ h : (addrs ns).idxOf a < ns.length, (ns[(addrs ns).idxOf a]).1 = a := by
  have hlt : (addrs ns).idxOf a < ns.length := by simpa using List.idxOf_lt_length_of_mem ha
  have hget := List.getElem_idxOf (List.idxOf_lt_length_of_mem ha)
  exact ⟨hlt, by simpa only [addrs, List.getElem_map] using hget⟩

/-- A position is the one behind the elements it counts. -/
theorem gapAfter_eq {l : ObjId} {ns : List (Addr × α)} {pos : Iterator} {i : Nat}
    (h : gapAfter l ns pos = some i) :
    i ≤ ns.length ∧ pos = some (SList.posAfter l (ns.take i)) := by
  rcases pos with _ | ⟨l' | a⟩
  · cases h
  · obtain ⟨rfl, rfl⟩ : l' = l ∧ 0 = i := by simpa [gapAfter] using h
    simp
  · obtain ⟨ha, rfl⟩ : a ∈ addrs ns ∧ (addrs ns).idxOf a + 1 = i := by simpa [gapAfter] using h
    obtain ⟨hlt, hfst⟩ := getElem_idxOf_addrs ha
    refine ⟨hlt, ?_⟩
    rw [List.take_succ_eq_append_getElem hlt, SList.posAfter_concat, hfst]

/-- A position is the one in front of the elements it does not count. -/
theorem gapBefore_eq {ns : List (Addr × α)} {pos : Iterator} {j : Nat}
    (h : gapBefore ns pos = some j) :
    j ≤ ns.length ∧ pos = SList.iterTo (ns.drop j) := by
  rcases pos with _ | ⟨l' | a⟩
  · obtain rfl : ns.length = j := by simpa [gapBefore] using h
    simp [SList.iterTo]
  · cases h
  · obtain ⟨ha, rfl⟩ : a ∈ addrs ns ∧ (addrs ns).idxOf a = j := by simpa [gapBefore] using h
    obtain ⟨hlt, hfst⟩ := getElem_idxOf_addrs ha
    refine ⟨hlt.le, ?_⟩
    rw [List.drop_eq_getElem_cons hlt, SList.iterTo_cons, hfst]

/-! ### Operations

An operation is a method with its operands, where operands are variables of the client. So the
operands of `swap` and of the assignments can be one object. -/

/-- The public operations, on variables of the client program. -/
inductive Op (α : Type)
  | construct (x : Nat)
  | constructValue (x : Nat) (v : α)
  | constructInit (x : Nat) (vs : List α)
  | constructCopy (x y : Nat)
  | constructMove (x y : Nat)
  | assignCopy (x y : Nat)
  | assignMove (x y : Nat)
  | emplaceBack (x : Nat) (v : α)
  | pushBack (x : Nat) (v : α)
  | emplaceFront (x : Nat) (v : α)
  | pushFront (x : Nat) (v : α)
  | emplaceAfter (x : Nat) (pos : Iterator) (v : α)
  | insertAfter (x : Nat) (pos : Iterator) (v : α)
  | popBack (x : Nat)
  | popFront (x : Nat)
  | eraseAfter (x : Nat) (pos : Iterator)
  | eraseAfterRange (x : Nat) (first last : Iterator)
  | clear (x : Nat)
  | swap (x y : Nat)
  | destroy (x : Nat)

/-- The method an operation calls. What a method returns is dropped; iterators that it returns
can be had again by walking. -/
def Op.exec : Op α → M α Unit
  | .construct x => SList.construct (.var x)
  | .constructValue x v => SList.constructValue (.var x) v
  | .constructInit x vs => SList.constructInit (.var x) vs
  | .constructCopy x y => SList.constructCopy (.var x) (.var y)
  | .constructMove x y => SList.constructMove (.var x) (.var y)
  | .assignCopy x y => SList.assignCopy (.var x) (.var y)
  | .assignMove x y => SList.assignMove (.var x) (.var y)
  | .emplaceBack x v => SList.emplaceBack (.var x) v
  | .pushBack x v => SList.pushBack (.var x) v
  | .emplaceFront x v => SList.emplaceFront (.var x) v
  | .pushFront x v => SList.pushFront (.var x) v
  | .emplaceAfter x pos v => do let _ ← SList.emplaceAfter (.var x) pos v
  | .insertAfter x pos v => do let _ ← SList.insertAfter (.var x) pos v
  | .popBack x => SList.popBack (.var x)
  | .popFront x => SList.popFront (.var x)
  | .eraseAfter x pos => do let _ ← SList.eraseAfter (.var x) pos
  | .eraseAfterRange x first last => do let _ ← SList.eraseAfterRange (.var x) first last
  | .clear x => SList.clear (.var x)
  | .swap x y => SList.swap (.var x) (.var y)
  | .destroy x => SList.destroy (.var x)

/-- What a caller has to respect: a constructor is given storage without an object, every
other operand is an object, a position belongs to the list, an erased position has a
successor, and a range ends strictly after it begins. -/
def Op.Valid (s : Mem α) : Op α → Prop
  | .construct x | .constructValue x _ | .constructInit x _ => .var x ∉ s.lists
  | .constructCopy x y | .constructMove x y => .var x ∉ s.lists ∧ .var y ∈ s.lists
  | .assignCopy x y | .assignMove x y | .swap x y => .var x ∈ s.lists ∧ .var y ∈ s.lists
  | .emplaceBack x _ | .pushBack x _ | .emplaceFront x _ | .pushFront x _ | .popBack x
  | .popFront x | .clear x | .destroy x => .var x ∈ s.lists
  | .emplaceAfter x pos _ | .insertAfter x pos _ => .var x ∈ s.lists ∧
      ∃ i, gapAfter (.var x) (s.chain (.var x)) pos = some i
  | .eraseAfter x pos => .var x ∈ s.lists ∧
      ∃ i, gapAfter (.var x) (s.chain (.var x)) pos = some i ∧ i < (s.chain (.var x)).length
  | .eraseAfterRange x first last => .var x ∈ s.lists ∧
      ∃ i j, gapAfter (.var x) (s.chain (.var x)) first = some i ∧
        gapBefore (s.chain (.var x)) last = some j ∧ i ≤ j

/-- The operation on sequences that a method stands for. -/
def Op.toSeq (s : Mem α) : Op α → SeqOp Nat α
  | .construct x => .init x []
  | .constructValue x v => .init x [v]
  | .constructInit x vs => .init x vs
  | .constructCopy x y | .assignCopy x y => .copy x y
  | .constructMove x y | .assignMove x y => .move x y
  | .emplaceBack x v | .pushBack x v => .append x v
  | .emplaceFront x v | .pushFront x v => .prepend x v
  | .emplaceAfter x pos v | .insertAfter x pos v =>
      .insertAfter x ((gapAfter (.var x) (s.chain (.var x)) pos).getD 0) v
  | .popBack x => .dropLast x
  | .popFront x => .dropFirst x
  | .eraseAfter x pos => .deleteAfter x ((gapAfter (.var x) (s.chain (.var x)) pos).getD 0)
  | .eraseAfterRange x first last =>
      .deleteRange x ((gapAfter (.var x) (s.chain (.var x)) first).getD 0)
        ((gapBefore (s.chain (.var x)) last).getD 0)
  | .clear x => .makeEmpty x
  | .swap x y => .exchange x y
  | .destroy x => .destroy x

/-- How many nodes an operation allocates. A copy allocates one for each element, also when it
is assigned to its own source. -/
def Op.demand (s : Mem α) : Op α → Nat
  | .constructValue _ _ | .emplaceBack _ _ | .pushBack _ _ | .emplaceFront _ _ | .pushFront _ _
  | .emplaceAfter _ _ _ | .insertAfter _ _ _ => 1
  | .constructInit _ vs => vs.length
  | .constructCopy _ y | .assignCopy _ y => (s.chain (.var y)).length
  | .construct _ | .constructMove _ _ | .assignMove _ _ | .popBack _ | .popFront _
  | .eraseAfter _ _ | .eraseAfterRange _ _ _ | .clear _ | .swap _ _ | .destroy _ => 0

/-! ### One operation

Each method has its rule in `CoreSystems.SList.Insert`, `Remove` or `Transfer`. What is left
to show here is that the family which the rule gives is that of the sequence operation, and
how many answers of the allocator it took. -/

/-- The nodes of the variables' lists, as labelled elements in the sense of
`CoreSystems.SList.Elements`. -/
def Family.lists (F : Family α) : Seqs Nat (Addr × α) := fun x => F (.var x)

/-- The sequences a family of nodes stands for. -/
def Family.values (F : Family α) : Seqs Nat α := fun x => (F (.var x)).map (List.map Prod.snd)

theorem Family.values_of_eq {F : Family α} {x : Nat} {ns : List (Addr × α)}
    (h : F (.var x) = some ns) : F.values x = some (ns.map Prod.snd) := by
  simp [Family.values, h]

theorem Family.lists_update (F : Family α) (x : Nat) (o : Option (List (Addr × α))) :
    Family.lists (Function.update F (.var x) o) = Function.update F.lists x o := by
  funext y
  by_cases h : y = x
  · subst h; simp [Family.lists]
  · have hvar : ObjId.var y ≠ .var x := by simpa using h
    simp [Family.lists, Function.update_of_ne h, Function.update_of_ne hvar]

/-- The memory holds a family, and no method is running: both unnamed objects are gone. -/
structure Settled (s : Mem α) (F : Family α) : Prop extends Represents s F where
  temp : F .temp = none
  rvalue : F .rvalue = none

namespace Settled

variable {s s' : Mem α} {F : Family α} {x : Nat} {ns : List (Addr × α)}

theorem chain_eq (h : Settled s F) {l : ObjId} (hl : F l = some ns) : s.chain l = ns := by
  simp only [Mem.chain, h.lookup hl]
  exact (h.seg hl).walk_eq (h.length_lt_fuel hl)

theorem live (h : Settled s F) (hx : .var x ∈ s.lists) : ∃ ns, F (.var x) = some ns :=
  Option.isSome_iff_exists.mp (h.mem_lists.mp hx)

theorem fresh (h : Settled s F) (hx : .var x ∉ s.lists) : F (.var x) = none := by
  simpa [h.mem_lists] using hx

/-- A refused request leaves the family as it was. -/
theorem threw {e : Exit} (h : Settled s F) (ht : Threw s e s') :
    e = .threw ∧ ¬ s.Served 1 ∧ Settled s' F := by
  obtain ⟨rfl, rfl, hrefused⟩ := ht
  exact ⟨rfl, hrefused, h.of_eq rfl rfl, h.temp, h.rvalue⟩

end Settled

/-- The operation on nodes that a method stands for when it is given the addresses `as`. -/
def Op.toNodes (s : Mem α) (F : Family α) (as : List Addr) (op : Op α) : SeqOp Nat (Addr × α) :=
  (op.toSeq s).label (fun i => as.getD i 0) F.lists

/-- What an operation that returns does to the nodes: it takes the answers it needs, and
leads to the family of its operation on nodes. -/
def Op.Relinked (op : Op α) (s : Mem α) (F : Family α) (s' : Mem α) : Prop :=
  ∃ F' as, Settled s' F' ∧ Gave s as s' ∧ as.length = op.demand s ∧
    F'.lists = (op.toNodes s F as).step F.lists

/-- What an operation does to a memory that holds `F`: it relinks the nodes, or an exception
has changed nothing. -/
def Op.Relinks (op : Op α) (s : Mem α) (F : Family α) : Prop :=
  wp op.exec (fun _ s' => op.Relinked s F s')
    (fun e s' => e = .threw ∧ ¬ s.Served (op.demand s) ∧ Settled s' F) s

/-- What an operation does to a memory that holds `F`: the family of its sequence
operation, or an exception that changed nothing. -/
def Op.Steps (op : Op α) (s : Mem α) (F : Family α) : Prop :=
  wp op.exec
    (fun _ s' => ∃ F', Settled s' F' ∧ F'.values = (op.toSeq s).step F.values)
    (fun e s' => e = .threw ∧ ¬ s.Served (op.demand s) ∧ Settled s' F) s

section Step

variable {s s' : Mem α} {F : Family α} {op : Op α} {as : List Addr} {x y : Nat}

/-- The method rewrote one variable. -/
theorem Op.relinked_of_update {o : Option (List (Addr × α))} (h : Settled s F)
    (h' : Represents s' (Function.update F (.var x) o)) (hg : Gave s as s')
    (hlen : as.length = op.demand s)
    (hS : (op.toNodes s F as).step F.lists = Function.update F.lists x o) :
    op.Relinked s F s' := by
  refine ⟨_, as, ⟨h', ?_, ?_⟩, hg, hlen, ?_⟩
  · simpa using h.temp
  · simpa using h.rvalue
  · rw [hS, Family.lists_update]

/-- The method rewrote two variables. -/
theorem Op.relinked_of_update_update {o o' : Option (List (Addr × α))} (h : Settled s F)
    (h' : Represents s' (Function.update (Function.update F (.var x) o) (.var y) o'))
    (hg : Gave s as s') (hlen : as.length = op.demand s)
    (hS : (op.toNodes s F as).step F.lists =
      Function.update (Function.update F.lists x o) y o') :
    op.Relinked s F s' := by
  refine ⟨_, as, ⟨h', ?_, ?_⟩, hg, hlen, ?_⟩
  · simpa using h.temp
  · simpa using h.rvalue
  · rw [hS, Family.lists_update, Family.lists_update]

/-- Nodes are the values they hold, labelled with their addresses. -/
theorem number_addrs (ms : List (Addr × α)) :
    number (fun i => (addrs ms).getD i 0) (ms.map Prod.snd) = ms := by
  refine List.ext_getElem (by simp [number]) fun i hi hi' => ?_
  simp [number, addrs, hi']

/-- The method made a list of new nodes. -/
theorem Op.relinked_of_init {vs : List α} {ms : List (Addr × α)} (h : Settled s F)
    (h' : Represents s' (Function.update F (.var x) (some ms))) (hg : Gave s (addrs ms) s')
    (hms : ms.map Prod.snd = vs) (hdemand : op.demand s = vs.length)
    (hop : op.toNodes s F (addrs ms) = .init x (number (fun i => (addrs ms).getD i 0) vs)) :
    op.Relinked s F s' := by
  subst hms
  refine Op.relinked_of_update h h' hg (by simp [hdemand]) ?_
  rw [hop, number_addrs]
  rfl

theorem Op.construct_relinks (h : Settled s F) (hv : (Op.construct x).Valid s) :
    (Op.construct x).Relinks s F :=
  SList.wp_construct h.toRepresents (h.fresh hv) fun _ hal _ h' =>
    relinked_of_update h h' (.nil hal) rfl rfl

theorem Op.constructValue_relinks (h : Settled s F) {v : α}
    (hv : (Op.constructValue x v).Valid s) : (Op.constructValue x v).Relinks s F :=
  SList.wp_constructValue h.toRepresents (h.fresh hv)
    (fun _ _ ht h' => relinked_of_update h h' ht.gave rfl rfl) fun _ _ ht => h.threw ht

theorem Op.constructInit_relinks (h : Settled s F) {vs : List α}
    (hv : (Op.constructInit x vs).Valid s) : (Op.constructInit x vs).Relinks s F :=
  SList.wp_constructInit vs h.toRepresents (h.fresh hv) h.temp (by simp)
    (fun _ _ hms hg h' => relinked_of_init h h' hg hms rfl rfl)
    fun _ hrefused h' => ⟨rfl, hrefused, h', h.temp, h.rvalue⟩

/-- Copying a list makes a list of new nodes. -/
theorem Op.toNodes_copy {ms : List (Addr × α)} (hy : F (.var y) = some ms)
    (hop : op.toSeq s = .copy x y) :
    op.toNodes s F as = .init x (number (fun i => as.getD i 0) (ms.map Prod.snd)) := by
  have hval : Seqs.values F.lists y = some (ms.map Prod.snd) := Family.values_of_eq hy
  rw [toNodes, hop, SeqOp.label, hval]

theorem Op.constructCopy_relinks (h : Settled s F) (hv : (Op.constructCopy x y).Valid s) :
    (Op.constructCopy x y).Relinks s F := by
  obtain ⟨ms, hms⟩ := h.live hv.2
  have hdemand : (Op.constructCopy x y).demand s = ms.length := by rw [demand, h.chain_eq hms]
  refine SList.wp_constructCopy h.toRepresents (h.fresh hv.1) h.temp (by simp) hms
    (fun ms' s' hms' hg h' => ?_) fun s' hrefused h' => ⟨rfl, ?_, h', h.temp, h.rvalue⟩
  · exact relinked_of_init h h' hg hms' (by simp [hdemand]) (toNodes_copy hms rfl)
  · rwa [hdemand]

theorem Op.assignCopy_relinks (h : Settled s F) (hv : (Op.assignCopy x y).Valid s) :
    (Op.assignCopy x y).Relinks s F := by
  obtain ⟨ns, hns⟩ := h.live hv.1
  obtain ⟨ms, hms⟩ := h.live hv.2
  have hdemand : (Op.assignCopy x y).demand s = ms.length := by rw [demand, h.chain_eq hms]
  refine SList.wp_assignCopy h.toRepresents hns hms h.temp h.rvalue
    (fun ms' s' hms' hg h' => ?_) fun s' hrefused h' => ⟨rfl, ?_, h', h.temp, h.rvalue⟩
  · exact relinked_of_init h h' hg hms' (by simp [hdemand]) (toNodes_copy hms rfl)
  · rwa [hdemand]

theorem Op.constructMove_relinks (h : Settled s F) (hv : (Op.constructMove x y).Valid s) :
    (Op.constructMove x y).Relinks s F := by
  obtain ⟨ms, hms⟩ := h.live hv.2
  have hne : x ≠ y := by rintro rfl; exact hv.1 hv.2
  refine SList.wp_constructMove h.toRepresents (h.fresh hv.1) hms
    fun s' hal h' => relinked_of_update_update h h' (.nil hal) rfl ?_
  rw [Function.update_comm hne, ← hms]
  rfl

theorem Op.assignMove_relinks (h : Settled s F) (hv : (Op.assignMove x y).Valid s) :
    (Op.assignMove x y).Relinks s F := by
  obtain ⟨ns, hns⟩ := h.live hv.1
  obtain ⟨ms, hms⟩ := h.live hv.2
  refine SList.wp_assignMove h.toRepresents hns hms h.rvalue
    fun s' hal h' => relinked_of_update_update h h' (.nil hal) rfl ?_
  rw [← hms]
  rfl

theorem Op.swap_relinks (h : Settled s F) (hv : (Op.swap x y).Valid s) :
    (Op.swap x y).Relinks s F := by
  obtain ⟨ns, hns⟩ := h.live hv.1
  obtain ⟨ms, hms⟩ := h.live hv.2
  refine SList.wp_swap h.toRepresents hns hms
    fun s' hal h' => relinked_of_update_update h h' (.nil hal) rfl ?_
  rw [← hms, ← hns]
  rfl

/-- Rewriting the sequence of a variable whose nodes are known. -/
theorem Family.modify_lists {ns : List (Addr × α)} (hx : F (.var x) = some ns)
    (f : List (Addr × α) → List (Addr × α)) :
    F.lists.modify x f = Function.update F.lists x (some (f ns)) := by
  rw [Seqs.modify, Family.lists, hx]
  rfl

theorem Op.emplaceBack_relinks (h : Settled s F) {v : α} (hv : (Op.emplaceBack x v).Valid s) :
    (Op.emplaceBack x v).Relinks s F := by
  obtain ⟨ns, hns⟩ := h.live hv
  refine SList.wp_emplaceBack h.toRepresents hns (fun a s' ht h' => ?_) fun _ _ ht => h.threw ht
  exact relinked_of_update h h' ht.gave rfl (Family.modify_lists hns _)

theorem Op.emplaceFront_relinks (h : Settled s F) {v : α} (hv : (Op.emplaceFront x v).Valid s) :
    (Op.emplaceFront x v).Relinks s F := by
  obtain ⟨ns, hns⟩ := h.live hv
  refine SList.wp_emplaceFront h.toRepresents hns (fun a s' ht h' => ?_) fun _ _ ht => h.threw ht
  exact relinked_of_update h h' ht.gave rfl (Family.modify_lists hns _)

theorem insertIdx_eq_append {β : Type} (vs : List β) {i : Nat} (hi : i ≤ vs.length) (v : β) :
    vs.insertIdx i v = vs.take i ++ v :: vs.drop i := by
  induction vs generalizing i with
  | nil =>
      obtain rfl : i = 0 := by simpa using hi
      rfl
  | cons w vs ih =>
      cases i with
      | zero => rfl
      | succ i => simp [ih (by simpa using hi)]

theorem Op.emplaceAfter_relinks (h : Settled s F) {pos : Iterator} {v : α}
    (hv : (Op.emplaceAfter x pos v).Valid s) : (Op.emplaceAfter x pos v).Relinks s F := by
  obtain ⟨hx, i, hi⟩ := hv
  obtain ⟨ns, hns⟩ := h.live hx
  have hchain := h.chain_eq hns
  rw [hchain] at hi
  obtain ⟨hle, rfl⟩ := gapAfter_eq hi
  have hsplit : F (.var x) = some (ns.take i ++ ns.drop i) := by rw [List.take_append_drop, hns]
  unfold Relinks exec
  rw [wp_bind]
  refine SList.wp_emplaceAfter h.toRepresents hsplit (fun a s' ht h' => ?_)
    fun _ _ ht => h.threw ht
  refine relinked_of_update h h' ht.gave rfl ?_
  rw [← insertIdx_eq_append ns hle, toNodes, toSeq, hchain, hi]
  exact Family.modify_lists hns _

theorem Op.eraseAfter_relinks (h : Settled s F) {pos : Iterator}
    (hv : (Op.eraseAfter x pos).Valid s) : (Op.eraseAfter x pos).Relinks s F := by
  obtain ⟨hx, i, hi, hlt⟩ := hv
  obtain ⟨ns, hns⟩ := h.live hx
  have hchain := h.chain_eq hns
  rw [hchain] at hi hlt
  obtain ⟨-, rfl⟩ := gapAfter_eq hi
  have hsplit : F (.var x) = some (ns.take i ++ (ns[i].1, ns[i].2) :: ns.drop (i + 1)) := by
    rw [hns, ← List.drop_eq_getElem_cons hlt, List.take_append_drop]
  unfold Relinks exec
  rw [wp_bind]
  refine SList.wp_eraseAfter h.toRepresents hsplit fun s' hal h' => ?_
  refine relinked_of_update h h' (.nil hal) rfl ?_
  rw [← List.eraseIdx_eq_take_drop_succ, toNodes, toSeq, hchain, hi]
  exact Family.modify_lists hns _

/-- The nodes in front of a range, in it, and from its end on. -/
theorem take_append_range {β : Type} (ns : List β) {i j : Nat} (hij : i ≤ j) :
    ns.take i ++ ((ns.drop i).take (j - i) ++ ns.drop j) = ns := by
  have hmid : (ns.drop i).drop (j - i) = ns.drop j := by
    rw [List.drop_drop, Nat.add_sub_cancel' hij]
  rw [← hmid, List.take_append_drop, List.take_append_drop]

theorem Op.eraseAfterRange_relinks (h : Settled s F) {first last : Iterator}
    (hv : (Op.eraseAfterRange x first last).Valid s) :
    (Op.eraseAfterRange x first last).Relinks s F := by
  obtain ⟨hx, i, j, hi, hj, hij⟩ := hv
  obtain ⟨ns, hns⟩ := h.live hx
  have hchain := h.chain_eq hns
  rw [hchain] at hi hj
  obtain ⟨-, rfl⟩ := gapAfter_eq hi
  obtain ⟨-, rfl⟩ := gapBefore_eq hj
  have hsplit : F (.var x) = some (ns.take i ++ ((ns.drop i).take (j - i) ++ ns.drop j)) := by
    rw [take_append_range ns hij, hns]
  unfold Relinks exec
  rw [wp_bind]
  refine SList.wp_eraseAfterRange h.toRepresents _ hsplit fun s' hal h' => ?_
  refine relinked_of_update h h' (.nil hal) rfl ?_
  rw [toNodes, toSeq, hchain, hi, hj]
  exact Family.modify_lists hns _

/-- Nothing was there to remove. -/
theorem Op.relinked_of_nil {f : List (Addr × α) → List (Addr × α)} (h : Settled s F)
    (hx : F (.var x) = some []) (hop : (op.toNodes s F []).step F.lists = F.lists.modify x f)
    (hf : f [] = []) (hdemand : op.demand s = 0) : op.Relinked s F s := by
  refine ⟨F, [], h, .nil rfl, hdemand.symm, ?_⟩
  rw [hop, Family.modify_lists hx, hf, ← hx]
  exact (Function.update_eq_self ..).symm

theorem Op.popBack_relinks (h : Settled s F) (hv : (Op.popBack x).Valid s) :
    (Op.popBack x : Op α).Relinks s F := by
  obtain ⟨ns, hns⟩ := h.live hv
  rcases List.eq_nil_or_concat ns with rfl | ⟨init, ⟨a, v⟩, rfl⟩
  · exact SList.wp_popBack_nil h.toRepresents hns (relinked_of_nil h hns rfl rfl rfl)
  · rw [List.concat_eq_append] at hns
    refine SList.wp_popBack h.toRepresents hns fun s' hal h' => ?_
    refine relinked_of_update h h' (.nil hal) rfl ((Family.modify_lists hns _).trans ?_)
    rw [List.dropLast_concat]

theorem Op.popFront_relinks (h : Settled s F) (hv : (Op.popFront x).Valid s) :
    (Op.popFront x : Op α).Relinks s F := by
  obtain ⟨ns, hns⟩ := h.live hv
  cases ns with
  | nil => exact SList.wp_popFront_nil h.toRepresents hns (relinked_of_nil h hns rfl rfl rfl)
  | cons n ns =>
      refine SList.wp_popFront h.toRepresents hns fun s' hal h' => ?_
      exact relinked_of_update h h' (.nil hal) rfl (Family.modify_lists hns _)

theorem Op.clear_relinks (h : Settled s F) (hv : (Op.clear x).Valid s) :
    (Op.clear x : Op α).Relinks s F := by
  obtain ⟨ns, hns⟩ := h.live hv
  refine SList.wp_clear h.toRepresents hns fun s' hal h' => ?_
  exact relinked_of_update h h' (.nil hal) rfl (Family.modify_lists hns _)

theorem Op.destroy_relinks (h : Settled s F) (hv : (Op.destroy x).Valid s) :
    (Op.destroy x : Op α).Relinks s F := by
  obtain ⟨ns, hns⟩ := h.live hv
  exact SList.wp_destroy h.toRepresents hns fun s' hal h' =>
    relinked_of_update h h' (.nil hal) rfl rfl

/-- **One operation on the nodes.** -/
theorem Op.relinks (h : Settled s F) (op : Op α) (hv : op.Valid s) : op.Relinks s F := by
  cases op with
  | construct x => exact construct_relinks h hv
  | constructValue x v => exact constructValue_relinks h hv
  | constructInit x vs => exact constructInit_relinks h hv
  | constructCopy x y => exact constructCopy_relinks h hv
  | constructMove x y => exact constructMove_relinks h hv
  | assignCopy x y => exact assignCopy_relinks h hv
  | assignMove x y => exact assignMove_relinks h hv
  | emplaceBack x v | pushBack x v => exact emplaceBack_relinks h hv
  | emplaceFront x v | pushFront x v => exact emplaceFront_relinks h hv
  | emplaceAfter x pos v | insertAfter x pos v => exact emplaceAfter_relinks h hv
  | popBack x => exact popBack_relinks h hv
  | popFront x => exact popFront_relinks h hv
  | eraseAfter x pos => exact eraseAfter_relinks h hv
  | eraseAfterRange x first last => exact eraseAfterRange_relinks h hv
  | clear x => exact clear_relinks h hv
  | swap x y => exact swap_relinks h hv
  | destroy x => exact destroy_relinks h hv

/-- **One operation on the sequences**: the nodes without their addresses. -/
theorem Op.steps (h : Settled s F) (op : Op α) (hv : op.Valid s) : op.Steps s F := by
  refine (Op.relinks h op hv).mono ?_ (fun _ _ he => he)
  rintro - s' ⟨F', as, hF', -, -, hlists⟩
  refine ⟨F', hF', ?_⟩
  calc F'.values = Seqs.values F'.lists := rfl
    _ = (op.toSeq s).step (Seqs.values F.lists) := by
        rw [hlists]
        exact SeqOp.values_step ..
    _ = (op.toSeq s).step F.values := rfl

end Step

/-! ### Runs

An operation that throws is a step of the run as well. It adds nothing to the sequence
operations, and that it changed nothing is part of `Op.Relinks`. -/

/-- The memory a program starts in: no lists, no nodes. -/
def Mem.start (allocs : List (Option Addr)) : Mem α := ⟨∅, ∅, allocs⟩

/-- The runs of a program: any number of valid operations, each of which returns or throws.
The run remembers the sequence operations of those that returned. -/
inductive Run (allocs : List (Option Addr)) : List (SeqOp Nat α) → Mem α → Prop
  | start : Run allocs [] (Mem.start allocs)
  | returned {ops : List (SeqOp Nat α)} {s s' : Mem α} {op : Op α} : Run allocs ops s →
      op.Valid s → op.exec s = .ok () s' → Run allocs (ops ++ [op.toSeq s]) s'
  | threw {ops : List (SeqOp Nat α)} {s s' : Mem α} {op : Op α} : Run allocs ops s →
      op.Valid s → op.exec s = .error .threw s' → Run allocs ops s'

/-- **A whole run** holds the family that its sequence operations lead to. -/
theorem Run.settled {allocs : List (Option Addr)} {ops : List (SeqOp Nat α)} {s : Mem α}
    (h : Run allocs ops s) : ∃ F, Settled s F ∧ F.values = SeqOp.run ops := by
  induction h with
  | start => exact ⟨fun _ => none, ⟨.empty allocs, rfl, rfl⟩, rfl⟩
  | @returned ops s s' op _ hv hx ih =>
      obtain ⟨F, hF, hval⟩ := ih
      obtain ⟨F', hF', hval'⟩ := (Op.steps hF op hv).ok hx
      exact ⟨F', hF', by rw [hval', hval, SeqOp.run_concat]⟩
  | @threw ops s s' op _ hv hx ih =>
      obtain ⟨F, hF, hval⟩ := ih
      exact ⟨F, ((Op.steps hF op hv).error hx).2.2, hval⟩

end CoreSystems
