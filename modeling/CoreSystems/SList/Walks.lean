import CoreSystems.SList.Client
import CoreSystems.SList.Ownership

/-!
# CoreSystems.SList.Walks

The read-only walks: `operator==`, `contains`, iteration and `operator<<`.

Each walk is proved by induction on the nodes still in front of it, those behind it being
fixed, so that the node it stands on has a place in its list (`Represents.node_at`). The
memory never changes, and a walk takes one round for each node and one to see the end,
which is what its bound allows.

The equality of the elements is any Boolean function and what they print any text, since the
list asks nothing of them. In particular an element need not be equal to itself.
-/

namespace CoreSystems

open Chain Exec

variable {α : Type} {s : Mem α} {F : Family α} {l l' : ObjId} {ns ms : List (Addr × α)}

/-! ### A client's loop

The loop that `for (auto& v : list)` stands for. It is not code of the library, but the
iterators are there for it. -/

/-- One round of `for (; it != end; ++it)`, noting the iterator and the value it reads. -/
def visitRound : Iterator × List (Iterator × α) →
    M α ((Iterator × List (Iterator × α)) ⊕ List (Iterator × α))
  | (it, seen) => do
    if it = none then
      return .inr seen
    let v ← SList.dereference it
    return .inl (← SList.increment it, seen ++ [(it, v)])

/-- What a loop from `it` to `end()` visits. -/
def visit (it : Iterator) : M α (List (Iterator × α)) := loop visitRound (it, [])

/-- The iterators to some nodes, with the values there. -/
def visits (ns : List (Addr × α)) : List (Iterator × α) := ns.map fun n => (some (.node n.1), n.2)

/-! ### The walks

One lemma for each loop, from any node of the list on, and from it the walk of the whole list. -/

/-- Two sequences are equal, as far as `eq` says. -/
def Pointwise (eq : α → α → Bool) (vs ws : List α) : Prop :=
  vs.length = ws.length ∧ ∀ (i : Nat) v w, vs[i]? = some v → ws[i]? = some w → eq v w = true

/-- The first elements agree, and the rest does. -/
theorem pointwise_cons {eq : α → α → Bool} {v w : α} {vs ws : List α} :
    Pointwise eq (v :: vs) (w :: ws) ↔ eq v w = true ∧ Pointwise eq vs ws := by
  constructor
  · intro ⟨hlen, hget⟩
    exact ⟨hget 0 v w rfl rfl, by simpa using hlen, fun i v' w' hv hw => hget (i + 1) v' w' hv hw⟩
  · intro ⟨hvw, hlen, hget⟩
    refine ⟨by simpa using hlen, fun i v' w' hv hw => ?_⟩
    cases i with
    | zero =>
        obtain rfl := Option.some.inj hv
        obtain rfl := Option.some.inj hw
        exact hvw
    | succ i => exact hget i v' w' hv hw

theorem wp_equalLoop (eq : α → α → Bool) (xs xs' : List (Addr × α)) (h : Represents s F)
    (hl : F l = some (xs ++ ns)) (hl' : F l' = some (xs' ++ ms)) (hlen : ns.length = ms.length)
    {k : Nat} (hk : ns.length < k) :
    wp (loopN .diverged (SList.equalRound eq) k (first ns none, first ms none))
      (fun b s' => (b = true ↔ Pointwise eq (ns.map Prod.snd) (ms.map Prod.snd)) ∧ s' = s)
      (fun _ _ => False) s := by
  induction ns generalizing xs xs' ms k with
  | nil =>
      obtain ⟨k, rfl⟩ := Nat.exists_eq_succ_of_ne_zero (by omega : k ≠ 0)
      obtain rfl : ms = [] := List.length_eq_zero_iff.mp hlen.symm
      rw [wp_loopN_succ]
      simp [SList.equalRound, Pointwise]
  | cons n ns ih =>
      obtain ⟨k, rfl⟩ := Nat.exists_eq_succ_of_ne_zero (by omega : k ≠ 0)
      obtain ⟨m, ms, rfl⟩ := List.exists_cons_of_length_eq_add_one hlen.symm
      have hn := h.node_at xs ns (a := n.1) (v := n.2) hl
      have hm := h.node_at xs' ms (a := m.1) (v := m.2) hl'
      rw [wp_loopN_succ]
      simp only [SList.equalRound, first_cons, reduceCtorEq, ↓reduceIte, wp_bind, wp_deref,
        Option.bind_some, hn, hm, List.map_cons, pointwise_cons]
      cases heq : eq n.2 m.2 with
      | false => simp
      | true =>
          have hrest := ih (xs ++ [n]) (xs' ++ [m]) (by simpa using hl) (by simpa using hl')
            (by simpa using hlen) (k := k) (by simpa using hk)
          simpa only [Bool.not_true, Bool.false_eq_true, ↓reduceIte, wp_bind, wp_pure, wp_deref,
            Option.bind_some, hn, hm, true_and] using hrest

/-- `operator==` compares the sequences. -/
theorem Settled.equal_eq (h : Settled s F) (eq : α → α → Bool) (hl : F l = some ns)
    (hl' : F l' = some ms) :
    wp (SList.equal eq l l')
      (fun b s' => (b = true ↔ Pointwise eq (ns.map Prod.snd) (ms.map Prod.snd)) ∧ s' = s)
      (fun _ _ => False) s := by
  simp only [SList.equal, wp_bind, wp_obj, h.lookup hl, h.lookup hl', SList.ofNodes]
  by_cases hlen : ns.length = ms.length
  · rw [if_neg (by simpa using hlen)]
    simp only [wp_bind, wp_obj, wp_loop, h.lookup hl, h.lookup hl', SList.ofNodes]
    exact wp_equalLoop eq [] [] h.toRepresents hl hl' hlen (h.length_lt_fuel hl)
  · rw [if_pos hlen]
    simp [Pointwise, hlen]

theorem wp_containsLoop (eq : α → α → Bool) (v : α) (xs : List (Addr × α)) (h : Represents s F)
    (hl : F l = some (xs ++ ns)) {k : Nat} (hk : ns.length < k) :
    wp (loopN .diverged (SList.containsRound eq v) k (first ns none))
      (fun b s' => b = (ns.map Prod.snd).any (eq · v) ∧ s' = s) (fun _ _ => False) s := by
  induction ns generalizing xs k with
  | nil =>
      obtain ⟨k, rfl⟩ := Nat.exists_eq_succ_of_ne_zero (by omega : k ≠ 0)
      rw [wp_loopN_succ]
      simp [SList.containsRound]
  | cons n ns ih =>
      obtain ⟨k, rfl⟩ := Nat.exists_eq_succ_of_ne_zero (by omega : k ≠ 0)
      have hn := h.node_at xs ns (a := n.1) (v := n.2) hl
      rw [wp_loopN_succ]
      simp only [SList.containsRound, first_cons, reduceCtorEq, ↓reduceIte, wp_bind, wp_deref,
        Option.bind_some, hn, List.map_cons, List.any_cons]
      cases heq : eq n.2 v with
      | true => simp
      | false =>
          have hrest := ih (xs ++ [n]) (by simpa using hl) (k := k) (by simpa using hk)
          simpa only [Bool.false_eq_true, ↓reduceIte, wp_bind, wp_pure, wp_deref,
            Option.bind_some, hn, Bool.false_or] using hrest

/-- `contains` looks at every element. -/
theorem Settled.contains_eq (h : Settled s F) (eq : α → α → Bool) (v : α) (hl : F l = some ns) :
    SList.contains eq l v s = .ok ((ns.map Prod.snd).any (eq · v)) s := by
  refine wp.reads ?_
  simp only [SList.contains, wp_bind, wp_obj, wp_loop, h.lookup hl, SList.ofNodes]
  exact wp_containsLoop eq v [] h.toRepresents hl (h.length_lt_fuel hl)

theorem wp_visitLoop (xs : List (Addr × α)) (seen : List (Iterator × α)) (h : Represents s F)
    (hl : F l = some (xs ++ ns)) {k : Nat} (hk : ns.length < k) :
    wp (loopN .diverged visitRound k ((first ns none).map Pos.node, seen))
      (fun r s' => r = seen ++ visits ns ∧ s' = s) (fun _ _ => False) s := by
  induction ns generalizing xs seen k with
  | nil =>
      obtain ⟨k, rfl⟩ := Nat.exists_eq_succ_of_ne_zero (by omega : k ≠ 0)
      rw [wp_loopN_succ]
      simp [visitRound, visits]
  | cons n ns ih =>
      obtain ⟨k, rfl⟩ := Nat.exists_eq_succ_of_ne_zero (by omega : k ≠ 0)
      have hn := h.node_at xs ns (a := n.1) (v := n.2) hl
      have hrest := ih (xs ++ [n]) (seen ++ [(some (.node n.1), n.2)]) (by simpa using hl) (k := k)
        (by simpa using hk)
      rw [wp_loopN_succ]
      simp only [visitRound, SList.dereference, SList.increment, asNode, nextOf, first_cons,
        Option.map_some, reduceCtorEq, ↓reduceIte, wp_bind, wp_pure, wp_deref, Option.bind_some, hn]
      simpa [visits] using hrest

/-- A loop from the first element visits all of them. -/
theorem Settled.visit_eq (h : Settled s F) (hl : F l = some ns) :
    visit ((first ns none).map Pos.node) s = .ok (visits ns) s :=
  wp.reads (wp_visitLoop [] [] h.toRepresents hl (h.length_lt_fuel hl))

/-- The separators go between the elements. -/
theorem wp_printLoop (out : α → String) (xs : List (Addr × α)) (stream : String)
    (h : Represents s F) (hl : F l = some (xs ++ ns)) {k : Nat} (hk : ns.length < k) :
    wp (loopN .diverged (SList.printRound out l) k (first ns none, stream))
      (fun r s' => r = stream ++ String.intercalate ", " (ns.map fun n => out n.2) ∧ s' = s)
      (fun _ _ => False) s := by
  induction ns generalizing xs stream k with
  | nil =>
      obtain ⟨k, rfl⟩ := Nat.exists_eq_succ_of_ne_zero (by omega : k ≠ 0)
      rw [wp_loopN_succ]
      simp [SList.printRound]
  | cons n ns ih =>
      obtain ⟨k, rfl⟩ := Nat.exists_eq_succ_of_ne_zero (by omega : k ≠ 0)
      have hn := h.node_at xs ns (a := n.1) (v := n.2) hl
      -- only the last node is the cached tail
      have htail : some n.1 = last (xs ++ n :: ns) ↔ ns = [] := by
        rw [eq_comm]
        exact last_eq_self_iff (h.nodup hl)
      rw [wp_loopN_succ]
      simp only [SList.printRound, first_cons, reduceCtorEq, ↓reduceIte, wp_bind, wp_pure, wp_deref,
        wp_obj, Option.bind_some, hn, h.lookup hl, SList.ofNodes, ne_eq, htail]
      cases ns with
      | nil =>
          have hend := ih (xs ++ [n]) (stream ++ out n.2) (by simpa using hl) (k := k)
            (by simpa using hk)
          simpa using hend
      | cons m ns =>
          have hrest := ih (xs ++ [n]) (stream ++ out n.2 ++ ", ") (by simpa using hl) (k := k)
            (by simpa using hk)
          simpa [String.intercalate_cons_cons, String.append_assoc] using hrest

/-- `operator<<` joins what the elements write. -/
theorem Settled.print_eq (h : Settled s F) (out : α → String) (stream : String)
    (hl : F l = some ns) : SList.print out stream l s =
      .ok (stream ++ String.intercalate ", " (ns.map fun n => out n.2)) s := by
  refine wp.reads ?_
  simp only [SList.print, wp_bind, wp_obj, wp_loop, h.lookup hl, SList.ofNodes]
  exact wp_printLoop out [] stream h.toRepresents hl (h.length_lt_fuel hl)

/-! ### What a client reads

The results of the walks are put in terms of the values of the list, where no node is left. -/

/-- The values of the list `x`. -/
def Mem.values (s : Mem α) (x : Nat) : List α := (s.chain (.var x)).map Prod.snd

/-- The walks of the list `x` return, leave the memory as it is, and agree with its values. -/
structure WalksAgree (s : Mem α) (x : Nat) : Prop where
  /-- Equality is equality of the sequences, element by element. -/
  equal : ∀ (eq : α → α → Bool) (y : Nat), .var y ∈ s.lists →
    ∃ b, SList.equal eq (.var x) (.var y) s = .ok b s ∧
      (b = true ↔ Pointwise eq (s.values x) (s.values y))
  /-- A value is contained when some element equals it. -/
  contains : ∀ (eq : α → α → Bool) (v : α),
    ∃ b, SList.contains eq (.var x) v s = .ok b s ∧
      (b = true ↔ ∃ w ∈ s.values x, eq w v = true)
  /-- A loop from `begin()`, or from `before_begin()` incremented once, visits the elements
  in order and takes `size()` steps to `end()`. -/
  iterate : ∃ it, SList.begin (.var x) s = .ok it s ∧
    SList.increment (SList.beforeBegin (.var x)) s = .ok it s ∧
    visit it s = .ok (visits (s.chain (.var x))) s ∧
    (visits (s.chain (.var x))).map Prod.snd = s.values x ∧
    SList.getSize (.var x) s = .ok (visits (s.chain (.var x))).length s
  /-- The stream gets the elements' output, separated by commas. -/
  print : ∀ (out : α → String) (stream : String), SList.print out stream (.var x) s =
    .ok (stream ++ String.intercalate ", " ((s.values x).map out)) s

theorem Settled.walksAgree (h : Settled s F) {x : Nat} (hx : F (.var x) = some ns) :
    WalksAgree s x := by
  have hchain := h.chain_eq hx
  have hvalues : s.values x = ns.map Prod.snd := by rw [Mem.values, hchain]
  refine ⟨fun eq y hy => ?_, fun eq v => ?_, ?_, fun out stream => ?_⟩
  · obtain ⟨ms, hms⟩ := h.live hy
    obtain ⟨b, s', hrun, hb, rfl⟩ := (h.equal_eq eq hx hms).returns
    refine ⟨b, hrun, ?_⟩
    rw [hb, hvalues, Mem.values, h.chain_eq hms]
  · refine ⟨_, h.contains_eq eq v hx, ?_⟩
    rw [hvalues, List.any_eq_true]
  · refine ⟨(first ns none).map Pos.node, wp.reads ?_, wp.reads ?_, ?_, ?_, wp.reads ?_⟩
    · simp only [SList.begin, wp_bind, wp_pure, wp_obj, h.lookup hx, SList.ofNodes, and_self]
    · simp only [SList.beforeBegin, SList.increment, nextOf, wp_bind, wp_pure, wp_obj, h.lookup hx,
        SList.ofNodes, and_self]
    · rw [hchain]
      exact h.visit_eq hx
    · rw [hchain, hvalues, visits, List.map_map]
      rfl
    · simp only [SList.getSize, wp_bind, wp_pure, wp_obj, h.lookup hx, SList.ofNodes, hchain,
        visits, List.length_map, and_self]
  · rw [h.print_eq out stream hx, hvalues, List.map_map]
    rfl

/-- **The read-only walks agree with the sequences**, for every list of every memory a program
reaches, and for any equality and any output of the elements. -/
theorem walks_agree (allocs : List (Option Addr)) (s : Mem α) (h : Reachable allocs s) (x : Nat)
    (hx : .var x ∈ s.lists) : WalksAgree s x := by
  obtain ⟨F, hF⟩ := h.settled
  obtain ⟨ns, hns⟩ := hF.live hx
  exact hF.walksAgree hns

/-- A list of one value twice, printed. -/
theorem walks_agree_twice : ∃ s : Mem Nat,
    SList.print (fun _ => "7") "[" (.var 0) s = .ok "[7, 7" s := by
  have h₁ : Reachable (α := Nat) [some 4, some 2]
      ⟨Finmap.singleton 4 ⟨none, 7⟩, Finmap.singleton (.var 0) ⟨some 4, some 4, some 4, 1⟩,
        [some 2]⟩ :=
    Reachable.start.called (show (Op.constructValue 0 7).Valid _ from Finmap.notMem_empty) rfl
  have h₂ := h₁.called (show (Op.insertAfter 0 (some (.node 4)) 7).Valid _ from ⟨by simp, 1, rfl⟩)
    rfl
  exact ⟨_, (walks_agree _ _ h₂ 0 (by simp)).print (fun _ => "7") "["⟩

end CoreSystems
