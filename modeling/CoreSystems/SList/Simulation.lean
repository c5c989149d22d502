import CoreSystems.SList.Run

/-!
# CoreSystems.SList.Simulation

`SList<T>` objects behave as the finite sequences of `SList.Sequences`.

`Mem.view` is what a client can see of a memory: the values reached from the `m_head` of
every list. `Simulates s S` says that the memory `s` shows the sequences `S` and will go
on to behave like them, whatever operation comes next; `run_simulates` proves it of every
memory that a program can reach.

`Settled.simulates` is the proof for one memory, from the family it holds. The run adds
nothing but the induction, which is that of `Run.settled`.
-/

namespace CoreSystems

open Chain Exec

variable {α : Type} {s s' : Mem α} {F : Family α} {ns : List (Addr × α)}

/-- The values reached from `m_head`, for every variable that holds a list. -/
def Mem.view (s : Mem α) : Seqs Nat α := fun x =>
  if .var x ∈ s.lists then some ((s.chain (.var x)).map Prod.snd) else none

theorem Settled.view_eq (h : Settled s F) : s.view = F.values := by
  funext x
  by_cases hx : .var x ∈ s.lists
  · obtain ⟨ns, hns⟩ := h.live hx
    simp [Mem.view, hx, h.chain_eq hns, Family.values_of_eq hns]
  · simp [Mem.view, hx, Family.values, h.fresh hx]

/-! ### Reading

The observers look at one member each. That a member agrees with the sequence is known from
the family. -/

theorem Settled.getSize_eq (h : Settled s F) {l : ObjId} (hl : F l = some ns) :
    SList.getSize l s = .ok ns.length s := by
  refine wp.reads ?_
  simp only [SList.getSize, wp_bind, wp_pure, wp_obj, h.lookup hl, SList.ofNodes, and_self]

theorem Settled.empty_eq (h : Settled s F) {l : ObjId} (hl : F l = some ns) :
    SList.empty l s = .ok ns.isEmpty s := by
  refine wp.reads ?_
  simp only [SList.empty, wp_bind, wp_pure, wp_obj, h.lookup hl, SList.ofNodes, and_true]
  cases ns <;> rfl

theorem Settled.front_eq (h : Settled s F) {l : ObjId} {n : Addr × α} (hl : F l = some (n :: ns)) :
    SList.front l s = .ok n.2 s := by
  have hn := h.node_at [] ns (a := n.1) (v := n.2) hl
  refine wp.reads ?_
  simp only [SList.front, wp_bind, wp_pure, wp_obj, wp_deref, h.lookup hl, SList.ofNodes,
    first_cons, Option.bind_some, hn, and_self]

theorem Settled.back_eq (h : Settled s F) {l : ObjId} {n : Addr × α}
    (hl : F l = some (ns ++ [n])) : SList.back l s = .ok n.2 s := by
  have hn := h.node_at ns [] (a := n.1) (v := n.2) hl
  refine wp.reads ?_
  simp only [SList.back, wp_bind, wp_pure, wp_obj, wp_deref, h.lookup hl, SList.ofNodes,
    last_concat, Option.bind_some, hn, and_self]

/-! ### The simulation

The relation names the failures as well: an operation may throw for lack of memory and for no
other reason, and then the client sees what it saw. -/

/-- The memory `s` behaves like the sequences `S`: they are what it shows, and every operation
that a client may call next keeps pace with its sequence operation. -/
structure Simulates (s : Mem α) (S : Seqs Nat α) : Prop where
  /-- The lists hold these sequences. -/
  view_eq : s.view = S
  /-- An operation returns when its requests for nodes are served. -/
  returns : ∀ op : Op α, op.Valid s → s.Served (op.demand s) → ∃ s', op.exec s = .ok () s'
  /-- An operation that returns did what its sequence operation does. -/
  step : ∀ (op : Op α) s', op.Valid s → op.exec s = .ok () s' → s'.view = (op.toSeq s).step S
  /-- An operation leaves otherwise only by an exception, for a refused request, and then
  no sequence has changed. -/
  threw : ∀ (op : Op α) e s', op.Valid s → op.exec s = .error e s' →
    e = .threw ∧ ¬ s.Served (op.demand s) ∧ s'.view = S
  /-- An operation changes its own operands only; of a copy, the target only. -/
  frame : ∀ (op : Op α) s', op.Valid s → op.exec s = .ok () s' →
    ∀ x, x ∉ (op.toSeq s).writes → s'.view x = s.view x
  /-- Assigning a list to itself and swapping it with itself change nothing. -/
  self : ∀ (x : Nat) (op : Op α) s', op = .assignCopy x x ∨ op = .assignMove x x ∨ op = .swap x x →
    op.Valid s → op.exec s = .ok () s' → s'.view = s.view
  /-- The observers read the sequence. -/
  size : ∀ x vs, s.view x = some vs → SList.getSize (.var x) s = .ok vs.length s
  empty : ∀ x vs, s.view x = some vs → SList.empty (.var x) s = .ok vs.isEmpty s
  front : ∀ x v vs, s.view x = some (v :: vs) → SList.front (.var x) s = .ok v s
  back : ∀ x v vs, s.view x = some (vs ++ [v]) → SList.back (.var x) s = .ok v s

theorem Settled.step_view (h : Settled s F) {op : Op α} (hv : op.Valid s)
    (hx : op.exec s = .ok () s') : s'.view = (op.toSeq s).step s.view := by
  obtain ⟨F', hF', hval⟩ := (Op.steps h op hv).ok hx
  rw [hF'.view_eq, hval, h.view_eq]

/-- The nodes behind a sequence that a client sees. -/
theorem Settled.nodes_of_view (h : Settled s F) {x : Nat} {vs : List α}
    (hx : s.view x = some vs) : ∃ ns, F (.var x) = some ns ∧ ns.map Prod.snd = vs := by
  rw [h.view_eq] at hx
  simpa [Family.values] using hx

theorem Settled.simulates (h : Settled s F) : Simulates s s.view where
  view_eq := rfl
  returns op hv hserved := by
    cases hx : op.exec s with
    | ok u s' => exact ⟨s', rfl⟩
    | error e s' => exact absurd hserved ((Op.steps h op hv).error hx).2.1
  step op s' hv hx := h.step_view hv hx
  threw op e s' hv hx := by
    obtain ⟨he, hrefused, h'⟩ := (Op.steps h op hv).error hx
    exact ⟨he, hrefused, by rw [h'.view_eq, h.view_eq]⟩
  frame op s' hv hx x hw := by
    rw [h.step_view hv hx, SeqOp.step_frame _ _ hw]
  self x op s' hop hv hx := by
    rw [h.step_view hv hx]
    rcases hop with rfl | rfl | rfl
    · exact SeqOp.copy_self s.view x
    · exact SeqOp.move_self s.view x
    · exact SeqOp.exchange_self s.view x
  size x vs hx := by
    obtain ⟨ns, hns, rfl⟩ := h.nodes_of_view hx
    rw [h.getSize_eq hns, List.length_map]
  empty x vs hx := by
    obtain ⟨ns, hns, rfl⟩ := h.nodes_of_view hx
    rw [h.empty_eq hns, List.isEmpty_map]
  front x v vs hx := by
    obtain ⟨ns, hns, hvs⟩ := h.nodes_of_view hx
    obtain ⟨n, ns', rfl, rfl, -⟩ := List.map_eq_cons_iff.mp hvs
    exact h.front_eq hns
  back x v vs hx := by
    obtain ⟨ns, hns, hvs⟩ := h.nodes_of_view hx
    obtain ⟨ns', ms, rfl, -, hms⟩ := List.map_eq_append_iff.mp hvs
    obtain ⟨n, rfl, rfl⟩ : ∃ n, ms = [n] ∧ n.2 = v := by simpa [List.map_eq_singleton_iff] using hms
    exact h.back_eq hns

/-- **Every run simulates the finite-sequence model.** -/
theorem run_simulates (allocs : List (Option Addr)) (ops : List (SeqOp Nat α)) (s : Mem α)
    (h : Run allocs ops s) : Simulates s (SeqOp.run ops) := by
  obtain ⟨F, hF, hval⟩ := h.settled
  rw [← hval, ← hF.view_eq]
  exact hF.simulates

/-- A refused request, then a list of two values and its copy. -/
theorem run_simulates_copy : ∃ s : Mem Nat,
    Simulates s (SeqOp.run [.init 0 [], .append 0 7, .insertAfter 0 1 8, .copy 1 0]) ∧
    s.view 1 = some [7, 8] := by
  have h₁ : Run (α := Nat) [none, some 4, some 2, some 9, some 5] [.init 0 []]
      ⟨∅, Finmap.singleton (.var 0) {}, [none, some 4, some 2, some 9, some 5]⟩ :=
    Run.start.returned (show (Op.construct 0).Valid _ from Finmap.notMem_empty) rfl
  have h₂ : Run (α := Nat) [none, some 4, some 2, some 9, some 5] [.init 0 []]
      ⟨∅, Finmap.singleton (.var 0) {}, [some 4, some 2, some 9, some 5]⟩ :=
    h₁.threw (show (Op.pushBack 0 7).Valid _ by simp [Op.Valid]) rfl
  have h₃ : Run (α := Nat) [none, some 4, some 2, some 9, some 5] [.init 0 [], .append 0 7]
      ⟨Finmap.singleton 4 ⟨none, 7⟩, Finmap.singleton (.var 0) ⟨some 4, some 4, some 4, 1⟩,
        [some 2, some 9, some 5]⟩ :=
    h₂.returned (show (Op.pushBack 0 7).Valid _ by simp [Op.Valid]) rfl
  have h₄ : Run (α := Nat) [none, some 4, some 2, some 9, some 5]
      [.init 0 [], .append 0 7, .insertAfter 0 1 8]
      ⟨(Finmap.singleton 2 ⟨none, 8⟩).insert 4 ⟨some 2, 7⟩,
        Finmap.singleton (.var 0) ⟨some 4, some 4, some 2, 2⟩, [some 9, some 5]⟩ := by
    refine h₃.returned (show (Op.insertAfter 0 (some (.node 4)) 8).Valid _ from ?_) rfl
    exact ⟨by simp, 1, rfl⟩
  have hcopy : (Op.constructCopy 1 0 : Op Nat).Valid
      ⟨(Finmap.singleton 2 ⟨none, 8⟩).insert 4 ⟨some 2, 7⟩,
        Finmap.singleton (.var 0) ⟨some 4, some 4, some 2, 2⟩, [some 9, some 5]⟩ := by
    simp [Op.Valid]
  obtain ⟨s, hs⟩ := (run_simulates _ _ _ h₄).returns _ hcopy
    ⟨[9, 5], [], rfl, rfl, by simp, by simp⟩
  refine ⟨s, run_simulates _ _ _ (h₄.returned hcopy hs), ?_⟩
  rw [(run_simulates _ _ _ h₄).step _ _ hcopy hs]
  rfl

end CoreSystems
