import CoreSystems.SList.Remove

/-!
# CoreSystems.SList.Transfer

What the methods that handle whole lists do to the family of node sequences.

`swap` and the move operations hand sequences from object to object without touching a
node. The constructors that copy build a local list first and swap it in, so a throw in
the middle only ever destroys the local list; the assignments build a temporary the same
way. `wp_buildLocal` is that pattern, for any way of filling the local list.

The values of a copy are those of the source and its addresses are fresh, so a rule for
copying speaks of `ms.map Prod.snd` and of `Gave`. That the operands may be one object is a
case of the assignments alone: a constructor has storage of its own.
-/

namespace CoreSystems

open Chain Exec

namespace SList

variable {α : Type} {s : Mem α} {F : Family α} {this other : ObjId}
  {ns ms : List (Addr × α)} {v : α} {Q : Unit → Mem α → Prop} {E : Exit → Mem α → Prop}

/-! ### Scopes

What a scope does on the way out is done by a rule here, so that the methods below are
verified without looking at it again. -/

/-- Leaving a scope that owns a list, by either way, destroys the list. -/
theorem wp_withLocal {β : Type} {x : ObjId} {body : M α β} {Q : β → Mem α → Prop}
    (h : wp body (fun b s' => wp (destroy x) (fun _ s'' => Q b s'') E s')
      (fun e s' => if e = .threw then wp (destroy x) (fun _ s'' => E .threw s'') E s'
        else E e s') s) :
    wp (withLocal x body) Q E s := by
  cases hb : body s with
  | ok b s' =>
      have hrun : withLocal x body s = (do destroy x; return b) s' := by simp [withLocal, hb]
      have h' := h.ok hb
      unfold wp at h' ⊢
      rw [hrun]
      simp only [bind, EStateM.bind, pure, EStateM.pure]
      cases hd : destroy x s' <;> rw [hd] at h' <;> exact h'
  | error e s' =>
      have h' := h.error hb
      cases e with
      | threw =>
          have hrun : withLocal x body s = (do destroy x; throw Exit.threw) s' := by
            simp [withLocal, hb]
          rw [if_pos rfl] at h'
          unfold wp at h' ⊢
          rw [hrun]
          simp only [bind, EStateM.bind]
          cases hd : destroy x s' <;> rw [hd] at h' <;> exact h'
      | fault => exact wp_of_error (by simp [withLocal, hb]) h'
      | diverged => exact wp_of_error (by simp [withLocal, hb]) h'

/-- A constructor body that throws leaves no object behind. -/
theorem wp_constructing {β : Type} {body : M α β} {Q : β → Mem α → Prop}
    (h : wp body Q (fun e s' =>
      if e = .threw then E .threw { s' with lists := s'.lists.erase this } else E e s') s) :
    wp (constructing this body) Q E s := by
  cases hb : body s with
  | ok b s' => exact wp_of_ok (by simp [constructing, hb]) (h.ok hb)
  | error e s' =>
      have h' := h.error hb
      cases e with
      | threw =>
          rw [if_pos rfl] at h'
          exact wp_of_error (by simp [constructing, hb]; rfl) h'
      | fault => exact wp_of_error (by simp [constructing, hb]) h'
      | diverged => exact wp_of_error (by simp [constructing, hb]) h'

/-! ### Exchanging

Only members of objects are written; the node store is not touched. -/

theorem wp_swap (h : Represents s F) (hl : F this = some ns) (ho : F other = some ms)
    (hQ : ∀ s', s'.allocs = s.allocs →
      Represents s' (Function.update (Function.update F this (some ms)) other (some ns)) →
      Q () s') :
    wp (swap this other) Q E s := by
  have hlook := h.lookup hl
  have hlook' := h.lookup ho
  unfold swap
  by_cases hne : this = other
  · subst hne
    obtain rfl : ns = ms := by simpa [hl] using ho
    simp only [swapMember, syncBeforeHead, setHead, setTail, setSize, wp_bind, wp_obj, wp_modifyObj,
      hlook, Finmap.lookup_insert, Finmap.insert_insert]
    refine hQ _ rfl (h.permute rfl (fun l => ?_) (Equiv.refl _) fun l => ?_)
    · rw [Function.update_idem]
      exact h.obj_update this ns l
    · rw [Function.update_idem, ← hl, Function.update_eq_self]
      rfl
  · have hne' : other ≠ this := fun heq => hne heq.symm
    simp only [swapMember, syncBeforeHead, setHead, setTail, setSize, wp_bind, wp_obj, wp_modifyObj,
      hlook, hlook', Finmap.lookup_insert, Finmap.lookup_insert_of_ne _ hne,
      Finmap.lookup_insert_of_ne _ hne']
    refine hQ _ rfl (h.exchange hne (Family.nodes_of_eq hl) (Family.nodes_of_eq ho) rfl ?_ ?_ ?_)
    · simp [ofNodes, Finmap.lookup_insert_of_ne _ hne]
    · simp [ofNodes]
    · intro l hlt hlo
      simp [Finmap.lookup_insert_of_ne, hlo, hlt]

theorem wp_constructMove (h : Represents s F) (hthis : F this = none) (ho : F other = some ms)
    (hQ : ∀ s', s'.allocs = s.allocs →
      Represents s' (Function.update (Function.update F this (some ms)) other (some [])) →
      Q () s') :
    wp (constructMove this other) Q E s := by
  have hlook := h.lookup ho
  have hne : this ≠ other := by
    rintro rfl
    rw [hthis] at ho
    cases ho
  have hne' : other ≠ this := fun heq => hne heq.symm
  unfold constructMove
  simp only [SList.exchange, syncBeforeHead, setHead, setTail, setSize, wp_bind, wp_pure, wp_obj,
    wp_modifyObj, wp_createObj, hlook, Finmap.lookup_insert, Finmap.lookup_insert_of_ne _ hne',
    Finmap.insert_insert]
  have hnone := Family.nodes_of_none hthis
  refine hQ _ rfl (h.exchange hne hnone (Family.nodes_of_eq ho) rfl ?_ ?_ ?_)
  · simp [ofNodes, Finmap.lookup_insert_of_ne _ hne]
  · simp [ofNodes]
  · intro l hlt hlo
    simp [Finmap.lookup_insert_of_ne, hlo, hlt]

/-! ### Building a local list

The local list grows by `push_back` until it is complete or a request is refused. In the
second case its destructor gives back every node it has. -/

theorem wp_construct (h : Represents s F) (hthis : F this = none)
    (hQ : ∀ s', s'.allocs = s.allocs → s'.nodes = s.nodes →
      Represents s' (Function.update F this (some [])) → Q () s') :
    wp (construct this) Q E s :=
  hQ _ rfl rfl (h.create hthis)

theorem wp_constructValue (h : Represents s F) (hthis : F this = none)
    (hQ : ∀ a s', Took s a s' → Represents s' (Function.update F this (some [(a, v)])) → Q () s')
    (hE : ∀ e s', Threw s e s' → E e s') :
    wp (constructValue this v) Q E s := by
  unfold constructValue
  rw [wp_bind]
  refine wp_newNode (fun a rest hal ha => ?_) hE
  simp only [syncBeforeHead, wp_bind, wp_createObj, wp_modifyObj, Finmap.lookup_insert,
    Finmap.insert_insert]
  refine hQ a _ ⟨hal, ha⟩ (h.update (Family.nodes_of_none hthis) rfl ?_ ?_ ?_ ?_)
  · exact ⟨rfl, none, by simp, rfl⟩
  · intro b _ hb
    exact link_insert_of_ne (by simpa using hb)
  · intro b hb
    obtain rfl : b = a := by simpa using hb
    exact .inr ha
  · simp

/-- **Pushing a value while building** the list `this`: one request of the allocator is
served, or the list is left as it is and some request was refused. -/
theorem wp_pushBuild {k : Nat} (h : Represents s F) (hl : F this = some ns)
    (hQ : ∀ a s', (s.Served (k + 1) → s'.Served k) →
      (∀ as s'', Gave s' as s'' → Gave s (a :: as) s'') →
      Represents s' (Function.update F this (some (ns ++ [(a, v)]))) → Q () s')
    (hE : ∀ s', ¬ s.Served (k + 1) → Represents s' (Function.update F this (some ns)) →
      E .threw s') :
    wp (pushBack this v) Q E s := by
  have hmem : ∀ a b, b ∈ addrs (ns ++ [(a, v)]) ↔ b = a ∨ b ∈ addrs (F.nodes this) := by
    intro a b
    rw [Family.nodes_of_eq hl]
    simp [or_comm]
  refine wp_emplaceBack h hl (fun a s' ht h' => ?_) ?_
  · exact hQ a s' (h.served_of_took ht h' fun b => (hmem a b).mp)
      (fun as s'' => h.gave_of_took ht h' fun b => (hmem a b).mpr) h'
  · rintro e s' ⟨rfl, rfl, hrefused⟩
    refine hE _ (fun hs => hrefused (hs.of_le (by omega))) ?_
    rw [← hl, Function.update_eq_self]
    exact h.of_eq rfl rfl

/-- Pushing values one by one, all of them or up to a throw. -/
theorem wp_pushAll (vs : List α) (h : Represents s F) (hl : F this = some ns)
    (hQ : ∀ ms s', ms.map Prod.snd = vs → Gave s (addrs ms) s' →
      Represents s' (Function.update F this (some (ns ++ ms))) → Q () s')
    (hE : ∀ ms s', ¬ s.Served vs.length → Represents s' (Function.update F this (some ms)) →
      E .threw s') :
    wp (vs.forM (pushBack this)) Q E s := by
  induction vs generalizing s F ns with
  | nil =>
      refine hQ [] s rfl (.nil rfl) ?_
      rwa [List.append_nil, ← hl, Function.update_eq_self]
  | cons v vs ih =>
      change wp (pushBack this v >>= fun _ => vs.forM (pushBack this)) Q E s
      rw [wp_bind]
      refine wp_pushBuild h hl (fun a s' hserved hgave h' => ?_) (hE ns)
      refine ih h' (Function.update_self ..) (fun ms s'' hms hg h'' => ?_) fun ms s'' hs'' h'' => ?_
      · rw [Function.update_idem, List.append_assoc] at h''
        exact hQ ((a, v) :: ms) s'' (by simp [hms]) (hgave _ _ hg) h''
      · rw [Function.update_idem] at h''
        exact hE ms s'' (mt hserved hs'') h''

/-- The copy loop, from the nodes `rs` of the source still to copy. -/
theorem wp_copyLoop (ds rs : List (Addr × α)) (h : Represents s F)
    (ho : F other = some (ds ++ rs)) (hne : other ≠ .temp) (hl : F .temp = some ns) {k : Nat}
    (hk : rs.length < k)
    (hQ : ∀ ms s', ms.map Prod.snd = rs.map Prod.snd → Gave s (addrs ms) s' →
      Represents s' (Function.update F .temp (some (ns ++ ms))) → Q () s')
    (hE : ∀ ms s', ¬ s.Served rs.length → Represents s' (Function.update F .temp (some ms)) →
      E .threw s') :
    wp (loopN .diverged copyRound k (first rs none)) Q E s := by
  induction rs generalizing s F ds ns k with
  | nil =>
      obtain ⟨k, rfl⟩ := Nat.exists_eq_succ_of_ne_zero (by omega : k ≠ 0)
      simp only [wp_loopN_succ, copyRound, first_nil, ↓reduceIte, wp_pure]
      refine hQ [] s rfl (.nil rfl) ?_
      rwa [List.append_nil, ← hl, Function.update_eq_self]
  | cons n rs ih =>
      obtain ⟨k, rfl⟩ := Nat.exists_eq_succ_of_ne_zero (by omega : k ≠ 0)
      have hn := h.node_at ds rs (a := n.1) (v := n.2) ho
      simp only [wp_loopN_succ, copyRound, first_cons, reduceCtorEq, ↓reduceIte, wp_bind, wp_pure,
        wp_deref, Option.bind_some, hn]
      refine wp_pushBuild h hl (fun a s' hserved hgave h' => ?_) (hE ns)
      have ho' :
          Function.update F .temp (some (ns ++ [(a, n.2)])) other = some (ds ++ n :: rs) := by
        rw [Function.update_of_ne hne, ho]
      have hn' := h'.node_at ds rs (a := n.1) (v := n.2) ho'
      simp only [hn']
      refine ih (ds ++ [n]) h' (by simpa using ho') (Function.update_self ..)
        (by simpa using hk) (fun ms s'' hms hg h'' => ?_) fun ms s'' hs'' h'' => ?_
      · rw [Function.update_idem, List.append_assoc] at h''
        exact hQ ((a, n.2) :: ms) s'' (by simp [hms]) (hgave _ _ hg) h''
      · rw [Function.update_idem] at h''
        exact hE ms s'' (mt hserved hs'') h''

/-- Forgetting an object that was not there before. -/
theorem update_none {F : Family α} {x : ObjId} {o : Option (List (Addr × α))} (hx : F x = none) :
    Function.update (Function.update F x o) x none = F := by
  rw [Function.update_idem, ← hx, Function.update_eq_self]

/-- **Building a local list and swapping it in.** The body fills the empty local list with
the values `vs` and swaps it with the empty object under construction, or throws with some
nodes in the local list; either way the local list is destroyed. -/
theorem wp_buildLocal {body : M α Unit} {vs : List α} (h : Represents s F) (hthis : F this = none)
    (htemp : F .temp = none) (hne : this ≠ .temp)
    (hbody : ∀ s₁,
      Represents s₁ (Function.update (Function.update F this (some [])) .temp (some [])) →
      wp body
        (fun _ s' => ∃ ms, ms.map Prod.snd = vs ∧ Gave s₁ (addrs ms) s' ∧
          Represents s' (Function.update (Function.update F this (some ms)) .temp (some [])))
        (fun e s' => e = .threw ∧ ¬ s₁.Served vs.length ∧ ∃ ms,
          Represents s' (Function.update (Function.update F this (some [])) .temp (some ms))) s₁)
    (hQ : ∀ ms s', ms.map Prod.snd = vs → Gave s (addrs ms) s' →
      Represents s' (Function.update F this (some ms)) → Q () s')
    (hE : ∀ s', ¬ s.Served vs.length → Represents s' F → E .threw s') :
    wp (do construct this; constructing this do construct .temp; withLocal .temp body) Q E s := by
  have htemp' : ∀ o, Function.update F this o .temp = none := fun o => by
    rw [Function.update_of_ne hne.symm, htemp]
  rw [wp_bind]
  refine wp_construct h hthis fun s₁ hal₁ hn₁ h₁ => wp_constructing ?_
  rw [wp_bind]
  refine wp_construct h₁ (htemp' _) fun s₂ hal₂ hn₂ h₂ => wp_withLocal ?_
  have hallocs : s₂.allocs = s.allocs := hal₂.trans hal₁
  have hnodes : s₂.nodes = s.nodes := hn₂.trans hn₁
  have hserved : s.Served vs.length → s₂.Served vs.length := by
    unfold Mem.Served
    rw [hallocs, hnodes]
    exact id
  refine (hbody s₂ h₂).mono ?_ ?_
  · rintro - s₃ ⟨ms, hms, hg, h₃⟩
    refine wp_destroy h₃ (Function.update_self ..) fun s₄ hal₄ h₄ => ?_
    rw [update_none (htemp' _)] at h₄
    exact hQ ms s₄ hms (hg.of_eq hallocs hnodes hal₄) h₄
  · rintro e s₃ ⟨rfl, hrefused, ms, h₃⟩
    rw [if_pos rfl]
    refine wp_destroy h₃ (Function.update_self ..) fun s₄ _ h₄ => ?_
    rw [update_none (htemp' _)] at h₄
    have h₅ := h₄.release (Function.update_self ..)
    rw [update_none hthis] at h₅
    simpa using hE _ (mt hserved hrefused) h₅

/-- Swapping a filled local list with the empty object under construction. -/
theorem swap_built {s' : Mem α} (hne : this ≠ .temp)
    (h : Represents s' (Function.update (Function.update (Function.update
      (Function.update F this (some [])) .temp (some ns)) this (some ms)) .temp (some []))) :
    Represents s' (Function.update (Function.update F this (some ms)) .temp (some [])) := by
  rwa [Function.update_comm hne.symm, Function.update_idem, Function.update_idem] at h

theorem wp_constructInit (vs : List α) (h : Represents s F) (hthis : F this = none)
    (htemp : F .temp = none) (hne : this ≠ .temp)
    (hQ : ∀ ms s', ms.map Prod.snd = vs → Gave s (addrs ms) s' →
      Represents s' (Function.update F this (some ms)) → Q () s')
    (hE : ∀ s', ¬ s.Served vs.length → Represents s' F → E .threw s') :
    wp (constructInit this vs) Q E s := by
  refine wp_buildLocal h hthis htemp hne (fun s₁ h₁ => ?_) hQ hE
  rw [wp_bind]
  refine wp_pushAll vs h₁ (Function.update_self ..) (fun ms s₂ hms hg h₂ => ?_)
    fun ms s₂ hrefused h₂ => ?_
  · rw [List.nil_append, Function.update_idem] at h₂
    refine wp_swap h₂ ?_ (Function.update_self ..) fun s₃ hal₃ h₃ =>
      ⟨ms, hms, hg.of_eq rfl rfl hal₃, swap_built hne h₃⟩
    rw [Function.update_of_ne hne, Function.update_self]
  · rw [Function.update_idem] at h₂
    exact ⟨rfl, hrefused, ms, h₂⟩

theorem wp_constructCopy (h : Represents s F) (hthis : F this = none) (htemp : F .temp = none)
    (hne : this ≠ .temp) (ho : F other = some ns)
    (hQ : ∀ ms s', ms.map Prod.snd = ns.map Prod.snd → Gave s (addrs ms) s' →
      Represents s' (Function.update F this (some ms)) → Q () s')
    (hE : ∀ s', ¬ s.Served ns.length → Represents s' F → E .threw s') :
    wp (constructCopy this other) Q E s := by
  have hto : other ≠ this := by rintro rfl; simp [hthis] at ho
  have hxo : other ≠ .temp := by rintro rfl; simp [htemp] at ho
  rw [← show (ns.map Prod.snd).length = ns.length from List.length_map _] at hE
  refine wp_buildLocal h hthis htemp hne (fun s₁ h₁ => ?_) hQ hE
  rw [List.length_map]
  have ho₁ : Function.update (Function.update F this (some [])) .temp (some []) other =
      some ([] ++ ns) := by
    rw [Function.update_of_ne hxo, Function.update_of_ne hto, ho]; rfl
  simp only [wp_bind, wp_obj, wp_loop, h₁.lookup ho₁]
  refine wp_copyLoop [] ns h₁ ho₁ hxo (Function.update_self ..) (h₁.length_lt_fuel ho₁)
    (fun ms s₂ hms hg h₂ => ?_) fun ms s₂ hrefused h₂ => ?_
  · rw [List.nil_append, Function.update_idem] at h₂
    refine wp_swap h₂ ?_ (Function.update_self ..) fun s₃ hal₃ h₃ =>
      ⟨ms, hms, hg.of_eq rfl rfl hal₃, swap_built hne h₃⟩
    rw [Function.update_of_ne hne, Function.update_self]
  · rw [Function.update_idem] at h₂
    exact ⟨rfl, hrefused, ms, h₂⟩

/-! ### Assignment

Both operators make a temporary and swap with it. For the copy of an object to itself this
allocates and frees a whole list, and leaves the values as they were. -/

/-- `operator=(const SList&)`, whether or not the operands are one object. -/
theorem wp_assignCopy (h : Represents s F) (hl : F this = some ns) (ho : F other = some ms)
    (htemp : F .temp = none) (hrval : F .rvalue = none)
    (hQ : ∀ ms' s', ms'.map Prod.snd = ms.map Prod.snd → Gave s (addrs ms') s' →
      Represents s' (Function.update F this (some ms')) → Q () s')
    (hE : ∀ s', ¬ s.Served ms.length → Represents s' F → E .threw s') :
    wp (assignCopy this other) Q E s := by
  have hrt : this ≠ .rvalue := by rintro rfl; simp [hrval] at hl
  unfold assignCopy
  rw [wp_bind]
  refine wp_constructCopy h hrval htemp (by simp) ho (fun ms' s₁ hms hg h₁ => wp_withLocal ?_) hE
  refine wp_swap h₁ (Function.update_self ..) (by rwa [Function.update_of_ne hrt])
    fun s₂ hal₂ h₂ => ?_
  refine wp_destroy h₂ (by rw [Function.update_of_ne hrt.symm, Function.update_self])
    fun s₃ hal₃ h₃ => hQ ms' s₃ hms (hg.of_eq rfl rfl (hal₃.trans hal₂)) ?_
  rwa [Function.update_idem, Function.update_comm hrt, update_none hrval] at h₃

/-- `operator=(SList&&)`: the source is left empty, unless it is the target itself. -/
theorem wp_assignMove (h : Represents s F) (hl : F this = some ns) (ho : F other = some ms)
    (hrval : F .rvalue = none)
    (hQ : ∀ s', s'.allocs = s.allocs →
      Represents s' (Function.update (Function.update F other (some [])) this (some ms)) →
      Q () s') :
    wp (assignMove this other) Q E s := by
  have hrt : this ≠ .rvalue := by rintro rfl; simp [hrval] at hl
  have hro : other ≠ .rvalue := by rintro rfl; simp [hrval] at ho
  unfold assignMove
  rw [wp_bind]
  refine wp_constructMove h hrval ho fun s₁ hs₁ h₁ => wp_withLocal ?_
  obtain ⟨ks, hks⟩ : ∃ ks, Function.update (Function.update F .rvalue (some ms)) other
      (some []) this = some ks := by
    by_cases hto : this = other
    · exact ⟨[], by rw [hto, Function.update_self]⟩
    · exact ⟨ns, by rw [Function.update_of_ne hto, Function.update_of_ne hrt, hl]⟩
  refine wp_swap h₁ (by rw [Function.update_of_ne hro.symm, Function.update_self]) hks
    fun s₂ hs₂ h₂ => ?_
  refine wp_destroy h₂ (by rw [Function.update_of_ne hrt.symm, Function.update_self])
    fun s₃ hs₃ h₃ => hQ s₃ (by rw [hs₃, hs₂, hs₁]) ?_
  have hrval' : Function.update F other (some []) .rvalue = none := by
    rw [Function.update_of_ne hro.symm, hrval]
  rwa [Function.update_comm hro.symm, Function.update_idem, Function.update_comm hrt,
    update_none hrval'] at h₃

end SList

end CoreSystems
