import CoreSystems.Net.Sockets
import Mathlib.Data.Finset.Basic
import Mathlib.Data.Finset.Option

/-!
# CoreSystems.Net.Descriptors

The operating system as a set of open descriptors, and what it means that descriptors
are owned.

`socket` and `accept` fail or open a descriptor that was not open; `close` always frees
its argument; nothing else changes the set. Beside it runs a record of the descriptors
that the library answers for: those it created or adopted and has not closed or given
away. `Good` is the ownership invariant: each of these is held by exactly one live
object, and no object holds another.

`osEnv guarded` accepts every call, or — when `guarded` — only calls made under that
invariant by the object that owns the descriptor.

What operations do is stated by three relations between the states before and after: `Kept`,
`Gained` and `Lost`. They compose, and each says which handles and which descriptors are as
they were, so that the invariant follows from them (`Good.kept`, `Good.gained`, `Good.lost`)
and no operation has to prove it for itself. The log of calls is in the state because what an
operation reports is a statement about the call it made last.
-/

namespace CoreSystems

open Calls (Code Env wp)

namespace Net

/-! ### Open descriptors

An answered call opens at most one descriptor and frees at most one. The rest of what it did
is not looked at here. -/

namespace Event

/-- The descriptor a call has opened. -/
def created : Event → Option Nat
  | ⟨⟨_, .socket _ _ _⟩, .ok fd⟩ => some fd
  | ⟨⟨_, .accept _⟩, .ok fd⟩ => some fd
  | _ => none

/-- The descriptor a call has freed. -/
def closed : Event → Option Nat
  | ⟨⟨_, .close handle⟩, _⟩ => handle
  | _ => none

/-- The call was a `close`. -/
def IsClose (e : Event) : Prop := ∃ handle, e.1.call = .close handle

end Event

/-- The operating system: which descriptors are open, which of them the library answers
for, and the calls so far. -/
structure OS where
  openFds : Finset Nat
  managed : Finset Nat
  managed_le : managed ⊆ openFds
  log : List Event

namespace OS

/-- The state after a call. -/
def after (o : OS) (e : Event) : OS where
  openFds := ((Event.created e).toFinset ∪ o.openFds) \ (Event.closed e).toFinset
  managed := ((Event.created e).toFinset ∪ o.managed) \ (Event.closed e).toFinset
  managed_le := by
    intro fd hfd
    have hle := @o.managed_le fd
    simp only [Finset.mem_sdiff, Finset.mem_union] at hfd ⊢
    exact ⟨hfd.1.imp_right hle, hfd.2⟩
  log := o.log ++ [e]

/-- The library takes over an open descriptor. -/
def adopt (o : OS) (handle : NativeHandle) : OS :=
  { o with
    managed := o.managed ∪ (handle.toFinset ∩ o.openFds)
    managed_le := Finset.union_subset o.managed_le Finset.inter_subset_right }

/-- The library gives a descriptor away. -/
def giveAway (o : OS) (handle : NativeHandle) : OS :=
  { o with
    managed := o.managed \ handle.toFinset
    managed_le := Finset.sdiff_subset.trans o.managed_le }

/-- Other code opens and closes descriptors the library does not answer for. -/
def become (o : OS) (openFds : Finset Nat) (h : o.managed ⊆ openFds) : OS :=
  { o with openFds := openFds, managed_le := h }

/-- The calls between two states of a run. -/
def since (o o' : OS) : List Event := o'.log.drop o.log.length

theorem mem_since_after {o : OS} {e : Event} : e ∈ o.since (o.after e) := by
  simp [since, after]

/-- A run that has gone on has made the same calls and perhaps more. -/
theorem since_mono {o₀ o o' o₁ : OS} {e : Event} (h₀ : o₀.log <+: o.log) (h : o.log <+: o'.log)
    (h₁ : o'.log <+: o₁.log) (he : e ∈ o.since o') : e ∈ o₀.since o₁ := by
  obtain ⟨a, ha⟩ := h₀
  obtain ⟨b, hb⟩ := h
  obtain ⟨c, hc⟩ := h₁
  rw [since, ← hb, List.drop_left] at he
  rw [since, ← hc, ← hb, ← ha]
  simp [he]

end OS

/-! ### Ownership

Held by exactly one object: by some, since a descriptor nobody holds is never closed, and by
one only, since two would close it twice. -/

/-- The ownership invariant: the descriptors that the library answers for are those that
objects hold, and no two objects hold the same. -/
structure Good (s : Process) (o : OS) : Prop where
  managed : ∀ fd, fd ∈ o.managed ↔ ∃ x, s.handles x = some (some fd)
  unique : ∀ x y fd, s.handles x = some (some fd) → s.handles y = some (some fd) → x = y

/-- The descriptor of the call is one that the calling object owns. -/
def Request.Owned (r : Request) (s : Process) (o : OS) : Prop :=
  ∀ handle, r.call.target = some handle →
    ∃ fd, handle = some fd ∧ fd ∈ o.openFds ∧ s.handles r.caller = some (some fd)

/-- The operating system as an environment. A new descriptor is not one that is open already;
nothing else is asked of an answer. -/
def osEnv (guarded : Prop) : Env os Process OS where
  accepts r seen o := guarded → Good seen o ∧ r.Owned seen o
  answers o r a o' :=
    (∀ fd, Event.created ⟨r, a⟩ = some fd → fd ∉ o.openFds) ∧ o' = o.after ⟨r, a⟩

/-- The only way a library function does not return. -/
def OnlyGaveUp (e : Exit) (_ : Process) (_ : OS) : Prop := e = .gaveUp

/-! ### What an operation did

Each relation also says that the log has grown at its end only, so that relations can be
composed. -/

/-- Same handles and same descriptors; calls may have been made. -/
structure Kept (s : Process) (o : OS) (s' : Process) (o' : OS) : Prop where
  handles : s'.handles = s.handles
  openFds : o'.openFds = o.openFds
  managed : o'.managed = o.managed
  log : o.log <+: o'.log

/-- The object `x` got a new descriptor; nothing else changed. -/
structure Gained (x : HandleId) (fd : Nat) (s : Process) (o : OS) (s' : Process) (o' : OS) :
    Prop where
  fresh : fd ∉ o.openFds
  handles : s'.handles = Function.update s.handles x (some (some fd))
  openFds : o'.openFds = insert fd o.openFds
  managed : o'.managed = insert fd o.managed
  log : o.log <+: o'.log
  created : ∃ e ∈ o.since o', Event.created e = some fd

/-- The object `x` closed its descriptor; nothing else changed. -/
structure Lost (x : HandleId) (fd : Nat) (s : Process) (o : OS) (s' : Process) (o' : OS) :
    Prop where
  handles : s'.handles = Function.update s.handles x (some none)
  openFds : o'.openFds = o.openFds.erase fd
  managed : o'.managed = o.managed.erase fd
  log : o.log <+: o'.log

/-- The last call that was not a `close` failed, with this error. -/
def Reports (o o' : OS) (error : SocketError) : Prop :=
  ∃ before r e closes, o'.log = o.log ++ before ++ (⟨r, .error e⟩ : Event) :: closes ∧
    ¬ Event.IsClose ⟨r, .error e⟩ ∧ (∀ c ∈ closes, Event.IsClose c) ∧ error = .ofCode e

section Relations

variable {s s₁ s₂ : Process} {o o₁ o₂ : OS} {x y : HandleId} {h : NativeHandle} {fd : Nat}
variable {error : SocketError}

theorem Kept.refl : Kept s o s o := ⟨rfl, rfl, rfl, List.prefix_rfl⟩

theorem Kept.trans (h₁ : Kept s o s₁ o₁) (h₂ : Kept s₁ o₁ s₂ o₂) : Kept s o s₂ o₂ :=
  ⟨h₂.handles.trans h₁.handles, h₂.openFds.trans h₁.openFds, h₂.managed.trans h₁.managed,
    h₁.log.trans h₂.log⟩

theorem Kept.gained (h₁ : Kept s o s₁ o₁) (h₂ : Gained x fd s₁ o₁ s₂ o₂) :
    Gained x fd s o s₂ o₂ where
  fresh := h₁.openFds ▸ h₂.fresh
  handles := by rw [h₂.handles, h₁.handles]
  openFds := by rw [h₂.openFds, h₁.openFds]
  managed := by rw [h₂.managed, h₁.managed]
  log := h₁.log.trans h₂.log
  created := by
    obtain ⟨e, he, hfd⟩ := h₂.created
    exact ⟨e, OS.since_mono h₁.log h₂.log List.prefix_rfl he, hfd⟩

theorem Kept.lost (h₁ : Kept s o s₁ o₁) (h₂ : Lost x fd s₁ o₁ s₂ o₂) : Lost x fd s o s₂ o₂ where
  handles := by rw [h₂.handles, h₁.handles]
  openFds := by rw [h₂.openFds, h₁.openFds]
  managed := by rw [h₂.managed, h₁.managed]
  log := h₁.log.trans h₂.log

/-- After calls that changed nothing, a new descriptor is where it has been moved to. -/
theorem Gained.moved {z : HandleId} {s₀ s₃ s₄ : Process} (h : Gained x fd s₀ o s₁ o₁)
    (hk : Kept s₂ o₁ s₃ o₂)
    (hs : ∀ u, s₄.handles u = if u = z then some (some fd) else s.handles u) :
    Gained z fd s o s₄ o₂ where
  fresh := h.fresh
  handles := funext fun u => by rw [hs, Function.update_apply]
  openFds := by rw [hk.openFds, h.openFds]
  managed := by rw [hk.managed, h.managed]
  log := h.log.trans hk.log
  created := by
    obtain ⟨e, he, hfd⟩ := h.created
    exact ⟨e, OS.since_mono List.prefix_rfl h.log hk.log he, hfd⟩

/-- A call that neither opens nor closes. -/
theorem Kept.after {e : Event} (hc : Event.created e = none) (hd : Event.closed e = none)
    (hs : s₁.handles = s.handles) : Kept s o s₁ (o.after e) where
  handles := hs
  openFds := by simp [OS.after, hc, hd]
  managed := by simp [OS.after, hc, hd]
  log := List.prefix_append ..

theorem Reports.extend (hlog : o.log <+: o₁.log) (h : Reports o₁ o₂ error) :
    Reports o o₂ error := by
  obtain ⟨before, r, e, closes, hsplit, hr, hcloses, rfl⟩ := h
  obtain ⟨calls, hcalls⟩ := hlog
  exact ⟨calls ++ before, r, e, closes, by rw [hsplit, ← hcalls]; simp, hr, hcloses, rfl⟩

/-- A `close` on the way out does not change what is reported. -/
theorem Reports.close {e : Event} (he : e.IsClose) (h : Reports o o₁ error) :
    Reports o (o₁.after e) error := by
  obtain ⟨before, r, err, closes, hsplit, hr, hcloses, rfl⟩ := h
  refine ⟨before, r, err, closes ++ [e], by rw [OS.after, hsplit]; simp, hr, ?_, rfl⟩
  intro c hc
  rw [List.mem_append, List.mem_singleton] at hc
  rcases hc with hc | rfl
  · exact hcloses c hc
  · exact he

/-- The call that has just failed. -/
theorem Reports.last {r : Request} {e : Errno}
    (hr : ¬ Event.IsClose (⟨r, .error e⟩ : Event)) :
    Reports o (o.after ⟨r, .error e⟩) (.ofCode e) :=
  ⟨[], r, e, [], by simp [OS.after], hr, by simp, rfl⟩

/-! ### The invariant

One lemma for each of the relations above, and one for each way in which objects pass
descriptors on without a call. -/

theorem Good.isOpen (hg : Good s o) (hx : s.handles x = some (some fd)) : fd ∈ o.openFds :=
  o.managed_le ((hg.managed fd).mpr ⟨x, hx⟩)

/-- A call by the owner of its descriptor is accepted. -/
theorem accepts_owned {guarded : Prop} {c : Call} (hg : guarded → Good s o)
    (hx : s.handles x = some (some fd)) (hc : c.target = some (some fd)) :
    (osEnv guarded).accepts ⟨x, c⟩ s o := by
  intro hguard
  refine ⟨hg hguard, ?_⟩
  intro handle hhandle
  cases hc.symm.trans hhandle
  exact ⟨fd, rfl, (hg hguard).isOpen hx, hx⟩

theorem Good.kept (hg : Good s o) (hk : Kept s o s₁ o₁) : Good s₁ o₁ where
  managed fd := by rw [hk.managed, hk.handles]; exact hg.managed fd
  unique := by rw [hk.handles]; exact hg.unique

/-- An object without a descriptor gets a new one. It was not open, so no object holds it yet. -/
theorem Good.gained (hg : Good s o) (hx : ∀ fd, s.handles x ≠ some (some fd))
    (h : Gained x fd s o s₁ o₁) : Good s₁ o₁ where
  managed d := by
    rw [h.managed, h.handles, Finset.mem_insert, hg.managed]
    constructor
    · intro hd
      rcases hd with rfl | ⟨y, hy⟩
      · exact ⟨x, Function.update_self ..⟩
      · refine ⟨y, ?_⟩
        rwa [Function.update_of_ne]
        intro hyx
        exact hx d (hyx ▸ hy)
    · intro hd
      obtain ⟨y, hy⟩ := hd
      by_cases hyx : y = x
      · subst hyx
        rw [Function.update_self] at hy
        cases hy
        exact .inl rfl
      · rw [Function.update_of_ne hyx] at hy
        exact .inr ⟨y, hy⟩
  unique y z d hy hz := by
    -- whoever else held the new descriptor would have held a descriptor that was not open
    have hother : ∀ y, y ≠ x → s₁.handles y = some (some fd) → False := by
      intro y hyx hy
      rw [h.handles, Function.update_of_ne hyx] at hy
      exact h.fresh (hg.isOpen hy)
    by_cases hyx : y = x
    · by_cases hzx : z = x
      · rw [hyx, hzx]
      · subst hyx
        rw [h.handles, Function.update_self] at hy
        cases hy
        exact (hother z hzx hz).elim
    · by_cases hzx : z = x
      · subst hzx
        rw [h.handles, Function.update_self] at hz
        cases hz
        exact (hother y hyx hy).elim
      · rw [h.handles, Function.update_of_ne hyx] at hy
        rw [h.handles, Function.update_of_ne hzx] at hz
        exact hg.unique y z d hy hz

/-- An owner closes its descriptor. No other object holds it, so none is left with a
descriptor that was freed. -/
theorem Good.lost (hg : Good s o) (hx : s.handles x = some (some fd))
    (h : Lost x fd s o s₁ o₁) : Good s₁ o₁ where
  managed d := by
    rw [h.managed, h.handles, Finset.mem_erase, hg.managed]
    constructor
    · intro howner
      obtain ⟨hd, y, hy⟩ := howner
      refine ⟨y, ?_⟩
      rwa [Function.update_of_ne]
      intro hyx
      subst hyx
      cases hx.symm.trans hy
      exact hd rfl
    · intro howner
      obtain ⟨y, hy⟩ := howner
      by_cases hyx : y = x
      · subst hyx
        simp at hy
      · -- had `y` held the descriptor too, it would be the object `x`
        rw [Function.update_of_ne hyx] at hy
        refine ⟨?_, y, hy⟩
        intro hd
        subst hd
        exact hyx (hg.unique y x d hy hx)
  unique y z d hy hz := by
    rw [h.handles, Function.update_apply] at hy hz
    split at hy
    · cases hy
    · split at hz
      · cases hz
      · exact hg.unique y z d hy hz

/-- Objects without a descriptor come and go. -/
theorem Good.same (hg : Good s o)
    (hs : ∀ z fd, s₁.handles z = some (some fd) ↔ s.handles z = some (some fd)) : Good s₁ o where
  managed fd := by simp only [hg.managed, hs]
  unique y z fd hy hz := hg.unique y z fd ((hs y fd).mp hy) ((hs z fd).mp hz)

/-- Two objects exchange what they hold. -/
theorem Good.exchange (hg : Good s o) (x y : HandleId)
    (hs : ∀ z fd, s₁.handles (Equiv.swap x y z) = some (some fd) ↔
      s.handles z = some (some fd)) : Good s₁ o where
  managed fd := by
    rw [hg.managed]
    constructor
    · intro howner
      obtain ⟨z, hz⟩ := howner
      exact ⟨_, (hs z fd).mpr hz⟩
    · -- a swap undoes itself
      intro howner
      obtain ⟨z, hz⟩ := howner
      exact ⟨Equiv.swap x y z, (hs _ fd).mp (by rwa [Equiv.swap_apply_self])⟩
  unique z z' fd hz hz' := by
    have hsame := hg.unique (Equiv.swap x y z) (Equiv.swap x y z') fd
      ((hs _ fd).mp (by rwa [Equiv.swap_apply_self]))
      ((hs _ fd).mp (by rwa [Equiv.swap_apply_self]))
    exact (Equiv.swap x y).injective hsame

/-- A descriptor moves to an object that has none. -/
theorem Good.move (hg : Good s o) (hne : x ≠ y) (hx : ∀ fd, s.handles x ≠ some (some fd))
    (hy : s.handles y = some h) : Good ((s.put y none).put x h) o := by
  apply hg.exchange x y
  intro z fd
  by_cases hzx : z = x
  · subst hzx
    simp [hne.symm, hx]
  · by_cases hzy : z = y
    · subst hzy
      simp [hy]
    · simp [Equiv.swap_apply_of_ne_of_ne hzx hzy, hzx, hzy]

/-- An object without a descriptor adopts an open one that nobody owns. -/
theorem Good.adopt (hg : Good s o) (hx : ∀ fd, s.handles x ≠ some (some fd))
    (hh : ∀ fd, h = some fd → fd ∈ o.openFds ∧ ∀ y, s.handles y ≠ some (some fd)) :
    Good (s.put x h) (o.adopt h) where
  managed d := by
    simp only [OS.adopt, Finset.mem_union, Finset.mem_inter, Option.mem_toFinset,
      Option.mem_def, Process.handles_put, hg.managed]
    constructor
    · intro hd
      rcases hd with ⟨y, hy⟩ | ⟨hd, -⟩
      · refine ⟨y, ?_⟩
        rw [if_neg]
        · exact hy
        · rintro rfl
          exact hx d hy
      · exact ⟨x, by rw [if_pos rfl, hd]⟩
    · intro hd
      obtain ⟨y, hy⟩ := hd
      split at hy
      · -- the adopted one was open before, so it is among those now managed
        cases hy
        exact .inr ⟨rfl, (hh d rfl).1⟩
      · exact .inl ⟨y, hy⟩
  -- the adopted descriptor had no owner, so two owners would both be `x`
  unique y z d hy hz := by
    simp only [Process.handles_put] at hy hz
    split at hy
    · split at hz
      · simp_all
      · cases hy
        exact absurd hz ((hh d rfl).2 z)
    · split at hz
      · cases hz
        exact absurd hy ((hh d rfl).2 y)
      · exact hg.unique y z d hy hz

/-- Adopting what is owned already. -/
theorem Good.adopt_owned (hg : Good s o) (hx : s.handles x = some h) : Good s (o.adopt h) where
  managed d := by
    rw [← hg.managed]
    simp only [OS.adopt, Finset.mem_union, Finset.mem_inter, Option.mem_toFinset,
      Option.mem_def, or_iff_left_iff_imp]
    intro hd
    exact (hg.managed d).mpr ⟨x, by rw [hx, hd.1]⟩
  unique := hg.unique

/-- An object gives its descriptor away. -/
theorem Good.giveAway (hg : Good s o) (hx : s.handles x = some h) :
    Good (s.put x none) (o.giveAway h) where
  managed d := by
    simp only [OS.giveAway, Finset.mem_sdiff, Option.mem_toFinset, Option.mem_def,
      Process.handles_put, hg.managed]
    constructor
    · intro hd
      obtain ⟨⟨y, hy⟩, hne⟩ := hd
      refine ⟨y, ?_⟩
      rw [if_neg]
      · exact hy
      · rintro rfl
        cases hx.symm.trans hy
        exact hne rfl
    · intro hd
      obtain ⟨y, hy⟩ := hd
      split at hy
      · cases hy
      · refine ⟨⟨y, hy⟩, ?_⟩
        rintro rfl
        exact ‹y ≠ x› (hg.unique y x d hy hx)
  unique y z d hy hz := by
    simp only [Process.handles_put] at hy hz
    split at hy
    · cases hy
    · split at hz
      · cases hz
      · exact hg.unique y z d hy hz

end Relations

end Net

end CoreSystems
