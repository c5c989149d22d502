import CoreSystems.Net.SystemCalls

/-!
# CoreSystems.Net.SocketHandle

`net::SocketHandle`: the owner of a descriptor.

Each member function has one lemma here that says what it does to the process and
which call it makes, if any; the rest of the development uses these lemmas only.

The class moves descriptors between objects and closes them, and that is all the operating
system sees of it: `close` is the only call made here. `wp_close_valid` says on which
descriptor it is made and that the object has already let go of it, which is why a `close`
that fails is never repeated.
-/

namespace CoreSystems

open Calls (Code Env wp)

namespace Net

namespace SocketHandle

/-- `IsValid`. -/
def isValid (x : HandleId) : N Bool := do return (← get x).isSome

/-- `SocketHandle()` and `SocketHandle(handle)`. -/
def construct (x : HandleId) (handle : NativeHandle) : N Unit := put x handle

/-- `Release`. -/
def release (x : HandleId) : N NativeHandle := do
  let h ← get x
  put x none
  return h

/-- `Close`. The descriptor leaves the object before the call, so the call shows the
process as `Close` found it. What the debug build prints is not modelled. -/
def close (x : HandleId) : N Unit := do
  match ← get x with
  | none => return ()
  | some fd =>
    let entry ← Code.get
    put x none
    let result ← Code.askFrom (I := os) entry ⟨x, .close (some fd)⟩
    Code.modify fun s => s.noted result

/-- `Reset`. -/
def reset (x : HandleId) (handle : NativeHandle) : N Unit := do
  if (← get x) ≠ handle then
    close x
    put x handle

/-- `SocketHandle(SocketHandle&&)`. -/
def moveConstruct (x other : HandleId) : N Unit := do construct x (← release other)

/-- `operator=(SocketHandle&&)`. -/
def moveAssign (x other : HandleId) : N Unit := do
  if x ≠ other then
    reset x (← release other)

/-- `Swap`. -/
def swap (x other : HandleId) : N Unit := do
  let a ← get x
  let b ← get other
  put x b
  put other a

/-- `~SocketHandle`, at the end of which the object is gone. -/
def destroy (x : HandleId) : N Unit := do
  close x
  Code.modify fun s => s.drop x

/-- The rest of the scope of a local, which is destroyed when it is left. Every function with
a `SocketHandle` local ends in one of these, whatever it returns. -/
def leaving {α : Type} (x : HandleId) (body : N α) : N α := do
  let a ← body
  destroy x
  return a

/-- `SocketResult::Success(std::move(other))`, with the result in `result`. -/
def success (result other : HandleId) : N Unit := do
  moveConstruct .value other
  leaving .value (moveConstruct result .value)

end SocketHandle

namespace Process

variable {s t : Process} {x y : HandleId} {h g : NativeHandle}

theorem eq_of_handles (hh : ∀ z, s.handles z = t.handles z) (he : s.errno = t.errno) : s = t :=
  Process.ext (funext hh) he

theorem put_self (hx : s.handles x = some h) : s.put x h = s :=
  eq_of_handles (fun z => by by_cases hz : z = x <;> simp [hz, hx]) rfl

@[simp] theorem put_put : (s.put x g).put x h = s.put x h :=
  eq_of_handles (fun z => by by_cases hz : z = x <;> simp [hz]) rfl

@[simp] theorem drop_put (hx : s.handles x = none) : (s.put x h).drop x = s :=
  eq_of_handles (fun z => by by_cases hz : z = x <;> simp [hz, hx]) rfl

theorem put_drop_comm (hne : x ≠ y) : (s.put y h).drop x = (s.drop x).put y h := by
  refine eq_of_handles (fun z => ?_) rfl
  by_cases hx : z = x
  · simp [hx, hne]
  · by_cases hy : z = y <;> simp [hx, hy, hne.symm]

/-! ### What was written to objects

Locals come and go, and objects pass descriptors on to each other. What is left of it are the
last writes to the objects that still live. -/

/-- What objects hold after some of them were written to, the last one first. -/
def written (handles : HandleId → Option NativeHandle) :
    List (HandleId × Option NativeHandle) → HandleId → Option NativeHandle
  | [] => handles
  | (x, h) :: earlier => Function.update (written handles earlier) x h

variable {handles : HandleId → Option NativeHandle}

theorem written_of_forall_ne {writes : List (HandleId × Option NativeHandle)} {z : HandleId}
    (hz : ∀ write ∈ writes, z ≠ write.1) : written handles writes z = handles z := by
  induction writes with
  | nil => rfl
  | cons write writes ih =>
      rw [List.forall_mem_cons] at hz
      rw [written, Function.update_of_ne hz.1, ih hz.2]

/-- Two ways of writing to the same objects come to the same if they do for each of these. So
only the objects written to need to be compared, and not all there are. -/
theorem written_congr (writes writes' : List (HandleId × Option NativeHandle))
    (h : ∀ write ∈ writes ++ writes', written handles writes write.1 =
      written handles writes' write.1) : written handles writes = written handles writes' := by
  funext z
  by_cases hz : ∃ write ∈ writes ++ writes', z = write.1
  · obtain ⟨write, hmem, rfl⟩ := hz
    exact h write hmem
  · push Not at hz
    rw [List.forall_mem_append] at hz
    rw [written_of_forall_ne hz.1, written_of_forall_ne hz.2]

end Process

section Rules

open SocketHandle

variable {ω α : Type} {env : Env os Process ω} {s : Process} {w : ω}
variable {E : Exit → Process → ω → Prop} {x y : HandleId} {h g : NativeHandle}

@[simp] theorem wp_isValid {Q : Bool → Process → ω → Prop} (hx : s.handles x = some h) :
    wp env (isValid x) Q E s w ↔ Q h.isSome s w := by
  simp [isValid, hx]

@[simp] theorem wp_construct {Q : Unit → Process → ω → Prop} :
    wp env (construct x h) Q E s w ↔ Q () (s.put x h) w := Iff.rfl

@[simp] theorem wp_release {Q : NativeHandle → Process → ω → Prop}
    (hx : s.handles x = some h) :
    wp env (release x) Q E s w ↔ Q h (s.put x none) w := by
  simp [release, hx]

/-- Closing an object without a descriptor does nothing. -/
theorem wp_close_invalid {Q : Unit → Process → ω → Prop} (hx : s.handles x = some none) :
    wp env (close x) Q E s w ↔ Q () s w := by
  simp [close, hx]

/-- Closing an object with a descriptor makes one call, on that descriptor. It is made by an
object that holds none any more. -/
theorem wp_close_valid {fd : Nat} {Q : Unit → Process → ω → Prop}
    (hx : s.handles x = some (some fd)) :
    wp env (close x) Q E s w ↔ env.accepts ⟨x, .close (some fd)⟩ s w ∧
      ∀ a w', env.answers w ⟨x, .close (some fd)⟩ a w' → Q () ((s.put x none).noted a) w' := by
  simp only [close, Calls.wp_bind, wp_getHandle hx, Calls.wp_get, wp_put]
  exact Iff.rfl

/-- Resetting an object that has a descriptor to another handle closes it first. -/
theorem wp_reset {Q : Unit → Process → ω → Prop} (hx : s.handles x = some g) :
    wp env (reset x h) Q E s w ↔
      if g = h then Q () s w
      else wp env (close x) (fun _ s' w' => Q () (s'.put x h) w') E s w := by
  simp only [reset, Calls.wp_bind, wp_getHandle hx]
  by_cases hgh : g = h
  · simp [hgh]
  · simp [hgh]

theorem wp_reset_invalid {Q : Unit → Process → ω → Prop} (hx : s.handles x = some none) :
    wp env (reset x h) Q E s w ↔ Q () (s.put x h) w := by
  rw [wp_reset hx]
  by_cases hh : none = h
  · subst hh
    rw [if_pos rfl, Process.put_self hx]
  · rw [if_neg hh, wp_close_invalid hx]

@[simp] theorem wp_moveConstruct {Q : Unit → Process → ω → Prop}
    (hy : s.handles y = some h) :
    wp env (moveConstruct x y) Q E s w ↔ Q () ((s.put y none).put x h) w := by
  simp [moveConstruct, hy]

/-- Moving into an object without a descriptor makes no call. -/
theorem wp_moveAssign_invalid {Q : Unit → Process → ω → Prop} (hne : x ≠ y)
    (hx : s.handles x = some none) (hy : s.handles y = some h) :
    wp env (moveAssign x y) Q E s w ↔ Q () ((s.put y none).put x h) w := by
  simp [moveAssign, hne, hy, wp_reset_invalid, hx]

theorem wp_destroy_invalid {Q : Unit → Process → ω → Prop} (hx : s.handles x = some none) :
    wp env (destroy x) Q E s w ↔ Q () (s.drop x) w := by
  simp [destroy, wp_close_invalid hx]

theorem wp_destroy_valid {fd : Nat} {Q : Unit → Process → ω → Prop}
    (hx : s.handles x = some (some fd)) :
    wp env (destroy x) Q E s w ↔ env.accepts ⟨x, .close (some fd)⟩ s w ∧
      ∀ a w', env.answers w ⟨x, .close (some fd)⟩ a w' →
        Q () (((s.put x none).noted a).drop x) w' := by
  simp [destroy, wp_close_valid hx]

@[simp] theorem wp_leaving {body : N α} {Q : α → Process → ω → Prop} :
    wp env (leaving x body) Q E s w ↔ wp env body
      (fun a s' w' => wp env (destroy x) (fun _ s'' w'' => Q a s'' w'') E s' w') E s w := by
  simp [leaving]

/-- The parameter of `Success` only passes the descriptor on. -/
theorem wp_success {Q : Unit → Process → ω → Prop} (hv : s.handles .value = none)
    (hx : x ≠ .value) (hne : y ≠ .value) (hy : s.handles y = some h) :
    wp env (success x y) Q E s w ↔ Q () ((s.put y none).put x h) w := by
  have hmoved : (((s.put y none).put .value none).put x h).drop .value =
      (s.put y none).put x h := by
    rw [Process.put_drop_comm hx.symm, Process.drop_put]
    simp [hne.symm, hv]
  simp [success, hy, hx.symm, wp_destroy_invalid, hmoved]

end Rules

end Net

end CoreSystems
