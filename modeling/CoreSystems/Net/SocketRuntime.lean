import CoreSystems.Lib.Layers
import CoreSystems.Lib.Sessions
import CoreSystems.Net.SystemCalls
import Mathlib.Data.Finset.Card

/-!
# CoreSystems.Net.SocketRuntime

`net::SocketRuntime`, which starts Winsock and stops it.

Winsock counts: it works while it has been started more often than stopped. A runtime object
stands for one start if it was initialized, and for none otherwise; on other platforms there is
nothing to start. `withRuntime` is a program whose sockets all live inside a runtime.

Two results follow. `runtimes_balanced` is about programs that make and destroy any number of
runtime objects, and says that starts and stops balance. `wp_withRuntime` is about a program
inside one: a proof that does not know of Winsock carries over, and the program makes no
socket call while Winsock is not started.
-/

namespace CoreSystems

open Calls (Client Code Env Interface wp)

namespace Net

/-! ### The class

An object whose start has failed, or has found a version it cannot use, stands for no start:
the constructor has taken it back. -/

/-- `WSAVERNOTSUPPORTED`. -/
def WSAVERNOTSUPPORTED : Int := 10092

/-- The calls that start Winsock and stop it. -/
inductive RuntimeCall
  | WSAStartup (version : UInt16)
  | WSACleanup
  deriving DecidableEq

/-- `WSAStartup` returns an error code, and in `wVersion` the version that will be used. -/
abbrev winsock : Interface where
  Call := RuntimeCall
  Answer
    | .WSAStartup _ => Int × UInt16
    | .WSACleanup => Int

/-- `MAKEWORD`. -/
def makeWord (low high : UInt8) : UInt16 := low.toUInt16 ||| (high.toUInt16 <<< 8)

/-- `LOBYTE`. -/
def loByte (word : UInt16) : UInt8 := word.toUInt8

/-- `HIBYTE`. -/
def hiByte (word : UInt16) : UInt8 := (word >>> 8).toUInt8

/-- `net::SocketRuntime`. -/
structure SocketRuntime where
  error : SocketError
  initialized : Bool

namespace SocketRuntime

variable {σ : Type}

/-- `SocketRuntime()`. -/
def construct (p : Platform) : Code winsock σ Exit SocketRuntime :=
  if p.windows then do
    let (result, wVersion) ← Code.ask (I := winsock) (.WSAStartup (makeWord 2 2))
    if result ≠ 0 then
      return ⟨.ofCode result, false⟩
    else if loByte wVersion ≠ 2 ∨ hiByte wVersion ≠ 2 then
      let _ ← Code.ask (I := winsock) .WSACleanup
      return ⟨.ofCode WSAVERNOTSUPPORTED, false⟩
    else
      return ⟨.success, true⟩
  else
    return ⟨.success, true⟩

/-- `~SocketRuntime`. -/
def destroy (p : Platform) (r : SocketRuntime) : Code winsock σ Exit Unit :=
  if p.windows ∧ r.initialized then do
    let _ ← Code.ask (I := winsock) .WSACleanup
    return ()
  else
    return ()

/-- How many starts of Winsock an object stands for. -/
def starts (p : Platform) (r : SocketRuntime) : Nat :=
  if p.windows ∧ r.initialized then 1 else 0

/-- An object has an error or is initialized, and nothing fails where there is no Winsock. -/
structure Valid (p : Platform) (r : SocketRuntime) : Prop where
  error : r.error.hasError = !r.initialized
  posix : p.windows = false → r.initialized = true

end SocketRuntime

/-- Winsock, and how often it has been started and not stopped. It may only be called where
there is a Winsock, and is never stopped more often than it has been started. -/
def winsockEnv (p : Platform) (σ : Type) : Env winsock σ Nat where
  accepts c _ n := p.windows = true ∧ (c = .WSACleanup → 0 < n)
  answers n c r n' :=
    match c, r with
    | .WSAStartup _, (result, _) => n' = if result = 0 then n + 1 else n
    | .WSACleanup, _ => n' = n - 1

/-- Sockets may be used. -/
def Started (p : Platform) (n : Nat) : Prop := p.windows = true → 0 < n

section Rules

variable {σ : Type} {p : Platform} {s : σ} {n : Nat} {E : Exit → σ → Nat → Prop}

/-- A start that was no use is taken back. -/
theorem wp_construct_runtime :
    wp (winsockEnv p σ) (SocketRuntime.construct p) (fun r s' n' => s' = s ∧ r.Valid p ∧
      n' = n + r.starts p) E s n := by
  rw [SocketRuntime.construct]
  split
  case isFalse hposix =>
    exact ⟨rfl, ⟨rfl, fun _ => rfl⟩, by simp [SocketRuntime.starts, hposix]⟩
  case isTrue hwindows =>
    refine (Calls.wp_bind _ _).mpr ⟨⟨hwindows, fun h => by cases h⟩, ?_⟩
    intro hr n₁ ha
    obtain ⟨result, wVersion⟩ := hr
    replace ha : n₁ = if result = 0 then n + 1 else n := ha
    have hnot : p.windows = false → False := by simp [hwindows]
    rw [Calls.Prog.wp]
    dsimp only
    split
    -- `WSAStartup` has failed, so it has started nothing
    case isTrue hresult =>
      rw [if_neg hresult] at ha
      refine ⟨rfl, ⟨decide_eq_true hresult, fun h => (hnot h).elim⟩, ?_⟩
      simp [SocketRuntime.starts, ha]
    case isFalse hresult =>
      rw [if_pos (not_not.mp hresult)] at ha
      split
      -- started, but of another version: the constructor stops it again
      case isTrue hversion =>
        refine (Calls.wp_bind _ _).mpr ⟨⟨hwindows, fun _ => by omega⟩, ?_⟩
        intro r n₂ hr
        replace hr : n₂ = n₁ - 1 := hr
        exact ⟨rfl, ⟨rfl, fun h => (hnot h).elim⟩, by simp [SocketRuntime.starts, hr, ha]⟩
      case isFalse hversion =>
        exact ⟨rfl, ⟨rfl, fun _ => rfl⟩, by simp [SocketRuntime.starts, hwindows, ha]⟩

/-- The destructor takes back what the constructor has done. -/
theorem wp_destroy_runtime {r : SocketRuntime} (hn : r.starts p ≤ n) :
    wp (winsockEnv p σ) (SocketRuntime.destroy p r) (fun _ s' n' => s' = s ∧
      n' = n - r.starts p) E s n := by
  rw [SocketRuntime.destroy]
  rw [SocketRuntime.starts] at hn ⊢
  split
  case isTrue hlive =>
    rw [if_pos hlive] at hn
    refine (Calls.wp_bind _ _).mpr ⟨⟨hlive.1, fun _ => hn⟩, ?_⟩
    intro r n₁ hr
    exact ⟨rfl, hr⟩
  case isFalse hdead => exact ⟨rfl, rfl⟩

end Rules

/-! ### Any number of runtimes

The starts that count are those of the initialized objects, which are kept as a finite set. -/

/-- What is done with runtime objects. They can be neither copied nor moved. -/
inductive RuntimeOperation
  | construct (x : Nat)
  | destroy (x : Nat)

/-- The runtime objects that are alive. -/
abbrev Runtimes := Nat → Option SocketRuntime

/-- The code of an operation. -/
def RuntimeOperation.code (p : Platform) : RuntimeOperation → Code winsock Runtimes Exit Unit
  | construct x => do
    let r ← SocketRuntime.construct p
    Code.modify fun s => Function.update s x (some r)
  | destroy x => do
    match (← Code.get) x with
    | none => Code.leave .lifetime
    | some r =>
      SocketRuntime.destroy p r
      Code.modify fun s => Function.update s x none

/-- A program that makes and destroys runtime objects in any order. -/
def runtimes (p : Platform) : Client winsock Runtimes Exit Nat RuntimeOperation where
  env := winsockEnv p Runtimes
  code op := op.code p
  allowed s _ op :=
    match op with
    | .construct x => s x = none
    | .destroy x => s x ≠ none
  drifts _ n n' := n' = n

/-- Winsock has been started once for each object in `live`, and these are the initialized
objects. -/
structure Balanced (p : Platform) (s : Runtimes) (n : Nat) (live : Finset Nat) : Prop where
  mem : ∀ x, x ∈ live ↔ ∃ r, s x = some r ∧ r.initialized = true
  starts : n = if p.windows then live.card else 0
  valid : ∀ x r, s x = some r → r.Valid p

section Balanced

variable {p : Platform} {s : Runtimes} {n : Nat} {live : Finset Nat} {x : Nat} {r : SocketRuntime}

theorem Balanced.construct (h : Balanced p s n live) (hx : s x = none) (hr : r.Valid p) :
    ∃ live', Balanced p (Function.update s x (some r)) (n + r.starts p) live' := by
  have hnot : x ∉ live := by
    rw [h.mem, hx]
    intro hr
    obtain ⟨r', hr', -⟩ := hr
    cases hr'
  have hvalid : ∀ y r', Function.update s x (some r) y = some r' → r'.Valid p := by
    intro y r' hy
    by_cases hyx : y = x
    · subst hyx
      rw [Function.update_self] at hy
      cases hy
      exact hr
    · rw [Function.update_of_ne hyx] at hy
      exact h.valid y r' hy
  -- an object that is not initialized stands for no start
  by_cases hinit : r.initialized = true
  · refine ⟨insert x live, ?_, ?_, hvalid⟩
    · intro y
      by_cases hyx : y = x
      · simp [hyx, hinit]
      · simp [hyx, h.mem]
    · rw [Finset.card_insert_of_notMem hnot, h.starts, SocketRuntime.starts]
      cases p.windows <;> simp [hinit]
  · refine ⟨live, ?_, ?_, hvalid⟩
    · intro y
      by_cases hyx : y = x
      · simp [hyx, hnot, hinit]
      · simp [hyx, h.mem]
    · simp [SocketRuntime.starts, hinit, h.starts]

theorem Balanced.starts_le (h : Balanced p s n live) (hx : s x = some r) : r.starts p ≤ n := by
  rw [SocketRuntime.starts]
  split
  case isTrue hlive =>
    have hmem : x ∈ live := (h.mem x).mpr ⟨r, hx, hlive.2⟩
    rw [h.starts, if_pos hlive.1]
    exact Finset.card_pos.mpr ⟨x, hmem⟩
  case isFalse hdead => exact Nat.zero_le n

theorem Balanced.destroy (h : Balanced p s n live) (hx : s x = some r) :
    Balanced p (Function.update s x none) (n - r.starts p) (live.erase x) where
  mem y := by
    by_cases hyx : y = x
    · simp [hyx]
    · simp [hyx, h.mem]
  starts := by
    by_cases hinit : r.initialized = true
    · have hmem : x ∈ live := (h.mem x).mpr ⟨r, hx, hinit⟩
      rw [Finset.card_erase_of_mem hmem, h.starts, SocketRuntime.starts]
      cases p.windows <;> simp [hinit]
    · have hnot : x ∉ live := by
        rw [h.mem, hx]
        intro hr
        obtain ⟨r', hr', hinit'⟩ := hr
        cases hr'
        exact hinit hinit'
      rw [Finset.erase_eq_of_notMem hnot, h.starts, SocketRuntime.starts]
      simp [hinit]
  valid y r' hy := by
    by_cases hyx : y = x
    · subst hyx
      rw [Function.update_self] at hy
      cases hy
    · rw [Function.update_of_ne hyx] at hy
      exact h.valid y r' hy

/-- One operation. A failed constructor leaves an object that its destructor must not stop
Winsock for. -/
theorem runtimes_keep :
    (runtimes p).Keeps (fun s n => ∃ live, Balanced p s n live) fun _ _ _ => False where
  operation op s n hs hop := by
    obtain ⟨live, hs⟩ := hs
    show wp (winsockEnv p Runtimes) (op.code p) _ _ s n
    cases op with
    | construct x =>
        rw [RuntimeOperation.code, Calls.wp_bind]
        refine wp_construct_runtime.imp ?_
        intro r _ _ hr
        obtain ⟨rfl, hr, rfl⟩ := hr
        exact hs.construct hop hr
    | destroy x =>
        obtain ⟨r, hx⟩ := Option.ne_none_iff_exists'.mp hop
        rw [RuntimeOperation.code, Calls.wp_bind, Calls.wp_get, hx]
        dsimp only
        rw [Calls.wp_bind]
        refine (wp_destroy_runtime (hs.starts_le hx)).imp ?_
        intro _ _ _ hr
        obtain ⟨rfl, rfl⟩ := hr
        exact ⟨_, hs.destroy hx⟩
  drift s n n' hs hn := by
    obtain rfl : n' = n := hn
    exact hs

end Balanced

/-- What is to be shown of a moment: between operations Winsock has been started once for each
initialized object, inside one it is stopped only if it has been started. -/
def RuntimesSafe (p : Platform) : Client.Moment winsock Runtimes Exit Nat → Prop
  | .between s n => ∃ live, Balanced p s n live
  | .inside (.call c _ _) n => p.windows = true ∧ (c = .WSACleanup → 0 < n)
  | .inside (.exit _ _) _ => False
  | .inside (.ret _ _) _ => True

/-- **Balanced starts.** In every run that makes and destroys any number of runtime objects,
whatever `WSAStartup` returns, the starts of Winsock that have not been taken back are as many
as there are initialized objects: none is leaked by an object that failed, and none is taken
back twice. Where there is no Winsock nothing is called. -/
theorem runtimes_balanced {p : Platform} {m : Client.Moment winsock Runtimes Exit Nat}
    (h : (runtimes p).Reachable (fun _ => none) 0 m) : RuntimesSafe p m := by
  have hinit : ∃ live, Balanced p (fun _ => none) 0 live := by
    refine ⟨∅, ?_, by simp, ?_⟩
    · intro x
      simp
    · intro x r hx
      cases hx
  cases m with
  | between s n => exact h.between runtimes_keep hinit
  | inside x n =>
      cases x with
      | call c seen k => exact h.accepted runtimes_keep hinit
      | exit e s => exact h.left runtimes_keep hinit
      | ret v s => trivial

/-- Two runtime objects. The second has found a version of Winsock that it cannot use. -/
def oneUsable : Runtimes :=
  Function.update (Function.update (fun _ => none) 0 (some ⟨.success, true⟩)) 1
    (some ⟨.ofCode WSAVERNOTSUPPORTED, false⟩)

/-- A run on Windows makes them, and has taken back the start of the second. -/
theorem runtimes_balanced_win64 :
    (runtimes .win64).Reachable (fun _ => none) 0 (.between oneUsable 1) ∧
      RuntimesSafe .win64 (.between oneUsable 1) := by
  have hfirst : (winsockEnv .win64 Runtimes).answers 0 (.WSAStartup (makeWord 2 2))
      (0, makeWord 2 2) 1 := rfl
  have hsecond : (winsockEnv .win64 Runtimes).answers 1 (.WSAStartup (makeWord 2 2))
      (0, makeWord 1 1) 2 := rfl
  have hback : (winsockEnv .win64 Runtimes).answers 2 .WSACleanup 0 1 := rfl
  have h₀ : (runtimes .win64).Reachable (fun _ => none) 0 (.between (fun _ => none) 0) := .refl
  have h₁ := (h₀.tail (.start (RuntimeOperation.construct 0) rfl)).tail (.answer hfirst)
  have h₂ := (h₁.tail .finish).tail (.start (RuntimeOperation.construct 1) rfl)
  have h₃ := (h₂.tail (.answer hsecond)).tail (.answer hback)
  exact ⟨h₃.tail .finish, runtimes_balanced (h₃.tail .finish)⟩

/-! ### Programs inside a runtime

The sockets of the body are gone when the runtime is destroyed, as locals are destroyed in
reverse order. -/

/-- A program whose sockets all live inside a runtime object. -/
def withRuntime {I : Interface} {α : Type} (p : Platform) (fail : SocketError → α)
    (body : Code I Process Exit α) : Code (I.sum winsock) Process Exit α := do
  let runtime ← (SocketRuntime.construct p).right
  let a ← if runtime.initialized then body.left else pure (fail runtime.error)
  (SocketRuntime.destroy p runtime).right
  return a

/-- A program that is right by itself is right inside a runtime. It uses no socket before
Winsock has been started or after it has been stopped, and leaves Winsock as it was. -/
theorem wp_withRuntime {I : Interface} {α ω : Type} {p : Platform} {env : Env I Process ω}
    {fail : SocketError → α} {body : Code I Process Exit α} {Q : α → Process → ω → Prop}
    {E : Exit → Process → ω → Prop} {s : Process} {w : ω × Nat}
    (hfail : ∀ error, error.hasError = true → Q (fail error) s w.1)
    (hbody : wp env body Q E s w.1) :
    wp (env.beside (Started p) (winsockEnv p Process)) (withRuntime p fail body)
      (fun a s' w' => Q a s' w'.1 ∧ w'.2 = w.2) (fun e s' w' => E e s' w'.1) s w := by
  rw [withRuntime, Calls.wp_bind]
  refine Calls.Prog.wp.mono (Calls.wp_right (E := fun _ _ _ => False) wp_construct_runtime) ?_ ?_
  · intro r s₁ hr hr'
    obtain ⟨k₁, n₁⟩ := hr
    obtain ⟨⟨rfl, hr, hn₁⟩, hk₁⟩ := hr'
    obtain ⟨k, n⟩ := w
    dsimp only at hn₁ hk₁ hfail hbody ⊢
    subst hn₁ hk₁
    -- the destructor, whatever comes before it
    have hend : ∀ {a : α} {s₂ : Process} {k₂ : ω}, Q a s₂ k₂ →
        wp (env.beside (Started p) (winsockEnv p Process)) (do
            (SocketRuntime.destroy p r).right
            return a)
          (fun a s' w' => Q a s' w'.1 ∧ w'.2 = n) (fun e s' w' => E e s' w'.1) s₂
          (k₂, n + r.starts p) := by
      intro a s₂ k₂ hQ
      rw [Calls.wp_bind]
      refine Calls.Prog.wp.mono (Calls.wp_right (E := fun _ _ _ => False)
        (wp_destroy_runtime (Nat.le_add_left ..))) ?_ ?_
      · intro _ s₃ hr hr'
        obtain ⟨k₃, n₃⟩ := hr
        obtain ⟨⟨rfl, hn₃⟩, hk₃⟩ := hr'
        dsimp only at hn₃ hk₃
        subst hn₃ hk₃
        exact ⟨hQ, Nat.add_sub_cancel ..⟩
      · intro e s₃ w₃ hr
        obtain ⟨hfalse, -⟩ := hr
        exact hfalse.elim
    split
    case isTrue hinit =>
      have hup : Started p (n + r.starts p) := by
        intro hwindows
        simp [SocketRuntime.starts, hwindows, hinit]
      rw [Calls.wp_bind]
      refine Calls.Prog.wp.mono (Calls.wp_left (w := (k₁, n + r.starts p)) hup hbody) ?_ ?_
      · intro a s₂ hr hr'
        obtain ⟨k₂, n₂⟩ := hr
        obtain ⟨hQ, hn₂⟩ := hr'
        dsimp only at hn₂ hQ
        subst hn₂
        exact hend hQ
      · intro e s₂ w₂ hr
        obtain ⟨hE, -⟩ := hr
        exact hE
    case isFalse hdead =>
      rw [Calls.wp_bind]
      exact hend (hfail r.error (by rw [hr.error, Bool.eq_false_iff.mpr hdead]; rfl))
  · intro e s₁ w₁ hr
    obtain ⟨hfalse, -⟩ := hr
    exact hfalse.elim

end Net

end CoreSystems
