import CoreSystems.Net.SocketError

/-!
# CoreSystems.Net.ErrorConditions

An error means the same on POSIX and on Winsock: whatever `std::errc` it is compared with,
the comparison through `SocketError` has the same result.

On POSIX the number of a failed call is the value of a condition, and the system category
says so. On Winsock the numbers are others; those in the `switch` of `Matches` are given
their conditions there, and all others are left to the system category.

`Corresponds` pairs the numbers of one failure on the two platforms, and `Corresponds.alike`
is the result: the errors made from such numbers match the same conditions. Its proof goes
through `winsockCases_same`: a case of the `switch` lists a condition together with everything
that POSIX holds to be the same, and nothing else. So the `switch` cannot forget one of the
two names of would-block without breaking this module.
-/

namespace CoreSystems

namespace Net

/-! ### Conditions that are the same

`EWOULDBLOCK` and `EAGAIN` have one value on POSIX and may have two elsewhere. All that
follows is up to this difference. -/

/-- The two conditions that many systems do not tell apart. -/
def Errc.WouldBlock (c : Errc) : Prop :=
  c = .operationWouldBlock ∨ c = .resourceUnavailableTryAgain

/-- One condition, up to this difference. -/
def Errc.Same (c c' : Errc) : Prop := c' = c ∨ c.WouldBlock ∧ c'.WouldBlock

instance (c : Errc) : Decidable c.WouldBlock := inferInstanceAs (Decidable (_ ∨ _))

instance (c c' : Errc) : Decidable (c.Same c') := inferInstanceAs (Decidable (_ ∨ _))

/-- The conditions that the library itself reports or that the `switch` knows. -/
def Errc.known : List Errc :=
  [.operationWouldBlock, .resourceUnavailableTryAgain, .interrupted, .connectionReset,
    .connectionRefused, .timedOut, .addressInUse, .connectionAborted, .notConnected, .messageSize,
    .badFileDescriptor, .invalidArgument]

/-- The headers give these conditions values of their own: no other condition, up to the
difference above, shares a value with one of them. -/
def Platform.Distinct (p : Platform) : Prop :=
  ∀ c ∈ Errc.known, ∀ c', p.errc c' = p.errc c → c.Same c'

/-- A POSIX platform: the numbers of failed calls are the values of the conditions, and
`EWOULDBLOCK` is `EAGAIN`. -/
structure Posix (p : Platform) : Prop where
  windows : p.windows = false
  system : ∀ value c, p.systemEquivalent value c = decide (value = p.errc c)
  wouldBlock : p.errc .operationWouldBlock = p.errc .resourceUnavailableTryAgain
  distinct : p.Distinct

/-- A Windows platform. Nothing is asked of its system category. -/
structure Winsock (p : Platform) : Prop where
  windows : p.windows = true
  distinct : p.Distinct

/-- A POSIX number and a Winsock number of the same failure: a case of the `switch`, or a
failure that the system category of each platform holds to be the same conditions. -/
inductive Corresponds (p q : Platform) : Int → Int → Prop
  | listed {value : Int} {conditions : List Errc} {c : Errc}
      (hrow : (value, conditions) ∈ SocketError.winsockCases q) (hc : c ∈ conditions) :
      Corresponds p q (p.errc c) value
  | other {value value' : Int} (hrow : (SocketError.winsockCases q).lookup value' = none)
      (hsame : ∀ c, p.systemEquivalent value c = q.systemEquivalent value' c) :
      Corresponds p q value value'

/-- Two errors that compare equal to the same conditions, each on its own platform. -/
def Alike (p q : Platform) (e e' : SocketError) : Prop := ∀ c, e.isMatch p c = e'.isMatch q c

/-! ### What the cases say -/

section Conditions

variable {p q : Platform} {c c' : Errc}

theorem Errc.Same.trans {c'' : Errc} (h : c.Same c') (h' : c'.Same c'') : c.Same c'' := by
  rcases h with rfl | ⟨hc, hc'⟩
  · exact h'
  · rcases h' with rfl | ⟨-, hc''⟩
    · exact .inr ⟨hc, hc'⟩
    · exact .inr ⟨hc, hc''⟩

/-- A condition other than the two is the same as itself only. -/
theorem Errc.Same.eq (h : c.Same c') (hc : ¬ c.WouldBlock) : c' = c :=
  h.resolve_right fun hsame => hc hsame.1

/-- On POSIX the values say which conditions are the same. -/
theorem Posix.errc_eq_iff (hp : Posix p) (hc : c ∈ Errc.known) :
    p.errc c = p.errc c' ↔ c.Same c' := by
  constructor
  · intro heq
    exact hp.distinct c hc c' heq.symm
  · intro hsame
    rcases hsame with rfl | ⟨hc, hc'⟩
    · rfl
    · rcases hc with rfl | rfl <;> rcases hc' with rfl | rfl
      · rfl
      · exact hp.wouldBlock
      · exact hp.wouldBlock.symm
      · rfl

/-- The conditions of the `switch` are known. -/
theorem winsockCases_known {row : Int × List Errc} (hrow : row ∈ SocketError.winsockCases q)
    (hc : c ∈ row.2) : c ∈ Errc.known := by
  simp only [SocketError.winsockCases, List.mem_cons, List.not_mem_nil, or_false] at hrow
  rcases hrow with rfl | rfl | rfl | rfl | rfl | rfl | rfl | rfl | rfl
  · simp only [List.mem_cons, List.not_mem_nil, or_false] at hc
    rcases hc with rfl | rfl <;> decide
  all_goals
    rw [List.mem_singleton] at hc
    subst hc
    decide

/-- A case of the `switch` names a condition and all that are the same, and no others. -/
theorem winsockCases_same {row : Int × List Errc} (hrow : row ∈ SocketError.winsockCases q)
    (hc : c ∈ row.2) : c' ∈ row.2 ↔ c.Same c' := by
  simp only [SocketError.winsockCases, List.mem_cons, List.not_mem_nil, or_false] at hrow
  rcases hrow with rfl | rfl | rfl | rfl | rfl | rfl | rfl | rfl | rfl
  · simp only [List.mem_cons, List.not_mem_nil, or_false] at hc ⊢
    constructor
    · intro hc'
      exact .inr ⟨hc, hc'⟩
    · intro hsame
      rcases hsame with rfl | ⟨-, hc'⟩
      · exact hc
      · exact hc'
  -- every other case names one condition, and not one of the two
  all_goals
    rw [List.mem_singleton] at hc
    subst hc
    rw [List.mem_singleton]
    constructor
    · intro hc'
      exact .inl hc'
    · intro hsame
      exact hsame.eq (by decide)

/-- **Corresponding numbers give errors that are alike.** -/
theorem Corresponds.alike (hp : Posix p) (hq : Winsock q) {e e' : Int}
    (h : Corresponds p q e e') : Alike p q (.ofCode e) (.ofCode e') := by
  intro c'
  have hposix : SocketError.isMatch p (.ofCode e) c' = p.systemEquivalent e c' := by
    simp [SocketError.isMatch, SocketError.equivalent, SocketError.ofCode, hp.windows]
  rw [hposix]
  -- either both are left to the system categories, or a case of the `switch` decides on
  -- Winsock
  cases h with
  | other hrow hsame =>
      simp [SocketError.isMatch, SocketError.equivalent, SocketError.ofCode, hq.windows, hrow,
        hsame]
  | @listed _ conditions c hrow hc =>
      have hwinsock : SocketError.isMatch q (.ofCode e') c' =
          conditions.any fun c => q.errc c' = q.errc c := by
        simp [SocketError.isMatch, SocketError.ofCode, hq.windows,
          SocketError.lookup_winsockCases hrow]
      rw [hwinsock, hp.system, Bool.eq_iff_iff, decide_eq_true_iff,
        hp.errc_eq_iff (winsockCases_known hrow hc), List.any_eq_true]
      constructor
      · intro hsame
        exact ⟨c', (winsockCases_same hrow hc).mpr hsame, by simp⟩
      · intro hany
        obtain ⟨c₁, hc₁, heq⟩ := hany
        have hsame : c.Same c₁ := (winsockCases_same hrow hc).mp hc₁
        have hknown : c₁ ∈ Errc.known := winsockCases_known hrow hc₁
        exact hsame.trans (hq.distinct c₁ hknown c' (of_decide_eq_true heq))

/-- Reporting a condition by name gives errors that are alike: both match that condition and
no other, whatever its value is on the platform. -/
theorem alike_ofErrc (hp : p.Distinct) (hq : q.Distinct) (hc : c ∈ Errc.known)
    (hone : ¬ c.WouldBlock) : Alike p q (.ofErrc p c) (.ofErrc q c) := by
  have hmatch : ∀ r : Platform, r.Distinct → ∀ c',
      SocketError.isMatch r (.ofErrc r c) c' = true ↔ c' = c := by
    intro r hr c'
    rw [SocketError.isMatch_ofErrc]
    constructor
    · intro heq
      exact (hr c hc c' heq.symm).eq hone
    · rintro rfl
      rfl
  intro c'
  rw [Bool.eq_iff_iff, hmatch p hp, hmatch q hq]

theorem posix_linux : Posix .linux where
  windows := rfl
  system _ _ := rfl
  wouldBlock := rfl
  distinct := by
    intro c hc c'
    simp only [Errc.known, List.mem_cons, List.not_mem_nil, or_false] at hc
    rcases hc with rfl | rfl | rfl | rfl | rfl | rfl | rfl | rfl | rfl | rfl | rfl | rfl
    all_goals cases c' <;> decide

theorem winsock_win64 : Winsock .win64 where
  windows := rfl
  distinct := by
    intro c hc c'
    simp only [Errc.known, List.mem_cons, List.not_mem_nil, or_false] at hc
    rcases hc with rfl | rfl | rfl | rfl | rfl | rfl | rfl | rfl | rfl | rfl | rfl | rfl
    all_goals cases c' <;> decide

end Conditions

end Net

end CoreSystems
