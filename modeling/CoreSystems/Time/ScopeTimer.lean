import CoreSystems.Lib.Buffer
import CoreSystems.Lib.Calls

/-!
# CoreSystems.Time.ScopeTimer

`ccs::ScopeTimer` and programs that use it.

A timer reads the clock when it is constructed and again in its destructor, which runs however
its scope is left. The destructor collects a line in a string stream, piece by piece, and hands
it to the output stream in one insertion; whatever is thrown on the way, it swallows.

What the destructor does is program text here, down to the single insertions. Outside of it are
only the clock, the memory of string streams, the output stream and the other statements of the
program: these are calls, and each of them but the clock may fail.

* A string stream that runs out of memory in an insertion keeps the front of what it was given
  and is bad from then on. It does not throw, since nobody has asked it to.
* Creating one and reading one out may throw.
* How a number of ticks is written, and the suffix of its unit, are parameters (`DurationText`).
  They are the floating-point part of the header.
-/

namespace CoreSystems

open Buffer (Bytes)
open Calls (Code Env Interface wp)

namespace Time

/-! ### The host

Exceptions are values: a function that may throw returns an `Except`. -/

/-- `std::ratio`. -/
structure Ratio where
  num : Int
  den : Int
  deriving DecidableEq, Repr

/-- How a scope is left before its end: an exception, or a jump. -/
abbrev Abrupt := Nat

/-- What timers and the rest of the program ask for. -/
inductive Call
  /-- `Clock::now()`. -/
  | now
  /-- A string stream is created. -/
  | openStream
  /-- The buffer of a string stream takes these characters. The answer is how many of them it
  has taken. -/
  | store (text : Bytes)
  /-- `str()`: the characters of a string stream are copied. -/
  | copy
  /-- `m_os << text`. -/
  | insert (os : Nat) (text : Bytes)
  /-- A statement that does not concern timers. -/
  | work (statement : Nat)
  deriving DecidableEq

/-- The rest of the program and the standard library. -/
abbrev host : Interface where
  Call := Call
  Answer
    | .now => Nat
    | .openStream => Except Abrupt Unit
    | .store _ => Nat
    | .copy => Except Abrupt Unit
    | .insert _ _ => Except Abrupt Unit
    | .work _ => Except Abrupt Nat

/-- Program text that never leaves. -/
abbrev T (α : Type) : Type := Code host Unit Empty α

/-! ### String streams

A stream is a value with its text, and the memory for more text is what is asked of the host.
Insertions into a bad stream do nothing. -/

/-- `std::ostringstream` with the flags and the locale it is created with: what has been
written, the precision, and `badbit`. -/
structure OStringStream where
  text : Bytes
  precision : Nat
  bad : Bool
  deriving DecidableEq, Repr

/-- How durations are written: the count of ticks at a precision, in units of a ratio, and the
suffix of these units. -/
structure DurationText where
  count : Nat → Ratio → Nat → Bytes
  suffix : Ratio → Bytes

namespace OStringStream

/-- `std::ostringstream oss`, whose precision is 6. -/
def construct : T (Except Abrupt OStringStream) := do
  match ← Code.ask (I := host) .openStream with
  | .error e => return .error e
  | .ok _ => return .ok ⟨[], 6, false⟩

/-- `oss << text`. A stream that is bad takes nothing. -/
def insert (oss : OStringStream) (text : Bytes) : T OStringStream := do
  if oss.bad then
    return oss
  else
    let stored ← Code.ask (I := host) (.store text)
    return { oss with text := oss.text ++ text.take stored, bad := stored < text.length }

/-- `oss.str()`. -/
def str (oss : OStringStream) : T (Except Abrupt Bytes) := do
  match ← Code.ask (I := host) .copy with
  | .error e => return .error e
  | .ok _ => return .ok oss.text

/-- `oss << duration`, which the standard explains by another string stream of the same
precision. -/
def insertDuration (shown : DurationText) (oss : OStringStream) (ratio : Ratio) (ticks : Nat) :
    T (Except Abrupt OStringStream) := do
  match ← construct with
  | .error e => return .error e
  | .ok s =>
    let s ← insert { s with precision := oss.precision } (shown.count oss.precision ratio ticks)
    let s ← s.insert (shown.suffix ratio)
    match ← s.str with
    | .error e => return .error e
    | .ok text => return .ok (← oss.insert text)

end OStringStream

/-! ### Timers

The constructor is one call. The destructor is a `try` block and nothing after it. -/

/-- `ScopeTimer<Ratio>`: all but the start. Output streams are numbered. -/
structure ScopeTimer where
  ratio : Ratio
  label : Bytes
  os : Nat
  deriving DecidableEq, Repr

namespace ScopeTimer

/-- `ScopeTimer(std::string, std::ostream&)`, with `m_start`. -/
def construct (_ : ScopeTimer) : T Nat := Code.ask (I := host) .now

/-- `oss << m_label << ": " << duration << "\n"`. -/
def write (shown : DurationText) (timer : ScopeTimer) (ticks : Nat) (oss : OStringStream) :
    T (Except Abrupt OStringStream) := do
  let oss ← oss.insert timer.label
  let oss ← oss.insert [58, 32]
  match ← oss.insertDuration shown timer.ratio ticks with
  | .error e => return .error e
  | .ok oss => return .ok (← oss.insert [10])

/-- The `try` block of `~ScopeTimer`. -/
def report (shown : DurationText) (timer : ScopeTimer) (start : Nat) :
    T (Except Abrupt Unit) := do
  let stop ← Code.ask (I := host) .now
  match ← OStringStream.construct with
  | .error e => return .error e
  | .ok oss =>
    match ← timer.write shown (stop - start) { oss with precision := 15 } with
    | .error e => return .error e
    | .ok oss =>
      match ← oss.str with
      | .error e => return .error e
      | .ok text => Code.ask (I := host) (.insert timer.os text)

/-- `~ScopeTimer`. Whatever the `try` block throws is caught. -/
def destroy (shown : DurationText) (timer : ScopeTimer) (start : Nat) : T Unit := do
  let _ ← report shown timer start

end ScopeTimer

/-! ### Programs with timers

A block is what is left of a scope at some point of it. It may open further scopes, construct
timers that live until its end, and be left at any statement. -/

/-- The rest of a scope. A statement chooses how it goes on. -/
inductive Block
  | done
  | work (statement : Nat) (next : Nat → Block)
  | scope (inner rest : Block)
  | timer (t : ScopeTimer) (rest : Block)

/-- The rest of a scope runs, and its objects are destroyed however it ends. -/
def Block.run (shown : DurationText) : Block → T (Except Abrupt Unit)
  | done => return .ok ()
  | work statement next => do
    match ← Code.ask (I := host) (.work statement) with
    | .error e => return .error e
    | .ok v => (next v).run shown
  | scope inner rest => do
    match ← inner.run shown with
    | .error e => return .error e
    | .ok _ => rest.run shown
  | timer t rest => do
    let start ← t.construct
    let r ← rest.run shown
    t.destroy shown start
    return r

/-- The same program without timers. -/
def Block.erase : Block → Block
  | done => done
  | work statement next => work statement fun v => (next v).erase
  | scope inner rest => scope inner.erase rest.erase
  | timer _ rest => rest.erase

/-! ### What a block does

This says nothing of clocks and streams. It is what the program with timers has to refine. -/

/-- The work of a block with its answers, its timers in the order in which their scopes end, and
how it ends. -/
inductive Scoped : Block → List (Nat × Except Abrupt Nat) → List ScopeTimer →
    Except Abrupt Unit → Prop
  | done : Scoped .done [] [] (.ok ())
  | threw {statement : Nat} {next : Nat → Block} {e : Abrupt} :
      Scoped (.work statement next) [(statement, .error e)] [] (.error e)
  | work {statement v : Nat} {next : Nat → Block} {works : List (Nat × Except Abrupt Nat)}
      {timers : List ScopeTimer} {r : Except Abrupt Unit} (h : Scoped (next v) works timers r) :
      Scoped (.work statement next) ((statement, .ok v) :: works) timers r
  | left {inner rest : Block} {works : List (Nat × Except Abrupt Nat)}
      {timers : List ScopeTimer} {e : Abrupt} (h : Scoped inner works timers (.error e)) :
      Scoped (.scope inner rest) works timers (.error e)
  | scope {inner rest : Block} {works works' : List (Nat × Except Abrupt Nat)}
      {timers timers' : List ScopeTimer} {r : Except Abrupt Unit}
      (h : Scoped inner works timers (.ok ())) (h' : Scoped rest works' timers' r) :
      Scoped (.scope inner rest) (works ++ works') (timers ++ timers') r
  | timer {t : ScopeTimer} {rest : Block} {works : List (Nat × Except Abrupt Nat)}
      {timers : List ScopeTimer} {r : Except Abrupt Unit} (h : Scoped rest works timers r) :
      Scoped (.timer t rest) works (timers ++ [t]) r

/-- Timers change nothing. -/
theorem Scoped.erase {b : Block} {works : List (Nat × Except Abrupt Nat)}
    {timers : List ScopeTimer} {r : Except Abrupt Unit} (h : Scoped b works timers r) :
    Scoped b.erase works [] r := by
  induction h with
  | done => exact .done
  | threw => exact .threw
  | work _ ih => exact .work ih
  | left _ ih => exact .left ih
  | scope _ _ ih ih' => exact .scope ih ih'
  | timer _ ih => exact ih

end Time

end CoreSystems
