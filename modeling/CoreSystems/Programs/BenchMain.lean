import CoreSystems.Lib.StringView
import CoreSystems.Net.SocketRuntime
import CoreSystems.Programs.Measurements

/-!
# CoreSystems.Programs.BenchMain

`main` of the benchmark: the command line, the runtime, and the two measurements.

A command line is accepted exactly when it belongs to the grammar of the usage text. Whatever
it says, the benchmark leaves the host as it was, and it never waits for ever.

The grammar is `Usage`, and `commandLine_eq_run` says that the front of `main` decides it.
`main_measures` is about the rest: the layers below it are the runtime, the two measurements
one after the other, and the two threads of each, which were treated in the modules before.
-/

namespace CoreSystems

open Buffer (Bytes)
open Calls (Code wp)
open StringView (Decimal fromChars fromChars_all fromChars_value)

namespace Net

open SocketHandle

namespace BenchTcp

/-! ### The command line

Arguments are strings of bytes, as `main` gets them. `std::from_chars` reads digits only, so a
count has no sign and no blanks. -/

/-- The largest `std::uint64_t`. -/
def uint64Max : Nat := 2 ^ 64 - 1

/-- `ParseCount`, with what it leaves in `output` when it returns true. -/
def parseCount (text : Bytes) (maximum : Nat) : Option Nat :=
  let r := fromChars uint64Max text
  if r.ec = .none ∧ r.ptr = text.length ∧ 0 < r.value ∧ r.value ≤ maximum then some r.value
  else none

/-- `--help`. -/
def help : Bytes := [45, 45, 104, 101, 108, 112]

/-- What `main` makes of its arguments. -/
inductive CommandLine
  | help
  | usage
  | run (rounds streamMiB : Nat)
  deriving DecidableEq, Repr

/-- The front of `main`. The name of the program is not among the arguments. -/
def commandLine (arguments : List Bytes) : CommandLine :=
  if arguments = [help] then .help
  else
    match arguments with
    | [] => .run 10000 128
    | [first] =>
      match parseCount first 1000000 with
      | none => .usage
      | some rounds => .run rounds 128
    | [first, second] =>
      match parseCount first 1000000 with
      | none => .usage
      | some rounds =>
        match parseCount second 4096 with
        | none => .usage
        | some streamMiB => .run rounds streamMiB
    | _ => .usage

/-- A count from one to `maximum`, in digits. -/
def Count (maximum : Nat) (text : Bytes) (n : Nat) : Prop :=
  Decimal maximum text ∧ StringView.value text = n ∧ 0 < n

/-- The command lines of the usage text, and what they ask for. -/
inductive Usage : List Bytes → Nat → Nat → Prop
  | defaults : Usage [] 10000 128
  | rounds {first : Bytes} {rounds : Nat} (hfirst : Count 1000000 first rounds) :
      Usage [first] rounds 128
  | both {first second : Bytes} {rounds streamMiB : Nat} (hfirst : Count 1000000 first rounds)
      (hsecond : Count 4096 second streamMiB) : Usage [first, second] rounds streamMiB

section CommandLine

variable {arguments : List Bytes} {text : Bytes} {maximum n rounds streamMiB : Nat}

/-- A count is read exactly when it is one: `std::from_chars` has to read the text to its end,
and the range is checked. -/
theorem parseCount_eq_some (hmaximum : maximum ≤ uint64Max) :
    parseCount text maximum = some n ↔ Count maximum text n := by
  unfold parseCount Count
  dsimp only
  by_cases hdecimal : Decimal uint64Max text
  · obtain ⟨hec, hptr⟩ := fromChars_all.mpr hdecimal
    have hiff : Decimal maximum text ↔ StringView.value text ≤ maximum :=
      ⟨fun h => h.le, fun h => ⟨hdecimal.ne_nil, hdecimal.digits, h⟩⟩
    simp only [hec, hptr, fromChars_value hdecimal, true_and, hiff]
    constructor
    · intro h
      split at h
      case isTrue hbounds =>
        obtain rfl := Option.some.inj h
        exact ⟨hbounds.2, rfl, hbounds.1⟩
      case isFalse => cases h
    · intro h
      obtain ⟨hle, rfl, hpos⟩ := h
      rw [if_pos ⟨hpos, hle⟩]
  · -- neither reads a text that is no number, or one that does not fit
    constructor
    · intro h
      split at h
      case isTrue hread => exact absurd (fromChars_all.mp ⟨hread.1, hread.2.1⟩) hdecimal
      case isFalse => cases h
    · intro h
      obtain ⟨hcount, -⟩ := h
      exact absurd ⟨hcount.ne_nil, hcount.digits, hcount.le.trans hmaximum⟩ hdecimal

/-- Counts have no sign. -/
theorem Count.ne_help (h : Count maximum text n) : text ≠ help := by
  rintro rfl
  exact absurd (h.1.digits 45 List.mem_cons_self) (by decide)

/-- **The command line.** `main` accepts what the usage text says, and nothing else. -/
theorem commandLine_eq_run :
    commandLine arguments = .run rounds streamMiB ↔ Usage arguments rounds streamMiB := by
  have hrounds : ∀ {first : Bytes} {n : Nat},
      parseCount first 1000000 = some n ↔ Count 1000000 first n :=
    parseCount_eq_some (by decide)
  have hstream : ∀ {second : Bytes} {n : Nat},
      parseCount second 4096 = some n ↔ Count 4096 second n :=
    parseCount_eq_some (by decide)
  constructor
  · intro h
    unfold commandLine at h
    split at h
    · cases h
    · split at h
      · cases h
        exact .defaults
      · split at h
        · cases h
        · rename_i hfirst
          cases h
          exact .rounds (hrounds.mp hfirst)
      · split at h
        · cases h
        · rename_i hfirst
          split at h
          · cases h
          · rename_i hsecond
            cases h
            exact .both (hrounds.mp hfirst) (hstream.mp hsecond)
      · cases h
  · intro h
    cases h with
    | defaults => rfl
    | rounds hfirst =>
        rw [commandLine, if_neg (by simpa using hfirst.ne_help)]
        simp only [hrounds.mpr hfirst]
    | both hfirst hsecond =>
        rw [commandLine, if_neg (by simp)]
        simp only [hrounds.mpr hfirst, hstream.mpr hsecond]

theorem commandLine_eq_help : commandLine arguments = .help ↔ arguments = [help] := by
  constructor
  · intro h
    unfold commandLine at h
    split at h
    · assumption
    · split at h
      · cases h
      · split at h <;> cases h
      · split at h
        · cases h
        · split at h <;> cases h
      · cases h
  · rintro rfl
    rfl

/-- What is accepted is in range. -/
theorem Usage.le (h : Usage arguments rounds streamMiB) : rounds ≤ 1000000 ∧ streamMiB ≤ 4096 := by
  cases h with
  | defaults => decide
  | rounds hfirst => exact ⟨hfirst.2.1 ▸ hfirst.1.le, by decide⟩
  | both hfirst hsecond => exact ⟨hfirst.2.1 ▸ hfirst.1.le, hsecond.2.1 ▸ hsecond.1.le⟩

end CommandLine

/-! ### `main`

An ending says what was measured and how; the value that `main` returns is read off it. -/

/-- The measurement was made. -/
def Outcome.measured : Outcome → Bool
  | setupFailed _ => false
  | ended verdict => verdict = .measured

/-- How `main` ends, with all that decides what it prints and returns. -/
inductive Ending
  /-- The usage text was asked for. -/
  | help
  /-- The arguments are none of the usage text. -/
  | usage
  | runtimeFailed (error : SocketError)
  /-- What `RoundTrips` has ended with, and `Throughput` if it was called. -/
  | measured (rounds streamMiB : Nat) (trips : Outcome) (stream : Option Outcome)

/-- What `main` returns: zero if the usage text was asked for or both measurements were made. -/
def Ending.status : Ending → Nat
  | help => 0
  | usage => 1
  | runtimeFailed _ => 1
  | measured _ _ trips stream => if trips.measured && stream.any Outcome.measured then 0 else 1

/-- The two measurements, one after the other. -/
def runBoth (p : Platform) (o : Options) (retries rounds streamMiB : Nat) :
    Code (os.sum sessions) Process Exit Ending := do
  let trips ← roundTrips p o retries rounds
  if trips.measured then
    let stream ← throughput p o retries streamMiB
    return .measured rounds streamMiB trips (some stream)
  else
    return .measured rounds streamMiB trips none

/-- `main`. The usage text and the arguments come first, so that no runtime is started for
them. -/
def main (p : Platform) (o : Options) (retries : Nat) (arguments : List Bytes) :
    Code ((os.sum sessions).sum winsock) Process Exit Ending :=
  match commandLine arguments with
  | .help => return .help
  | .usage => return .usage
  | .run rounds streamMiB =>
    withRuntime p .runtimeFailed (runBoth p o retries rounds streamMiB)

/-- What the benchmark promises: it measures what the arguments ask for, no measurement ends
with a mismatch, the second follows only a first that was made, and zero says that both were. -/
def Ending.Right (arguments : List Bytes) : Ending → Prop
  | help => arguments = [BenchTcp.help]
  | usage => arguments ≠ [BenchTcp.help] ∧
      ∀ rounds streamMiB, ¬ Usage arguments rounds streamMiB
  | runtimeFailed error => error.hasError = true ∧
      ∃ rounds streamMiB, Usage arguments rounds streamMiB
  | measured rounds streamMiB trips stream => Usage arguments rounds streamMiB ∧ trips.Right ∧
      (∀ outcome ∈ stream, outcome.Right) ∧ stream.isSome = trips.measured ∧
      ((measured rounds streamMiB trips stream).status = 0 ↔
        stream = some (.ended .measured))

section Main

variable {p : Platform} {o : Options} {retries capacity starts rounds streamMiB : Nat}
variable {s : Process} {k : Kernel} {arguments : List Bytes}

theorem Outcome.measured_iff {outcome : Outcome} :
    outcome.measured = true ↔ outcome = .ended .measured := by
  cases outcome <;> simp [Outcome.measured]

/-- Both measurements leave objects and sockets as they were, and end right. -/
theorem wp_runBoth (hidle : s.Idle) (hdead : ∀ n ≤ 9, s.handles (.user n) = none)
    (hcapacity : 0 < capacity) (husage : Usage arguments rounds streamMiB) :
    wp ((kernelEnv p capacity).also (forks p retries capacity).env)
      (runBoth p o retries rounds streamMiB) (fun r s' k' =>
        r.Right arguments ∧ s'.handles = s.handles ∧ k'.sockets = k.sockets) GaveUp s k := by
  rw [runBoth, Calls.wp_bind]
  refine (wp_measure hidle hdead fun memory k₁ ends hbegins =>
    wp_roundTrips_session hbegins husage.le.1 hcapacity).imp ?_
  intro trips s₁ k₁ hr
  obtain ⟨htrips, hs₁, hk₁⟩ := hr
  split
  case isTrue hmeasured =>
    rw [Calls.wp_bind]
    have hidle₁ : s₁.Idle := fun x hx => by rw [hs₁]; exact hidle x hx
    refine (wp_measure hidle₁ (by rwa [hs₁]) fun memory k₁ ends hbegins =>
      wp_throughput_session hbegins hcapacity).imp ?_
    intro stream s₂ k₂ hr
    obtain ⟨hstream, hs₂, hk₂⟩ := hr
    refine ⟨⟨husage, htrips, ?_, ?_, ?_⟩, hs₂.trans hs₁, hk₂.trans hk₁⟩
    · simpa using hstream
    · simp [hmeasured]
    · simp [Ending.status, hmeasured, Outcome.measured_iff]
  case isFalse hfailed =>
    refine ⟨⟨husage, htrips, ?_, ?_, ?_⟩, hs₁, hk₁⟩
    · simp
    · simpa using hfailed
    · simp [Ending.status]

/-- **The benchmark.** On a host where nobody else connects to it, it never waits for ever:
in no interleaving of its threads do they wait for each other, unless a `shutdown` has failed.
It measures exactly what the usage text lets one ask for, and what is printed is never a
mismatch. It closes everything it has opened, uses sockets only while Winsock is started, and
leaves Winsock as it was. -/
theorem main_measures (hidle : s.Idle) (hdead : ∀ n ≤ 9, s.handles (.user n) = none)
    (hcapacity : 0 < capacity) :
    wp (((kernelEnv p capacity).also (forks p retries capacity).env).beside (Started p)
        (winsockEnv p Process)) (main p o retries arguments) (fun r s' w' =>
        (r.Right arguments ∧ s'.handles = s.handles ∧ w'.1.sockets = k.sockets) ∧ w'.2 = starts)
      (fun e _ _ => e = .gaveUp) s (k, starts) := by
  rw [main]
  split
  case h_1 hhelp => exact ⟨⟨commandLine_eq_help.mp hhelp, rfl, rfl⟩, rfl⟩
  case h_2 husage =>
    refine ⟨⟨⟨?_, ?_⟩, rfl, rfl⟩, rfl⟩
    · intro hhelp
      rw [commandLine_eq_help.mpr hhelp] at husage
      cases husage
    · intro rounds streamMiB hrun
      rw [commandLine_eq_run.mpr hrun] at husage
      cases husage
  case h_3 rounds streamMiB hrun =>
    have husage := commandLine_eq_run.mp hrun
    exact wp_withRuntime (w := (k, starts))
      (fun _ herror => ⟨⟨herror, rounds, streamMiB, husage⟩, rfl, rfl⟩)
      (wp_runBoth hidle hdead hcapacity husage)

/-- `bench_tcp 1 1` on a host without sockets. -/
theorem main_measures_first :
    wp (((kernelEnv .linux 1).also (forks .linux 3 1).env).beside (Started .linux)
        (winsockEnv .linux Process))
      (main .linux ⟨4096, 20, 21, 1, by decide⟩ 3 [[49], [49]]) (fun r s' w' =>
        (r.Right [[49], [49]] ∧ s'.handles = (fun _ => none) ∧ w'.1.sockets = fun _ => none) ∧
          w'.2 = 0)
      (fun e _ _ => e = .gaveUp) ⟨fun _ => none, 0⟩ (⟨fun _ => none, fun _ _ => .new, 0⟩, 0) :=
  main_measures (p := .linux) (s := ⟨fun _ => none, 0⟩) (k := ⟨fun _ => none, fun _ _ => .new, 0⟩)
    (fun _ _ => rfl) (fun _ _ => rfl) Nat.one_pos

end Main

end BenchTcp

end Net

end CoreSystems
