import Mathlib.Data.List.TakeWhile
import Mathlib.Data.Nat.Digits.Lemmas
import CoreSystems.Lib.Buffer

/-!
# CoreSystems.Lib.StringView

The parts of the C++ string library that text formats are read and written with:
`std::string_view` searching and cutting, `std::from_chars` and `std::to_string` for
unsigned types.

Text is a list of bytes. Searching is characterised by where it splits the text
(`find_eq_some`, `rfind_eq_some`), so a parser's offsets turn into concatenations at
once, and `fromChars` by the texts it consumes whole (`fromChars_all`).

What the standard leaves undefined or answers with an exception is a `Trap`, as for buffers.
Characters are bytes: neither the library nor its callers look at an encoding.
-/

namespace StringView

open Buffer (Bytes Trap)

/-! ### Searching and cutting

A search answers with an offset, and the code cuts there. Both are stated about a text that is
already written as a concatenation, so a proof about a parser never computes with offsets. -/

/-- `s.substr(pos)`, which throws `std::out_of_range` when `pos` is past the end. -/
def substrFrom (s : Bytes) (pos : Nat) : Except Trap Bytes :=
  if s.length < pos then .error .outOfRange else .ok (s.drop pos)

/-- `s.substr(pos, count)`. -/
def substr (s : Bytes) (pos count : Nat) : Except Trap Bytes :=
  if s.length < pos then .error .outOfRange else .ok ((s.drop pos).take count)

/-- `s.find(c)`; `npos` is `none`. -/
def find (c : UInt8) (s : Bytes) : Option Nat := s.idxOf? c

/-- `s.rfind(c)`. -/
def rfind (c : UInt8) (s : Bytes) : Option Nat :=
  (s.reverse.idxOf? c).map fun i => s.length - 1 - i

section Search

variable {c : UInt8} {s : Bytes} {i : Nat}

/-- Cutting at the end of a known front part. -/
theorem substrFrom_append (xs ys : Bytes) {pos : Nat} (hpos : pos = xs.length) :
    substrFrom (xs ++ ys) pos = .ok ys := by
  subst hpos
  simp [substrFrom]

theorem substr_append (xs ys zs : Bytes) {pos count : Nat} (hpos : pos = xs.length)
    (hcount : count = ys.length) : substr (xs ++ (ys ++ zs)) pos count = .ok ys := by
  subst hpos hcount
  simp [substr]

/-- The first occurrence splits the text into a part without `c` and the rest. -/
theorem find_eq_some :
    find c s = some i ↔ ∃ xs ys, s = xs ++ c :: ys ∧ c ∉ xs ∧ xs.length = i := by
  unfold find
  induction s generalizing i with
  | nil => simp
  | cons b s ih =>
      rw [List.idxOf?_cons]
      by_cases hb : b = c
      · subst hb
        simp only [beq_self_eq_true, ↓reduceIte, Option.some.injEq]
        constructor
        · rintro rfl
          exact ⟨[], s, rfl, by simp, rfl⟩
        · intro hfound
          obtain ⟨xs, ys, hs, hxs, rfl⟩ := hfound
          -- the front part contains no `c`, so it cannot begin with the one just found
          cases xs with
          | nil => rfl
          | cons x xs =>
              obtain ⟨rfl, -⟩ : b = x ∧ s = xs ++ b :: ys := by simpa using hs
              exact absurd List.mem_cons_self hxs
      · rw [if_neg (by simpa using hb), Option.map_eq_some_iff]
        constructor
        · intro hfound
          obtain ⟨j, hj, rfl⟩ := hfound
          obtain ⟨xs, ys, rfl, hxs, rfl⟩ := ih.mp hj
          exact ⟨b :: xs, ys, rfl, by simp [hxs, Ne.symm hb], rfl⟩
        · intro hfound
          obtain ⟨xs, ys, hs, hxs, rfl⟩ := hfound
          cases xs with
          | nil => exact absurd (by simpa using hs : b = c ∧ s = ys).1 hb
          | cons x xs =>
              obtain ⟨rfl, rfl⟩ : b = x ∧ s = xs ++ c :: ys := by simpa using hs
              have hxs' : c ∉ xs := fun h => hxs (List.mem_cons_of_mem _ h)
              exact ⟨xs.length, ih.mpr ⟨xs, ys, rfl, hxs', rfl⟩, rfl⟩

theorem find_eq_none : find c s = none ↔ c ∉ s := by
  simp [find, List.idxOf?_eq_none_iff]

theorem find_append {xs : Bytes} (ys : Bytes) (hxs : c ∉ xs) :
    find c (xs ++ c :: ys) = some xs.length :=
  find_eq_some.mpr ⟨xs, ys, rfl, hxs, rfl⟩

/-- A text splits at a first occurrence in one way. -/
theorem cut_unique {xs ys xs' ys' : Bytes} (h : xs ++ c :: ys = xs' ++ c :: ys') (hxs : c ∉ xs)
    (hxs' : c ∉ xs') : xs = xs' ∧ ys = ys' := by
  have hlen := find_append ys hxs
  rw [h, find_append ys' hxs', Option.some.injEq] at hlen
  obtain ⟨rfl, hcons⟩ := List.append_inj h hlen.symm
  exact ⟨rfl, (List.cons.inj hcons).2⟩

/-- The last occurrence splits the text into a part and a rest without `c`. -/
theorem rfind_eq_some :
    rfind c s = some i ↔ ∃ xs ys, s = xs ++ c :: ys ∧ c ∉ ys ∧ xs.length = i := by
  unfold rfind
  rw [Option.map_eq_some_iff]
  constructor
  · intro hfound
    obtain ⟨j, hj, rfl⟩ := hfound
    obtain ⟨xs, ys, hs, hxs, rfl⟩ := find_eq_some.mp hj
    have hs' : s = ys.reverse ++ c :: xs.reverse := by
      rw [← List.reverse_reverse s, hs]; simp
    refine ⟨ys.reverse, xs.reverse, hs', by simpa using hxs, ?_⟩
    rw [hs']
    simp
  · intro hfound
    obtain ⟨xs, ys, rfl, hys, rfl⟩ := hfound
    refine ⟨ys.length, find_eq_some.mpr ⟨ys.reverse, xs.reverse, by simp, by simpa using hys,
      by simp⟩, by simp⟩

theorem rfind_eq_none : rfind c s = none ↔ c ∉ s := by
  simp [rfind, List.idxOf?_eq_none_iff]

theorem rfind_append (xs : Bytes) {ys : Bytes} (hys : c ∉ ys) :
    rfind c (xs ++ c :: ys) = some xs.length :=
  rfind_eq_some.mpr ⟨xs, ys, rfl, hys, rfl⟩

/-- A text splits at a last occurrence in one way. -/
theorem rcut_unique {xs ys xs' ys' : Bytes} (h : xs ++ c :: ys = xs' ++ c :: ys') (hys : c ∉ ys)
    (hys' : c ∉ ys') : xs = xs' ∧ ys = ys' := by
  have hlen := rfind_append xs hys
  rw [h, rfind_append xs' hys', Option.some.injEq] at hlen
  obtain ⟨rfl, hcons⟩ := List.append_inj h hlen.symm
  exact ⟨rfl, (List.cons.inj hcons).2⟩

end Search

/-! ### Decimal numbers

`std::from_chars` is modelled by the text it consumes, the error it reports and the value it
stores, all three in one result, because callers look at each of them. -/

/-- The characters `'0'` to `'9'`. -/
def isDigit (c : UInt8) : Bool := 48 ≤ c.toNat && c.toNat ≤ 57

/-- The number a string of digits denotes. -/
def value (s : Bytes) : Nat := Nat.ofDigits 10 (s.reverse.map fun c => c.toNat - 48)

/-- `std::to_string` of an unsigned value. -/
def toDecimal (n : Nat) : Bytes :=
  if n = 0 then [48] else (Nat.digits 10 n).reverse.map fun d => UInt8.ofNat (48 + d)

/-- The error conditions of `std::from_chars`. -/
inductive Errc
  | none
  | invalidArgument
  | resultOutOfRange
  deriving DecidableEq, Repr

/-- `std::from_chars_result` and the value stored through the reference. -/
structure FromChars where
  ptr : Nat
  ec : Errc
  value : Nat
  deriving DecidableEq, Repr

/-- `std::from_chars` in base ten for an unsigned type with maximum `max`: the longest
prefix of digits is the pattern, without one nothing is consumed, and a value that does
not fit is an error. The target keeps its value `0` unless the value is stored. -/
def fromChars (max : Nat) (s : Bytes) : FromChars :=
  let digits := s.takeWhile isDigit
  if digits = [] then ⟨0, .invalidArgument, 0⟩
  else if max < value digits then ⟨digits.length, .resultOutOfRange, 0⟩
  else ⟨digits.length, .none, value digits⟩

/-- A nonempty string of digits that denotes a number up to `max`. -/
structure Decimal (max : Nat) (s : Bytes) : Prop where
  ne_nil : s ≠ []
  digits : ∀ c ∈ s, isDigit c = true
  le : value s ≤ max

section Numbers

variable {max n : Nat} {s : Bytes}

/-- `fromChars` consumes a whole text without an error exactly when the text is decimal,
and then stores its value. -/
theorem fromChars_all : ((fromChars max s).ec = .none ∧ (fromChars max s).ptr = s.length) ↔
    Decimal max s := by
  have hwhole : (s.takeWhile isDigit).length = s.length ↔ ∀ c ∈ s, isDigit c = true := by
    rw [← List.takeWhile_eq_self_iff]
    exact ⟨fun h => (List.takeWhile_prefix isDigit).eq_of_length h, fun h => by rw [h]⟩
  unfold fromChars
  constructor
  · intro ⟨hec, hptr⟩
    dsimp only at hec hptr
    split at hec
    · cases hec
    · split at hec
      · cases hec
      · rename_i hne hle
        rw [if_neg hne, if_neg hle] at hptr
        have hdigits := hwhole.mp hptr
        rw [List.takeWhile_eq_self_iff.mpr hdigits] at hne hle
        exact ⟨hne, hdigits, by omega⟩
  · intro h
    have hself := List.takeWhile_eq_self_iff.mpr h.digits
    have hle := h.le
    dsimp only
    rw [hself, if_neg h.ne_nil, if_neg (by omega)]
    exact ⟨rfl, rfl⟩

theorem fromChars_value (h : Decimal max s) : (fromChars max s).value = value s := by
  have hself := List.takeWhile_eq_self_iff.mpr h.digits
  have hle := h.le
  unfold fromChars
  dsimp only
  rw [hself, if_neg h.ne_nil, if_neg (by omega)]

/-- A decimal text contains digits only. -/
theorem Decimal.notMem {c : UInt8} (h : Decimal max s) (hc : isDigit c = false) : c ∉ s := by
  intro hmem
  rw [h.digits c hmem] at hc
  cases hc

theorem toNat_digit {d : Nat} (hd : d < 10) : (UInt8.ofNat (48 + d)).toNat = 48 + d := by
  rw [UInt8.toNat_ofNat']; omega

theorem isDigit_toDecimal {c : UInt8} (hc : c ∈ toDecimal n) : isDigit c = true := by
  unfold toDecimal at hc
  split at hc
  · obtain rfl : c = 48 := by simpa using hc
    rfl
  · obtain ⟨d, hd, rfl⟩ := List.mem_map.mp hc
    have hlt := Nat.digits_lt_base (by decide) (List.mem_reverse.mp hd)
    rw [isDigit, toNat_digit hlt]
    simp
    omega

/-- Printing and reading a number are inverse. -/
theorem value_toDecimal (n : Nat) : value (toDecimal n) = n := by
  unfold toDecimal
  split
  · subst_vars; rfl
  · unfold value
    rw [← List.map_reverse, List.reverse_reverse, List.map_map]
    have hself : (Nat.digits 10 n).map
        ((fun c : UInt8 => c.toNat - 48) ∘ fun d => UInt8.ofNat (48 + d)) = Nat.digits 10 n := by
      refine (List.map_congr_left fun d hd => ?_).trans (List.map_id _)
      have hlt := Nat.digits_lt_base (by decide) hd
      rw [Function.comp_apply, toNat_digit hlt, Nat.add_sub_cancel_left]
      rfl
    rw [hself, Nat.ofDigits_digits]

theorem toDecimal_ne_nil (n : Nat) : toDecimal n ≠ [] := by
  unfold toDecimal
  split
  · simp
  · simpa [Nat.digits_ne_nil_iff_ne_zero] using ‹n ≠ 0›

theorem decimal_toDecimal (h : n ≤ max) : Decimal max (toDecimal n) :=
  ⟨toDecimal_ne_nil n, fun _ hc => isDigit_toDecimal hc, by rwa [value_toDecimal]⟩

/-- A byte prints as at most three digits. -/
theorem length_toDecimal_le (h : n < 256) : (toDecimal n).length ≤ 3 := by
  unfold toDecimal
  split
  · simp
  · rw [List.length_map, List.length_reverse, Nat.digits_length_le_iff (by decide)]
    omega

end Numbers

end StringView
