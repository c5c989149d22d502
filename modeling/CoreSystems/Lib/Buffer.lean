import Mathlib.Algebra.Group.Nat.Defs
import Mathlib.Data.List.Basic

/-!
# CoreSystems.Lib.Buffer

Byte buffers: cutting a range out (`slice`), writing a range (`patch`), the checked
accesses of code that reads through a pointer (`read`, `write`), and the fixed-width
representation of numbers in either byte order (`encode`, `decode`).

A written range is read back (`slice_patch_self`), and a disjoint range is not
affected (`slice_patch_of_disjoint`). `record` is a zeroed struct with some members
assigned; `Members` says that they lie inside it and apart from each other.

Nothing here knows what the bytes are for. A struct that is filled in and handed to somebody
else is a `record`; one that is read is a buffer with ranges cut out of it. That the two agree
is `slice_record` for the members and `getElem?_record` for the bytes between them, and
`getElem?_patch_record_eq` says the same of a struct that was copied into a larger buffer,
where the padding shows.

Numbers are natural numbers throughout. A width enters only where a number is written, and
`decode_encode` asks that the number fits.
-/

namespace Buffer

/-- A sequence of bytes. -/
abbrev Bytes := List UInt8

/-- What checked code does where the program has no defined behaviour, or throws. -/
inductive Trap
  | outOfBounds
  | outOfRange
  deriving DecidableEq, Repr

/-! ### Ranges

A range is given by its offset and its length. The unchecked `slice` and `patch` carry the
equations; `read` and `write` are these where the range is inside the buffer, and a trap where
it is not. -/

/-- The `n` bytes from `off` on. -/
def slice (b : Bytes) (off n : Nat) : Bytes := (b.drop off).take n

/-- `b` with the bytes from `off` on replaced by `src`. -/
def patch (b : Bytes) (off : Nat) (src : Bytes) : Bytes :=
  b.take off ++ (src ++ b.drop (off + src.length))

/-- Reading `n` bytes at `off`; past the end of the buffer there is nothing to read. -/
def read (b : Bytes) (off n : Nat) : Except Trap Bytes :=
  if off + n ≤ b.length then .ok (slice b off n) else .error .outOfBounds

/-- Writing `src` at `off`. -/
def write (b : Bytes) (off : Nat) (src : Bytes) : Except Trap Bytes :=
  if off + src.length ≤ b.length then .ok (patch b off src) else .error .outOfBounds

section Ranges

variable {b src : Bytes} {off off' n i : Nat}

theorem read_eq (h : off + n ≤ b.length) : read b off n = .ok (slice b off n) := if_pos h

theorem write_eq (h : off + src.length ≤ b.length) : write b off src = .ok (patch b off src) :=
  if_pos h

theorem length_slice (h : off + n ≤ b.length) : (slice b off n).length = n := by
  rw [slice, List.length_take, List.length_drop]; omega

theorem getElem?_slice : (slice b off n)[i]? = if i < n then b[off + i]? else none := by
  rw [slice, List.getElem?_take, List.getElem?_drop]

@[simp] theorem length_patch (h : off + src.length ≤ b.length) :
    (patch b off src).length = b.length := by
  simp only [patch, List.length_append, List.length_take, List.length_drop]; omega

/-- At the front `src` comes first, and behind it what the buffer was there. -/
theorem patch_zero : patch b 0 src = src ++ b.drop src.length := by
  rw [patch, List.take_zero, List.nil_append, Nat.zero_add]

theorem getElem?_patch (h : off + src.length ≤ b.length) :
    (patch b off src)[i]? =
      if i < off then b[i]? else if i < off + src.length then src[i - off]? else b[i]? := by
  have hlen : (b.take off).length = off := by rw [List.length_take]; omega
  rw [patch, List.getElem?_append, hlen]
  by_cases hlt : i < off
  · simp [hlt]
  · rw [if_neg hlt, if_neg hlt, List.getElem?_append]
    by_cases hmid : i < off + src.length
    · rw [if_pos hmid, if_pos (by omega)]
    · rw [if_neg hmid, if_neg (by omega), List.getElem?_drop]
      congr 1
      omega

/-- What was written is read back. -/
theorem slice_patch_self (h : off + src.length ≤ b.length) :
    slice (patch b off src) off src.length = src := by
  refine List.ext_getElem? fun i => ?_
  rw [getElem?_slice, getElem?_patch h]
  by_cases hi : i < src.length
  · rw [if_pos hi, if_neg (by omega), if_pos (by omega)]
    congr 1
    omega
  · rw [if_neg hi, List.getElem?_eq_none (by omega)]

/-- A range that was not written reads as before. -/
theorem slice_patch_of_disjoint (h : off + src.length ≤ b.length)
    (hd : off' + n ≤ off ∨ off + src.length ≤ off') :
    slice (patch b off src) off' n = slice b off' n := by
  refine List.ext_getElem? fun i => ?_
  rw [getElem?_slice, getElem?_slice, getElem?_patch h]
  by_cases hi : i < n
  · rw [if_pos hi, if_pos hi]
    split
    · rfl
    · rw [if_neg (by omega)]
  · rw [if_neg hi, if_neg hi]

/-- A range of a range. -/
theorem slice_slice {off n off' n' : Nat} (h : off' + n' ≤ n) :
    slice (slice b off n) off' n' = slice b (off + off') n' := by
  refine List.ext_getElem? fun i => ?_
  rw [getElem?_slice, getElem?_slice, getElem?_slice]
  by_cases hi : i < n'
  · rw [if_pos hi, if_pos hi, if_pos (by omega), Nat.add_assoc]
  · rw [if_neg hi, if_neg hi]

/-- Buffers that agree on their first bytes agree on the ranges there. -/
theorem slice_take {len : Nat} (h : off + n ≤ len) : slice (b.take len) off n = slice b off n := by
  refine List.ext_getElem? fun i => ?_
  rw [getElem?_slice, getElem?_slice, List.getElem?_take]
  by_cases hi : i < n
  · rw [if_pos hi, if_pos hi, if_pos (by omega)]
  · rw [if_neg hi, if_neg hi]

/-- Equal ranges have equal bytes. -/
theorem getElem?_of_slice {b' : Bytes} (h : slice b off n = slice b' off n) (hlo : off ≤ i)
    (hhi : i < off + n) : b[i]? = b'[i]? := by
  have hbyte := congrArg (fun bytes => bytes[i - off]?) h
  simp only [getElem?_slice] at hbyte
  rwa [if_pos (by omega), if_pos (by omega), Nat.add_sub_cancel' hlo] at hbyte

theorem slice_congr {b' : Bytes} (h : ∀ i, off ≤ i → i < off + n → b[i]? = b'[i]?) :
    slice b off n = slice b' off n := by
  apply List.ext_getElem?
  intro i
  rw [getElem?_slice, getElem?_slice]
  split
  case isTrue hi => exact h (off + i) (by omega) (by omega)
  case isFalse hi => rfl

end Ranges

/-! ### Structs

The members are assigned from the last to the first, so `record` is a fold of `patch`. Members
that overlap would make the order visible; `Members` rules that out. -/

/-- A zeroed struct of `n` bytes with these members, at their offsets, assigned: what is left
of `T x{};` followed by an assignment to each of the members. -/
def record (n : Nat) : List (Nat × Bytes) → Bytes
  | [] => List.replicate n 0
  | (off, src) :: members => patch (record n members) off src

/-- The members lie inside a struct of `n` bytes and do not overlap, which is what the layout
of a C struct guarantees. -/
structure Members (n : Nat) (members : List (Nat × Bytes)) : Prop where
  fits : ∀ m ∈ members, m.1 + m.2.length ≤ n
  disjoint : members.Pairwise fun m m' => m.1 + m.2.length ≤ m'.1 ∨ m'.1 + m'.2.length ≤ m.1

section Structs

variable {n off i : Nat} {src : Bytes} {members : List (Nat × Bytes)}

theorem Members.tail {m : Nat × Bytes} (h : Members n (m :: members)) : Members n members :=
  ⟨fun m' hm' => h.fits m' (List.mem_cons_of_mem _ hm'), (List.pairwise_cons.mp h.disjoint).2⟩

theorem length_record (h : Members n members) : (record n members).length = n := by
  induction members with
  | nil => exact List.length_replicate
  | cons m members ih =>
      have hfit := h.fits m List.mem_cons_self
      rw [record, length_patch (by rwa [ih h.tail]), ih h.tail]

/-- Every member holds what it was assigned. -/
theorem slice_record (h : Members n members) (hm : (off, src) ∈ members) :
    slice (record n members) off src.length = src := by
  induction members with
  | nil => cases hm
  | cons m members ih =>
      obtain ⟨off', src'⟩ := m
      have hfit := h.fits (off', src') List.mem_cons_self
      have hlen := length_record h.tail
      rw [record]
      rcases List.mem_cons.mp hm with heq | hm
      · obtain ⟨rfl, rfl⟩ := Prod.mk.inj heq
        exact slice_patch_self (by rwa [hlen])
      · have hd := (List.pairwise_cons.mp h.disjoint).1 (off, src) hm
        rw [slice_patch_of_disjoint (by rwa [hlen]) (by tauto), ih h.tail hm]

/-- Every byte outside the members is zero. -/
theorem getElem?_record (h : Members n members) (hi : i < n)
    (hout : ∀ m ∈ members, i < m.1 ∨ m.1 + m.2.length ≤ i) : (record n members)[i]? = some 0 := by
  induction members with
  | nil => simp [record, hi]
  | cons m members ih =>
      have hfit := h.fits m List.mem_cons_self
      have hlen := length_record h.tail
      have ih := ih h.tail fun m' hm' => hout m' (List.mem_cons_of_mem _ hm')
      rw [record, getElem?_patch (by rwa [hlen])]
      rcases hout m List.mem_cons_self with hlt | hge
      · rw [if_pos hlt, ih]
      · rw [if_neg (by omega), if_neg (by omega), ih]

/-- A struct copied to the front of a larger zeroed buffer, as `memcpy` does it. -/
theorem slice_patch_record {size : Nat} (h : Members n members) (hn : n ≤ size)
    (hm : (off, src) ∈ members) :
    slice (patch (List.replicate size 0) 0 (record n members)) off src.length = src := by
  have hfit : off + src.length ≤ n := h.fits _ hm
  have hlen := length_record h
  refine Eq.trans ?_ (slice_record h hm)
  refine List.ext_getElem? fun j => ?_
  rw [getElem?_slice, getElem?_slice, getElem?_patch (by simp [hlen, hn])]
  by_cases hj : j < src.length
  · rw [if_pos hj, if_pos hj, if_neg (by omega), if_pos (by rw [hlen]; omega), Nat.sub_zero]
  · rw [if_neg hj, if_neg hj]

theorem getElem?_patch_record {size : Nat} (h : Members n members) (hn : n ≤ size) (hi : i < size)
    (hout : ∀ m ∈ members, i < m.1 ∨ m.1 + m.2.length ≤ i) :
    (patch (List.replicate size 0) 0 (record n members))[i]? = some 0 := by
  have hlen := length_record h
  rw [getElem?_patch (by simp [hlen, hn]), if_neg (by omega), hlen, Nat.zero_add, Nat.sub_zero]
  by_cases hin : i < n
  · rw [if_pos hin, getElem?_record h hin hout]
  · rw [if_neg hin]
    simp [hi]

/-- A copied struct whose members are ranges of another buffer agrees with that buffer on
its members, and is zero elsewhere. -/
theorem getElem?_patch_record_eq {b : Bytes} {size : Nat} (h : Members n members) (hn : n ≤ size)
    (hsrc : ∀ off src, (off, src) ∈ members → src = slice b off src.length) (hi : i < size)
    {p : Prop} [Decidable p] (hp : p ↔ ∃ m ∈ members, m.1 ≤ i ∧ i < m.1 + m.2.length) :
    (patch (List.replicate size 0) 0 (record n members))[i]? = if p then b[i]? else some 0 := by
  by_cases hin : p
  · obtain ⟨⟨off, src⟩, hm, hlo, hhi⟩ := hp.mp hin
    rw [if_pos hin]
    exact getElem?_of_slice ((slice_patch_record h hn hm).trans (hsrc off src hm)) hlo hhi
  · rw [if_neg hin]
    refine getElem?_patch_record h hn hi fun m hm => ?_
    by_contra hout
    exact hin (hp.mpr ⟨m, hm, by omega, by omega⟩)

end Structs

/-! ### Numbers

Both byte orders are one recursion: a big-endian number is a little-endian one with its bytes
reversed. -/

/-- The `w` bytes of a number, least significant first. What does not fit into `w` bytes is
lost, as it is when an unsigned value is narrowed. -/
def encodeLE : Nat → Nat → Bytes
  | 0, _ => []
  | w + 1, n => UInt8.ofNat (n % 256) :: encodeLE w (n / 256)

/-- The number with these bytes, least significant first. -/
def decodeLE : Bytes → Nat
  | [] => 0
  | c :: bs => c.toNat + 256 * decodeLE bs

/-- The `w` bytes of a number in the byte order of a host. -/
def encode (bigEndian : Bool) (w n : Nat) : Bytes :=
  if bigEndian then (encodeLE w n).reverse else encodeLE w n

/-- The number with these bytes in the byte order of a host. -/
def decode (bigEndian : Bool) (bs : Bytes) : Nat :=
  if bigEndian then decodeLE bs.reverse else decodeLE bs

section Numbers

variable {bigEndian : Bool} {w n : Nat} {bs : Bytes}

@[simp] theorem length_encodeLE : (encodeLE w n).length = w := by
  induction w generalizing n with
  | zero => rfl
  | succ w ih => rw [encodeLE, List.length_cons, ih]

theorem decodeLE_encodeLE (h : n < 256 ^ w) : decodeLE (encodeLE w n) = n := by
  induction w generalizing n with
  | zero =>
      obtain rfl : n = 0 := by simpa using h
      rfl
  | succ w ih =>
      have hdiv : n / 256 < 256 ^ w :=
        Nat.div_lt_of_lt_mul (by rwa [Nat.pow_succ, Nat.mul_comm] at h)
      rw [encodeLE, decodeLE, ih hdiv, UInt8.toNat_ofNat_of_lt' (Nat.mod_lt _ (by decide))]
      exact Nat.mod_add_div n 256

theorem encodeLE_decodeLE : encodeLE bs.length (decodeLE bs) = bs := by
  induction bs with
  | nil => rfl
  | cons c bs ih =>
      have hc := c.toNat_lt
      rw [List.length_cons, encodeLE, decodeLE, Nat.add_mul_mod_self_left, Nat.mod_eq_of_lt hc,
        Nat.add_mul_div_left _ _ (by decide), Nat.div_eq_of_lt hc, Nat.zero_add, ih,
        UInt8.ofNat_toNat]

theorem decodeLE_lt : decodeLE bs < 256 ^ bs.length := by
  induction bs with
  | nil => decide
  | cons c bs ih =>
      have hc := c.toNat_lt
      rw [decodeLE, List.length_cons, Nat.pow_succ]
      omega

theorem decodeLE_append (bs bs' : Bytes) :
    decodeLE (bs ++ bs') = decodeLE bs + 256 ^ bs.length * decodeLE bs' := by
  induction bs with
  | nil => simp [decodeLE]
  | cons c bs ih =>
      rw [List.cons_append, decodeLE, decodeLE, ih, List.length_cons, Nat.pow_succ, Nat.mul_add,
        Nat.add_assoc, Nat.mul_comm (256 ^ bs.length) 256, Nat.mul_assoc]

@[simp] theorem length_encode : (encode bigEndian w n).length = w := by
  cases bigEndian <;> simp [encode]

theorem decode_encode (h : n < 256 ^ w) : decode bigEndian (encode bigEndian w n) = n := by
  cases bigEndian <;> simp [encode, decode, decodeLE_encodeLE h]

theorem encode_decode (h : bs.length = w) : encode bigEndian w (decode bigEndian bs) = bs := by
  subst h
  cases bigEndian
  · exact encodeLE_decodeLE
  · have hrev : encodeLE bs.reverse.length (decodeLE bs.reverse) = bs.reverse := encodeLE_decodeLE
    rw [List.length_reverse] at hrev
    simp [encode, decode, hrev]

/-- The first byte of a big-endian number is the most significant one. -/
theorem decode_cons (c : UInt8) (bs : Bytes) :
    decode true (c :: bs) = 256 ^ bs.length * c.toNat + decode true bs := by
  simp [decode, decodeLE_append, decodeLE, Nat.add_comm]

/-- Numbers of one width are equal when their bytes are. -/
theorem decode_injective {bs' : Bytes} (hlen : bs.length = bs'.length)
    (h : decode bigEndian bs = decode bigEndian bs') : bs = bs' := by
  have hbs : encode bigEndian bs'.length (decode bigEndian bs) = bs := encode_decode hlen
  rw [← hbs, h, encode_decode rfl]

theorem decode_lt (h : bs.length = w) : decode bigEndian bs < 256 ^ w := by
  subst h
  cases bigEndian
  · exact decodeLE_lt
  · have hrev : decodeLE bs.reverse < 256 ^ bs.reverse.length := decodeLE_lt
    rwa [List.length_reverse] at hrev

end Numbers

end Buffer
