import Mathlib.Algebra.Order.Monoid.Unbundled.Basic
import CoreSystems.Lib.Keys
import CoreSystems.Lib.XorMul
import CoreSystems.Net.SocketEndpoint

/-!
# CoreSystems.Net.AddressKeys

Addresses and endpoints as keys of containers: `operator==`, `operator<=>` and `Hash`.

The comparison walks over bytes; the rank of an address is its version and the number its
bytes stand for, most significant first, and the walk compares ranks because the bytes of
one version are equally many (`compareLex_eq`). A hash absorbs the version, the bytes and,
for an endpoint, the port and the scope, one word a round; a `std::size_t` has `w` bits.

Two results come of this. Containers ordered by `<=>` and containers hashed by `Hash` identify
the same keys (`keys_agree`), whatever the hash does. And the hash does not collide on keys of
one version that differ in a single component (`hash_ne`), because its multiplier is odd.
-/

namespace CoreSystems

open Buffer (Bytes)

namespace Net

/-- The value of an enumerator. -/
def IPVersion.value : IPVersion → Nat
  | .IPv4 => 0
  | .IPv6 => 1
  | .other value => value

/-- `offset` of `Hash`, where `std::size_t` has `w` bits. -/
def hashOffset (w : Nat) : BitVec w :=
  if w = 64 then 14695981039346656037 else 2166136261

/-- `prime` of `Hash`. -/
def hashPrime (w : Nat) : BitVec w := if w = 64 then 1099511628211 else 16777619

/-! ### Addresses

The three functions look at the same bytes: those the version uses. -/

namespace IPAddress

/-- `operator==`. -/
def equal (lhs rhs : IPAddress) : Bool :=
  if lhs.version ≠ rhs.version then false
  else lhs.bytes.take lhs.byteCount == rhs.bytes.take lhs.byteCount

/-- `operator<=>`. -/
def compare (lhs rhs : IPAddress) : Ordering :=
  let cmp := Ord.compare lhs.version.value rhs.version.value
  if cmp ≠ .eq then cmp
  else List.compareLex Ord.compare (lhs.bytes.take lhs.byteCount) (rhs.bytes.take rhs.byteCount)

/-- `Hash`. -/
def hash (w : Nat) (a : IPAddress) : BitVec w :=
  let hash := hashOffset w
  let hash := XorMul.round (hashPrime w) hash (BitVec.ofNat w a.version.value)
  (a.bytes.take a.byteCount).foldl
    (fun hash b => XorMul.round (hashPrime w) hash (BitVec.ofNat w b.toNat)) hash

/-- The version, and the number the bytes of the address stand for. -/
def rank (a : IPAddress) : ℕ ×ₗ ℕ := toLex (a.version.value, Buffer.decode true a.spanBytes)

end IPAddress

/-! ### Endpoints

Each function begins with that of the address, and goes on to the port and the scope. -/

namespace SocketEndpoint

/-- `operator==`. -/
def equal (lhs rhs : SocketEndpoint) : Bool :=
  lhs.address.equal rhs.address && lhs.port == rhs.port && lhs.scopeId == rhs.scopeId

/-- `operator<=>`. -/
def compare (lhs rhs : SocketEndpoint) : Ordering :=
  let cmp := lhs.address.compare rhs.address
  if cmp ≠ .eq then cmp
  else
    let cmp := Ord.compare lhs.port rhs.port
    if cmp ≠ .eq then cmp
    else Ord.compare lhs.scopeId rhs.scopeId

/-- `Hash`. -/
def hash (w : Nat) (e : SocketEndpoint) : BitVec w :=
  let hash := e.address.hash w
  let hash := XorMul.round (hashPrime w) hash (BitVec.ofNat w e.port.toNat)
  XorMul.round (hashPrime w) hash (BitVec.ofNat w e.scopeId.toNat)

/-- The version, the number of the address, the port and the scope. -/
def rank (e : SocketEndpoint) : ℕ ×ₗ ℕ ×ₗ ℕ ×ₗ ℕ :=
  toLex (e.address.version.value, toLex (Buffer.decode true e.address.spanBytes,
    toLex (e.port.toNat, e.scopeId.toNat)))

end SocketEndpoint

/-! ### Equality and order

The rank of a key contains all of it, so the comparison by ranks tells any two keys apart. -/

/-- A difference in the leading digit outweighs all later ones. -/
theorem leading_digit_lt {base m n r r' : Nat} (hmn : m < n) (hr : r < base) :
    base * m + r < base * n + r' :=
  calc base * m + r < base * m + base := Nat.add_lt_add_left hr _
    _ = base * (m + 1) := (Nat.mul_succ base m).symm
    _ ≤ base * n := Nat.mul_le_mul_left base hmn
    _ ≤ base * n + r' := Nat.le_add_right ..

/-- Sequences of bytes of one length compare as the numbers they stand for. -/
theorem compareLex_eq {bs bs' : Bytes} (hlen : bs.length = bs'.length) :
    List.compareLex Ord.compare bs bs' =
      cmp (Buffer.decode true bs) (Buffer.decode true bs') := by
  induction bs generalizing bs' with
  | nil =>
      obtain rfl : bs' = [] := List.length_eq_zero_iff.mp hlen.symm
      rfl
  | cons c bs ih =>
      obtain ⟨c', bs', rfl⟩ := List.exists_cons_of_length_eq_add_one hlen.symm
      have htail : bs.length = bs'.length := Nat.succ.inj hlen
      have hbyte : Ord.compare c c' = cmp c.toNat c'.toNat :=
        Keys.compareOfLessAndEq_eq_cmp (fun _ _ => UInt8.toNat_inj.mp)
          (fun _ _ => UInt8.lt_iff_toNat_lt) c c'
      have hlt : Buffer.decode true bs < 256 ^ bs'.length := Buffer.decode_lt htail
      have hlt' : Buffer.decode true bs' < 256 ^ bs'.length := Buffer.decode_lt rfl
      rw [List.compareLex_cons_cons, ih htail, hbyte, Buffer.decode_cons, Buffer.decode_cons, htail]
      rcases lt_trichotomy c.toNat c'.toNat with h | h | h
      · rw [h.cmp_eq_lt, (leading_digit_lt h hlt).cmp_eq_lt]
        rfl
      · rw [h, cmp_self_eq_eq, cmp_add_left]
        rfl
      · rw [h.cmp_eq_gt, (leading_digit_lt h hlt').cmp_eq_gt]
        rfl

namespace IPAddress

theorem value_injective {a b : IPAddress} (h : a.version.value = b.version.value) :
    a.version = b.version := by
  rcases a.known with ha | ha <;> rcases b.known with hb | hb <;> rw [ha, hb] at h ⊢ <;> cases h

theorem equal_iff {a b : IPAddress} : a.equal b = true ↔ a = b := by
  rw [eq_iff, equal]
  by_cases hversion : a.version = b.version
  · simp [hversion, spanBytes, byteCount_congr hversion]
  · simp [hversion]

theorem rank_injective : Function.Injective rank := by
  intro a b h
  have hpair := Prod.ext_iff.mp (toLex_inj.mp h)
  have hversion : a.version = b.version := value_injective hpair.1
  have hnumber : Buffer.decode true a.spanBytes = Buffer.decode true b.spanBytes := hpair.2
  refine eq_iff.mpr ⟨hversion, Buffer.decode_injective ?_ hnumber⟩
  rw [length_spanBytes, length_spanBytes, byteCount_congr hversion]

/-- Addresses compare by version, then by number. -/
theorem compare_eq (a b : IPAddress) : a.compare b = cmp a.rank b.rank := by
  rw [rank, rank, Keys.cmp_toLex, compare, ← cmp_eq_compare]
  by_cases hversion : a.version = b.version
  · have hlen : a.spanBytes.length = b.spanBytes.length := by
      rw [length_spanBytes, length_spanBytes, byteCount_congr hversion]
    have heq : cmp a.version.value b.version.value = .eq := by rw [hversion, cmp_self_eq_eq]
    rw [if_neg (not_not_intro heq), heq]
    exact compareLex_eq hlen
  · have hne : cmp a.version.value b.version.value ≠ .eq :=
      fun h => hversion (value_injective ((cmp_eq_eq_iff _ _).mp h))
    rw [if_pos hne]
    cases hcmp : cmp a.version.value b.version.value with
    | eq => exact absurd hcmp hne
    | lt | gt => rfl

/-- **Addresses are keys ranked by version and number.** -/
theorem ranked : Keys.Ranked rank compare equal where
  injective := rank_injective
  compare_eq := compare_eq
  equal_iff _ _ := equal_iff

end IPAddress

namespace SocketEndpoint

theorem equal_iff {a b : SocketEndpoint} : a.equal b = true ↔ a = b := by
  rw [SocketEndpoint.ext_iff, equal, Bool.and_eq_true, Bool.and_eq_true, IPAddress.equal_iff,
    beq_iff_eq, beq_iff_eq, and_assoc]

/-- The rank of an endpoint starts with the rank of its address. -/
theorem cmp_rank (a b : SocketEndpoint) : cmp a.rank b.rank =
    (cmp a.address.rank b.address.rank).then
      ((cmp a.port.toNat b.port.toNat).then (cmp a.scopeId.toNat b.scopeId.toNat)) := by
  unfold rank IPAddress.rank
  rw [Keys.cmp_toLex, Keys.cmp_toLex, Keys.cmp_toLex, Keys.cmp_toLex, Ordering.then_assoc]

theorem rank_injective : Function.Injective rank := by
  intro a b h
  have heq := (cmp_eq_eq_iff _ _).mpr h
  rw [cmp_rank, Ordering.then_eq_eq, Ordering.then_eq_eq, cmp_eq_eq_iff, cmp_eq_eq_iff,
    cmp_eq_eq_iff] at heq
  exact SocketEndpoint.ext (IPAddress.rank_injective heq.1) (UInt16.toNat_inj.mp heq.2.1)
    (UInt32.toNat_inj.mp heq.2.2)

/-- Endpoints compare by address, then by port, then by scope. -/
theorem compare_eq (a b : SocketEndpoint) : a.compare b = cmp a.rank b.rank := by
  have hport : Ord.compare a.port b.port = cmp a.port.toNat b.port.toNat :=
    Keys.compareOfLessAndEq_eq_cmp (fun _ _ => UInt16.toNat_inj.mp)
      (fun _ _ => UInt16.lt_iff_toNat_lt) a.port b.port
  have hscope : Ord.compare a.scopeId b.scopeId = cmp a.scopeId.toNat b.scopeId.toNat :=
    Keys.compareOfLessAndEq_eq_cmp (fun _ _ => UInt32.toNat_inj.mp)
      (fun _ _ => UInt32.lt_iff_toNat_lt) a.scopeId b.scopeId
  rw [cmp_rank, compare, IPAddress.compare_eq, hport, hscope]
  cases cmp a.address.rank b.address.rank with
  | lt | gt => rfl
  | eq => cases cmp a.port.toNat b.port.toNat <;> rfl

/-- **Endpoints are keys ranked by version, number, port and scope.** -/
theorem ranked : Keys.Ranked rank compare equal where
  injective := rank_injective
  compare_eq := compare_eq
  equal_iff _ _ := equal_iff

end SocketEndpoint

/-- **Ordering, equality and hashing agree**, on endpoints and on addresses, whatever the
width of `std::size_t`: the order is the lexicographic one of the ranks, and two keys are
equal exactly when their fields are. -/
theorem keys_agree (w : Nat) :
    Keys.Agree SocketEndpoint.rank SocketEndpoint.compare SocketEndpoint.equal
      (SocketEndpoint.hash w) ∧
    (∀ a b : SocketEndpoint, a.equal b = true ↔ a.address.version = b.address.version ∧
      a.address.spanBytes = b.address.spanBytes ∧ a.port = b.port ∧ a.scopeId = b.scopeId) ∧
    Keys.Agree IPAddress.rank IPAddress.compare IPAddress.equal (IPAddress.hash w) ∧
    ∀ a b : IPAddress, a.equal b = true ↔ a.version = b.version ∧ a.spanBytes = b.spanBytes := by
  refine ⟨SocketEndpoint.ranked.agree _, fun a b => ?_, IPAddress.ranked.agree _, fun a b => ?_⟩
  · rw [SocketEndpoint.equal_iff, SocketEndpoint.ext_iff, IPAddress.eq_iff, and_assoc]
  · rw [IPAddress.equal_iff, IPAddress.eq_iff]

/-! ### Hashes

A hash is the absorption of a message, for which `CoreSystems.Lib.XorMul` has the argument.
What remains is to say which message it is and that its numbers are not cut off. -/

theorem isUnit_hashPrime {w : Nat} (hw : w = 32 ∨ w = 64) : IsUnit (hashPrime w) := by
  rcases hw with rfl | rfl
  · exact IsUnit.of_mul_eq_one (899433627 : BitVec 32) (by decide)
  · exact IsUnit.of_mul_eq_one (14886173955864302971 : BitVec 64) (by decide)

/-- What fits into a word is not cut off by it. -/
theorem ofNat_injective {w m n : Nat} (hw : w = 32 ∨ w = 64) (hm : m < 2 ^ 32) (hn : n < 2 ^ 32)
    (h : BitVec.ofNat w m = BitVec.ofNat w n) : m = n := by
  have hpow : 2 ^ 32 ≤ 2 ^ w := Nat.pow_le_pow_right (by decide) (by omega)
  have hmod := congrArg BitVec.toNat h
  rwa [BitVec.toNat_ofNat, BitVec.toNat_ofNat, Nat.mod_eq_of_lt (by omega),
    Nat.mod_eq_of_lt (by omega)] at hmod

/-- The numbers an address hash absorbs. -/
def IPAddress.message (a : IPAddress) : List Nat :=
  a.version.value :: a.spanBytes.map UInt8.toNat

/-- The numbers an endpoint hash absorbs. -/
def SocketEndpoint.message (e : SocketEndpoint) : List Nat :=
  e.address.message ++ [e.port.toNat, e.scopeId.toNat]

theorem IPAddress.hash_eq (w : Nat) (a : IPAddress) :
    a.hash w = XorMul.absorb (hashPrime w) (hashOffset w) (a.message.map (BitVec.ofNat w)) := by
  rw [message, List.map_cons, XorMul.absorb_cons, List.map_map, XorMul.absorb, List.foldl_map]
  rfl

theorem SocketEndpoint.hash_eq (w : Nat) (e : SocketEndpoint) :
    e.hash w = XorMul.absorb (hashPrime w) (hashOffset w) (e.message.map (BitVec.ofNat w)) := by
  rw [message, List.map_append, XorMul.absorb_append, ← IPAddress.hash_eq]
  rfl

/-- Every number an endpoint hash absorbs fits into 32 bits. -/
theorem SocketEndpoint.message_lt {e : SocketEndpoint} {n : Nat} (hn : n ∈ e.message) :
    n < 2 ^ 32 := by
  simp only [message, IPAddress.message, List.cons_append, List.mem_cons, List.mem_append,
    List.mem_map, List.not_mem_nil, or_false] at hn
  rcases hn with rfl | ⟨b, -, rfl⟩ | rfl | rfl
  · rcases e.address.known with h | h <;> rw [h] <;> decide
  · exact Nat.lt_trans b.toNat_lt (by decide)
  · exact Nat.lt_trans e.port.toNat_lt (by decide)
  · exact e.scopeId.toNat_lt

/-- Two sequences that differ in one element, wherever it is. -/
def DifferInOne {α : Type} (xs ys : List α) : Prop :=
  ∃ before after x y, x ≠ y ∧ xs = before ++ x :: after ∧ ys = before ++ y :: after

theorem DifferInOne.map {α β : Type} {xs ys : List α} (h : DifferInOne xs ys) {f : α → β}
    (hf : ∀ x ∈ xs, ∀ y ∈ ys, f x = f y → x = y) : DifferInOne (xs.map f) (ys.map f) := by
  obtain ⟨before, after, x, y, hxy, rfl, rfl⟩ := h
  refine ⟨before.map f, after.map f, f x, f y, fun heq => hxy ?_, by simp, by simp⟩
  exact hf x (by simp) y (by simp) heq

theorem DifferInOne.within {α : Type} {xs ys : List α} (h : DifferInOne xs ys)
    (front back : List α) : DifferInOne (front ++ xs ++ back) (front ++ ys ++ back) := by
  obtain ⟨before, after, x, y, hxy, rfl, rfl⟩ := h
  exact ⟨front ++ before, after ++ back, x, y, hxy, by simp, by simp⟩

/-- Hashes of messages that differ in one number. -/
theorem hash_ne_of_message {w : Nat} (hw : w = 32 ∨ w = 64) {xs ys : List Nat}
    (h : DifferInOne xs ys) (hxs : ∀ n ∈ xs, n < 2 ^ 32) (hys : ∀ n ∈ ys, n < 2 ^ 32) :
    XorMul.absorb (hashPrime w) (hashOffset w) (xs.map (BitVec.ofNat w)) ≠
      XorMul.absorb (hashPrime w) (hashOffset w) (ys.map (BitVec.ofNat w)) := by
  obtain ⟨before, after, x, y, hxy, hx, hy⟩ :=
    h.map fun m hm n hn => ofNat_injective hw (hxs m hm) (hys n hn)
  rw [hx, hy]
  exact XorMul.absorb_ne (isUnit_hashPrime hw) _ before after hxy

/-- Addresses of one version that differ in one byte. -/
def IPAddress.OneByteApart (a b : IPAddress) : Prop :=
  a.version = b.version ∧ DifferInOne a.spanBytes b.spanBytes

/-- Endpoints of one version that differ in the port, in the scope, or in one byte. -/
def SocketEndpoint.OneComponentApart (a b : SocketEndpoint) : Prop :=
  (a.address = b.address ∧ a.port ≠ b.port ∧ a.scopeId = b.scopeId) ∨
  (a.address = b.address ∧ a.port = b.port ∧ a.scopeId ≠ b.scopeId) ∨
  (a.address.OneByteApart b.address ∧ a.port = b.port ∧ a.scopeId = b.scopeId)

theorem IPAddress.OneByteApart.message {a b : IPAddress} (h : a.OneByteApart b) :
    DifferInOne a.message b.message := by
  have hbytes : DifferInOne (a.spanBytes.map UInt8.toNat) (b.spanBytes.map UInt8.toNat) :=
    h.2.map fun _ _ _ _ heq => UInt8.toNat_inj.mp heq
  rw [IPAddress.message, IPAddress.message, h.1]
  simpa using hbytes.within [b.version.value] []

theorem SocketEndpoint.OneComponentApart.message {a b : SocketEndpoint}
    (h : a.OneComponentApart b) : DifferInOne a.message b.message := by
  rw [SocketEndpoint.message, SocketEndpoint.message]
  rcases h with ⟨haddress, hport, hscope⟩ | ⟨haddress, hport, hscope⟩ | ⟨haddress, hport, hscope⟩
  · exact ⟨_, [b.scopeId.toNat], a.port.toNat, b.port.toNat, fun h => hport (UInt16.toNat_inj.mp h),
      by rw [haddress, hscope], rfl⟩
  · exact ⟨b.address.message ++ [b.port.toNat], [], a.scopeId.toNat, b.scopeId.toNat,
      fun h => hscope (UInt32.toNat_inj.mp h), by rw [haddress, hport]; simp, by simp⟩
  · rw [hport, hscope]
    simpa using haddress.message.within [] [b.port.toNat, b.scopeId.toNat]

/-- **No collision on a single changed component**, for both widths of `std::size_t`. -/
theorem hash_ne (w : Nat) (hw : w = 32 ∨ w = 64) :
    (∀ a b : SocketEndpoint, a.OneComponentApart b → a.hash w ≠ b.hash w) ∧
    ∀ a b : IPAddress, a.OneByteApart b → a.hash w ≠ b.hash w := by
  constructor
  · intro a b h
    rw [SocketEndpoint.hash_eq, SocketEndpoint.hash_eq]
    exact hash_ne_of_message hw h.message (fun _ => SocketEndpoint.message_lt)
      fun _ => SocketEndpoint.message_lt
  · intro a b h
    have hlt : ∀ (c : IPAddress), ∀ n ∈ c.message, n < 2 ^ 32 := fun c n hn =>
      SocketEndpoint.message_lt (e := .construct c 0 0) (List.mem_append_left _ hn)
    rw [IPAddress.hash_eq, IPAddress.hash_eq]
    exact hash_ne_of_message hw h.message (hlt a) (hlt b)

/-- Two ports of the loopback address. -/
theorem hash_ne_ports :
    (SocketEndpoint.construct (IPAddress.loopback .IPv6) 80 0).hash 64 ≠
      (SocketEndpoint.construct (IPAddress.loopback .IPv6) 443 0).hash 64 :=
  (hash_ne 64 (.inr rfl)).1 _ _ (.inl ⟨rfl, by decide, rfl⟩)

end Net

end CoreSystems
