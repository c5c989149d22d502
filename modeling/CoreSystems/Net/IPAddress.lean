import CoreSystems.Net.Inet

/-!
# CoreSystems.Net.IPAddress

`net::IPAddress`: a version and sixteen bytes, of which IPv4 uses four.

Every way of building an address leaves a known version and zeros in the bytes the
version does not use; both are fields of the structure, so two addresses are equal
exactly when `operator==` says so.

`Parse` writes the text into a buffer on the stack, so it is a checked program: a text that is
too long for the buffer would be a trap, and `parse_eq` shows that the guards keep every text
out that is. Numbers in other bases, abbreviations and the like are the business of
`inet_pton`.
-/

namespace CoreSystems

open Buffer (Bytes Trap)

namespace Net

/-- `net::IPVersion`. An `enum class` can hold a value that is no enumerator. -/
inductive IPVersion
  | IPv4
  | IPv6
  | other (value : Nat)
  deriving DecidableEq, Repr

/-- `IPV4_BYTE_COUNT`. -/
def ipv4ByteCount : Nat := 4

/-- `IPV6_BYTE_COUNT`. -/
def ipv6ByteCount : Nat := 16

/-- `net::IPAddress`. The fields behind the bytes are invariants that every constructor
establishes, so an address with a stray byte cannot be built. -/
@[ext]
structure IPAddress where
  version : IPVersion
  bytes : Bytes
  known : version = .IPv4 ∨ version = .IPv6
  length_bytes : bytes.length = ipv6ByteCount
  unused : version = .IPv4 → bytes.drop ipv4ByteCount = List.replicate 12 0

namespace IPAddress

/-- `ByteCount`. -/
def byteCount (a : IPAddress) : Nat := if a.version = .IPv4 then ipv4ByteCount else ipv6ByteCount

/-- `SpanBytes`. -/
def spanBytes (a : IPAddress) : Bytes := a.bytes.take a.byteCount

/-- Four bytes copied into a zeroed IPv4 address. -/
def ofBytes4 (bytes : Bytes) (h : bytes.length = ipv4ByteCount) : IPAddress where
  version := .IPv4
  bytes := bytes ++ List.replicate 12 0
  known := .inl rfl
  length_bytes := by simp [h, ipv4ByteCount, ipv6ByteCount]
  unused _ := by rw [← h, List.drop_left]

/-- Sixteen bytes copied into an IPv6 address. -/
def ofBytes6 (bytes : Bytes) (h : bytes.length = ipv6ByteCount) : IPAddress where
  version := .IPv6
  bytes := bytes
  known := .inr rfl
  length_bytes := h
  unused hv := nomatch hv

/-- `FromBytes`. -/
def fromBytes (bytes : Bytes) (version : IPVersion) : Option IPAddress :=
  match version with
  | .IPv4 => if h : bytes.length = ipv4ByteCount then some (ofBytes4 bytes h) else none
  | .IPv6 => if h : bytes.length = ipv6ByteCount then some (ofBytes6 bytes h) else none
  | .other _ => none

/-- The text a C string holds: the bytes in front of the terminator. -/
def cString (buffer : Bytes) : Bytes := buffer.takeWhile (· ≠ 0)

/-- `Parse`. The guards come first; then the text is copied, terminated, and offered to
`inet_pton` as an IPv4 and as an IPv6 address, in this order. -/
def parse (inet : Inet) (address : Bytes) : Except Trap (Option IPAddress) := do
  if address = [] ∨ inet.addrStrLen ≤ address.length then
    return none
  if (0 : UInt8) ∈ address then
    return none
  let buffer := List.replicate inet.addrStrLen 0
  let buffer ← Buffer.write buffer 0 address
  let buffer ← Buffer.write buffer address.length [0]
  -- the functions read up to the terminator
  match inet.pton4 (cString buffer) with
  | some ipv4 => return some (ofBytes4 ipv4.toList ipv4.length_toList)
  | none =>
    match inet.pton6 (cString buffer) with
    | some ipv6 => return some (ofBytes6 ipv6.toList ipv6.length_toList)
    | none => return none

/-- `Any`. -/
def any (version : IPVersion) : IPAddress :=
  if version = .IPv4 then ofBytes4 (List.replicate 4 0) rfl else ofBytes6 (List.replicate 16 0) rfl

/-- `Loopback`. -/
def loopback (version : IPVersion) : IPAddress :=
  if version = .IPv4 then ofBytes4 [127, 0, 0, 1] rfl
  else ofBytes6 (List.replicate 15 0 ++ [1]) rfl

/-- The bytes `inet_ntop` reads for `AF_INET`. -/
def vector4 (a : IPAddress) : Vector UInt8 4 :=
  ⟨⟨a.bytes.take 4⟩, by have := a.length_bytes; simp [this, ipv6ByteCount]⟩

/-- The bytes `inet_ntop` reads for `AF_INET6`. -/
def vector6 (a : IPAddress) : Vector UInt8 16 :=
  ⟨⟨a.bytes⟩, a.length_bytes⟩

/-- `ToString`; a failure of `inet_ntop` gives the empty text. -/
def toString (inet : Inet) (a : IPAddress) : Bytes :=
  let text := if a.version = .IPv4 then inet.ntop4 a.vector4 inet.addrStrLen
    else inet.ntop6 a.vector6 inet.addrStrLen
  text.getD []

/-! ### The bytes a version uses

Equality looks at the version and at the bytes in use. That this is equality of addresses
rests on the zeros behind them. -/

theorem length_spanBytes (a : IPAddress) : a.spanBytes.length = a.byteCount := by
  rw [spanBytes, List.length_take, a.length_bytes, byteCount]
  split <;> rfl

theorem byteCount_congr {a b : IPAddress} (h : a.version = b.version) :
    a.byteCount = b.byteCount := by
  rw [byteCount, byteCount, h]

/-- The version and the bytes it uses determine an address. -/
theorem eq_iff {a b : IPAddress} : a = b ↔ a.version = b.version ∧ a.spanBytes = b.spanBytes := by
  refine ⟨fun h => h ▸ ⟨rfl, rfl⟩, fun ⟨hversion, hspan⟩ => IPAddress.ext hversion ?_⟩
  rw [spanBytes, spanBytes, ← byteCount_congr hversion] at hspan
  rcases a.known with ha | ha
  · -- the twelve bytes IPv4 does not use are zero
    have hcount : a.byteCount = ipv4ByteCount := by rw [byteCount, if_pos ha]
    rw [hcount] at hspan
    rw [← List.take_append_drop ipv4ByteCount a.bytes, hspan, a.unused ha,
      ← b.unused (hversion ▸ ha), List.take_append_drop]
  · have hcount : a.byteCount = ipv6ByteCount := by simp [byteCount, ha]
    rwa [hcount, ← a.length_bytes, List.take_length, a.length_bytes, ← b.length_bytes,
      List.take_length] at hspan

theorem spanBytes_ofBytes4 (ip : Vector UInt8 4) :
    (ofBytes4 ip.toList ip.length_toList).spanBytes = ip.toList := by
  simp [spanBytes, byteCount, ofBytes4, ipv4ByteCount]

theorem spanBytes_ofBytes6 (ip : Vector UInt8 16) :
    (ofBytes6 ip.toList ip.length_toList).spanBytes = ip.toList := by
  simp [spanBytes, byteCount, ofBytes6, ipv6ByteCount]

/-! ### Parsing

The buffer disappears: what `inet_pton` is given is the text itself, provided that it is
nonempty, short enough and without a terminator of its own. -/

theorem cString_append {text : Bytes} (h : (0 : UInt8) ∉ text) (rest : Bytes) :
    cString (text ++ 0 :: rest) = text := by
  rw [cString, List.takeWhile_append_of_pos, List.takeWhile_cons_of_neg (by simp), List.append_nil]
  intro c hc
  simpa using fun hzero : c = 0 => h (hzero ▸ hc)

/-- The buffer `inet_pton` reads holds the text that is parsed, and its terminator. -/
theorem parse_eq (inet : Inet) (address : Bytes) :
    parse inet address = .ok
      (if address = [] ∨ inet.addrStrLen ≤ address.length ∨ (0 : UInt8) ∈ address then none
      else match inet.pton4 address with
        | some ipv4 => some (ofBytes4 ipv4.toList ipv4.length_toList)
        | none =>
          (inet.pton6 address).map fun ipv6 => ofBytes6 ipv6.toList ipv6.length_toList) := by
  unfold parse
  by_cases hlen : address = [] ∨ inet.addrStrLen ≤ address.length
  · rw [if_pos hlen, if_pos (by tauto)]
    rfl
  · by_cases hzero : (0 : UInt8) ∈ address
    · rw [if_neg hlen, if_pos hzero, if_pos (by tauto)]
      rfl
    · have hfits : address.length < inet.addrStrLen := by
        by_contra hge
        exact hlen (.inr (by omega))
      have hfit : 0 + address.length ≤ (List.replicate inet.addrStrLen (0 : UInt8)).length := by
        simp; omega
      have hlast : address.length + [(0 : UInt8)].length ≤
          (Buffer.patch (List.replicate inet.addrStrLen 0) 0 address).length := by
        rw [Buffer.length_patch hfit, List.length_replicate, List.length_singleton]; omega
      have hbuffer : cString (Buffer.patch
          (Buffer.patch (List.replicate inet.addrStrLen 0) 0 address) address.length [0]) =
          address := by
        simp only [Buffer.patch, List.take_zero, List.nil_append, List.take_left]
        exact cString_append hzero _
      rw [if_neg hlen, if_neg hzero, if_neg (by tauto)]
      simp only [Buffer.write_eq hfit, Buffer.write_eq hlast, bind, Except.bind, hbuffer]
      cases inet.pton4 address with
      | some ipv4 => rfl
      | none => cases inet.pton6 address <;> rfl

/-- A parsed address has a nonempty text. -/
theorem parse_nil (inet : Inet) : parse inet [] = .ok none := by
  rw [parse_eq, if_pos (.inl rfl)]

theorem parse_v4 {inet : Inet} {address : Bytes} {a : IPAddress}
    (h : parse inet address = .ok (some a)) (hv : a.version = .IPv4) :
    ∃ ipv4, inet.pton4 address = some ipv4 := by
  rw [parse_eq] at h
  split at h
  · cases h
  · split at h
    · exact ⟨_, ‹_›⟩
    · obtain ⟨ipv6, -, rfl⟩ : ∃ ipv6, inet.pton6 address = some ipv6 ∧
          ofBytes6 ipv6.toList ipv6.length_toList = a := by simpa using h
      cases hv

theorem parse_v6 {inet : Inet} {address : Bytes} {a : IPAddress}
    (h : parse inet address = .ok (some a)) (hv : a.version = .IPv6) :
    ∃ ipv6, inet.pton6 address = some ipv6 := by
  rw [parse_eq] at h
  split at h
  · cases h
  · split at h
    · obtain rfl : ofBytes4 _ _ = a := by simpa using h
      cases hv
    · obtain ⟨ipv6, hpton, -⟩ : ∃ ipv6, inet.pton6 address = some ipv6 ∧
          ofBytes6 ipv6.toList ipv6.length_toList = a := by simpa using h
      exact ⟨ipv6, hpton⟩

end IPAddress

end Net

end CoreSystems
