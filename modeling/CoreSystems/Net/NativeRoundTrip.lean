import CoreSystems.Net.Native

/-!
# CoreSystems.Net.NativeRoundTrip

`FromNative` undoes `ToNative`, and `ToNative` gives back what `FromNative` read.

Both directions rest on one description of each function: `ToNative` assigns members that
do not overlap in a zeroed struct (`in4Members_valid`, `in6Members_valid`), and `FromNative`
reads the same members out of a buffer, where the family and the length say which of the two
structs it is (`fromNative_eq`).

An endpoint does not determine all bytes of a native address: the flow information of
`sockaddr_in6` and the padding of `sockaddr_in` are zeroed by `ToNative` and ignored by
`FromNative`. `Carries` names the bytes that an endpoint does determine, and the second
direction is about these.
-/

namespace CoreSystems

open Buffer (Bytes Trap)

namespace Net

/-! ### Byte order

A port is stored most significant byte first on every host. What `htons` does to it depends on
the host, and undoes what storing it does. -/

namespace Layout

variable (l : Layout)

/-- A host whose byte order is not the network's swaps the two bytes. -/
theorem toNat_htons (h : l.bigEndian = false) (port : UInt16) :
    (l.htons port).toNat = port.toNat % 256 * 256 + port.toNat / 256 := by
  have hport := port.toNat_lt
  rw [htons, h, if_neg (by decide), UInt16.toNat_ofNat', Nat.mod_eq_of_lt (by omega)]

theorem ntohs_htons (port : UInt16) : l.ntohs (l.htons port) = port := by
  cases h : l.bigEndian with
  | true => simp [ntohs, htons, h]
  | false =>
      have hport := port.toNat_lt
      refine UInt16.toNat_inj.mp ?_
      rw [ntohs, l.toNat_htons h, l.toNat_htons h]
      omega

theorem htons_ntohs (port : UInt16) : l.htons (l.ntohs port) = port := l.ntohs_htons port

theorem load_store {size n : Nat} (h : n < 256 ^ size) : l.load (l.store size n) = n :=
  Buffer.decode_encode h

theorem store_load {size : Nat} {bytes : Bytes} (h : bytes.length = size) :
    l.store size (l.load bytes) = bytes :=
  Buffer.encode_decode h

@[simp] theorem length_store (size n : Nat) : (l.store size n).length = size :=
  Buffer.length_encode

/-- On every host, the bytes of a port are most significant first. -/
theorem store_htons (port : UInt16) : l.store 2 (l.htons port).toNat =
    [UInt8.ofNat (port.toNat / 256), UInt8.ofNat (port.toNat % 256)] := by
  have hport := port.toNat_lt
  unfold store Buffer.encode
  cases h : l.bigEndian with
  | true =>
      have hhtons : l.htons port = port := by simp [htons, h]
      rw [hhtons, if_pos rfl]
      simp only [Buffer.encodeLE, List.reverse_cons, List.reverse_nil, List.nil_append,
        List.cons_append]
      rw [Nat.mod_eq_of_lt (by omega : port.toNat / 256 < 256)]
  | false =>
      have hhigh : (port.toNat % 256 * 256 + port.toNat / 256) / 256 = port.toNat % 256 := by omega
      have hlow : (port.toNat % 256 * 256 + port.toNat / 256) % 256 = port.toNat / 256 := by omega
      rw [l.toNat_htons h, if_neg (by decide)]
      simp only [Buffer.encodeLE, hhigh, hlow, Nat.mod_mod]

end Layout

namespace SocketEndpoint

variable {l : Layout} {e : SocketEndpoint}

/-! ### What is written

The members of both structs are valid in the sense of `Buffer.Members`, by the layout. -/

theorem in4Members_valid : Buffer.Members l.sizeofIn (in4Members l e) := by
  have hbytes := e.address.length_bytes
  obtain ⟨hport, haddr⟩ := l.in_le
  obtain ⟨hfp, hfa, hpa⟩ := l.in_disjoint
  have hfamily := l.family_le
  have hsockaddr := l.sockaddr_le.1
  constructor
  · simp [in4Members, hbytes, ipv4ByteCount, ipv6ByteCount]
    omega
  · simp [in4Members, hbytes, ipv4ByteCount, ipv6ByteCount]
    omega

theorem in6Members_valid : Buffer.Members l.sizeofIn6 (in6Members l e) := by
  have hbytes := e.address.length_bytes
  obtain ⟨hport, haddr, hscope⟩ := l.in6_le
  obtain ⟨hfp, hfa, hfs, hpa, hps, has⟩ := l.in6_disjoint
  have hfamily := l.family_le
  have hsockaddr := l.sockaddr_le.2
  constructor
  · simp [in6Members, hbytes, ipv6ByteCount]
    omega
  · simp [in6Members, hbytes, ipv6ByteCount]
    omega

/-! ### What is read

The two structs are read at any buffer that is large enough, so `FromNative` is one equation. -/

/-- The family a buffer names. -/
def familyOf (l : Layout) (b : Bytes) : Nat := l.load (Buffer.slice b l.family l.sizeofFamily)

/-- The endpoint in a buffer that holds a `sockaddr_in`. -/
def readIn4 (l : Layout) (b : Bytes) : Option SocketEndpoint :=
  (IPAddress.fromBytes (Buffer.slice b l.sin_addr ipv4ByteCount) .IPv4).map fun ip =>
    construct ip (l.ntohs (UInt16.ofNat (l.load (Buffer.slice b l.sin_port 2)))) 0

/-- The endpoint in a buffer that holds a `sockaddr_in6`. -/
def readIn6 (l : Layout) (b : Bytes) : Option SocketEndpoint :=
  (IPAddress.fromBytes (Buffer.slice b l.sin6_addr ipv6ByteCount) .IPv6).map fun ip =>
    construct ip (l.ntohs (UInt16.ofNat (l.load (Buffer.slice b l.sin6_port 2))))
      (UInt32.ofNat (l.load (Buffer.slice b l.sin6_scope_id 4)))

/-- `FromNative` on a buffer that provides `len` bytes. -/
theorem fromNative_eq {b : Bytes} {len : Int} (hbuf : len ≤ b.length) :
    fromNative l (some b) len = .ok
      (if familyOf l b = l.AF_INET ∧ (l.sizeofIn : Int) ≤ len then readIn4 l b
      else if familyOf l b = l.AF_INET6 ∧ (l.sizeofIn6 : Int) ≤ len then readIn6 l b
      else none) := by
  have hfamily := l.family_le
  obtain ⟨hsin, hsin6⟩ := l.sockaddr_le
  have hport4 := l.in_le.1
  have haddr4 : l.sin_addr + ipv4ByteCount ≤ l.sizeofIn := l.in_le.2
  have hport6 := l.in6_le.1
  have haddr6 : l.sin6_addr + ipv6ByteCount ≤ l.sizeofIn6 := l.in6_le.2.1
  have hscope6 := l.in6_le.2.2
  unfold fromNative
  dsimp only
  by_cases hshort : len < l.sizeofSockaddr
  · rw [if_pos hshort, if_neg (by omega), if_neg (by omega)]
    rfl
  · rw [if_neg hshort, Buffer.read_eq (by omega : l.family + l.sizeofFamily ≤ b.length)]
    simp only [bind, Except.bind, show l.load (Buffer.slice b l.family l.sizeofFamily) =
      familyOf l b from rfl]
    -- the guard on the length makes the copy of the whole struct a read inside the buffer
    by_cases h4 : familyOf l b = l.AF_INET ∧ (l.sizeofIn : Int) ≤ len
    · rw [if_pos h4, if_pos h4, Buffer.read_eq (by omega : 0 + l.sizeofIn ≤ b.length)]
      simp only [Buffer.slice_slice haddr4, Buffer.slice_slice hport4, Nat.zero_add, readIn4]
      cases IPAddress.fromBytes (Buffer.slice b l.sin_addr ipv4ByteCount) .IPv4 <;> rfl
    · rw [if_neg h4, if_neg h4]
      by_cases h6 : familyOf l b = l.AF_INET6 ∧ (l.sizeofIn6 : Int) ≤ len
      · rw [if_pos h6, if_pos h6, Buffer.read_eq (by omega : 0 + l.sizeofIn6 ≤ b.length)]
        simp only [Buffer.slice_slice haddr6, Buffer.slice_slice hport6,
          Buffer.slice_slice hscope6, Nat.zero_add, readIn6]
        cases IPAddress.fromBytes (Buffer.slice b l.sin6_addr ipv6ByteCount) .IPv6 <;> rfl
      · rw [if_neg h6, if_neg h6]
        rfl

theorem readIn4_eq {b : Bytes} (h : l.sizeofIn ≤ b.length) : ∃ hlen,
    readIn4 l b = some (construct (.ofBytes4 (Buffer.slice b l.sin_addr ipv4ByteCount) hlen)
      (l.ntohs (UInt16.ofNat (l.load (Buffer.slice b l.sin_port 2)))) 0) := by
  have haddr := l.in_le.2
  have hlen : (Buffer.slice b l.sin_addr ipv4ByteCount).length = ipv4ByteCount :=
    Buffer.length_slice (by unfold ipv4ByteCount; omega)
  refine ⟨hlen, ?_⟩
  rw [readIn4, IPAddress.fromBytes, dif_pos hlen]
  rfl

theorem readIn6_eq {b : Bytes} (h : l.sizeofIn6 ≤ b.length) : ∃ hlen,
    readIn6 l b = some (construct (.ofBytes6 (Buffer.slice b l.sin6_addr ipv6ByteCount) hlen)
      (l.ntohs (UInt16.ofNat (l.load (Buffer.slice b l.sin6_port 2))))
      (UInt32.ofNat (l.load (Buffer.slice b l.sin6_scope_id 4)))) := by
  have haddr := l.in6_le.2.1
  have hlen : (Buffer.slice b l.sin6_addr ipv6ByteCount).length = ipv6ByteCount :=
    Buffer.length_slice (by unfold ipv6ByteCount; omega)
  refine ⟨hlen, ?_⟩
  rw [readIn6, IPAddress.fromBytes, dif_pos hlen]
  rfl

/-! ### Reading what was written

The members are ranges of the storage, each holding what it was assigned. -/

theorem toNative_v4 (hv : e.address.version = .IPv4) : toNative l e =
    (Buffer.patch (List.replicate l.sizeofStorage 0) 0 (Buffer.record l.sizeofIn (in4Members l e)),
      l.sizeofIn) :=
  if_pos hv

theorem toNative_v6 (hv : e.address.version = .IPv6) : toNative l e =
    (Buffer.patch (List.replicate l.sizeofStorage 0) 0
      (Buffer.record l.sizeofIn6 (in6Members l e)), l.sizeofIn6) :=
  if_neg (by rw [hv]; decide)

theorem length_toNative : (toNative l e).1.length = l.sizeofStorage := by
  rcases e.address.known with hv | hv
  · rw [toNative_v4 hv, Buffer.length_patch, List.length_replicate]
    rw [Buffer.length_record in4Members_valid, List.length_replicate, Nat.zero_add]
    exact l.storage_le.1
  · rw [toNative_v6 hv, Buffer.length_patch, List.length_replicate]
    rw [Buffer.length_record in6Members_valid, List.length_replicate, Nat.zero_add]
    exact l.storage_le.2

/-- The length in use lies inside the storage. -/
theorem toNative_length_le : (toNative l e).2 ≤ (toNative l e).1.length := by
  rw [length_toNative]
  rcases e.address.known with hv | hv
  · rw [toNative_v4 hv]
    exact l.storage_le.1
  · rw [toNative_v6 hv]
    exact l.storage_le.2

theorem slice_toNative_v4 (hv : e.address.version = .IPv4) {off n : Nat} {src : Bytes}
    (hm : (off, src) ∈ in4Members l e) (hn : src.length = n) :
    Buffer.slice (toNative l e).1 off n = src := by
  subst hn
  rw [toNative_v4 hv]
  exact Buffer.slice_patch_record in4Members_valid l.storage_le.1 hm

theorem slice_toNative_v6 (hv : e.address.version = .IPv6) {off n : Nat} {src : Bytes}
    (hm : (off, src) ∈ in6Members l e) (hn : src.length = n) :
    Buffer.slice (toNative l e).1 off n = src := by
  subst hn
  rw [toNative_v6 hv]
  exact Buffer.slice_patch_record in6Members_valid l.storage_le.2 hm

theorem length_take_bytes (a : IPAddress) {n : Nat} (hn : n ≤ ipv6ByteCount) :
    (a.bytes.take n).length = n := by
  rw [List.length_take, a.length_bytes, Nat.min_eq_left hn]

/-- The port is stored most significant byte first. -/
theorem load_port {b : Bytes} {off : Nat}
    (h : Buffer.slice b off 2 = l.store 2 (l.htons e.port).toNat) :
    l.ntohs (UInt16.ofNat (l.load (Buffer.slice b off 2))) = e.port := by
  rw [h, l.load_store (l.htons e.port).toNat_lt, UInt16.ofNat_toNat, l.ntohs_htons]

theorem readIn4_toNative (hv : e.address.version = .IPv4) :
    familyOf l (toNative l e).1 = l.AF_INET ∧ readIn4 l (toNative l e).1 = some e := by
  have hfamily := slice_toNative_v4 (l := l) hv (.head _) (l.length_store _ _)
  have hport := slice_toNative_v4 (l := l) hv (.tail _ (.head _)) (l.length_store _ _)
  have haddr := slice_toNative_v4 (l := l) hv (.tail _ (.tail _ (.head _)))
    (length_take_bytes e.address (by decide))
  constructor
  · rw [familyOf, hfamily, l.load_store l.afInet_lt]
  · obtain ⟨hlen, hread⟩ := readIn4_eq (l := l) (b := (toNative l e).1)
      (by rw [length_toNative]; exact l.storage_le.1)
    rw [hread]
    refine congrArg some (SocketEndpoint.ext (IPAddress.ext hv.symm ?_) (load_port hport) ?_)
    · have hsplit := List.take_append_drop ipv4ByteCount e.address.bytes
      rwa [e.address.unused hv, ← haddr] at hsplit
    · exact (e.unscoped hv).symm

theorem readIn6_toNative (hv : e.address.version = .IPv6) :
    familyOf l (toNative l e).1 = l.AF_INET6 ∧ readIn6 l (toNative l e).1 = some e := by
  have hfamily := slice_toNative_v6 (l := l) hv (.head _) (l.length_store _ _)
  have hport := slice_toNative_v6 (l := l) hv (.tail _ (.head _)) (l.length_store _ _)
  have hscope := slice_toNative_v6 (l := l) hv (.tail _ (.tail _ (.head _))) (l.length_store _ _)
  have haddr := slice_toNative_v6 (l := l) hv (.tail _ (.tail _ (.tail _ (.head _))))
    (length_take_bytes e.address (by decide))
  constructor
  · rw [familyOf, hfamily, l.load_store l.afInet6_lt]
  · obtain ⟨hlen, hread⟩ := readIn6_eq (l := l) (b := (toNative l e).1)
      (by rw [length_toNative]; exact l.storage_le.2)
    rw [hread]
    refine congrArg some (SocketEndpoint.ext (IPAddress.ext hv.symm ?_) (load_port hport) ?_)
    · refine haddr.trans ?_
      rw [← e.address.length_bytes, List.take_length]
    · rw [hscope, l.load_store e.scopeId.toNat_lt, UInt32.ofNat_toNat]
      rfl

/-- Reading back what was written, at any length. -/
theorem fromNative_toNative (l : Layout) (e : SocketEndpoint) (len : Int)
    (hlen : len ≤ (toNative l e).1.length) :
    fromNative l (some (toNative l e).1) len =
      .ok (if ((toNative l e).2 : Int) ≤ len then some e else none) := by
  rw [fromNative_eq hlen]
  rcases e.address.known with hv | hv
  · obtain ⟨hfamily, hread⟩ := readIn4_toNative (l := l) hv
    rw [hfamily, hread, toNative_v4 hv]
    by_cases hn : (l.sizeofIn : Int) ≤ len
    · rw [if_pos ⟨rfl, hn⟩, if_pos hn]
    · rw [if_neg fun h => hn h.2, if_neg fun h => l.af_ne h.1, if_neg hn]
  · obtain ⟨hfamily, hread⟩ := readIn6_toNative (l := l) hv
    rw [hfamily, hread, toNative_v6 hv, if_neg fun h => l.af_ne h.1.symm]
    by_cases hn : (l.sizeofIn6 : Int) ≤ len
    · rw [if_pos ⟨rfl, hn⟩, if_pos hn]
    · rw [if_neg fun h => hn h.2, if_neg hn]

/-- Where a written endpoint keeps its port. -/
def portOffset (l : Layout) (e : SocketEndpoint) : Nat :=
  if e.address.version = .IPv4 then l.sin_port else l.sin6_port

theorem port_toNative (l : Layout) (e : SocketEndpoint) :
    Buffer.slice (toNative l e).1 (portOffset l e) 2 =
      [UInt8.ofNat (e.port.toNat / 256), UInt8.ofNat (e.port.toNat % 256)] := by
  rcases e.address.known with hv | hv
  · rw [portOffset, if_pos hv, ← l.store_htons]
    exact slice_toNative_v4 hv (.tail _ (.head _)) (l.length_store _ _)
  · rw [portOffset, if_neg (by rw [hv]; decide), ← l.store_htons]
    exact slice_toNative_v6 hv (.tail _ (.head _)) (l.length_store _ _)

/-! ### Writing what was read

The other way round, the members hold the ranges of the buffer they were read from, and every
other byte is zero. -/

/-- The bytes of a native address that an endpoint carries: the family, the port, the
address and, for IPv6, the scope. -/
def Carries (l : Layout) (version : IPVersion) (i : Nat) : Prop :=
  (l.family ≤ i ∧ i < l.family + l.sizeofFamily) ∨
    if version = .IPv4 then
      (l.sin_port ≤ i ∧ i < l.sin_port + 2) ∨ (l.sin_addr ≤ i ∧ i < l.sin_addr + 4)
    else
      (l.sin6_port ≤ i ∧ i < l.sin6_port + 2) ∨ (l.sin6_addr ≤ i ∧ i < l.sin6_addr + 16) ∨
        (l.sin6_scope_id ≤ i ∧ i < l.sin6_scope_id + 4)

instance (l : Layout) (version : IPVersion) (i : Nat) : Decidable (Carries l version i) := by
  unfold Carries; infer_instance

/-- A port that was read is written as the bytes it was read from. -/
theorem store_port {b : Bytes} {off : Nat} (h : off + 2 ≤ b.length) :
    l.store 2 (l.htons (l.ntohs (UInt16.ofNat (l.load (Buffer.slice b off 2))))).toNat =
      Buffer.slice b off 2 := by
  have hlen := Buffer.length_slice h
  have hlt : l.load (Buffer.slice b off 2) < UInt16.size := Buffer.decode_lt hlen
  rw [l.htons_ntohs, UInt16.toNat_ofNat_of_lt' hlt, l.store_load hlen]

/-- The members written for an endpoint that was read are the ranges it was read from. -/
theorem in4Members_read {b : Bytes} (hb : l.sizeofIn ≤ b.length)
    (hfamily : familyOf l b = l.AF_INET) (hread : readIn4 l b = some e) :
    e.address.version = .IPv4 ∧ ∀ off src, (off, src) ∈ in4Members l e →
      src = Buffer.slice b off src.length := by
  have hfam := l.family_le
  have hsin := l.sockaddr_le.1
  have hport := l.in_le.1
  obtain ⟨hlen, heq⟩ := readIn4_eq hb
  obtain rfl := Option.some.inj (hread.symm.trans heq)
  refine ⟨rfl, fun off src hm => ?_⟩
  simp only [in4Members, List.mem_cons, Prod.mk.injEq, List.not_mem_nil, or_false] at hm
  rcases hm with ⟨rfl, rfl⟩ | ⟨rfl, rfl⟩ | ⟨rfl, rfl⟩
  · rw [l.length_store, ← hfamily]
    exact l.store_load (Buffer.length_slice (by omega))
  · rw [l.length_store]
    exact store_port (by omega)
  · rw [length_take_bytes _ (by decide)]
    exact List.take_left' hlen

theorem in6Members_read {b : Bytes} (hb : l.sizeofIn6 ≤ b.length)
    (hfamily : familyOf l b = l.AF_INET6) (hread : readIn6 l b = some e) :
    e.address.version = .IPv6 ∧ ∀ off src, (off, src) ∈ in6Members l e →
      src = Buffer.slice b off src.length := by
  have hfam := l.family_le
  have hsin := l.sockaddr_le.2
  obtain ⟨hport, -, hscope⟩ := l.in6_le
  obtain ⟨hlen, heq⟩ := readIn6_eq hb
  obtain rfl := Option.some.inj (hread.symm.trans heq)
  refine ⟨rfl, fun off src hm => ?_⟩
  simp only [in6Members, List.mem_cons, Prod.mk.injEq, List.not_mem_nil, or_false] at hm
  rcases hm with ⟨rfl, rfl⟩ | ⟨rfl, rfl⟩ | ⟨rfl, rfl⟩ | ⟨rfl, rfl⟩
  · rw [l.length_store, ← hfamily]
    exact l.store_load (Buffer.length_slice (by omega))
  · rw [l.length_store]
    exact store_port (by omega)
  · have hlen4 : (Buffer.slice b l.sin6_scope_id 4).length = 4 := Buffer.length_slice (by omega)
    have hlt : l.load (Buffer.slice b l.sin6_scope_id 4) < UInt32.size := Buffer.decode_lt hlen4
    have hval : (construct (.ofBytes6 (Buffer.slice b l.sin6_addr ipv6ByteCount) hlen)
        (l.ntohs (UInt16.ofNat (l.load (Buffer.slice b l.sin6_port 2))))
        (UInt32.ofNat (l.load (Buffer.slice b l.sin6_scope_id 4)))).scopeId.toNat =
        l.load (Buffer.slice b l.sin6_scope_id 4) :=
      UInt32.toNat_ofNat_of_lt' hlt
    rw [l.length_store, hval]
    exact l.store_load hlen4
  · rw [length_take_bytes _ (by decide)]
    exact List.take_of_length_le hlen.le

/-- Which of the two structs a successful `FromNative` read. -/
theorem fromNative_some {b : Bytes} {len : Int} (hbuf : len ≤ b.length)
    (h : fromNative l (some b) len = .ok (some e)) :
    (l.sizeofIn ≤ b.length ∧ familyOf l b = l.AF_INET ∧ readIn4 l b = some e) ∨
      (l.sizeofIn6 ≤ b.length ∧ familyOf l b = l.AF_INET6 ∧ readIn6 l b = some e) := by
  rw [fromNative_eq hbuf] at h
  have h := Except.ok.inj h
  split at h
  · rename_i h4
    exact .inl ⟨by omega, h4.1, h⟩
  · split at h
    · rename_i h6
      exact .inr ⟨by omega, h6.1, h⟩
    · cases h

theorem carries_v4 (hv : e.address.version = .IPv4) (i : Nat) : Carries l e.address.version i ↔
    ∃ m ∈ in4Members l e, m.1 ≤ i ∧ i < m.1 + m.2.length := by
  have hbytes := length_take_bytes e.address (n := ipv4ByteCount) (by decide)
  simp only [Carries, in4Members, hv, List.mem_cons, List.not_mem_nil, or_false, exists_eq_or_imp,
    exists_eq_left, Layout.length_store, hbytes, if_true]
  rfl

theorem carries_v6 (hv : e.address.version = .IPv6) (i : Nat) : Carries l e.address.version i ↔
    ∃ m ∈ in6Members l e, m.1 ≤ i ∧ i < m.1 + m.2.length := by
  have hbytes := length_take_bytes e.address (n := ipv6ByteCount) (by decide)
  simp only [Carries, in6Members, hv, List.mem_cons, List.not_mem_nil, or_false, exists_eq_or_imp,
    exists_eq_left, Layout.length_store, hbytes, reduceCtorEq, if_false]
  unfold ipv6ByteCount
  tauto

/-- Encoding what was read gives the bytes it was read from, and zeros. -/
theorem toNative_fromNative {b : Bytes} {len : Int} (hbuf : len ≤ b.length)
    (h : fromNative l (some b) len = .ok (some e)) {i : Nat} (hi : i < l.sizeofStorage) :
    (toNative l e).1[i]? = if Carries l e.address.version i then b[i]? else some 0 := by
  rcases fromNative_some hbuf h with ⟨hb, hfamily, hread⟩ | ⟨hb, hfamily, hread⟩
  · obtain ⟨hv, hmembers⟩ := in4Members_read hb hfamily hread
    rw [toNative_v4 hv]
    exact Buffer.getElem?_patch_record_eq in4Members_valid l.storage_le.1 hmembers hi
      (carries_v4 hv i)
  · obtain ⟨hv, hmembers⟩ := in6Members_read hb hfamily hread
    rw [toNative_v6 hv]
    exact Buffer.getElem?_patch_record_eq in6Members_valid l.storage_le.2 hmembers hi
      (carries_v6 hv i)

/-- `FromNative` looks at the bytes in use only. -/
theorem fromNative_congr {b b' : Bytes} {len : Int} (hb : len ≤ b.length) (hb' : len ≤ b'.length)
    (h : b.take len.toNat = b'.take len.toNat) :
    fromNative l (some b) len = fromNative l (some b') len := by
  have hslice : ∀ off n, off + n ≤ len.toNat → Buffer.slice b off n = Buffer.slice b' off n := by
    intro off n hle
    rw [← Buffer.slice_take hle, h, Buffer.slice_take hle]
  have hfam := l.family_le
  obtain ⟨hsin, hsin6⟩ := l.sockaddr_le
  obtain ⟨hport4, haddr4⟩ := l.in_le
  obtain ⟨hport6, haddr6, hscope6⟩ := l.in6_le
  have hfamily : (l.sizeofIn : Int) ≤ len ∨ (l.sizeofIn6 : Int) ≤ len →
      familyOf l b = familyOf l b' := fun hlen => by
    rw [familyOf, familyOf, hslice _ _ (by omega)]
  have hread4 : (l.sizeofIn : Int) ≤ len → readIn4 l b = readIn4 l b' := fun hlen => by
    rw [readIn4, readIn4, hslice l.sin_addr _ (by unfold ipv4ByteCount; omega),
      hslice l.sin_port 2 (by omega)]
  have hread6 : (l.sizeofIn6 : Int) ≤ len → readIn6 l b = readIn6 l b' := fun hlen => by
    rw [readIn6, readIn6, hslice l.sin6_addr _ (by unfold ipv6ByteCount; omega),
      hslice l.sin6_port 2 (by omega), hslice l.sin6_scope_id 4 (by omega)]
  rw [fromNative_eq hb, fromNative_eq hb']
  by_cases h4 : (l.sizeofIn : Int) ≤ len
  · rw [hfamily (.inl h4), hread4 h4]
    by_cases h6 : (l.sizeofIn6 : Int) ≤ len
    · rw [hread6 h6]
    · simp only [h6, and_false, ↓reduceIte]
  · by_cases h6 : (l.sizeofIn6 : Int) ≤ len
    · rw [hfamily (.inr h6), hread6 h6]
      simp only [h4, and_false, ↓reduceIte]
    · simp only [h4, h6, and_false, ↓reduceIte]

/-- The bytes that carry an endpoint are in use. -/
theorem Carries.lt {i : Nat} (h : Carries l e.address.version i) : i < (toNative l e).2 := by
  have hfamily := l.family_le
  obtain ⟨hsin, hsin6⟩ := l.sockaddr_le
  obtain ⟨hport4, haddr4⟩ := l.in_le
  obtain ⟨hport6, haddr6, hscope6⟩ := l.in6_le
  rcases e.address.known with hv | hv
  · simp only [Carries, hv, if_true] at h
    rw [toNative_v4 hv]
    omega
  · simp only [Carries, hv, reduceCtorEq, if_false] at h
    rw [toNative_v6 hv]
    omega

/-- `FromNative` reads an endpoint off the bytes that carry it, whatever the others are. -/
theorem fromNative_carried {b : Bytes} (hb : (toNative l e).2 ≤ b.length)
    (h : ∀ i, Carries l e.address.version i → b[i]? = (toNative l e).1[i]?) :
    fromNative l (some b) (toNative l e).2 = .ok (some e) := by
  rw [fromNative_eq (by exact_mod_cast hb)]
  have hfamily : familyOf l b = familyOf l (toNative l e).1 := by
    rw [familyOf, familyOf, Buffer.slice_congr fun i hlo hhi => h i (.inl ⟨hlo, hhi⟩)]
  rcases e.address.known with hv | hv
  · simp only [Carries, hv, if_true] at h
    obtain ⟨hfam, hread⟩ := readIn4_toNative (l := l) hv
    have hread4 : readIn4 l b = readIn4 l (toNative l e).1 := by
      rw [readIn4, readIn4, show ipv4ByteCount = 4 from rfl,
        Buffer.slice_congr fun i hlo hhi => h i (.inr (.inr ⟨hlo, hhi⟩)),
        Buffer.slice_congr fun i hlo hhi => h i (.inr (.inl ⟨hlo, hhi⟩))]
    rw [hfamily, hfam, hread4, hread, toNative_v4 hv, if_pos ⟨rfl, le_rfl⟩]
  · simp only [Carries, hv, reduceCtorEq, if_false] at h
    obtain ⟨hfam, hread⟩ := readIn6_toNative (l := l) hv
    have hread6 : readIn6 l b = readIn6 l (toNative l e).1 := by
      rw [readIn6, readIn6, show ipv6ByteCount = 16 from rfl,
        Buffer.slice_congr fun i hlo hhi => h i (.inr (.inr (.inl ⟨hlo, hhi⟩))),
        Buffer.slice_congr fun i hlo hhi => h i (.inr (.inl ⟨hlo, hhi⟩)),
        Buffer.slice_congr fun i hlo hhi => h i (.inr (.inr (.inr ⟨hlo, hhi⟩)))]
    rw [hfamily, hfam, hread6, hread, toNative_v6 hv, if_neg fun h => l.af_ne h.1.symm,
      if_pos ⟨rfl, le_rfl⟩]

/-- **The native round trip**, on hosts of either byte order. -/
theorem native_round_trip (l : Layout) :
    (∀ e (len : Int), len ≤ (toNative l e).1.length → fromNative l (some (toNative l e).1) len =
      .ok (if ((toNative l e).2 : Int) ≤ len then some e else none)) ∧
    (∀ e, Buffer.slice (toNative l e).1 (portOffset l e) 2 =
      [UInt8.ofNat (e.port.toNat / 256), UInt8.ofNat (e.port.toNat % 256)]) ∧
    (∀ b (len : Int) e, len ≤ b.length → fromNative l (some b) len = .ok (some e) →
      (∀ i, i < l.sizeofStorage →
        (toNative l e).1[i]? = if Carries l e.address.version i then b[i]? else some 0) ∧
      fromNative l (some (toNative l e).1) (toNative l e).2 = .ok (some e)) ∧
    (∀ b b' (len : Int), len ≤ b.length → len ≤ b'.length → b.take len.toNat = b'.take len.toNat →
      fromNative l (some b) len = fromNative l (some b') len) := by
  refine ⟨fromNative_toNative l, port_toNative l, fun b len e hbuf h => ⟨?_, ?_⟩, ?_⟩
  · exact fun i hi => toNative_fromNative hbuf h hi
  · rw [fromNative_toNative l e _ (by exact_mod_cast toNative_length_le), if_pos le_rfl]
  · exact fun b b' len => fromNative_congr

/-- An IPv4 endpoint on Linux, whose port is in use in network order. -/
theorem native_round_trip_linux :
    fromNative .linux (some (toNative .linux (construct (.loopback .IPv4) 8080 0)).1) 15 =
      .ok none ∧
    fromNative .linux (some (toNative .linux (construct (.loopback .IPv4) 8080 0)).1) 16 =
      .ok (some (construct (.loopback .IPv4) 8080 0)) :=
  ⟨(native_round_trip .linux).1 _ 15 (by decide), (native_round_trip .linux).1 _ 16 (by decide)⟩

end SocketEndpoint

end Net

end CoreSystems
