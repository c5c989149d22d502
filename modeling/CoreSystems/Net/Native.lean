import CoreSystems.Net.SocketEndpoint

/-!
# CoreSystems.Net.Native

`SocketEndpoint::ToNative` and `FromNative`: endpoints as the bytes of `sockaddr_in` and
`sockaddr_in6`.

A `Layout` is what the platform's headers decide: the byte order, the sizes of the structs
and where their members are. `FromNative` reads through a pointer, so every access is
checked against the buffer.

Structs are sequences of bytes with members at offsets. The padding between them is part of
such a sequence, and so are the bytes of the storage that no struct uses; `ToNative` zeroes
all of them first.

`FromNative` is given a pointer, which may be null, and a length that the caller vouches for.
A length beyond the buffer is therefore not the fault of the function; one that is too short
for the struct has to be rejected by it.
-/

namespace CoreSystems

open Buffer (Bytes Trap)

namespace Net

/-- The native address structs of a platform. The members lie inside their structs and do
not overlap, and `sizeof(sockaddr)` is no larger than the others. -/
structure Layout where
  bigEndian : Bool
  AF_INET : Nat
  AF_INET6 : Nat
  /-- `sizeof(sockaddr)`, `sizeof(sockaddr_in)`, … -/
  sizeofSockaddr : Nat
  sizeofIn : Nat
  sizeofIn6 : Nat
  sizeofStorage : Nat
  /-- `sa_family`, `sin_family` and `sin6_family` are one member. -/
  family : Nat
  sizeofFamily : Nat
  sin_port : Nat
  sin_addr : Nat
  sin6_port : Nat
  sin6_addr : Nat
  sin6_scope_id : Nat
  afInet_lt : AF_INET < 256 ^ sizeofFamily
  afInet6_lt : AF_INET6 < 256 ^ sizeofFamily
  af_ne : AF_INET ≠ AF_INET6
  family_le : family + sizeofFamily ≤ sizeofSockaddr
  sockaddr_le : sizeofSockaddr ≤ sizeofIn ∧ sizeofSockaddr ≤ sizeofIn6
  storage_le : sizeofIn ≤ sizeofStorage ∧ sizeofIn6 ≤ sizeofStorage
  in_le : sin_port + 2 ≤ sizeofIn ∧ sin_addr + 4 ≤ sizeofIn
  in_disjoint : (sin_port + 2 ≤ family ∨ family + sizeofFamily ≤ sin_port) ∧
    (sin_addr + 4 ≤ family ∨ family + sizeofFamily ≤ sin_addr) ∧
    (sin_addr + 4 ≤ sin_port ∨ sin_port + 2 ≤ sin_addr)
  in6_le : sin6_port + 2 ≤ sizeofIn6 ∧ sin6_addr + 16 ≤ sizeofIn6 ∧ sin6_scope_id + 4 ≤ sizeofIn6
  in6_disjoint : (sin6_port + 2 ≤ family ∨ family + sizeofFamily ≤ sin6_port) ∧
    (sin6_addr + 16 ≤ family ∨ family + sizeofFamily ≤ sin6_addr) ∧
    (sin6_scope_id + 4 ≤ family ∨ family + sizeofFamily ≤ sin6_scope_id) ∧
    (sin6_addr + 16 ≤ sin6_port ∨ sin6_port + 2 ≤ sin6_addr) ∧
    (sin6_scope_id + 4 ≤ sin6_port ∨ sin6_port + 2 ≤ sin6_scope_id) ∧
    (sin6_scope_id + 4 ≤ sin6_addr ∨ sin6_addr + 16 ≤ sin6_scope_id)

/-- The layout of Linux on x86-64. -/
def Layout.linux : Layout where
  bigEndian := false
  AF_INET := 2
  AF_INET6 := 10
  sizeofSockaddr := 16
  sizeofIn := 16
  sizeofIn6 := 28
  sizeofStorage := 128
  family := 0
  sizeofFamily := 2
  sin_port := 2
  sin_addr := 4
  sin6_port := 2
  sin6_addr := 8
  sin6_scope_id := 24
  afInet_lt := by decide
  afInet6_lt := by decide
  af_ne := by decide
  family_le := by decide
  sockaddr_le := by decide
  storage_le := by decide
  in_le := by decide
  in_disjoint := by decide
  in6_le := by decide
  in6_disjoint := by decide

/-- The layout of Windows on x86-64. -/
def Layout.win64 : Layout where
  bigEndian := false
  AF_INET := 2
  AF_INET6 := 23
  sizeofSockaddr := 16
  sizeofIn := 16
  sizeofIn6 := 28
  sizeofStorage := 128
  family := 0
  sizeofFamily := 2
  sin_port := 2
  sin_addr := 4
  sin6_port := 2
  sin6_addr := 8
  sin6_scope_id := 24
  afInet_lt := by decide
  afInet6_lt := by decide
  af_ne := by decide
  family_le := by decide
  sockaddr_le := by decide
  storage_le := by decide
  in_le := by decide
  in_disjoint := by decide
  in6_le := by decide
  in6_disjoint := by decide

namespace Layout

/-- `htons`: the host's representation of the number whose bytes are `port` in network order. -/
def htons (l : Layout) (port : UInt16) : UInt16 :=
  if l.bigEndian then port else UInt16.ofNat (port.toNat % 256 * 256 + port.toNat / 256)

/-- `ntohs`. -/
def ntohs (l : Layout) (port : UInt16) : UInt16 := l.htons port

/-- The bytes of a member of an unsigned type. -/
def store (l : Layout) (size n : Nat) : Bytes := Buffer.encode l.bigEndian size n

/-- The value of a member of an unsigned type. -/
def load (l : Layout) (bytes : Bytes) : Nat := Buffer.decode l.bigEndian bytes

end Layout

namespace SocketEndpoint

/-- The members of the `sockaddr_in` that `ToNative` assigns. -/
def in4Members (l : Layout) (e : SocketEndpoint) : List (Nat × Bytes) :=
  [(l.family, l.store l.sizeofFamily l.AF_INET),
    (l.sin_port, l.store 2 (l.htons e.port).toNat),
    (l.sin_addr, e.address.bytes.take ipv4ByteCount)]

/-- The members of the `sockaddr_in6` that `ToNative` assigns. -/
def in6Members (l : Layout) (e : SocketEndpoint) : List (Nat × Bytes) :=
  [(l.family, l.store l.sizeofFamily l.AF_INET6),
    (l.sin6_port, l.store 2 (l.htons e.port).toNat),
    (l.sin6_scope_id, l.store 4 e.scopeId.toNat),
    (l.sin6_addr, e.address.bytes.take ipv6ByteCount)]

/-- `ToNative`: the `sockaddr_storage` and the length in use. The struct is filled in and
copied to the front of the storage. -/
def toNative (l : Layout) (e : SocketEndpoint) : Bytes × Nat :=
  let storage := List.replicate l.sizeofStorage 0
  if e.address.version = .IPv4 then
    let addr4 := Buffer.record l.sizeofIn (in4Members l e)
    (Buffer.patch storage 0 addr4, l.sizeofIn)
  else
    let addr6 := Buffer.record l.sizeofIn6 (in6Members l e)
    (Buffer.patch storage 0 addr6, l.sizeofIn6)

/-- `FromNative`. The family is read before the length is compared with the size of the struct
that it names. -/
def fromNative (l : Layout) (addr : Option Bytes) (len : Int) :
    Except Trap (Option SocketEndpoint) := do
  match addr with
  | none => return none
  | some addr =>
    if len < l.sizeofSockaddr then
      return none
    let family := l.load (← Buffer.read addr l.family l.sizeofFamily)
    if family = l.AF_INET ∧ (l.sizeofIn : Int) ≤ len then
      let addr4 ← Buffer.read addr 0 l.sizeofIn
      let bytes := Buffer.slice addr4 l.sin_addr ipv4ByteCount
      let port := UInt16.ofNat (l.load (Buffer.slice addr4 l.sin_port 2))
      match IPAddress.fromBytes bytes .IPv4 with
      | some ip => return some (construct ip (l.ntohs port) 0)
      | none => return none
    else if family = l.AF_INET6 ∧ (l.sizeofIn6 : Int) ≤ len then
      let addr6 ← Buffer.read addr 0 l.sizeofIn6
      let bytes := Buffer.slice addr6 l.sin6_addr ipv6ByteCount
      let port := UInt16.ofNat (l.load (Buffer.slice addr6 l.sin6_port 2))
      let scopeId := UInt32.ofNat (l.load (Buffer.slice addr6 l.sin6_scope_id 4))
      match IPAddress.fromBytes bytes .IPv6 with
      | some ip => return some (construct ip (l.ntohs port) scopeId)
      | none => return none
    else
      return none

end SocketEndpoint

end Net

end CoreSystems
