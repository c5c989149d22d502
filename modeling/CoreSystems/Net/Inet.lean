import Mathlib.Data.FinEnum
import CoreSystems.Lib.StringView

/-!
# CoreSystems.Net.Inet

`inet_pton` and `inet_ntop`, which belong to the C library, as parameters: the fields of
`Inet`, on texts without their terminator.

What the repository relies on is stated as two properties, `Inet.RejectsDelimiters` and
`Inet.Faithful`. `fullInet` is a library that has both: it agrees with the real one wherever
no group of an IPv6 address is abbreviated.

Buffers do not appear here. `Parse` copies its text into one and terminates it, and that is
modelled where it happens, so the functions are given just the text. A size is passed to
`inet_ntop`, because it refuses a buffer that is too small.
-/

namespace CoreSystems

open Buffer (Bytes)
open StringView

namespace Net

/-! ### Assumptions

The two properties are assumptions of the results that need them, and of no others.
`RejectsDelimiters` is about reading alone; `Faithful` says that what is written can be read. -/

/-- The delimiters of the endpoint format. -/
def openBracket : UInt8 := 91
def closeBracket : UInt8 := 93
def colon : UInt8 := 58
def percent : UInt8 := 37

/-- The address functions of the C library, and `INET6_ADDRSTRLEN`. Nothing is assumed of them
here. -/
structure Inet where
  addrStrLen : Nat
  pton4 : Bytes → Option (Vector UInt8 4)
  pton6 : Bytes → Option (Vector UInt8 16)
  ntop4 : Vector UInt8 4 → Nat → Option Bytes
  ntop6 : Vector UInt8 16 → Nat → Option Bytes

/-- No address text contains a delimiter of the endpoint format; an IPv4 text has no colon. -/
structure Inet.RejectsDelimiters (inet : Inet) : Prop where
  v4 : ∀ text ip, inet.pton4 text = some ip → openBracket ∉ text ∧
    closeBracket ∉ text ∧ percent ∉ text ∧
    colon ∉ text
  v6 : ∀ text ip, inet.pton6 text = some ip → openBracket ∉ text ∧
    closeBracket ∉ text ∧ percent ∉ text

/-- The separator of a dotted quad. -/
def dot : UInt8 := 46

/-- Four decimal numbers up to 255, separated by dots. -/
def DottedQuad (text : Bytes) : Prop :=
  ∃ a b c d : Nat, a < 256 ∧ b < 256 ∧ c < 256 ∧ d < 256 ∧
    text = toDecimal a ++ dot :: (toDecimal b ++ dot :: (toDecimal c ++ dot :: toDecimal d))

/-- The characters of an IPv6 text. -/
def IsV6Char (c : UInt8) : Prop :=
  isDigit c = true ∨ (97 ≤ c.toNat ∧ c.toNat ≤ 102) ∨ (65 ≤ c.toNat ∧ c.toNat ≤ 70) ∨
    c = colon ∨ c = dot

instance (c : UInt8) : Decidable (IsV6Char c) :=
  inferInstanceAs (Decidable (_ ∨ _ ∨ _ ∨ _ ∨ _))

/-- `inet_ntop` succeeds with a buffer of 46 bytes and writes a text of the right form, which
`inet_pton` reads back; and `inet_pton` takes no text with a colon for an IPv4 address. -/
structure Inet.Faithful (inet : Inet) : Prop where
  addrStrLen : 46 ≤ inet.addrStrLen
  v4 : ∀ ip size, 46 ≤ size → ∃ text, inet.ntop4 ip size = some text ∧ DottedQuad text ∧
    inet.pton4 text = some ip
  v6 : ∀ ip size, 46 ≤ size → ∃ text, inet.ntop6 ip size = some text ∧ text.length ≤ 45 ∧
    (∀ c ∈ text, IsV6Char c) ∧ colon ∈ text ∧ inet.pton6 text = some ip
  colon : ∀ text, colon ∈ text → inet.pton4 text = none

/-- A dotted quad is short and contains digits and dots only. -/
theorem DottedQuad.chars {text : Bytes} (h : DottedQuad text) :
    text ≠ [] ∧ text.length ≤ 15 ∧ ∀ c ∈ text, isDigit c = true ∨ c = dot := by
  obtain ⟨a, b, c, d, ha, hb, hc, hd, rfl⟩ := h
  have hla := length_toDecimal_le ha
  have hlb := length_toDecimal_le hb
  have hlc := length_toDecimal_le hc
  have hld := length_toDecimal_le hd
  refine ⟨by simp, ?_, ?_⟩
  · simp only [List.length_append, List.length_cons]
    omega
  · intro x hx
    simp only [List.mem_append, List.mem_cons] at hx
    rcases hx with hx | rfl | hx | rfl | hx | rfl | hx
    · exact .inl (isDigit_toDecimal hx)
    · exact .inr rfl
    · exact .inl (isDigit_toDecimal hx)
    · exact .inr rfl
    · exact .inl (isDigit_toDecimal hx)
    · exact .inr rfl
    · exact .inl (isDigit_toDecimal hx)

/-! ### A library without abbreviations

The assumptions are satisfied by something that can be computed: a library that writes four
digits for each group, and reads them back. -/

/-- The digit of a number below sixteen. -/
def hexDigit (n : Nat) : UInt8 := UInt8.ofNat (if n < 10 then 48 + n else 87 + n)

/-- The number a hexadecimal digit stands for. -/
def nibble (c : UInt8) : Nat := if c.toNat < 58 then c.toNat - 48 else c.toNat - 87

/-- Two bytes as four digits. -/
def writeGroup (a b : UInt8) : Bytes :=
  [hexDigit (a.toNat / 16), hexDigit (a.toNat % 16), hexDigit (b.toNat / 16),
    hexDigit (b.toNat % 16)]

/-- Bytes in groups of two, separated by colons. -/
def writeHex : Bytes → Bytes
  | a :: b :: rest =>
    if rest = [] then writeGroup a b else writeGroup a b ++ colon :: writeHex rest
  | _ => []

def readHex : Bytes → Bytes
  | p :: q :: r :: s :: rest => UInt8.ofNat (16 * nibble p + nibble q) ::
      UInt8.ofNat (16 * nibble r + nibble s) :: readHex rest.tail
  | _ => []
termination_by text => text.length
decreasing_by simp; omega

/-- An address library that writes every group of an IPv6 address in full. -/
def fullInet : Inet where
  addrStrLen := 46
  ntop4 ip _ := some (((ip.toList.map fun b => toDecimal b.toNat).intersperse [dot]).flatten)
  ntop6 ip _ := some (writeHex ip.toList)
  pton4 text :=
    let bytes := (text.splitOn dot).map fun part => UInt8.ofNat (value part)
    if h : bytes.length = 4 ∧ ∀ c ∈ text, isDigit c = true ∨ c = dot then some ⟨⟨bytes⟩, h.1⟩
    else none
  pton6 text :=
    let bytes := readHex text
    if h : bytes.length = 16 ∧ ∀ c ∈ text, IsV6Char c then some ⟨⟨bytes⟩, h.1⟩ else none

theorem hexDigit_spec : ∀ n < 16, nibble (hexDigit n) = n ∧ IsV6Char (hexDigit n) := by
  decide

theorem nibbles_hexDigit (b : UInt8) :
    UInt8.ofNat (16 * nibble (hexDigit (b.toNat / 16)) + nibble (hexDigit (b.toNat % 16))) = b := by
  have hb := b.toNat_lt
  rw [(hexDigit_spec _ (by omega)).1, (hexDigit_spec _ (by omega)).1, Nat.div_add_mod,
    UInt8.ofNat_toNat]

theorem readHex_writeGroup (a b : UInt8) (rest : Bytes) :
    readHex (writeGroup a b ++ rest) = a :: b :: readHex rest.tail := by
  simp only [writeGroup, List.cons_append, List.nil_append, readHex, nibbles_hexDigit]

theorem isV6Char_writeGroup {a b c : UInt8} (hc : c ∈ writeGroup a b) : IsV6Char c := by
  have ha := a.toNat_lt
  have hb := b.toNat_lt
  simp only [writeGroup, List.mem_cons, List.not_mem_nil, or_false] at hc
  rcases hc with rfl | rfl | rfl | rfl <;> exact (hexDigit_spec _ (by omega)).2

/-- Reading undoes writing, and a text has five characters for two bytes, but one. -/
theorem readHex_writeHex (bytes : Bytes) (heven : bytes.length % 2 = 0) :
    readHex (writeHex bytes) = bytes ∧ (∀ c ∈ writeHex bytes, IsV6Char c) ∧
      2 * (writeHex bytes).length ≤ 5 * bytes.length - 2 := by
  induction bytes using writeHex.induct with
  | case1 a b =>
      rw [writeHex, if_pos rfl]
      refine ⟨?_, fun c hc => isV6Char_writeGroup hc, by simp [writeGroup]⟩
      have hread := readHex_writeGroup a b []
      simpa [readHex] using hread
  | case2 a b rest hrest ih =>
      obtain ⟨hread, hchars, hlen⟩ := ih (by simp at heven; omega)
      have hpos := List.length_pos_of_ne_nil hrest
      rw [writeHex, if_neg hrest]
      refine ⟨?_, fun c hc => ?_, ?_⟩
      · rw [readHex_writeGroup, List.tail_cons, hread]
      · rcases List.mem_append.mp hc with hc | hc
        · exact isV6Char_writeGroup hc
        · rcases List.mem_cons.mp hc with rfl | hc
          · decide
          · exact hchars c hc
      · simp only [List.length_append, List.length_cons, writeGroup, List.length_nil]
        omega
  | case3 bytes hshape =>
      match bytes, heven, hshape with
      | [], _, _ => simp [writeHex, readHex]
      | [a], heven, _ => simp at heven
      | a :: b :: rest, _, hshape => exact absurd rfl (hshape a b rest)

theorem fullInet_pton4 {text bytes : Bytes} (h4 : bytes.length = 4)
    (hread : ((text.splitOn dot).map fun part => UInt8.ofNat (value part)) = bytes)
    (hchars : ∀ c ∈ text, isDigit c = true ∨ c = dot) :
    fullInet.pton4 text = some ⟨⟨bytes⟩, h4⟩ := by
  subst hread
  exact dif_pos ⟨h4, hchars⟩

theorem fullInet_v4 (ip : Vector UInt8 4) (size : Nat) : ∃ text,
    fullInet.ntop4 ip size = some text ∧ DottedQuad text ∧ fullInet.pton4 text = some ip := by
  obtain ⟨⟨l⟩, hl⟩ := ip
  match l, hl with
  | [a, b, c, d], hl =>
      have hquad : DottedQuad
          (([a, b, c, d].map fun b => toDecimal b.toNat).intersperse [dot]).flatten :=
        ⟨a.toNat, b.toNat, c.toNat, d.toNat, a.toNat_lt, b.toNat_lt, c.toNat_lt, d.toNat_lt,
          by simp⟩
      have hsplit : ([dot].intercalate ([a, b, c, d].map fun b => toDecimal b.toNat)).splitOn dot =
          [a, b, c, d].map fun b => toDecimal b.toNat :=
        List.splitOn_intercalate dot (fun part hpart hdot => by
          obtain ⟨n, -, rfl⟩ := List.mem_map.mp hpart
          cases isDigit_toDecimal hdot) (by simp)
      have hvalues :
          ((([a, b, c, d].map fun b => toDecimal b.toNat).intersperse [dot]).flatten.splitOn
            dot).map (fun part => UInt8.ofNat (value part)) = [a, b, c, d] := by
        rw [show ∀ ls : List Bytes, (ls.intersperse [dot]).flatten = [dot].intercalate ls from
          fun _ => rfl, hsplit, List.map_map]
        simp [value_toDecimal]
      exact ⟨_, rfl, hquad, fullInet_pton4 hl hvalues (DottedQuad.chars hquad).2.2⟩

theorem fullInet_faithful : fullInet.Faithful where
  addrStrLen := Nat.le_refl 46
  v4 ip size _ := fullInet_v4 ip size
  v6 ip size _ := by
    have hlen : ip.toList.length = 16 := ip.length_toList
    obtain ⟨hread, hchars, hshort⟩ := readHex_writeHex ip.toList (by rw [hlen])
    refine ⟨_, rfl, by omega, hchars, ?_, ?_⟩
    · obtain ⟨a, b, rest, hcons, hrest⟩ : ∃ a b rest, ip.toList = a :: b :: rest ∧ rest ≠ [] := by
        match ip.toList, hlen with
        | a :: b :: c :: rest, _ => exact ⟨a, b, c :: rest, rfl, by simp⟩
      simp [hcons, writeHex, hrest]
    · simp only [fullInet]
      rw [dif_pos ⟨by rw [hread, hlen], hchars⟩]
      simp only [hread]
      rfl
  colon text hcolon := by
    simp only [fullInet]
    refine dif_neg fun h => ?_
    rcases h.2 _ hcolon with h | h <;> cases h

theorem fullInet_rejectsDelimiters : fullInet.RejectsDelimiters where
  v4 text ip h := by
    simp only [fullInet, Option.dite_none_right_eq_some] at h
    obtain ⟨⟨-, hchars⟩, -⟩ := h
    refine ⟨?_, ?_, ?_, ?_⟩ <;> intro hmem <;> rcases hchars _ hmem with h | h <;> cases h
  v6 text ip h := by
    simp only [fullInet, Option.dite_none_right_eq_some] at h
    obtain ⟨⟨-, hchars⟩, -⟩ := h
    refine ⟨?_, ?_, ?_⟩ <;> intro hmem <;> exact absurd (hchars _ hmem) (by decide)

end Net

end CoreSystems
