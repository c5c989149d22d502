import CoreSystems.Net.IPAddress

/-!
# CoreSystems.Net.AddressText

Which texts are addresses, and that `Parse` accepts exactly these.

The grammar relates a text to the bytes it stands for: `IPv4Text` four decimal octets,
`IPv6Text` groups of hexadecimal digits, of which `::` leaves out some that are zero and a
dotted quad may replace the last two. `Inet.Standard` is the assumption that `inet_pton`
reads this grammar.

A text has at most one reading (`IPv6Text.unique`), since a group contains no colon and a
sequence of groups no two in a row; so there is a library with that property
(`standardInet`). A text is at most 45 characters long, which is what the buffer of
`Parse` has room for besides the terminator.

Both directions of `parse_iff` go through `parse_eq`: soundness reads the address off the text
that `inet_pton` has accepted, completeness has to show that no text of the grammar is stopped
by a guard. For this the grammar has to bound the length and exclude the terminator.
-/

namespace CoreSystems

open Buffer (Bytes Trap)
open StringView

namespace Net

/-! ### The grammar

The relation is given by the form of a text, not by an algorithm: a reading is a way to cut
the text into groups. Letters may be of either case, leading zeros of a group may be left out,
and `::` may stand for a single group. -/

/-- Four decimal octets without leading zeros, separated by dots. -/
def IPv4Text (text bytes : Bytes) : Prop :=
  ∃ a b c d : UInt8, bytes = [a, b, c, d] ∧
    text = toDecimal a.toNat ++ dot :: (toDecimal b.toNat ++ dot ::
      (toDecimal c.toNat ++ dot :: toDecimal d.toNat))

/-- The value of a hexadecimal digit, of either case. -/
def hexDigitValue (c : UInt8) : Option Nat :=
  if 48 ≤ c.toNat ∧ c.toNat ≤ 57 then some (c.toNat - 48)
  else if 97 ≤ c.toNat ∧ c.toNat ≤ 102 then some (c.toNat - 87)
  else if 65 ≤ c.toNat ∧ c.toNat ≤ 70 then some (c.toNat - 55)
  else none

/-- The number hexadecimal digits stand for. -/
def hexValue (text : Bytes) : Nat :=
  text.foldl (fun n c => 16 * n + (hexDigitValue c).getD 0) 0

/-- One to four hexadecimal digits, and the two bytes they stand for. -/
def Group (text bytes : Bytes) : Prop :=
  text ≠ [] ∧ text.length ≤ 4 ∧ (∀ c ∈ text, hexDigitValue c ≠ none) ∧
    bytes = [UInt8.ofNat (hexValue text / 256), UInt8.ofNat (hexValue text % 256)]

/-- What may stand at the end: a group, or a dotted quad for two of them. -/
def LastGroup (text bytes : Bytes) : Prop := Group text bytes ∨ IPv4Text text bytes

/-- Groups separated by colons, of which the last is as `Last` says. -/
inductive Groups (Last : Bytes → Bytes → Prop) : Bytes → Bytes → Prop
  | last {text bytes : Bytes} : Last text bytes → Groups Last text bytes
  | cons {text bytes rest bytes' : Bytes} : Group text bytes → Groups Last rest bytes' →
      Groups Last (text ++ colon :: rest) (bytes ++ bytes')

/-- Groups, or nothing. -/
def OptGroups (Last : Bytes → Bytes → Prop) (text bytes : Bytes) : Prop :=
  (text = [] ∧ bytes = []) ∨ Groups Last text bytes

/-- Groups for sixteen bytes, or groups on both sides of a `::` that stands for the one or
more groups missing, all zero. -/
def IPv6Text (text bytes : Bytes) : Prop :=
  (Groups LastGroup text bytes ∧ bytes.length = 16) ∨
  ∃ left right front back, OptGroups Group left front ∧ OptGroups LastGroup right back ∧
    front.length + back.length ≤ 14 ∧ text = left ++ colon :: colon :: right ∧
    bytes = front ++ List.replicate (16 - (front.length + back.length)) 0 ++ back

/-- `inet_pton` reads the grammar, and `INET6_ADDRSTRLEN` is 46. -/
structure Inet.Standard (inet : Inet) : Prop where
  addrStrLen : inet.addrStrLen = 46
  v4 : ∀ text ip, inet.pton4 text = some ip ↔ IPv4Text text ip.toList
  v6 : ∀ text ip, inet.pton6 text = some ip ↔ IPv6Text text ip.toList

/-! ### Dotted quads

The octets are decimal without leading zeros, so each is what `toDecimal` prints and a quad is
the text of its four bytes. -/

section Quad

variable {text bytes bytes' : Bytes}

theorem IPv4Text.quad (h : IPv4Text text bytes) : DottedQuad text := by
  obtain ⟨a, b, c, d, -, rfl⟩ := h
  exact ⟨_, _, _, _, a.toNat_lt, b.toNat_lt, c.toNat_lt, d.toNat_lt, rfl⟩

theorem IPv4Text.length_bytes (h : IPv4Text text bytes) : bytes.length = 4 := by
  obtain ⟨a, b, c, d, rfl, -⟩ := h
  rfl

theorem dot_notMem_toDecimal (n : Nat) : dot ∉ toDecimal n := fun h =>
  absurd (isDigit_toDecimal h) (by decide)

theorem IPv4Text.dot_mem (h : IPv4Text text bytes) : dot ∈ text := by
  obtain ⟨a, b, c, d, -, rfl⟩ := h
  simp

theorem IPv4Text.colon_notMem (h : IPv4Text text bytes) : colon ∉ text := by
  intro hmem
  rcases h.quad.chars.2.2 _ hmem with h | h <;> cases h

theorem toDecimal_octet_inj {a b : UInt8} (h : toDecimal a.toNat = toDecimal b.toNat) : a = b := by
  have hvalue := congrArg value h
  rw [value_toDecimal, value_toDecimal] at hvalue
  exact UInt8.toNat_inj.mp hvalue

/-- A dotted quad has one reading. -/
theorem IPv4Text.unique (h : IPv4Text text bytes) (h' : IPv4Text text bytes') :
    bytes = bytes' := by
  obtain ⟨a, b, c, d, rfl, rfl⟩ := h
  obtain ⟨a', b', c', d', rfl, htext⟩ := h'
  obtain ⟨ha, htext⟩ := cut_unique htext (dot_notMem_toDecimal _) (dot_notMem_toDecimal _)
  obtain ⟨hb, htext⟩ := cut_unique htext (dot_notMem_toDecimal _) (dot_notMem_toDecimal _)
  obtain ⟨hc, hd⟩ := cut_unique htext (dot_notMem_toDecimal _) (dot_notMem_toDecimal _)
  rw [toDecimal_octet_inj ha, toDecimal_octet_inj hb, toDecimal_octet_inj hc,
    toDecimal_octet_inj hd]

end Quad

/-! ### Groups

What groups and the quad at the end have in common is `Piece`; with it the facts about colons
are proved once for both kinds of sequences. -/

section Groups

variable {Last : Bytes → Bytes → Prop} {text bytes bytes' : Bytes}

theorem isV6Char_of_hexDigitValue {c : UInt8} (h : hexDigitValue c ≠ none) :
    IsV6Char c ∧ c ≠ colon ∧ c ≠ dot := by
  refine ⟨?_, ?_, ?_⟩
  · unfold hexDigitValue at h
    unfold IsV6Char isDigit
    split at h
    · simp_all
    · split at h
      · simp_all
      · split at h
        · simp_all
        · exact absurd rfl h
  · rintro rfl
    exact h (by decide)
  · rintro rfl
    exact h (by decide)

/-- What a piece between colons is like, whichever kind it is. -/
structure Piece (text : Bytes) : Prop where
  ne_nil : text ≠ []
  colon : colon ∉ text
  chars : ∀ c ∈ text, IsV6Char c

theorem Group.piece (h : Group text bytes) : Piece text where
  ne_nil := h.1
  colon hmem := (isV6Char_of_hexDigitValue (h.2.2.1 _ hmem)).2.1 rfl
  chars c hc := (isV6Char_of_hexDigitValue (h.2.2.1 c hc)).1

theorem LastGroup.piece (h : LastGroup text bytes) : Piece text := by
  rcases h with h | h
  · exact h.piece
  · refine ⟨h.quad.chars.1, h.colon_notMem, fun c hc => ?_⟩
    rcases h.quad.chars.2.2 c hc with hdigit | hdot
    · exact .inl hdigit
    · exact .inr (.inr (.inr (.inr hdot)))

theorem Group.length_bytes (h : Group text bytes) : bytes.length = 2 := by
  rw [h.2.2.2]
  rfl

theorem Group.unique (h : Group text bytes) (h' : Group text bytes') : bytes = bytes' :=
  h.2.2.2.trans h'.2.2.2.symm

/-- A group is no dotted quad. -/
theorem LastGroup.unique (h : LastGroup text bytes) (h' : LastGroup text bytes') :
    bytes = bytes' := by
  have hdisjoint : ∀ {b b' : Bytes}, Group text b → ¬ IPv4Text text b' := fun hg hq =>
    (isV6Char_of_hexDigitValue (hg.2.2.1 _ hq.dot_mem)).2.2 rfl
  rcases h with h | h <;> rcases h' with h' | h'
  · exact h.unique h'
  · exact absurd h' (hdisjoint h)
  · exact absurd h (hdisjoint h')
  · exact h.unique h'

/-- No two colons in a row. -/
def Undoubled (text : Bytes) : Prop := ∀ xs ys, text ≠ xs ++ colon :: colon :: ys

theorem Groups.ne_nil (h : Groups Last text bytes) (hlast : ∀ t b, Last t b → Piece t) :
    text ≠ [] := by
  cases h with
  | last h => exact (hlast _ _ h).ne_nil
  | cons _ _ => simp

/-- A sequence of groups does not begin with a colon. -/
theorem Groups.head (h : Groups Last text bytes) (hlast : ∀ t b, Last t b → Piece t)
    (rest : Bytes) : text ≠ colon :: rest := by
  rintro rfl
  generalize htext : colon :: rest = text at h
  cases h with
  | last h => exact (hlast _ _ h).colon (by simp [← htext])
  | @cons first _ rest' _ hg _ =>
      cases first with
      | nil => exact hg.1 rfl
      | cons c first =>
          obtain rfl : colon = c := (List.cons.inj htext).1
          exact hg.piece.colon (by simp)

/-- Between two colons there is a group. -/
theorem Groups.undoubled (h : Groups Last text bytes) (hlast : ∀ t b, Last t b → Piece t) :
    Undoubled text := by
  induction h with
  | last h =>
      rintro xs ys rfl
      exact (hlast _ _ h).colon (by simp)
  | @cons first _ rest _ hg hrest ih =>
      intro xs ys htext
      by_cases hmem : colon ∈ xs
      · -- the first colon is the one behind the first group
        obtain ⟨as, bs, rfl, hnot⟩ := List.eq_append_cons_of_mem hmem
        rw [List.append_assoc, List.cons_append] at htext
        obtain ⟨-, hcut⟩ := cut_unique htext hg.piece.colon hnot
        exact ih bs ys hcut
      · obtain ⟨-, hcut⟩ := cut_unique htext hg.piece.colon hmem
        exact hrest.head hlast ys hcut

/-- A sequence of groups does not end with a colon. -/
theorem Groups.getLast (h : Groups Last text bytes) (hlast : ∀ t b, Last t b → Piece t)
    (front : Bytes) : text ≠ front ++ [colon] := by
  induction h generalizing front with
  | last h =>
      rintro rfl
      exact (hlast _ _ h).colon (by simp)
  | @cons first _ rest _ hg hrest ih =>
      intro htext
      rcases List.eq_nil_or_concat rest with rfl | ⟨init, c, rfl⟩
      · exact hrest.ne_nil hlast rfl
      · rw [List.concat_eq_append] at htext ih
        have hends : first ++ colon :: init ++ [c] = front ++ [colon] := by simpa using htext
        obtain ⟨-, hc⟩ := List.append_inj' hends rfl
        obtain rfl : c = colon := by simpa using hc
        exact ih init rfl

/-- A sequence of groups has one reading. -/
theorem Groups.unique (h : Groups Last text bytes) (h' : Groups Last text bytes')
    (hlast : ∀ t b, Last t b → Piece t)
    (hunique : ∀ t b b', Last t b → Last t b' → b = b') : bytes = bytes' := by
  induction h generalizing bytes' with
  | last h =>
      cases h' with
      | last h' => exact hunique _ _ _ h h'
      | cons hg' hrest' => exact absurd (by simp) (hlast _ _ h).colon
  | @cons first b rest b' hg hrest ih =>
      generalize htext : first ++ colon :: rest = text at h'
      cases h' with
      | last h' => exact absurd (by simp [← htext]) (hlast _ _ h').colon
      | cons hg' hrest' =>
          obtain ⟨rfl, rfl⟩ := cut_unique htext hg.piece.colon hg'.piece.colon
          rw [hg.unique hg', ih hrest']

/-- Two characters more than four a group and five to its two bytes, as a dotted quad has
fifteen for four. -/
theorem Groups.length_le {k : Nat} (h : Groups Last text bytes)
    (hlast : ∀ t b, Last t b → 2 * t.length + 2 ≤ 5 * b.length + k) :
    2 * text.length + 2 ≤ 5 * bytes.length + k := by
  induction h with
  | last h => exact hlast _ _ h
  | cons hg hrest ih =>
      have hfirst := hg.2.1
      rw [List.length_append, List.length_append, List.length_cons, hg.length_bytes]
      omega

theorem Groups.chars (h : Groups Last text bytes) (hlast : ∀ t b, Last t b → Piece t) :
    ∀ c ∈ text, IsV6Char c := by
  induction h with
  | last h => exact (hlast _ _ h).chars
  | cons hg hrest ih =>
      intro c hc
      rcases List.mem_append.mp hc with hc | hc
      · exact hg.piece.chars c hc
      · rcases List.mem_cons.mp hc with rfl | hc
        · exact .inr (.inr (.inr (.inl rfl)))
        · exact ih c hc

end Groups

/-! ### Whole addresses

The uniqueness of a reading has one hard case, a text with `::`: where it was cut is
determined, because there is no other pair of colons next to each other. -/

section Whole

variable {text bytes bytes' left right left' right' front back : Bytes}
  {Last : Bytes → Bytes → Prop}

theorem Group.length_le (h : Group text bytes) : 2 * text.length + 2 ≤ 5 * bytes.length + 0 := by
  have hfour := h.2.1
  rw [h.length_bytes]
  omega

theorem LastGroup.length_le (h : LastGroup text bytes) :
    2 * text.length + 2 ≤ 5 * bytes.length + 12 := by
  rcases h with h | h
  · have hgroup := h.length_le
    omega
  · have hquad := h.quad.chars.2.1
    rw [h.length_bytes]
    omega

theorem OptGroups.undoubled (h : OptGroups Last text bytes)
    (hlast : ∀ t b, Last t b → Piece t) : Undoubled text := by
  rcases h with ⟨rfl, -⟩ | h
  · intro xs ys h
    simp at h
  · exact h.undoubled hlast

theorem OptGroups.getLast (h : OptGroups Last text bytes) (hlast : ∀ t b, Last t b → Piece t)
    (front : Bytes) : text ≠ front ++ [colon] := by
  rcases h with ⟨rfl, -⟩ | h
  · simp
  · exact h.getLast hlast front

theorem OptGroups.unique (h : OptGroups Last text bytes) (h' : OptGroups Last text bytes')
    (hlast : ∀ t b, Last t b → Piece t)
    (hunique : ∀ t b b', Last t b → Last t b' → b = b') : bytes = bytes' := by
  rcases h with ⟨rfl, rfl⟩ | h <;> rcases h' with ⟨htext, rfl⟩ | h'
  · rfl
  · exact absurd rfl (h'.ne_nil hlast)
  · exact absurd htext (h.ne_nil hlast)
  · exact h.unique h' hlast hunique

theorem OptGroups.chars (h : OptGroups Last text bytes) (hlast : ∀ t b, Last t b → Piece t) :
    ∀ c ∈ text, IsV6Char c := by
  rcases h with ⟨rfl, -⟩ | h
  · simp
  · exact h.chars hlast

/-- What is in front of one `::` is a part of what is in front of another, so the two are
one, or overlap, or the text in front of the second contains the first. -/
theorem doubled_unique (h : left ++ colon :: colon :: right = left' ++ colon :: colon :: right')
    (hu' : Undoubled left') (hlast' : ∀ xs, left' ≠ xs ++ [colon]) :
    left'.length ≤ left.length := by
  by_contra hlt
  obtain ⟨zs, rfl⟩ : ∃ zs, left' = left ++ zs :=
    (List.append_eq_append_iff.mp h).elim (fun ⟨zs, hzs, _⟩ => ⟨zs, hzs⟩) fun ⟨zs, hzs, _⟩ => by
      rw [hzs, List.length_append] at hlt
      omega
  rw [List.append_assoc, List.append_cancel_left_eq] at h
  match zs, h with
  | [], _ => simp at hlt
  | [c], h =>
      obtain rfl : colon = c := (List.cons.inj h).1
      exact hlast' left rfl
  | c :: d :: zs, h =>
      obtain ⟨rfl, hd⟩ := List.cons.inj h
      obtain ⟨rfl, -⟩ := List.cons.inj hd
      exact hu' left zs rfl

/-- **A text has one reading** as an IPv6 address. -/
theorem IPv6Text.unique (h : IPv6Text text bytes) (h' : IPv6Text text bytes') :
    bytes = bytes' := by
  have hgroup : ∀ t b, Group t b → Piece t := fun _ _ h => h.piece
  have hlast : ∀ t b, LastGroup t b → Piece t := fun _ _ h => h.piece
  have hgroupU : ∀ t b b', Group t b → Group t b' → b = b' := fun _ _ _ h h' => h.unique h'
  have hlastU : ∀ t b b', LastGroup t b → LastGroup t b' → b = b' := fun _ _ _ h h' => h.unique h'
  rcases h with ⟨h, -⟩ | ⟨l, r, f, k, hl, hr, -, rfl, rfl⟩ <;>
    rcases h' with ⟨h', -⟩ | ⟨l', r', f', k', hl', hr', -, htext, rfl⟩
  · exact h.unique h' hlast hlastU
  · exact absurd htext (h.undoubled hlast l' r')
  · exact absurd rfl (h'.undoubled hlast l r)
  · -- both have the `::` at the same place
    have hlen : l.length = l'.length := le_antisymm
      (doubled_unique htext.symm (hl.undoubled hgroup) (hl.getLast hgroup))
      (doubled_unique htext (hl'.undoubled hgroup) (hl'.getLast hgroup))
    obtain ⟨rfl, hcons⟩ := List.append_inj htext hlen
    obtain rfl : r = r' := (List.cons.inj (List.cons.inj hcons).2).2
    rw [hl.unique hl' hgroup hgroupU, hr.unique hr' hlast hlastU]

theorem IPv6Text.length_bytes (h : IPv6Text text bytes) : bytes.length = 16 := by
  rcases h with ⟨-, h⟩ | ⟨l, r, f, k, -, -, hfew, -, rfl⟩
  · exact h
  · simp only [List.length_append, List.length_replicate]
    omega

/-- A text is no longer than six full groups and a full dotted quad. -/
theorem IPv6Text.length_le (h : IPv6Text text bytes) : text.length ≤ 45 := by
  have hend : ∀ t b, LastGroup t b → 2 * t.length + 2 ≤ 5 * b.length + 12 :=
    fun _ _ h => h.length_le
  rcases h with ⟨h, h16⟩ | ⟨l, r, f, k, hl, hr, hfew, rfl, -⟩
  · have hlen := h.length_le hend
    omega
  · have hleft : 2 * l.length ≤ 5 * f.length := by
      rcases hl with ⟨rfl, rfl⟩ | hl
      · simp
      · have hlen := hl.length_le fun _ _ h => h.length_le
        omega
    have hright : 2 * r.length ≤ 5 * k.length + 10 := by
      rcases hr with ⟨rfl, rfl⟩ | hr
      · simp
      · have hlen := hr.length_le hend
        omega
    simp only [List.length_append, List.length_cons]
    omega

theorem IPv6Text.chars (h : IPv6Text text bytes) : ∀ c ∈ text, IsV6Char c := by
  rcases h with ⟨h, -⟩ | ⟨l, r, f, k, hl, hr, -, rfl, -⟩
  · exact h.chars fun _ _ h => h.piece
  · have hcolon : IsV6Char colon := .inr (.inr (.inr (.inl rfl)))
    intro c hc
    simp only [List.mem_append, List.mem_cons] at hc
    rcases hc with hc | rfl | rfl | hc
    · exact hl.chars (fun _ _ h => h.piece) c hc
    · exact hcolon
    · exact hcolon
    · exact hr.chars (fun _ _ h => h.piece) c hc

/-- One group or one dotted quad is not enough for sixteen bytes. -/
theorem IPv6Text.colon_mem (h : IPv6Text text bytes) : colon ∈ text := by
  rcases h with ⟨h, h16⟩ | ⟨l, r, f, k, -, -, -, rfl, -⟩
  · cases h with
    | cons _ _ => simp
    | last h =>
        rcases h with h | h
        · rw [h.length_bytes] at h16
          cases h16
        · rw [h.length_bytes] at h16
          cases h16
  · simp

end Whole

/-! ### Parsing

The grammar meets the code here. -/

section Parsing

variable {inet : Inet} {text : Bytes} {a : IPAddress}

/-- A text of either form passes the guards of `Parse`. -/
theorem passes_guards {bytes : Bytes} (hlen : inet.addrStrLen = 46)
    (h : IPv4Text text bytes ∨ IPv6Text text bytes) :
    ¬ (text = [] ∨ inet.addrStrLen ≤ text.length ∨ (0 : UInt8) ∈ text) := by
  rw [hlen]
  rcases h with h | h
  · obtain ⟨hne, hshort, hchars⟩ := h.quad.chars
    rintro (rfl | hlong | hzero)
    · exact hne rfl
    · omega
    · rcases hchars 0 hzero with h0 | h0 <;> cases h0
  · have hshort := h.length_le
    rintro (rfl | hlong | hzero)
    · exact absurd h.colon_mem List.not_mem_nil
    · omega
    · exact absurd (h.chars 0 hzero) (by decide)

/-- A parsed address is read off the text. -/
theorem IPAddress.parse_sound (h : inet.Standard) (hp : parse inet text = .ok (some a)) :
    (a.version = .IPv4 ∧ IPv4Text text a.spanBytes) ∨
      (a.version = .IPv6 ∧ IPv6Text text a.spanBytes) := by
  rw [parse_eq] at hp
  split at hp
  · cases hp
  · cases h4 : inet.pton4 text with
    | some ip =>
        rw [h4] at hp
        obtain rfl : ofBytes4 ip.toList ip.length_toList = a := by simpa using hp
        rw [spanBytes_ofBytes4]
        exact .inl ⟨rfl, (h.v4 text ip).mp h4⟩
    | none =>
        rw [h4] at hp
        obtain ⟨ip, h6, rfl⟩ : ∃ ip, inet.pton6 text = some ip ∧
            ofBytes6 ip.toList ip.length_toList = a := by simpa using hp
        rw [spanBytes_ofBytes6]
        exact .inr ⟨rfl, (h.v6 text ip).mp h6⟩

/-- The bytes of a reading, as `inet_pton` stores them. -/
theorem exists_vector {n : Nat} {bytes : Bytes} (h : bytes.length = n) :
    ∃ ip : Vector UInt8 n, ip.toList = bytes :=
  ⟨⟨⟨bytes⟩, h⟩, rfl⟩

/-- An address is parsed from its text. -/
theorem IPAddress.parse_complete (h : inet.Standard)
    (ht : (a.version = .IPv4 ∧ IPv4Text text a.spanBytes) ∨
      (a.version = .IPv6 ∧ IPv6Text text a.spanBytes)) : parse inet text = .ok (some a) := by
  have hguards := passes_guards h.addrStrLen (ht.imp And.right And.right)
  rw [parse_eq, if_neg hguards]
  rcases ht with ⟨hv, htext⟩ | ⟨hv, htext⟩
  · obtain ⟨ip, hip⟩ := exists_vector htext.length_bytes
    rw [(h.v4 text ip).mpr (hip ▸ htext)]
    have haddress : ofBytes4 ip.toList ip.length_toList = a :=
      eq_iff.mpr ⟨hv.symm, (spanBytes_ofBytes4 ip).trans hip⟩
    simp only [haddress]
  · -- a text with a colon is no dotted quad
    have h4 : inet.pton4 text = none := by
      cases h4 : inet.pton4 text with
      | none => rfl
      | some ip => exact absurd htext.colon_mem ((h.v4 text ip).mp h4).colon_notMem
    obtain ⟨ip, hip⟩ := exists_vector htext.length_bytes
    have haddress : ofBytes6 ip.toList ip.length_toList = a :=
      eq_iff.mpr ⟨hv.symm, (spanBytes_ofBytes6 ip).trans hip⟩
    simp only [h4, (h.v6 text ip).mpr (hip ▸ htext), Option.map_some, haddress]

/-- Every reading belongs to an address. -/
theorem exists_address {bytes : Bytes} (h : IPv4Text text bytes ∨ IPv6Text text bytes) :
    ∃ a : IPAddress, (a.version = .IPv4 ∧ IPv4Text text a.spanBytes) ∨
      (a.version = .IPv6 ∧ IPv6Text text a.spanBytes) := by
  rcases h with h | h
  · obtain ⟨ip, rfl⟩ := exists_vector h.length_bytes
    refine ⟨.ofBytes4 ip.toList ip.length_toList, .inl ⟨rfl, ?_⟩⟩
    rwa [IPAddress.spanBytes_ofBytes4]
  · obtain ⟨ip, rfl⟩ := exists_vector h.length_bytes
    refine ⟨.ofBytes6 ip.toList ip.length_toList, .inr ⟨rfl, ?_⟩⟩
    rwa [IPAddress.spanBytes_ofBytes6]

/-- **`Parse` accepts exactly the textual addresses**, whatever the bytes of the text and
however many they are: it never writes outside its buffer, it returns the address a text
stands for, it returns one whenever there is one, and no text stands for addresses of both
versions. -/
theorem IPAddress.parse_iff (inet : Inet) (h : inet.Standard) (text : Bytes) :
    (∃ r, parse inet text = .ok r) ∧
    (∀ a, parse inet text = .ok (some a) ↔
      (a.version = .IPv4 ∧ IPv4Text text a.spanBytes) ∨
        (a.version = .IPv6 ∧ IPv6Text text a.spanBytes)) ∧
    ((∃ a, parse inet text = .ok (some a)) ↔ ∃ bytes, IPv4Text text bytes ∨ IPv6Text text bytes) ∧
    ¬ ∃ bytes bytes', IPv4Text text bytes ∧ IPv6Text text bytes' := by
  refine ⟨⟨_, parse_eq inet text⟩, fun a => ⟨parse_sound h, parse_complete h⟩, ⟨?_, ?_⟩, ?_⟩
  · intro ⟨a, ha⟩
    exact ⟨a.spanBytes, (parse_sound h ha).imp And.right And.right⟩
  · intro ⟨bytes, hbytes⟩
    obtain ⟨a, ha⟩ := exists_address hbytes
    exact ⟨a, parse_complete h ha⟩
  · intro ⟨bytes, bytes', h4, h6⟩
    exact h4.colon_notMem h6.colon_mem

end Parsing

/-! ### A library that reads the grammar

`inet_pton` is chosen by the grammar, so this library is not computed; it exists because a
text has at most one reading. -/

/-- The address that satisfies `P`, if there is one. -/
noncomputable def chosen {n : Nat} (P : Vector UInt8 n → Prop) : Option (Vector UInt8 n) :=
  @dite _ (∃ ip, P ip) (Classical.dec _) (fun h => some h.choose) fun _ => none

theorem chosen_eq_some {n : Nat} {P : Vector UInt8 n → Prop} {ip : Vector UInt8 n}
    (hunique : ∀ ip ip', P ip → P ip' → ip = ip') : chosen P = some ip ↔ P ip := by
  rw [chosen, Option.dite_none_right_eq_some]
  constructor
  · intro hchosen
    obtain ⟨hex, heq⟩ := hchosen
    exact Option.some.inj heq ▸ hex.choose_spec
  · intro hip
    have hex : ∃ ip, P ip := ⟨ip, hip⟩
    exact ⟨hex, congrArg some (hunique _ _ hex.choose_spec hip)⟩

/-- `inet_pton` as the grammar has it; `inet_ntop` writes every group in full. -/
noncomputable def standardInet : Inet where
  addrStrLen := 46
  pton4 text := chosen fun ip : Vector UInt8 4 => IPv4Text text ip.toList
  pton6 text := chosen fun ip : Vector UInt8 16 => IPv6Text text ip.toList
  ntop4 := fullInet.ntop4
  ntop6 := fullInet.ntop6

theorem standardInet_standard : standardInet.Standard where
  addrStrLen := rfl
  v4 _ _ := chosen_eq_some fun _ _ h h' => Vector.toList_inj.mp (h.unique h')
  v6 _ _ := chosen_eq_some fun _ _ h h' => Vector.toList_inj.mp (h.unique h')

/-- The text `::1` is the loopback address. -/
theorem IPAddress.parse_iff_loopback :
    parse standardInet [58, 58, 49] = .ok (some (loopback .IPv6)) := by
  have hparse := (parse_iff standardInet standardInet_standard [58, 58, 49]).2.1
  refine (hparse _).mpr (.inr ⟨rfl, .inr ?_⟩)
  refine ⟨[], [49], [], [0, 1], .inl ⟨rfl, rfl⟩, .inr (.last (.inl ?_)), by decide, rfl, by decide⟩
  refine ⟨by simp, by decide, ?_, by decide⟩
  intro c hc
  obtain rfl := List.mem_singleton.mp hc
  decide

end Net

end CoreSystems
