import CoreSystems.Net.SocketEndpoint

/-!
# CoreSystems.Net.EndpointText

The text format of `SocketEndpoint`.

`Grammar` is the format as a relation between texts and endpoints: what may be written,
and what it means. `parse_accepts_iff` shows that `Parse` accepts exactly the grammar and
never cuts a text past its end; `parse_toString` that what `ToString` writes is read back.

What is used of `inet_pton` and `inet_ntop` is `Inet.RejectsDelimiters` for the one and
`Inet.Faithful` for the other.

The proof of `parse_accepts_iff` goes along the code. Each function of the parser has one
equation that says what it returns for which texts, in terms of how the text is cut; the
grammar is then compared with these equations, and that is where the delimiters matter: a
colon or a bracket in an address would let a text be cut in two ways.
-/

namespace CoreSystems

open Buffer (Bytes Trap)
open StringView

namespace Net

namespace SocketEndpoint

variable {inet : Inet} {e : SocketEndpoint}

/-- The texts of an endpoint: `A:P`, `[A]:P` and `[A%S]:P`. What an address is,
`IPAddress::Parse` decides; ports and scopes are decimal numbers within their types, leading
zeros allowed. -/
inductive Grammar (inet : Inet) : Bytes → SocketEndpoint → Prop
  | v4 {a p : Bytes} {e : SocketEndpoint} : IPAddress.parse inet a = .ok (some e.address) →
      e.address.version = .IPv4 → Decimal 65535 p → e.port.toNat = value p → e.scopeId = 0 →
      Grammar inet (a ++ colon :: p) e
  | v6 {a p : Bytes} {e : SocketEndpoint} : IPAddress.parse inet a = .ok (some e.address) →
      e.address.version = .IPv6 → Decimal 65535 p → e.port.toNat = value p → e.scopeId = 0 →
      Grammar inet (openBracket :: (a ++ closeBracket :: colon :: p)) e
  | v6Scoped {a s p : Bytes} {e : SocketEndpoint} : IPAddress.parse inet a = .ok (some e.address) →
      e.address.version = .IPv6 → Decimal 4294967295 s → e.scopeId.toNat = value s →
      Decimal 65535 p → e.port.toNat = value p →
      Grammar inet (openBracket :: ((a ++ percent :: s) ++ closeBracket :: colon :: p)) e

/-! ### The parts of a text

A number is accepted when nothing is left over and it fits into its type. -/

/-- A part is read as a number exactly when it is decimal. -/
theorem rejects_fromChars {max : Nat} {part : Bytes} :
    ¬ rejects (fromChars max part) part ↔ Decimal max part := by
  rw [← fromChars_all, rejects]
  tauto

theorem parsePort_eq_some {p : Bytes} {port : UInt16} :
    parsePort p = some port ↔ Decimal 65535 p ∧ port.toNat = value p := by
  unfold parsePort
  by_cases hp : Decimal 65535 p
  · have hlt : value p < UInt16.size := Nat.lt_succ_of_le hp.le
    simp only [rejects_fromChars.mpr hp, ↓reduceIte, Option.some.injEq, hp, true_and,
      fromChars_value hp]
    constructor
    · rintro rfl
      exact UInt16.toNat_ofNat_of_lt' hlt
    · intro h
      rw [← h, UInt16.ofNat_toNat]
  · have hrej : rejects (fromChars 65535 p) p := not_not.mp (mt rejects_fromChars.mp hp)
    simp [hrej, hp]

/-- Inside the brackets, the scope follows the first percent sign. -/
theorem parseScope_eq (ipPart : Bytes) : ∃ r, parseScope ipPart = .ok r ∧ ∀ a scope,
    r = some (a, scope) ↔ (percent ∉ ipPart ∧ a = ipPart ∧ scope = 0) ∨
      ∃ s, ipPart = a ++ percent :: s ∧ percent ∉ a ∧ Decimal 4294967295 s ∧
        scope.toNat = value s := by
  unfold parseScope
  cases hfind : find percent ipPart with
  | none =>
      -- no percent sign: all of the part is the address, and the scope id is 0
      have hnone := find_eq_none.mp hfind
      refine ⟨_, rfl, fun a scope => ?_⟩
      constructor
      · intro h
        obtain ⟨rfl, rfl⟩ : ipPart = a ∧ 0 = scope := by simpa using h
        exact .inl ⟨hnone, rfl, rfl⟩
      · intro hspec
        rcases hspec with ⟨-, rfl, rfl⟩ | ⟨s, rfl, -⟩
        · rfl
        · exact absurd (by simp) hnone
  | some pos =>
      obtain ⟨xs, ys, rfl, hxs, rfl⟩ := find_eq_some.mp hfind
      have hrest : substrFrom (xs ++ percent :: ys) (xs.length + 1) = .ok ys := by
        have hcut := substrFrom_append (xs ++ [percent]) ys rfl
        simpa using hcut
      have hfront : substr (xs ++ percent :: ys) 0 xs.length = .ok xs :=
        substr_append [] xs (percent :: ys) rfl rfl
      simp only [hrest, hfront, bind, Except.bind]
      by_cases hs : Decimal 4294967295 ys
      · have hlt : value ys < UInt32.size := Nat.lt_succ_of_le hs.le
        rw [if_neg (rejects_fromChars.mpr hs), fromChars_value hs]
        refine ⟨_, rfl, fun a scope => ?_⟩
        constructor
        · intro h
          obtain ⟨rfl, rfl⟩ : xs = a ∧ UInt32.ofNat (value ys) = scope := by simpa using h
          exact .inr ⟨ys, rfl, hxs, hs, UInt32.toNat_ofNat_of_lt' hlt⟩
        · intro hspec
          rcases hspec with ⟨hnone, -⟩ | ⟨s, heq, ha, -, hval⟩
          · exact absurd (by simp) hnone
          · obtain ⟨rfl, rfl⟩ := cut_unique heq hxs ha
            rw [← hval, UInt32.ofNat_toNat]
      · -- a bad scope id is an error; no other percent sign is tried
        rw [if_pos (not_not.mp (mt rejects_fromChars.mp hs))]
        refine ⟨_, rfl, fun a scope => ⟨nofun, ?_⟩⟩
        intro hspec
        rcases hspec with ⟨hnone, -⟩ | ⟨s, heq, ha, hdec, -⟩
        · exact absurd (by simp) hnone
        · obtain ⟨rfl, rfl⟩ := cut_unique heq hxs ha
          exact absurd hdec hs

theorem parseParts_eq (inet : Inet) (version : IPVersion) (a p : Bytes) (scope : UInt32) :
    ∃ r, parseParts inet version a p scope = .ok r ∧ ∀ e, r = some e ↔
      IPAddress.parse inet a = .ok (some e.address) ∧ e.address.version = version ∧
        Decimal 65535 p ∧ e.port.toNat = value p ∧
        e.scopeId = if version = .IPv6 then scope else 0 := by
  unfold parseParts
  obtain ⟨ip, hip⟩ : ∃ r, IPAddress.parse inet a = .ok r := ⟨_, IPAddress.parse_eq inet a⟩
  simp only [hip, bind, Except.bind, Except.ok.injEq]
  cases ip with
  | none => exact ⟨none, rfl, fun e => by simp⟩
  | some ip =>
      dsimp only
      -- the family of the address decides before the port is looked at
      by_cases hv : ip.version = version
      · rw [if_neg (not_not.mpr hv)]
        cases hport : parsePort p with
        | none =>
            refine ⟨none, rfl, fun e => ⟨nofun, ?_⟩⟩
            intro hspec
            obtain ⟨-, -, hdec, hval, -⟩ := hspec
            rw [parsePort_eq_some.mpr ⟨hdec, hval⟩] at hport
            cases hport
        | some port =>
            obtain ⟨hdec, hval⟩ := parsePort_eq_some.mp hport
            refine ⟨_, rfl, fun e => ?_⟩
            constructor
            · intro h
              obtain rfl := Option.some.inj h
              exact ⟨rfl, hv, hdec, hval, by rw [← hv]; rfl⟩
            · intro hspec
              obtain ⟨haddr, -, -, hval', hscope⟩ := hspec
              obtain rfl := Option.some.inj haddr
              obtain rfl : e.port = port := UInt16.toNat_inj.mp (hval'.trans hval.symm)
              refine congrArg some (SocketEndpoint.ext rfl rfl ?_)
              rw [hscope, ← hv]
              rfl
      · rw [if_pos hv]
        refine ⟨none, rfl, fun e => ⟨nofun, ?_⟩⟩
        intro hspec
        obtain ⟨haddr, hv', -⟩ := hspec
        obtain rfl := Option.some.inj haddr
        exact absurd hv' hv

/-! ### Parsing

Each form has its delimiter: the closing bracket for the one, the last colon for the other. -/

/-- A text in brackets is cut at its delimiters. -/
theorem parseBracketed_eq (inet : Inet) (a p : Bytes) (ha : closeBracket ∉ a) :
    ∃ r, parseBracketed inet (openBracket :: (a ++ closeBracket :: colon :: p)) = .ok r ∧
      ∀ e, r = some e ↔ ∃ ip scope, ((percent ∉ a ∧ ip = a ∧ scope = 0) ∨
          ∃ s, a = ip ++ percent :: s ∧ percent ∉ ip ∧ Decimal 4294967295 s ∧
            scope.toNat = value s) ∧
        IPAddress.parse inet ip = .ok (some e.address) ∧ e.address.version = .IPv6 ∧
        Decimal 65535 p ∧ e.port.toNat = value p ∧ e.scopeId = scope := by
  have hfind : find closeBracket (openBracket :: (a ++ closeBracket :: colon :: p)) =
      some (a.length + 1) := by
    have hopen : closeBracket ∉ openBracket :: a := by
      simpa [openBracket, closeBracket] using ha
    simpa using find_append (colon :: p) hopen
  have hip : substr (openBracket :: (a ++ closeBracket :: colon :: p)) 1 a.length = .ok a :=
    substr_append [openBracket] a (closeBracket :: colon :: p) rfl rfl
  have hport : substrFrom (openBracket :: (a ++ closeBracket :: colon :: p)) (a.length + 1 + 2) =
      .ok p := by
    have hcut := substrFrom_append (openBracket :: a ++ [closeBracket, colon]) p rfl
    simpa using hcut
  -- the three `substr` calls stay inside the text, so none of them throws
  obtain ⟨zone, hzone, hsplit⟩ := parseScope_eq a
  unfold parseBracketed
  rw [hfind]
  dsimp only
  rw [if_neg (by simp), Nat.add_sub_cancel]
  simp only [hip, hport, hzone, bind, Except.bind]
  cases zone with
  | none =>
      refine ⟨none, rfl, fun e => ⟨nofun, ?_⟩⟩
      intro hspec
      obtain ⟨ip, scope, hcut, -⟩ := hspec
      cases (hsplit ip scope).mpr hcut
  | some zone =>
      obtain ⟨ip, scope⟩ := zone
      obtain ⟨r, hr, hparts⟩ := parseParts_eq inet .IPv6 ip p scope
      refine ⟨r, hr, fun e => ?_⟩
      rw [hparts e]
      constructor
      · intro h
        exact ⟨ip, scope, (hsplit ip scope).mp rfl, h⟩
      · intro hspec
        obtain ⟨ip', scope', hcut, h⟩ := hspec
        obtain ⟨rfl, rfl⟩ : ip = ip' ∧ scope = scope' := by
          simpa using (hsplit ip' scope').mpr hcut
        exact h

/-- Nothing else in brackets is accepted. -/
theorem parseBracketed_none {str : Bytes} (hstr : str.head? = some openBracket)
    (hform : ∀ a p, closeBracket ∉ a → str ≠ openBracket :: (a ++ closeBracket :: colon :: p)) :
    parseBracketed inet str = .ok none := by
  unfold parseBracketed
  cases hfind : find closeBracket str with
  | none => rfl
  | some pos =>
      obtain ⟨xs, ys, rfl, hxs, rfl⟩ := find_eq_some.mp hfind
      cases xs with
      | nil => simp [openBracket, closeBracket] at hstr
      | cons x a =>
          obtain rfl : x = openBracket := by simpa using hstr
          dsimp only
          rw [if_pos]
          · rfl
          · -- had the guard passed, a colon would follow the bracket
            by_contra hguard
            push Not at hguard
            cases ys with
            | nil => simp at hguard
            | cons y p =>
                obtain rfl : y = colon := by simpa using hguard.2
                exact hform a p (fun h => hxs (List.mem_cons_of_mem _ h)) rfl

/-- A text without brackets is cut at its last colon. -/
theorem parseUnbracketed_eq (inet : Inet) (str : Bytes) : ∃ r, parseUnbracketed inet str = .ok r ∧
    ∀ e, r = some e ↔ ∃ a p, str = a ++ colon :: p ∧ colon ∉ p ∧ a ≠ [] ∧
      IPAddress.parse inet a = .ok (some e.address) ∧ e.address.version = .IPv4 ∧
      Decimal 65535 p ∧ e.port.toNat = value p ∧ e.scopeId = 0 := by
  unfold parseUnbracketed
  cases hfind : rfind colon str with
  | none =>
      refine ⟨none, rfl, fun e => ⟨nofun, ?_⟩⟩
      intro hspec
      obtain ⟨a, p, rfl, -⟩ := hspec
      exact absurd (by simp) (rfind_eq_none.mp hfind)
  | some pos =>
      obtain ⟨xs, ys, rfl, hys, rfl⟩ := rfind_eq_some.mp hfind
      dsimp only
      by_cases hguard : xs.length = 0 ∨ (xs ++ colon :: ys).length ≤ xs.length + 1
      · -- the last colon is the first or the last character: one of the parts is empty
        rw [if_pos hguard]
        refine ⟨none, rfl, fun e => ⟨nofun, ?_⟩⟩
        intro hspec
        obtain ⟨a, p, heq, hp, ha, -, -, hdec, -⟩ := hspec
        obtain ⟨rfl, rfl⟩ := rcut_unique heq hys hp
        have hp' := List.length_pos_of_ne_nil hdec.ne_nil
        have ha' := List.length_pos_of_ne_nil ha
        simp only [List.length_append, List.length_cons] at hguard
        omega
      · rw [if_neg hguard]
        -- both cuts are inside the text, so `substr` does not throw
        have hip : substr (xs ++ colon :: ys) 0 xs.length = .ok xs :=
          substr_append [] xs (colon :: ys) rfl rfl
        have hport : substrFrom (xs ++ colon :: ys) (xs.length + 1) = .ok ys := by
          have hcut := substrFrom_append (xs ++ [colon]) ys rfl
          simpa using hcut
        obtain ⟨r, hr, hparts⟩ := parseParts_eq inet .IPv4 xs ys 0
        simp only [hip, hport, bind, Except.bind]
        refine ⟨r, hr, fun e => ?_⟩
        rw [hparts e]
        constructor
        · intro h
          exact ⟨xs, ys, rfl, hys, fun hnil => hguard (.inl (by rw [hnil]; rfl)), h⟩
        · intro hspec
          obtain ⟨a, p, heq, hp, -, h⟩ := hspec
          obtain ⟨rfl, rfl⟩ := rcut_unique heq hys hp
          exact h

/-- What the delimiters' absence from address texts means for an accepted address. -/
theorem notMem_of_parse (h : inet.RejectsDelimiters) {a : Bytes} {ip : IPAddress}
    (hip : IPAddress.parse inet a = .ok (some ip)) :
    a ≠ [] ∧ openBracket ∉ a ∧ closeBracket ∉ a ∧ percent ∉ a := by
  refine ⟨?_, ?_⟩
  · rintro rfl
    rw [IPAddress.parse_nil] at hip
    cases hip
  · rcases ip.known with hv | hv
    · obtain ⟨ipv4, hpton⟩ := IPAddress.parse_v4 hip hv
      exact ⟨(h.v4 a ipv4 hpton).1, (h.v4 a ipv4 hpton).2.1, (h.v4 a ipv4 hpton).2.2.1⟩
    · obtain ⟨ipv6, hpton⟩ := IPAddress.parse_v6 hip hv
      exact h.v6 a ipv6 hpton

/-- What stands between the brackets contains no closing bracket. -/
theorem closeBracket_notMem {a s : Bytes} {max : Nat} (ha : closeBracket ∉ a)
    (hs : Decimal max s) : closeBracket ∉ a ++ percent :: s := by
  have hscope : closeBracket ∉ s := hs.notMem rfl
  rw [List.mem_append, List.mem_cons]
  intro hspec
  rcases hspec with hmem | heq | hmem
  · exact ha hmem
  · cases heq
  · exact hscope hmem

/-- A text of the grammar with brackets. -/
theorem Grammar.bracketed (h : inet.RejectsDelimiters) {str : Bytes} (hg : Grammar inet str e)
    (hstr : str.head? = some openBracket) :
    ∃ a p, closeBracket ∉ a ∧ str = openBracket :: (a ++ closeBracket :: colon :: p) := by
  cases hg with
  | @v4 a p _ hip =>
      obtain ⟨hne, hopen, -⟩ := notMem_of_parse h hip
      obtain ⟨c, a, rfl⟩ := List.exists_cons_of_ne_nil hne
      obtain rfl : c = openBracket := by simpa using hstr
      exact absurd List.mem_cons_self hopen
  | @v6 a p _ hip => exact ⟨a, p, (notMem_of_parse h hip).2.2.1, rfl⟩
  | @v6Scoped a s p _ hip _ hs =>
      exact ⟨a ++ percent :: s, p, closeBracket_notMem (notMem_of_parse h hip).2.2.1 hs, rfl⟩

theorem grammar_bracketed_iff (h : inet.RejectsDelimiters) {a p : Bytes} (ha : closeBracket ∉ a) :
    Grammar inet (openBracket :: (a ++ closeBracket :: colon :: p)) e ↔
      ∃ ip scope, ((percent ∉ a ∧ ip = a ∧ scope = 0) ∨
          ∃ s, a = ip ++ percent :: s ∧ percent ∉ ip ∧ Decimal 4294967295 s ∧
            scope.toNat = value s) ∧
        IPAddress.parse inet ip = .ok (some e.address) ∧ e.address.version = .IPv6 ∧
        Decimal 65535 p ∧ e.port.toNat = value p ∧ e.scopeId = scope := by
  constructor
  · intro hg
    generalize hstr : openBracket :: (a ++ closeBracket :: colon :: p) = str at hg
    cases hg with
    | @v4 a' p' _ hip =>
        -- an IPv4 text would begin with the bracket
        obtain ⟨hne, hopen, -⟩ := notMem_of_parse h hip
        obtain ⟨c, a', rfl⟩ := List.exists_cons_of_ne_nil hne
        rw [List.cons_append, List.cons.injEq] at hstr
        exact absurd (hstr.1 ▸ List.mem_cons_self) hopen
    | @v6 a' p' _ hip hv hp hport hscope =>
        obtain ⟨-, -, hclose, hpercent⟩ := notMem_of_parse h hip
        obtain ⟨rfl, hrest⟩ := cut_unique (List.cons.inj hstr).2 ha hclose
        obtain rfl := (List.cons.inj hrest).2
        exact ⟨a, 0, .inl ⟨hpercent, rfl, rfl⟩, hip, hv, hp, hport, hscope⟩
    | @v6Scoped a' s p' _ hip hv hs hscope hp hport =>
        obtain ⟨-, -, hclose, hpercent⟩ := notMem_of_parse h hip
        obtain ⟨rfl, hrest⟩ := cut_unique (List.cons.inj hstr).2 ha (closeBracket_notMem hclose hs)
        obtain rfl := (List.cons.inj hrest).2
        exact ⟨a', e.scopeId, .inr ⟨s, rfl, hpercent, hs, hscope⟩, hip, hv, hp, hport, rfl⟩
  · intro hspec
    obtain ⟨ip, scope, ⟨-, rfl, rfl⟩ | ⟨s, rfl, -, hs, hval⟩, hip, hv, hp, hport, hscope⟩ := hspec
    · exact .v6 hip hv hp hport hscope
    · exact .v6Scoped hip hv hs (by rw [hscope, hval]) hp hport

theorem grammar_unbracketed_iff (h : inet.RejectsDelimiters) {str : Bytes}
    (hstr : str.head? ≠ some openBracket) :
    Grammar inet str e ↔ ∃ a p, str = a ++ colon :: p ∧ colon ∉ p ∧ a ≠ [] ∧
      IPAddress.parse inet a = .ok (some e.address) ∧ e.address.version = .IPv4 ∧
      Decimal 65535 p ∧ e.port.toNat = value p ∧ e.scopeId = 0 := by
  constructor
  · intro hg
    cases hg with
    | @v4 a p _ hip hv hp hport hscope =>
        exact ⟨a, p, rfl, hp.notMem rfl, (notMem_of_parse h hip).1, hip, hv, hp, hport, hscope⟩
    | v6 => exact absurd rfl hstr
    | v6Scoped => exact absurd rfl hstr
  · intro hspec
    obtain ⟨a, p, rfl, -, -, hip, hv, hp, hport, hscope⟩ := hspec
    exact .v4 hip hv hp hport hscope

/-- **`Parse` accepts exactly the grammar**, and on every text it returns. -/
theorem parse_accepts_iff (inet : Inet) (h : inet.RejectsDelimiters) (str : Bytes) :
    ∃ r, parse inet str = .ok r ∧ ∀ e, r = some e ↔ Grammar inet str e := by
  cases str with
  | nil =>
      refine ⟨none, rfl, fun e => ⟨nofun, fun hg => ?_⟩⟩
      obtain ⟨a, p, hnil, -⟩ := (grammar_unbracketed_iff h (by simp)).mp hg
      simp at hnil
  | cons c rest =>
      unfold parse
      dsimp only
      by_cases hc : c = openBracket
      · subst hc
        rw [if_pos rfl]
        by_cases hform : ∃ a p, closeBracket ∉ a ∧
            openBracket :: rest = openBracket :: (a ++ closeBracket :: colon :: p)
        · obtain ⟨a, p, ha, heq⟩ := hform
          rw [heq]
          obtain ⟨r, hr, haccepts⟩ := parseBracketed_eq inet a p ha
          exact ⟨r, hr, fun e => by rw [haccepts e, grammar_bracketed_iff h ha]⟩
        · refine ⟨none, parseBracketed_none rfl fun a p ha heq => hform ⟨a, p, ha, heq⟩, ?_⟩
          exact fun e => ⟨nofun, fun hg => absurd (hg.bracketed h rfl) hform⟩
      · rw [if_neg hc]
        obtain ⟨r, hr, haccepts⟩ := parseUnbracketed_eq inet (c :: rest)
        have hhead : (c :: rest).head? ≠ some openBracket := by simpa using hc
        exact ⟨r, hr, fun e => by rw [haccepts e, grammar_unbracketed_iff h hhead]⟩

/-- A scoped endpoint has a text. -/
theorem parse_accepts_iff_loopback : ∃ r,
    parse fullInet ((openBracket :: writeHex (List.replicate 15 0 ++ [1])) ++
      percent :: 55 :: closeBracket :: colon :: [56, 48]) = .ok r ∧ ∀ e, r = some e ↔
      Grammar fullInet ((openBracket :: writeHex (List.replicate 15 0 ++ [1])) ++
        percent :: 55 :: closeBracket :: colon :: [56, 48]) e :=
  parse_accepts_iff fullInet fullInet_rejectsDelimiters _

/-! ### Printing

A printed text has no delimiter inside its address, so it is cut where it was put together. -/

/-- The text of an IPv4 address is read back, and starts with no bracket. -/
theorem parse_address_v4 (h : inet.Faithful) {ip : IPAddress} (hv : ip.version = .IPv4) :
    IPAddress.parse inet (ip.toString inet) = .ok (some ip) ∧ ip.toString inet ≠ [] ∧
      openBracket ∉ ip.toString inet := by
  obtain ⟨text, hntop, hquad, hpton⟩ := h.v4 ip.vector4 inet.addrStrLen h.addrStrLen
  have htext : ip.toString inet = text := by simp [IPAddress.toString, hv, hntop]
  obtain ⟨hne, hlen, hchars⟩ := hquad.chars
  have hlen' := h.addrStrLen
  rw [htext]
  refine ⟨?_, hne, fun hopen => ?_⟩
  · have hzero : (0 : UInt8) ∉ text := fun hzero => by
      rcases hchars 0 hzero with h0 | h0 <;> cases h0
    rw [IPAddress.parse_eq, if_neg, hpton]
    · refine congrArg (fun a => Except.ok (some a)) (IPAddress.ext hv.symm ?_)
      have hsplit := List.take_append_drop 4 ip.bytes
      rwa [show ip.bytes.drop 4 = _ from ip.unused hv] at hsplit
    · push Not
      exact ⟨hne, by omega, hzero⟩
  · rcases hchars _ hopen with h0 | h0 <;> cases h0

/-- The text of an IPv6 address is read back, and contains no delimiter. -/
theorem parse_address_v6 (h : inet.Faithful) {ip : IPAddress} (hv : ip.version = .IPv6) :
    IPAddress.parse inet (ip.toString inet) = .ok (some ip) ∧
      closeBracket ∉ ip.toString inet ∧ percent ∉ ip.toString inet := by
  obtain ⟨text, hntop, hlen, hchars, hcolon, hpton⟩ := h.v6 ip.vector6 inet.addrStrLen h.addrStrLen
  have htext : ip.toString inet = text := by simp [IPAddress.toString, hv, hntop]
  have hlen' := h.addrStrLen
  have hnot : ∀ c, ¬ IsV6Char c → c ∉ text := fun c hc hmem => hc (hchars c hmem)
  rw [htext]
  refine ⟨?_, hnot _ (by decide), hnot _ (by decide)⟩
  have hne : text ≠ [] := by rintro rfl; cases hcolon
  rw [IPAddress.parse_eq, if_neg, h.colon text hcolon, hpton]
  · exact congrArg (fun a => Except.ok (some a)) (IPAddress.ext hv.symm rfl)
  · push Not
    exact ⟨hne, by omega, hnot _ (by decide)⟩

theorem parse_toString_v4 (h : inet.Faithful) (hv : e.address.version = .IPv4) :
    parse inet (toString inet e) = .ok (some e) := by
  obtain ⟨hip, hne, hopen⟩ := parse_address_v4 h hv
  have hport : Decimal 65535 (toDecimal e.port.toNat) :=
    decimal_toDecimal (Nat.le_of_lt_succ e.port.toNat_lt)
  have htext : toString inet e = e.address.toString inet ++ colon :: toDecimal e.port.toNat := by
    simp [toString, hv]
  obtain ⟨c, rest, hcons⟩ := List.exists_cons_of_ne_nil hne
  have hc : c ≠ openBracket := by
    rintro rfl
    exact hopen (hcons ▸ List.mem_cons_self)
  obtain ⟨r, hr, haccepts⟩ := parseUnbracketed_eq inet (toString inet e)
  have hsome : r = some e := (haccepts e).mpr ⟨_, _, htext, hport.notMem rfl, hne, hip, hv, hport,
    (value_toDecimal _).symm, e.unscoped hv⟩
  rw [hsome] at hr
  rw [← hr]
  unfold parse
  rw [htext, hcons]
  exact if_neg hc

theorem parse_toString_v6 (h : inet.Faithful) (hv : e.address.version = .IPv6) :
    parse inet (toString inet e) = .ok (some e) := by
  obtain ⟨hip, hclose, hpercent⟩ := parse_address_v6 h hv
  have hport : Decimal 65535 (toDecimal e.port.toNat) :=
    decimal_toDecimal (Nat.le_of_lt_succ e.port.toNat_lt)
  by_cases hscope : e.scopeId = 0
  · have htext : toString inet e = openBracket :: (e.address.toString inet ++
        closeBracket :: colon :: toDecimal e.port.toNat) := by
      simp [toString, hv, hscope]
    obtain ⟨r, hr, haccepts⟩ := parseBracketed_eq inet (e.address.toString inet)
      (toDecimal e.port.toNat) hclose
    have hsome : r = some e := (haccepts e).mpr ⟨_, 0, .inl ⟨hpercent, rfl, rfl⟩, hip, hv, hport,
      (value_toDecimal _).symm, hscope⟩
    rw [hsome] at hr
    rw [htext, ← hr]
    unfold parse
    exact if_pos rfl
  · have hzone : Decimal 4294967295 (toDecimal e.scopeId.toNat) :=
      decimal_toDecimal (Nat.le_of_lt_succ e.scopeId.toNat_lt)
    have htext : toString inet e = openBracket :: ((e.address.toString inet ++
        percent :: toDecimal e.scopeId.toNat) ++
        closeBracket :: colon :: toDecimal e.port.toNat) := by
      simp [toString, hv, hscope]
    obtain ⟨r, hr, haccepts⟩ := parseBracketed_eq inet (e.address.toString inet ++
      percent :: toDecimal e.scopeId.toNat) (toDecimal e.port.toNat)
      (closeBracket_notMem hclose hzone)
    have hsome : r = some e := (haccepts e).mpr ⟨_, e.scopeId, .inr ⟨_, rfl, hpercent, hzone,
      (value_toDecimal _).symm⟩, hip, hv, hport, (value_toDecimal _).symm, rfl⟩
    rw [hsome] at hr
    rw [htext, ← hr]
    unfold parse
    exact if_pos rfl

/-- What `ToString` writes, `Parse` reads back. -/
theorem parse_toString_self (h : inet.Faithful) (e : SocketEndpoint) :
    parse inet (toString inet e) = .ok (some e) := by
  rcases e.address.known with hv | hv
  · exact parse_toString_v4 h hv
  · exact parse_toString_v6 h hv

/-- **The text round trip**: `Parse` after `ToString` is the identity, so `ToString` is
injective and a text that was accepted, printed and read again gives the same endpoint. -/
theorem parse_toString (inet : Inet) (h : inet.Faithful) :
    (∀ e, parse inet (toString inet e) = .ok (some e)) ∧
      Function.Injective (toString inet) ∧
      ∀ str e, parse inet str = .ok (some e) → parse inet (toString inet e) = .ok (some e) := by
  refine ⟨parse_toString_self h, fun e e' heq => ?_, fun _ e _ => parse_toString_self h e⟩
  have hparse := parse_toString_self h e
  rw [heq, parse_toString_self h e'] at hparse
  exact (Option.some.inj (Except.ok.inj hparse)).symm

/-- A scoped endpoint is read back. -/
theorem parse_toString_scoped :
    parse fullInet (toString fullInet (construct (.ofBytes6 (List.replicate 16 31) rfl) 80 7)) =
      .ok (some (construct (.ofBytes6 (List.replicate 16 31) rfl) 80 7)) :=
  (parse_toString fullInet fullInet_faithful).1 _

end SocketEndpoint

end Net

end CoreSystems
