import CoreSystems.Net.Phases

/-!
# CoreSystems.Net.PhaseRuns

Every member of the classes keeps descriptors in their phases, and so does every run of a
program.

`Lawful` is the invariant between members: no member is running, every valid object has a
descriptor in the phase its class stands for, and no two objects share one. For each member
there is one lemma, which says that its calls are permitted and that `Lawful` holds
afterwards; the calls are those of the rules of `CoreSystems.Net.TcpOpening`,
`CoreSystems.Net.TcpRules` and `CoreSystems.Net.UdpRules`.

The failures are the hard part. A descriptor whose `connect` or `bind` has failed may only be
closed, so a member that left it to an object would break the invariant; that it is closed
first is in the rules, and is used here for every member that opens one.
-/

namespace CoreSystems

open Buffer (Bytes)
open Calls (Client Env wp)

namespace Net

open SocketHandle

namespace Phases

variable {p : Platform} {kind : Nat → Kind} {s s' : Process} {t t' : Table} {x : HandleId}
variable {h h' : NativeHandle} {n fd : Nat} {d d' : Descriptor}

/-! ### The invariant

What may happen to handles and descriptors without breaking it. The lemmas are used by all
members. -/

namespace Lawful

/-- The descriptors of objects are as they were, though other objects may have them. -/
theorem renamed (hl : Lawful p kind s t) (hidle : s'.Idle) (back : Nat → Nat)
    (hback : ∀ n fd, s'.handles (.user n) = some (some fd) →
      s.handles (.user (back n)) = some (some fd) ∧ kind (back n) = kind n ∧ t' fd = t fd)
    (hinj : ∀ m n fd, s'.handles (.user m) = some (some fd) →
      s'.handles (.user n) = some (some fd) → back m = back n → m = n) :
    Lawful p kind s' t' where
  idle := hidle
  suits n fd hn := by
    obtain ⟨hold, hkind, ht⟩ := hback n fd hn
    rw [ht, ← hkind]
    exact hl.suits _ _ hold
  unique m n fd hm hn :=
    hinj m n fd hm hn (hl.unique _ _ _ (hback m fd hm).1 (hback n fd hn).1)

theorem same (hl : Lawful p kind s t) (hs : s'.handles = s.handles) : Lawful p kind s' t := by
  refine hl.renamed (fun z hz => by rw [hs, hl.idle z hz]) id ?_ fun _ _ _ _ _ h => h
  intro n fd hn
  exact ⟨hs ▸ hn, rfl, rfl⟩

/-- What is not owned may change, and be taken from an object. -/
theorem lose (hl : Lawful p kind s t) {v : Option NativeHandle} (hv : ∀ fd, v ≠ some (some fd))
    (hs : s'.handles = Function.update s.handles (.user n) v)
    (ht : ∀ m fd, m ≠ n → s.handles (.user m) = some (some fd) → t' fd = t fd) :
    Lawful p kind s' t' := by
  refine hl.renamed (hl.idle.update hs) id ?_ fun _ _ _ _ _ h => h
  intro m fd hm
  rw [hs, Function.update_apply] at hm
  split at hm
  case isTrue heq => exact absurd hm (hv fd)
  case isFalse hne => exact ⟨hm, rfl, ht m fd (fun heq => hne (heq ▸ rfl)) hm⟩

/-- The descriptor of an object changes. -/
theorem change (hl : Lawful p kind s t) (hx : s.handles (.user n) = some (some fd))
    (hs : s'.handles = s.handles) (hd : Suits p d (kind n))
    (ht : t' = Function.update t fd (some d)) : Lawful p kind s' t' where
  idle z hz := by rw [hs, hl.idle z hz]
  suits m fd' hm := by
    rw [hs] at hm
    rw [ht]
    by_cases hfd : fd' = fd
    · subst hfd
      obtain rfl := hl.unique m n fd' hm hx
      exact ⟨d, Function.update_self .., hd⟩
    · rw [Function.update_of_ne hfd]
      exact hl.suits m fd' hm
  unique m n' fd' hm hn' := by
    rw [hs] at hm hn'
    exact hl.unique m n' fd' hm hn'

/-- An object gets a new descriptor. -/
theorem gain (hl : Lawful p kind s t) (hfree : t fd = none)
    (hs : s'.handles = Function.update s.handles (.user n) (some (some fd)))
    (hd : Suits p d (kind n)) (ht : t' = Function.update t fd (some d)) :
    Lawful p kind s' t' where
  idle := hl.idle.update hs
  suits m fd' hm := by
    rw [hs, Function.update_apply] at hm
    rw [ht]
    split at hm
    case isTrue heq =>
      cases heq
      cases hm
      exact ⟨d, Function.update_self .., hd⟩
    case isFalse hne =>
      obtain ⟨d', hd', hsuits⟩ := hl.suits m fd' hm
      rw [Function.update_of_ne]
      · exact ⟨d', hd', hsuits⟩
      · intro heq
        subst heq
        rw [hfree] at hd'
        cases hd'
  unique m m' fd' hm hm' := by
    -- a descriptor that was free is held by no object
    have hnot : ∀ m, s.handles (.user m) ≠ some (some fd) := by
      intro m hm
      obtain ⟨d', hd', -⟩ := hl.suits m fd hm
      rw [hfree] at hd'
      cases hd'
    rw [hs, Function.update_apply] at hm hm'
    split at hm
    case isTrue heq =>
      cases heq
      cases hm
      split at hm'
      case isTrue heq' =>
        cases heq'
        rfl
      case isFalse hne' => exact absurd hm' (hnot m')
    case isFalse hne =>
      split at hm'
      case isTrue heq' =>
        cases heq'
        cases hm'
        exact absurd hm (hnot m)
      case isFalse hne' => exact hl.unique m m' fd' hm hm'

end Lawful

/-! ### Calls

What each call of the rules asks of the phase of its descriptor, and where it leads. -/

variable {handles : HandleId → Option NativeHandle}

/-- A call on an open descriptor. -/
theorem Asks.phase {c : Call} {Q : Except Errno c.Value → Table → Prop}
    (htarget : c.target = some (some fd)) (hfd : t fd = some d) (hpermits : Permits p d c)
    (h : ∀ a t', t.Answers p c a t' → Q a t') : Asks (phaseEnv p) handles ⟨x, c⟩ Q t := by
  refine ⟨fun _ _ handle hhandle => ?_, h⟩
  rw [htarget] at hhandle
  cases hhandle
  exact ⟨fd, d, rfl, hfd, hpermits⟩

theorem Closes.phase {Q : Table → Prop} (hfd : t fd = some d) (h : Q (Function.update t fd none)) :
    Closes (phaseEnv p) handles x fd Q t := by
  refine Asks.phase rfl hfd trivial ?_
  intro a t' ha
  obtain rfl : t' = Function.update t fd none := by cases a <;> exact ha
  exact h

/-- What `ConfigureTcpSocket` has done when it succeeds keeps `SIGPIPE` away. -/
theorem Configures.phase {Q : SocketResult Unit → Table → Prop} (hfd : t fd = some d)
    (hphase : d.phase = .stream ∨ d.phase = .connected)
    (hfailure : ∀ error, error.hasError = true → Q (.failure error) t)
    (hsuccess : ∀ d', d'.phase = d.phase → Quiet p d' →
      Q (.success ()) (Function.update t fd (some d'))) :
    Configures (phaseEnv p) p handles x fd Q t := by
  rw [Configures]
  split
  case h_1 hnone =>
    have hsame := hsuccess d rfl fun option hoption => by rw [hnone] at hoption; cases hoption
    rwa [Function.update_eq_self_iff.mpr hfd.symm] at hsame
  case h_2 option hoption =>
    have hdefined : p.SO_NOSIGPIPE = some option := by
      rw [noSigPipe] at hoption
      split at hoption
      case h_1 hoption' _ =>
        cases hoption
        exact hoption'
      case h_2 => cases hoption
    refine Asks.phase rfl hfd hphase ?_
    intro a t' ha
    cases a with
    | error e =>
        obtain rfl : t' = t := ha
        exact hfailure _ (decide_eq_true e.2)
    | ok v =>
        obtain rfl : t' = _ := (show t' = _ from ha).trans (Table.change_some hfd _)
        rw [if_pos ⟨rfl, hdefined⟩]
        exact hsuccess _ rfl fun _ _ => rfl

/-- A new descriptor of a stream, configured or closed again. -/
theorem Prepares.phase {Q : SocketResult Nat → Table → Prop} (hfd : t fd = some d)
    (hphase : d.phase = .stream ∨ d.phase = .connected)
    (hfailure : ∀ error, error.hasError = true →
      Q (.failure error) (Function.update t fd none))
    (hsuccess : ∀ d', d'.phase = d.phase → Quiet p d' →
      Q (.success fd) (Function.update t fd (some d'))) :
    Prepares (phaseEnv p) p handles x Q fd t :=
  Configures.phase hfd hphase
    (fun error herror => Closes.phase hfd (hfailure error herror)) hsuccess

/-- The call that attaches a new descriptor to an address, or else makes it useless. -/
theorem Attaches.phase {attach : Nat → Call} {Q : SocketResult Nat → Table → Prop}
    (htarget : (attach fd).target = some (some fd)) (hfd : t fd = some d)
    (hpermits : Permits p d (attach fd))
    (herror : ∀ e t', t.Answers p (attach fd) (.error e) t' →
      ∃ d', t' = Function.update t fd (some d'))
    (hfailure : ∀ error, error.hasError = true → Q (.failure error) (Function.update t fd none))
    (hok : ∀ v t', t.Answers p (attach fd) (.ok v) t' → Q (.success fd) t') :
    Attaches (phaseEnv p) handles attach Q (.success fd) t := by
  refine Asks.phase htarget hfd hpermits ?_
  intro a t' ha
  cases a with
  | error e =>
      obtain ⟨d', rfl⟩ := herror e t' ha
      refine Closes.phase (Function.update_self ..) ?_
      rw [Function.update_idem]
      exact hfailure _ (decide_eq_true e.2)
  | ok v => exact hok v t' ha

/-- A call that is made until it is not interrupted, and leaves the descriptors alone. -/
theorem Repeats.phase {c : Call} {E : Exit → Table → Prop} {rounds : Nat}
    {Q : SocketResult c.Value → Table → Prop}
    (htarget : c.target = some (some fd)) (hfd : t fd = some d) (hpermits : Permits p d c)
    (hout : E .gaveUp t) (hsame : ∀ a t', t.Answers p c a t' → t' = t) (hQ : ∀ r, Q r t) :
    Repeats (phaseEnv p) p rounds handles ⟨x, c⟩ E Q t := by
  refine Repeats.of_inv (fun t' => t' = t) (fun t' => t' = t) (fun _ h => h) rfl ?_ ?_ ?_
  · intro _ heq
    subst heq
    exact hout
  · intro _ heq
    subst heq
    refine Asks.phase htarget hfd hpermits ?_
    intro a t'' ha
    obtain rfl := hsame a t'' ha
    cases a with
    | ok v => exact hQ _
    | error e => rfl
  · intro error _ _ heq
    subst heq
    exact hQ _

/-! ### New descriptors

A socket is new when it is attached to an address, and suits its class after that or is gone. -/

/-- The handle of an object is as before, or a new descriptor that suits it. -/
def Gains (p : Platform) (k : Kind) (t : Table) (h h' : NativeHandle) (t' : Table) : Prop :=
  h' = h ∧ t' = t ∨ ∃ fd d, h' = some fd ∧ t fd = none ∧ Suits p d k ∧
    t' = Function.update t fd (some d)

theorem Lawful.gains (hl : Lawful p kind s t) (hx : s.handles (.user n) = some h)
    (hs : s'.handles = Function.update s.handles (.user n) (some h'))
    (hg : Gains p (kind n) t h h' t') : Lawful p kind s' t' := by
  rcases hg with ⟨rfl, rfl⟩ | ⟨fd, d, rfl, hfree, hd, ht⟩
  · exact hl.same (hs.trans (Function.update_eq_self_iff.mpr hx.symm))
  · exact hl.gain hfree hs hd ht

/-- A new stream socket that is attached to an address, or closed again. -/
theorem opens_phase {attach : Nat → Call} {k : Kind} (htypes : p.SOCK_STREAM ≠ p.SOCK_DGRAM)
    (htarget : ∀ fd, (attach fd).target = some (some fd))
    (hpermits : ∀ fd d, d.phase = .stream → Permits p d (attach fd))
    (herror : ∀ fd t d e t', t fd = some d → Table.Answers p t (attach fd) (.error e) t' →
      ∃ d', t' = Function.update t fd (some d'))
    (hok : ∀ fd t d v t', t fd = some d → d.phase = .stream → Quiet p d →
      Table.Answers p t (attach fd) (.ok v) t' →
      ∃ d', Suits p d' k ∧ t' = Function.update t fd (some d')) :
    Opens (phaseEnv p) p handles attach (Given fun _ h' t' => Gains p k t none h' t') t := by
  intro family
  refine ⟨fun _ _ handle hhandle => absurd hhandle.symm (Option.some_ne_none _), ?_⟩
  intro a t₁ ha
  cases a with
  | error e =>
      obtain rfl : t₁ = t := ha
      exact .inl ⟨rfl, rfl⟩
  | ok fd =>
      obtain ⟨hfree, rfl⟩ := ha
      have hself : Function.update t fd none = t := Function.update_eq_self_iff.mpr hfree.symm
      have hstream : (⟨if p.SOCK_STREAM = p.SOCK_DGRAM then .datagram else .stream, false⟩ :
          Descriptor).phase = .stream := if_neg htypes
      refine Prepares.phase (Function.update_self ..) (.inl hstream) ?_ ?_
      · intro error _
        rw [Function.update_idem, hself]
        exact .inl ⟨rfl, rfl⟩
      · intro d' hphase hquiet
        rw [Function.update_idem]
        have hd' : Function.update t fd (some d') fd = some d' := Function.update_self ..
        refine Attaches.phase (htarget fd) hd' (hpermits fd d' (hphase.trans hstream)) ?_ ?_ ?_
        · exact fun e t' => herror fd _ d' e t' hd'
        · intro error _
          rw [Function.update_idem, hself]
          exact .inl ⟨rfl, rfl⟩
        · intro v t' ha
          obtain ⟨d'', hsuits, rfl⟩ := hok fd _ d' v t' hd' (hphase.trans hstream) hquiet ha
          exact .inr ⟨fd, d'', rfl, hfree, hsuits, Function.update_idem ..⟩

/-- The only way a member does not return: all the rounds of a retry loop were interrupted. -/
abbrev OutOfRounds (e : Exit) (_ : Process) (_ : Table) : Prop := e = .gaveUp

/-- `Connect`. Only a descriptor that is connected gets to the object, one that is not is
closed. -/
theorem connect_lawful {endpoint : SocketEndpoint} (htypes : p.SOCK_STREAM ≠ p.SOCK_DGRAM)
    (hl : Lawful p kind s t) (hkind : kind n = .tcpSocket) (hx : s.handles (.user n) = some h) :
    wp (phaseEnv p) (TcpSocket.connect p (.user n) endpoint)
      (fun _ s' t' => Lawful p kind s' t') OutOfRounds s t := by
  refine (wp_openWith_asks (Q := fun _ h' t' => Gains p (kind n) t h h' t')
    (SocketError.hasError_ofErrc ..) hl.idle hx (fun _ => .inl ⟨rfl, rfl⟩) ?_).imp
    fun _ s' t' ⟨_, hs', hg⟩ => hl.gains hx hs' hg
  intro heq
  subst heq
  refine opens_phase htypes (fun _ => rfl) (fun _ _ hphase => hphase) ?_ ?_
  · intro fd t d e t' hfd ha
    exact ⟨_, (show t' = _ from ha).trans (Table.enter_some hfd _)⟩
  · intro fd t d v t' hfd _ hquiet ha
    rw [hkind]
    exact ⟨{ d with phase := .connected }, ⟨rfl, hquiet⟩,
      (show t' = _ from ha).trans (Table.enter_some hfd _)⟩

/-- `Bind` of a listener. A valid listener has a descriptor that is bound, and listens later. -/
theorem bindListener_lawful {endpoint : SocketEndpoint} (htypes : p.SOCK_STREAM ≠ p.SOCK_DGRAM)
    (hl : Lawful p kind s t) (hkind : kind n = .tcpListener) (hx : s.handles (.user n) = some h) :
    wp (phaseEnv p) (TcpListener.bind p (.user n) endpoint)
      (fun _ s' t' => Lawful p kind s' t') OutOfRounds s t := by
  refine (wp_openWith_asks (Q := fun _ h' t' => Gains p (kind n) t h h' t')
    (SocketError.hasError_ofErrc ..) hl.idle hx (fun _ => .inl ⟨rfl, rfl⟩) ?_).imp
    fun _ s' t' ⟨_, hs', hg⟩ => hl.gains hx hs' hg
  intro heq
  subst heq
  refine opens_phase htypes (fun _ => rfl) (fun _ _ hphase => .inl hphase) ?_ ?_
  · intro fd t d e t' hfd ha
    exact ⟨_, (show t' = _ from ha).trans (Table.enter_some hfd _)⟩
  · intro fd t d v t' hfd hphase _ ha
    rw [hkind]
    refine ⟨_, .inl ?_, (show t' = _ from ha).trans (Table.change_some hfd _)⟩
    rw [Descriptor.name, hphase]
    rfl

/-- `Bind` of a datagram socket, which configures nothing and names the descriptor. -/
theorem bindUdp_lawful {endpoint : SocketEndpoint} (hl : Lawful p kind s t)
    (hkind : kind n = .udpSocket) (hx : s.handles (.user n) = some h) :
    wp (phaseEnv p) (UdpSocket.bind p (.user n) endpoint)
      (fun _ s' t' => Lawful p kind s' t') OutOfRounds s t := by
  refine (wp_bindUdp_asks (Q := fun _ h' t' => Gains p (kind n) t h h' t') hl.idle hx
    (fun _ => .inl ⟨rfl, rfl⟩) ?_).imp fun _ s' t' ⟨_, hs', hg⟩ => hl.gains hx hs' hg
  intro heq family
  subst heq
  refine ⟨fun _ _ handle hhandle => absurd hhandle.symm (Option.some_ne_none _), ?_⟩
  intro a t₁ ha
  cases a with
  | error e =>
      obtain rfl : t₁ = t := ha
      exact .inl ⟨rfl, rfl⟩
  | ok fd =>
      obtain ⟨hfree, rfl⟩ := ha
      rw [if_pos rfl]
      have hnew : Function.update t fd (some ⟨.datagram, false⟩) fd = some ⟨.datagram, false⟩ :=
        Function.update_self ..
      refine Attaches.phase rfl hnew (.inr rfl) ?_ ?_ ?_
      · intro e t' ha
        exact ⟨_, (show t' = _ from ha).trans (Table.enter_some hnew _)⟩
      · intro error _
        rw [Function.update_idem, Function.update_eq_self_iff.mpr hfree.symm]
        exact .inl ⟨rfl, rfl⟩
      · intro v t' ha
        obtain rfl : t' = _ := (show t' = _ from ha).trans (Table.change_some hnew _)
        rw [hkind]
        exact .inr ⟨fd, ⟨.named, false⟩, rfl, hfree, rfl, Function.update_idem ..⟩

/-- Nothing is new, or a descriptor that suits a socket. -/
def Admitted (p : Platform) (t : Table) : SocketResult Nat → Table → Prop
  | .failure _, t' => t' = t
  | .success fd, t' => t fd = none ∧
      ∃ d, Suits p d .tcpSocket ∧ t' = Function.update t fd (some d)

/-- `Accept`. A descriptor that cannot be configured is closed again, and the result gets
none. -/
theorem accept_lawful {rounds result : Nat} (hl : Lawful p kind s t)
    (hkind : kind n = .tcpListener) (hresult : kind result = .tcpSocket)
    (hx : s.handles (.user n) = some h) :
    wp (phaseEnv p) (TcpListener.accept p rounds (.user result) (.user n))
      (fun _ s' t' => Lawful p kind s' t') OutOfRounds s t := by
  refine Calls.Prog.wp.mono (wp_accept_asks (E := fun e _ => e = .gaveUp) (Q := Admitted p t)
    hl.idle hx (fun _ => rfl) ?_) ?_ fun _ _ _ he => he
  · intro fd heq
    subst heq
    obtain ⟨d, hfd, hsuits⟩ := hl.suits n fd hx
    rw [hkind] at hsuits
    refine Repeats.of_inv (fun t' => t' = t) (fun t' => t' = t) (fun _ h => h) rfl
      (fun _ _ => rfl) ?_ ?_
    · intro t' heq
      subst heq
      refine Asks.phase rfl hfd hsuits ?_
      intro a t₁ ha
      cases a with
      | error e => exact ha
      | ok fd' =>
          obtain ⟨hfree, rfl⟩ := ha
          refine Prepares.phase (Function.update_self ..) (.inr rfl) ?_ ?_
          · intro error _
            show _ = t'
            rw [Function.update_idem, Function.update_eq_self_iff.mpr hfree.symm]
          · intro d' hphase hquiet
            exact ⟨hfree, d', ⟨hphase, hquiet⟩, Function.update_idem ..⟩
    · intro error t' _ heq
      subst heq
      rfl
  · intro r s' t' hr
    cases r with
    | failure error =>
        obtain ⟨hs', rfl⟩ := hr
        exact hl.same hs'
    | success v =>
        obtain ⟨fd, hs', hfree, d, hd, ht'⟩ := hr
        exact hl.gain hfree hs' (by rwa [hresult]) ht'

/-! ### Descriptors in use

The members that make their calls on the descriptor of the object and keep it. -/

/-- `Send`. The descriptor of a valid socket is connected, and `SIGPIPE` is kept away by the
flags or by an option that was set when it was opened. -/
theorem send_lawful {rounds : Nat} {buffer : Bytes} (hl : Lawful p kind s t)
    (hkind : kind n = .tcpSocket) (hx : s.handles (.user n) = some h) :
    wp (phaseEnv p) (TcpSocket.send p rounds (.user n) buffer)
      (fun _ s' t' => Lawful p kind s' t') OutOfRounds s t := by
  refine Calls.Prog.wp.mono (wp_send_asks (E := fun e _ => e = .gaveUp) (Q := fun _ t' => t' = t)
    hx (fun _ => rfl) (fun _ _ => rfl) ?_) ?_ fun _ _ _ he => he
  · intro fd heq _
    subst heq
    obtain ⟨d, hfd, hsuits⟩ := hl.suits n fd hx
    rw [hkind] at hsuits
    refine Repeats.phase rfl hfd ⟨hsuits.1, hsuits.2, ?_⟩ rfl ?_ ?_
    · intro hposix flag hflag
      rw [sendFlags, hposix, hflag]
      rfl
    · intro a t' ha
      cases a <;> exact ha
    · intro r
      cases r <;> rfl
  · intro r s' t' hr
    obtain ⟨hs', rfl⟩ := hr
    exact hl.same hs'

/-- `Receive`. The phase of the descriptor does not change, not even at the end of the stream. -/
theorem receive_lawful {rounds : Nat} {buffer : Bytes} (hl : Lawful p kind s t)
    (hkind : kind n = .tcpSocket) (hx : s.handles (.user n) = some h) :
    wp (phaseEnv p) (TcpSocket.receive p rounds (.user n) buffer)
      (fun _ s' t' => Lawful p kind s' t') OutOfRounds s t := by
  refine Calls.Prog.wp.mono (wp_receive_asks (E := fun e _ => e = .gaveUp)
    (Q := fun _ t' => t' = t) hx (fun _ => rfl) (fun _ _ => rfl) ?_) ?_ fun _ _ _ he => he
  · intro fd heq _
    subst heq
    obtain ⟨d, hfd, hsuits⟩ := hl.suits n fd hx
    rw [hkind] at hsuits
    refine Repeats.phase rfl hfd hsuits.1 rfl ?_ ?_
    · intro a t' ha
      cases a <;> exact ha
    · intro r
      cases r <;> rfl
  · intro r s' t' hr
    obtain ⟨hs', rfl⟩ := hr
    exact hl.same hs'

/-- `Shutdown`. A connection that was shut down counts as connected still. -/
theorem shutdown_lawful {direction : SocketShutdown} (hl : Lawful p kind s t)
    (hkind : kind n = .tcpSocket) (hx : s.handles (.user n) = some h) :
    wp (phaseEnv p) (TcpSocket.shutdown p (.user n) direction)
      (fun _ s' t' => Lawful p kind s' t') OutOfRounds s t := by
  refine (wp_shutdown_asks (Q := fun _ t' => t' = t) hx (fun _ => rfl) (fun _ _ => rfl) ?_).imp
    fun r s' t' ⟨hs', ht'⟩ => ht' ▸ hl.same hs'
  intro fd how heq _
  subst heq
  obtain ⟨d, hfd, hsuits⟩ := hl.suits n fd hx
  rw [hkind] at hsuits
  refine Asks.phase rfl hfd hsuits.1 ?_
  intro a t' ha
  cases a <;> exact ha

/-- `Listen`. It may be called again on a socket that listens. -/
theorem listen_lawful {backlog : Int} (hl : Lawful p kind s t) (hkind : kind n = .tcpListener)
    (hx : s.handles (.user n) = some h) :
    wp (phaseEnv p) (TcpListener.listen p (.user n) backlog)
      (fun _ s' t' => Lawful p kind s' t') OutOfRounds s t := by
  refine (wp_listen_asks (Q := fun _ t' => ∀ s' : Process, s'.handles = s.handles →
    Lawful p kind s' t') hx (fun _ _ => hl.same) (fun _ _ _ => hl.same) ?_).imp
    fun r s' t' ⟨hs', hr⟩ => hr s' hs'
  intro fd heq _
  subst heq
  obtain ⟨d, hfd, hsuits⟩ := hl.suits n fd hx
  rw [hkind] at hsuits
  refine Asks.phase rfl hfd hsuits ?_
  intro a t' ha
  cases a with
  | error e =>
      obtain rfl : t' = t := ha
      exact fun s' hs' => hl.same hs'
  | ok v =>
      obtain rfl : t' = _ := (show t' = _ from ha).trans (Table.enter_some hfd _)
      exact fun s' hs' => hl.change hx hs' (by rw [hkind]; exact .inr rfl) rfl

/-- `GetLocalEndpoint` and `GetPeerEndpoint`. The peer is asked for on connected sockets only,
which the class sees to. -/
theorem queryEndpoint_lawful {peer : Bool} (hl : Lawful p kind s t)
    (hpeer : peer = true → kind n = .tcpSocket) (hx : s.handles (.user n) = some h) :
    wp (phaseEnv p) (queryEndpoint p (.user n) h peer)
      (fun _ s' t' => Lawful p kind s' t') OutOfRounds s t := by
  refine (wp_queryEndpoint_asks (Q := fun _ t' => t' = t) (fun _ => rfl) ?_).imp
    fun r s' t' ⟨hs', ht'⟩ => ht' ▸ hl.same hs'
  intro fd heq
  subst heq
  obtain ⟨d, hfd, hsuits⟩ := hl.suits n fd hx
  rw [Queries]
  split
  case isTrue hpeer' =>
    rw [hpeer hpeer'] at hsuits
    refine Asks.phase rfl hfd hsuits.1 ?_
    intro a t' ha
    cases a with
    | error e => exact ha
    | ok name => exact fun _ _ => ha
  case isFalse hlocal =>
    have hnamed : d.phase ≠ .stream ∧ d.phase ≠ .datagram ∧ d.phase ≠ .uncertain := by
      cases hkind : kind n with
      | tcpSocket =>
          rw [hkind] at hsuits
          simp [hsuits.1]
      | tcpListener =>
          rw [hkind] at hsuits
          rcases hsuits with hphase | hphase <;> simp [hphase]
      | udpSocket =>
          rw [hkind] at hsuits
          simp [show d.phase = _ from hsuits]
    refine Asks.phase rfl hfd hnamed ?_
    intro a t' ha
    cases a with
    | error e => exact ha
    | ok name => exact fun _ _ => ha

/-! ### Datagrams

`SendTo` names the socket it sends from, so an object may receive once it has sent. -/

/-- The loop of `SendTo` on a datagram socket: when all is sent the socket has a name. -/
theorem transmits_phase {rounds : Nat} {y : HandleId} {buffer : Bytes}
    {destination : SocketEndpoint} {handles : HandleId → Option NativeHandle}
    (hfd : t fd = some d) (hd : d.phase = .datagram ∨ d.phase = .named) :
    Transmits (phaseEnv p) p rounds y fd buffer destination OutOfRounds handles (fun r _ t' =>
      ∃ d' : Descriptor, t' = Function.update t fd (some d') ∧
        (d'.phase = .named ∨ d'.phase = d.phase ∧ ∃ error, r = .failure error)) t := by
  refine ⟨fun _ t' => ∃ d' : Descriptor, t' = Function.update t fd (some d') ∧
    (d'.phase = .named ∨ d'.phase = d.phase), ⟨d, ?_, .inr rfl⟩, fun _ _ _ => rfl, ?_⟩
  · rw [Function.update_eq_self_iff.mpr hfd.symm]
  · intro k s₁ t₁ _ hr
    obtain ⟨d₁, rfl, hd₁⟩ := hr
    have hfd₁ : Function.update t fd (some d₁) fd = some d₁ := Function.update_self ..
    have hname : Table.enter (Function.update t fd (some d₁)) (some fd) .named =
        Function.update t fd (some { d₁ with phase := .named }) := by
      rw [Table.enter_some hfd₁, Function.update_idem]
    constructor
    · intro handle heq
      cases heq
      exact ⟨fd, d₁, rfl, hfd₁, hd₁.elim .inr fun heq => by rwa [← heq] at hd⟩
    · intro a t₂ ha
      cases a with
      | error e =>
          -- the socket may have got its name all the same
          have hany : ∃ d' : Descriptor, t₂ = Function.update t fd (some d') ∧
              (d'.phase = .named ∨ d'.phase = d.phase) := by
            rcases ha with rfl | ha
            · exact ⟨d₁, rfl, hd₁⟩
            · exact ⟨_, ha.trans hname, .inl rfl⟩
          refine ⟨fun _ => hany, fun _ s' _ => ?_⟩
          obtain ⟨d', ht₂, hd'⟩ := hany
          exact ⟨d', ht₂, hd'.imp_right fun heq => ⟨heq, _, rfl⟩⟩
      | ok count => exact fun s' _ => ⟨_, (show t₂ = _ from ha).trans hname, .inl rfl⟩

/-- `SendTo`. The first one makes a socket and names it by sending; the object gets it only
then. -/
theorem sendTo_lawful {rounds : Nat} {buffer : Bytes} {destination : SocketEndpoint}
    (hl : Lawful p kind s t) (hkind : kind n = .udpSocket) (hx : s.handles (.user n) = some h) :
    wp (phaseEnv p) (UdpSocket.sendTo p rounds (.user n) buffer destination)
      (fun _ s' t' => Lawful p kind s' t') OutOfRounds s t := by
  refine wp_sendTo hl.idle hx (fun _ => hl) ?_ ?_
  · intro fd heq
    subst heq
    obtain ⟨d, hfd, hsuits⟩ := hl.suits n fd hx
    rw [hkind] at hsuits
    refine (transmits_phase hfd (.inr hsuits)).imp ?_
    intro r s₁ t₁ _ hr s' hs'
    obtain ⟨d', rfl, hd'⟩ := hr
    have hnamed : d'.phase = .named := hd'.elim id fun hsame => hsame.1.trans hsuits
    exact hl.change hx hs' (by rw [hkind]; exact hnamed) rfl
  · intro heq family
    subst heq
    refine ⟨fun _ _ handle hhandle => absurd hhandle.symm (Option.some_ne_none _), ?_⟩
    intro a t₁ ha
    cases a with
    | error e =>
        obtain rfl : t₁ = t := ha
        exact fun s₁ hs₁ => hl.same hs₁
    | ok fd =>
        obtain ⟨hfree, rfl⟩ := ha
        rw [if_pos rfl]
        refine (transmits_phase (Function.update_self ..) (.inl rfl)).imp ?_
        intro r s₁ t₁ _ hr
        obtain ⟨d', rfl, hd'⟩ := hr
        rw [Function.update_idem]
        cases r with
        | success count =>
            -- all was sent, so the socket has a name and may go to the object
            have hnamed : d'.phase = .named := hd'.resolve_right fun hfail => by
              obtain ⟨-, error, herror⟩ := hfail
              cases herror
            exact fun s₂ hs₂ => hl.gain hfree hs₂ (by rw [hkind]; exact hnamed) rfl
        | failure error =>
            refine Closes.phase (Function.update_self ..) ?_
            rw [Function.update_idem, Function.update_eq_self_iff.mpr hfree.symm]
            exact fun s₂ hs₂ => hl.same hs₂

/-- `ReceiveFrom`. A valid object has a socket with a name, so that datagrams can reach it. -/
theorem receiveFrom_lawful {rounds : Nat} {buffer : Bytes} (hl : Lawful p kind s t)
    (hkind : kind n = .udpSocket) (hx : s.handles (.user n) = some h) :
    wp (phaseEnv p) (UdpSocket.receiveFrom p rounds (.user n) buffer)
      (fun _ s' t' => Lawful p kind s' t') OutOfRounds s t := by
  refine wp_receiveFrom (fun _ t' => t' = t) hx (fun _ => hl) (fun _ _ => hl) (fun _ _ => rfl)
    (fun _ _ _ => rfl) ?_
  intro fd heq k _ s₁ t₁ hs₁ heq'
  subst heq
  subst heq'
  obtain ⟨d, hfd, hsuits⟩ := hl.suits n fd hx
  rw [hkind] at hsuits
  have hreceives : ∀ {size nameSize}, Receives (phaseEnv p) p (.user n) (some fd) size nameSize
      (fun _ t' => t' = t₁) s₁ t₁ := by
    intro size nameSize
    rw [Receives]
    split
    all_goals
      refine ⟨?_, ?_⟩
      · intro handle heq
        cases heq
        exact ⟨fd, d, rfl, hfd, hsuits⟩
      · intro a t' ha
        cases a <;> exact ha
  refine hreceives.imp ?_
  intro a t₂ heq
  subst heq
  cases a with
  | error e => exact ⟨fun _ => rfl, fun _ s₂ hs₂ => hl.same hs₂⟩
  | ok r => exact fun sender s₂ _ hs₂ => hl.same hs₂

/-! ### Objects

What closes descriptors, and what passes them on between objects of one class. -/

/-- `Close`. Whatever phase the descriptor was in, it is open no more and no object has it. -/
theorem close_lawful (hl : Lawful p kind s t) (hx : s.handles (.user n) = some h) :
    wp (phaseEnv p) (close (.user n)) (fun _ s' t' => Lawful p kind s' t' ∧
      s'.handles = Function.update s.handles (.user n) (some none) ∧
      ∀ fd, h ≠ some fd → t' fd = t fd) OutOfRounds s t := by
  refine (wp_close_asks (Q := fun t' => ∀ fd, h ≠ some fd → t' fd = t fd) hx
    (fun _ _ _ => rfl) ?_).imp ?_
  · intro fd heq
    subst heq
    obtain ⟨d, hfd, -⟩ := hl.suits n fd hx
    refine Closes.phase hfd ?_
    intro fd' hne
    rw [Function.update_of_ne]
    intro heq
    subst heq
    exact hne rfl
  · intro _ s' t' hr
    obtain ⟨hs', ht'⟩ := hr
    refine ⟨hl.lose (by simp) hs' ?_, hs', ht'⟩
    intro m fd hne hm
    refine ht' fd ?_
    intro heq
    subst heq
    exact hne (hl.unique m n fd hm hx)

/-- The destructor: `Close`, after which the object is gone. -/
theorem destroy_lawful (hl : Lawful p kind s t) (hx : s.handles (.user n) = some h) :
    wp (phaseEnv p) (destroy (.user n)) (fun _ s' t' => Lawful p kind s' t') OutOfRounds s t := by
  refine (close_lawful hl hx).bind ?_
  intro _ s' t' hr
  obtain ⟨hl', -, -⟩ := hr
  exact hl'.lose (n := n) (v := none) (by simp) rfl fun _ _ _ _ => rfl

/-- A descriptor moves between objects of one class. -/
theorem Lawful.moved {y : Nat} (hl : Lawful p kind s t) (hy : s.handles (.user y) = some h)
    (hkind : kind y = kind n)
    (hs : ∀ z, s'.handles z = if z = .user n then some h else if z = .user y then some none
      else s.handles z)
    (ht : ∀ m fd, m ≠ n → s.handles (.user m) = some (some fd) → h ≠ some fd → t' fd = t fd)
    (hh : ∀ fd, h = some fd → t' fd = t fd) : Lawful p kind s' t' := by
  -- whoever holds a descriptor now is the new owner, or held it before
  have howner : ∀ m fd, s'.handles (.user m) = some (some fd) →
      m = n ∧ h = some fd ∨ m ≠ n ∧ m ≠ y ∧ s.handles (.user m) = some (some fd) := by
    intro m fd hm
    rw [hs] at hm
    split at hm
    case isTrue heq =>
      cases heq
      exact .inl ⟨rfl, Option.some.inj hm⟩
    case isFalse hne =>
      split at hm
      case isTrue heq => cases hm
      case isFalse hne' =>
        exact .inr ⟨fun heq => hne (heq ▸ rfl), fun heq => hne' (heq ▸ rfl), hm⟩
  refine hl.renamed ?_ (fun m => if m = n then y else m) ?_ ?_
  · intro z hz
    rw [hs, if_neg (hz n), if_neg (hz y), hl.idle z hz]
  · intro m fd hm
    rcases howner m fd hm with ⟨rfl, rfl⟩ | ⟨hne, hne', hm⟩
    · rw [if_pos rfl]
      exact ⟨hy, hkind, hh fd rfl⟩
    · rw [if_neg hne]
      refine ⟨hm, rfl, ht m fd hne hm ?_⟩
      intro heq
      subst heq
      exact hne' (hl.unique m y fd hm hy)
  · intro m m' fd hm hm' heq
    rcases howner m fd hm with ⟨rfl, -⟩ | ⟨hne, hney, -⟩ <;>
      rcases howner m' fd hm' with ⟨rfl, -⟩ | ⟨hne', hney', -⟩
    · rfl
    · rw [if_pos rfl, if_neg hne'] at heq
      exact absurd heq.symm hney'
    · rw [if_neg hne, if_pos rfl] at heq
      exact absurd heq hney
    · rwa [if_neg hne, if_neg hne'] at heq

/-- Move assignment: what the object had is closed. -/
theorem moveAssign_lawful {y : Nat} {g : NativeHandle} (hl : Lawful p kind s t)
    (hx : s.handles (.user n) = some g) (hy : s.handles (.user y) = some h)
    (hkind : kind y = kind n) :
    wp (phaseEnv p) (moveAssign (.user n) (.user y)) (fun _ s' t' => Lawful p kind s' t')
      OutOfRounds s t := by
  rw [moveAssign]
  split
  case isFalse hsame => exact hl
  case isTrue hne =>
    have hx₁ : (s.put (.user y) none).handles (.user n) = some g := by simp [hne, hx]
    rw [Calls.wp_bind, wp_release hy, wp_reset hx₁]
    split
    case isTrue heq =>
      subst heq
      refine hl.moved hy hkind ?_ (fun _ _ _ _ _ => rfl) fun _ _ => rfl
      intro z
      by_cases hz : z = .user n
      · simp [hz, hne, hx]
      · simp [hz]
    case isFalse hgh =>
      have hl₁ : Lawful p kind (s.put (.user y) none) t :=
        hl.lose (by simp) rfl fun _ _ _ _ => rfl
      refine (close_lawful hl₁ hx₁).imp ?_
      intro _ s₂ t₂ hr
      obtain ⟨-, hs₂, ht₂⟩ := hr
      refine hl.moved hy hkind ?_ ?_ ?_
      · intro z
        by_cases hz : z = .user n <;> simp [hz, hs₂]
      · intro m fd hm hown _
        refine ht₂ fd ?_
        intro heq
        subst heq
        exact hm (hl.unique m n fd hown hx)
      · intro fd heq
        subst heq
        exact ht₂ fd hgh

/-! ### Whole runs -/

/-- **One member.** Whatever it is called on, its calls are permitted, and the invariant holds
when it returns. -/
theorem Operation.lawful (htypes : p.SOCK_STREAM ≠ p.SOCK_DGRAM) (op : Operation)
    (hl : Lawful p kind s t) (hop : op.Typed kind s) :
    wp (phaseEnv p) (op.code p) (fun _ s' t' => Lawful p kind s' t') OutOfRounds s t := by
  -- what a member returns is for the client, and does not matter here
  have hseen : ∀ {α : Type} {code : N α},
      wp (phaseEnv p) code (fun _ s' t' => Lawful p kind s' t') OutOfRounds s t →
      wp (phaseEnv p) (do let _ ← code) (fun _ s' t' => Lawful p kind s' t') OutOfRounds s t :=
    fun hcode => hcode.bind fun _ _ _ hl' => hl'
  cases op with
  | construct x =>
      exact hl.lose (n := x) (v := some none) (by simp) rfl fun _ _ _ _ => rfl
  | moveConstruct x other =>
      obtain ⟨hx, hkind, h, hother⟩ := hop
      refine (wp_moveConstruct hother).mpr (hl.moved hother hkind ?_ (fun _ _ _ _ _ => rfl)
        fun _ _ => rfl)
      intro z
      simp
  | moveAssign x other =>
      obtain ⟨⟨-, g, hx⟩, hkind, h, hother⟩ := hop
      exact moveAssign_lawful hl hx hother hkind
  | destroy x =>
      obtain ⟨-, h, hx⟩ := hop
      exact destroy_lawful hl hx
  | close x =>
      obtain ⟨-, h, hx⟩ := hop
      exact (close_lawful hl hx).imp fun _ _ _ hl' => hl'.1
  | getEndpoint x peer =>
      obtain ⟨⟨-, h, hx⟩, hpeer⟩ := hop
      refine (Calls.wp_bind _ _).mpr ?_
      rw [wp_getHandle hx]
      exact hseen (queryEndpoint_lawful hl hpeer hx)
  | connect x endpoint =>
      obtain ⟨hkind, h, hx⟩ := hop
      exact hseen (connect_lawful htypes hl hkind hx)
  | send rounds x buffer =>
      obtain ⟨hkind, h, hx⟩ := hop
      exact hseen (send_lawful hl hkind hx)
  | receive rounds x buffer =>
      obtain ⟨hkind, h, hx⟩ := hop
      exact hseen (receive_lawful hl hkind hx)
  | shutdown x direction =>
      obtain ⟨hkind, h, hx⟩ := hop
      exact hseen (shutdown_lawful hl hkind hx)
  | bindListener x endpoint =>
      obtain ⟨hkind, h, hx⟩ := hop
      exact hseen (bindListener_lawful htypes hl hkind hx)
  | listen x backlog =>
      obtain ⟨hkind, h, hx⟩ := hop
      exact hseen (listen_lawful hl hkind hx)
  | accept rounds result x =>
      obtain ⟨-, hresult, hkind, h, hx⟩ := hop
      exact hseen (accept_lawful hl hkind hresult hx)
  | bindUdp x endpoint =>
      obtain ⟨hkind, h, hx⟩ := hop
      exact hseen (bindUdp_lawful hl hkind hx)
  | sendTo rounds x buffer destination =>
      obtain ⟨hkind, h, hx⟩ := hop
      exact hseen (sendTo_lawful hl hkind hx)
  | receiveFrom rounds x buffer =>
      obtain ⟨hkind, h, hx⟩ := hop
      exact hseen (receiveFrom_lawful hl hkind hx)

/-- Every step of a program keeps the invariant. -/
theorem program_keeps (htypes : p.SOCK_STREAM ≠ p.SOCK_DGRAM) :
    (program p kind).Keeps (Lawful p kind) OutOfRounds where
  operation op s t hl hop := op.lawful htypes hl hop
  drift s t t' hl hd := by
    refine hl.renamed hl.idle id ?_ fun _ _ _ _ _ h => h
    exact fun n fd hn => ⟨hn, rfl, hd n fd hn⟩

/-- What is to be shown of a moment: between members every object has a descriptor that suits
its class, or none; inside a member a call is permitted on its descriptor. -/
def Safe (p : Platform) (kind : Nat → Kind) : Client.Moment os Process Exit Table → Prop
  | .between s t => ∀ n fd, s.handles (.user n) = some (some fd) →
      ∃ d, t fd = some d ∧ Suits p d (kind n)
  | .inside (.call r _ _) t => t.Legal p r.call
  | .inside (.exit e _) _ => e = .gaveUp
  | .inside (.ret _ _) _ => True

/-- **Calls in their phase.** In every run of a program that uses the three classes, whatever
the operating system answers, every call is made on an open descriptor that permits it: only a
new socket is bound or connected, only a connected one sends, receives and is shut down, only a
bound one listens and accepts, datagrams are received on named sockets only, a socket whose
`connect` or `bind` has failed is closed and used for nothing else, and no `send` can raise
`SIGPIPE` on a platform that has a way to prevent it. -/
theorem calls_in_phase {t : Table} {m : Client.Moment os Process Exit Table}
    (htypes : p.SOCK_STREAM ≠ p.SOCK_DGRAM)
    (h : (program p kind).Reachable ⟨fun _ => none, 0⟩ t m) : Safe p kind m := by
  have hinit : Lawful p kind ⟨fun _ => none, 0⟩ t := by
    refine ⟨fun _ _ => rfl, ?_, ?_⟩
    · intro n fd hn
      cases hn
    · intro m n fd hm
      cases hm
  have hkeeps : (program p kind).Keeps (Lawful p kind) OutOfRounds := program_keeps htypes
  cases m with
  | between s t => exact (h.between hkeeps hinit).suits
  | inside x t =>
      cases x with
      | call r seen k => exact h.accepted hkeeps hinit
      | exit e s => exact h.left hkeeps hinit
      | ret v s => trivial

/-- An object is constructed and sends its first datagram: the moment at which it asks for it. -/
theorem calls_in_phase_sendTo : ∃ seen k t,
    (program .linux fun _ => .udpSocket).Reachable ⟨fun _ => none, 0⟩ (fun _ => none)
      (.inside (.call ⟨.pending, .sendto (some 5) [7] 0
        (SocketEndpoint.default.toNative .linux).1 16⟩ seen k) t) ∧
    t 5 = some ⟨.datagram, false⟩ ∧
    Safe .linux (fun _ => .udpSocket) (.inside (.call ⟨.pending, .sendto (some 5) [7] 0
        (SocketEndpoint.default.toNative .linux).1 16⟩ seen k) t) := by
  have hconstructed : (program .linux fun _ => .udpSocket).Reachable ⟨fun _ => none, 0⟩
      (fun _ => none) (.between ((⟨fun _ => none, 0⟩ : Process).put (.user 0) none)
        fun _ => none) :=
    (Relation.ReflTransGen.refl.tail (.start (Operation.construct 0) rfl)).tail .finish
  have hlive : (Operation.sendTo 1 0 [7] .default).Typed (fun _ => .udpSocket)
      ((⟨fun _ => none, 0⟩ : Process).put (.user 0) none) := ⟨rfl, none, rfl⟩
  have hstarted := hconstructed.tail (.start (Operation.sendTo 1 0 [7] .default) hlive)
  have hopened : (phaseEnv .linux).answers (fun _ => none)
      ⟨.handle .createSocket, .socket Layout.linux.AF_INET 2 17⟩ (.ok 5)
      (Function.update (fun _ => none) 5 (some ⟨.datagram, false⟩)) := ⟨rfl, rfl⟩
  have hasked := hstarted.tail (.answer hopened)
  exact ⟨_, _, _, hasked, Function.update_self .., calls_in_phase (by decide) hasked⟩

end Phases

end Net

end CoreSystems
