import CoreSystems.Net.Post

/-!
# CoreSystems.Net.PostSpecs

What the operations of `UdpSocket` do to the sockets of a host, one lemma for each.

The calls are those of the rules of `CoreSystems.Net.UdpRules` and
`CoreSystems.Net.TcpOpening`. A `sendto` that fails may have bound its socket all the same, so
the rounds of `SendTo` are related by `Tried`, which is kept by a failed round and says after
the last what has become of the socket.
-/

namespace CoreSystems

open Buffer (Bytes)
open Calls (Env wp)

namespace Net

open SocketHandle

variable {p : Platform} {SO_RCVTIMEO : Nat} {o o₁ o' : Post} {s : Process} {x : HandleId}
variable {E : Exit → Process → Post → Prop} {name fd rounds : Nat} {bound : SocketEndpoint}
variable {endpoint destination : SocketEndpoint} {buffer : Bytes} {box : Mailbox}

namespace Post

/-- A socket that has just been made does not count. -/
theorem Unshared.of_new (h : Unshared (Function.update o fd (some .new)) bound)
    (hfree : o fd = none) : o.Unshared bound := by
  intro fd' box other hbox hother
  refine h fd' box other ?_ hother
  rwa [Function.update_of_ne]
  rintro rfl
  simp [hfree] at hbox

/-- A call that fails has bound its socket, or done nothing. -/
def Tried (o : Post) (fd : Nat) (o' : Post) : Prop := o' = o ∨ ∃ bound, o.Settles fd bound o'

/-- A datagram is sent: the socket is bound, and the datagram is delivered or lost. -/
def Sends (o : Post) (fd : Nat) (payload : Bytes) (destination : SocketEndpoint) (o' : Post) :
    Prop :=
  ∃ bound source o₁, o.Settles fd bound o₁ ∧ Reaches bound source ∧
    o₁.Delivers ⟨payload, source⟩ destination o'

/-- A socket is bound once. -/
theorem Tried.settles (h : o.Tried fd o₁) (h' : o₁.Settles fd bound o') :
    o.Settles fd bound o' := by
  rcases h with rfl | ⟨first, box, hbox, ⟨-, rfl⟩ | ⟨hnone, hunshared, rfl⟩⟩
  · exact h'
  · exact h'
  · obtain ⟨box', hbox', ⟨hbound, rfl⟩ | ⟨hbound, -, -⟩⟩ := h'
    · rw [Function.update_self] at hbox'
      obtain rfl := Option.some.inj hbox'
      obtain rfl := Option.some.inj hbound
      exact ⟨box, hbox, .inr ⟨hnone, hunshared, rfl⟩⟩
    · rw [Function.update_self] at hbox'
      obtain rfl := Option.some.inj hbox'
      cases hbound

/-- A socket that is bound stays as it is. -/
theorem Tried.eq (h : o.Tried fd o') (hfd : o fd = some box) (hbound : box.bound = some bound) :
    o' = o := by
  rcases h with rfl | ⟨_, box', hbox', ⟨-, rfl⟩ | ⟨hnone, -, -⟩⟩
  · rfl
  · rfl
  · obtain rfl := Option.some.inj (hfd.symm.trans hbox')
    rw [hbound] at hnone
    cases hnone

/-- Nothing but the socket itself is different. -/
theorem Tried.close (h : Tried (Function.update o fd (some box)) fd o') (hfree : o fd = none) :
    Function.update o' fd none = o := by
  have hself : Function.update o fd none = o := Function.update_eq_self_iff.mpr hfree.symm
  rcases h with rfl | ⟨first, box, hbox, ⟨-, rfl⟩ | ⟨-, -, rfl⟩⟩ <;>
    simp [hself]

end Post

/-! ### Opening and closing

`Bind` gives the socket an endpoint that nobody else is known by, or fails and closes it. -/

variable {handles : HandleId → Option NativeHandle}

/-- A call that does not wait. -/
theorem Asks.post {r : Request} {Q : os.Answer r → Post → Prop} (hblocks : ¬ o.Blocks r.call)
    (h : ∀ a o', o.Answers p SO_RCVTIMEO r.call a o' → Q a o') :
    Asks (postEnv p SO_RCVTIMEO) handles r Q o :=
  ⟨fun _ _ => hblocks, h⟩

/-- Freeing a descriptor. -/
theorem Closes.post {Q : Post → Prop} (h : Q (Function.update o fd none)) :
    Closes (postEnv p SO_RCVTIMEO) handles x fd Q o := by
  refine Asks.post id ?_
  intro a o' ha
  obtain rfl : o' = Function.update o fd none := by cases a <;> exact ha
  exact h

/-- The destructor frees the socket that the object held, with all that waits in it. -/
theorem wp_destroy_post {h : NativeHandle} (hx : s.handles x = some h) :
    wp (postEnv p SO_RCVTIMEO) (destroy x) (fun _ s' o' =>
      s'.handles = Function.update s.handles x none ∧
        o' = (h.map fun fd => Function.update o fd none).getD o) E s o := by
  refine wp_destroy_asks hx ?_ ?_
  · intro hnone
    rw [hnone]
    rfl
  · intro fd hfd
    refine Closes.post ?_
    rw [hfd]
    rfl

/-- `Bind` on a free object: a new socket with an endpoint of its own, or nothing is
different. -/
theorem wp_bind_post (hidle : s.Idle) (hx : s.handles (.user name) = some none) :
    wp (postEnv p SO_RCVTIMEO) (UdpSocket.bind p (.user name) endpoint) (fun r s' o' =>
      match r with
      | .failure error => s'.handles = s.handles ∧ o' = o ∧ error.hasError = true
      | .success _ => ∃ fd bound, o fd = none ∧
          s'.handles = Function.update s.handles (.user name) (some (some fd)) ∧
          Kernel.Assigned endpoint bound ∧ o.Unshared bound ∧
          o' = Function.update o fd (some ⟨some bound, [], false⟩)) E s o := by
  refine (wp_bindUdp_asks (Q := fun r h' o' =>
    match r with
    | .failure error => h' = none ∧ o' = o ∧ error.hasError = true
    | .success _ => ∃ fd bound, h' = some fd ∧ o fd = none ∧ Kernel.Assigned endpoint bound ∧
        o.Unshared bound ∧ o' = Function.update o fd (some ⟨some bound, [], false⟩)) hidle hx
      (by simp) ?_).imp ?_
  · intro _ family
    refine Asks.post id ?_
    intro a o₁ ha
    cases a with
    | error e =>
        obtain rfl : o₁ = o := ha
        exact ⟨rfl, rfl, decide_eq_true e.2⟩
    | ok fd =>
        obtain ⟨hfree, rfl⟩ := ha
        refine Asks.post id ?_
        intro a o₂ ha
        cases a with
        | error e =>
            obtain rfl : o₂ = _ := ha
            -- the socket was made for this call, so closing it undoes everything
            refine Closes.post ⟨rfl, ?_, decide_eq_true e.2⟩
            rw [Function.update_idem, Function.update_eq_self_iff.mpr hfree.symm]
        | ok v =>
            obtain ⟨fd', box, asked, bound, hfd, hbox, -, hname, hassigned, hunshared, rfl⟩ := ha
            cases hfd
            rw [Function.update_self] at hbox
            obtain rfl := Option.some.inj hbox
            obtain rfl := toNative_injective hname
            exact ⟨fd, bound, rfl, hfree, hassigned, hunshared.of_new hfree,
              Function.update_idem ..⟩
  · intro r s' o' hr
    obtain ⟨h', hs', hr⟩ := hr
    cases r with
    | failure error =>
        obtain ⟨rfl, ho', herror⟩ := hr
        exact ⟨hs'.trans (Function.update_eq_self_iff.mpr hx.symm), ho', herror⟩
    | success v =>
        obtain ⟨fd, bound, rfl, hfree, hr⟩ := hr
        exact ⟨fd, bound, hfree, hs', hr⟩

/-- `GetLocalEndpoint` of a socket that is bound: where it is bound, or an error. -/
theorem wp_localEndpoint_post (hfd : o fd = some box) (hbound : box.bound = some bound) :
    wp (postEnv p SO_RCVTIMEO) (queryEndpoint p x (some fd) false) (fun r s' o' =>
      s'.handles = s.handles ∧ o' = o ∧
      match r with
      | .failure error => error.hasError = true
      | .success found => found = bound) E s o := by
  refine (wp_queryEndpoint_asks (h := some fd) (Q := fun r o' => o' = o ∧
    match r with
    | .failure error => error.hasError = true
    | .success found => found = bound) (fun h => absurd h (Option.some_ne_none _)) ?_)
  intro fd' hfd'
  cases hfd'
  refine Asks.post id ?_
  intro a o' ha
  cases a with
  | error e => exact ⟨ha, decide_eq_true e.2⟩
  | ok native =>
      obtain ⟨rfl, hnames⟩ := ha
      intro r hr
      rw [(hnames fd box bound rfl hfd hbound).fromNative] at hr
      cases hr
      exact ⟨rfl, rfl⟩

/-! ### Sending

A socket that was made for a `SendTo` that failed is closed, and then the host is as before. -/

/-- The loop of `SendTo`. -/
theorem transmits_post {y : HandleId} {handles : HandleId → Option NativeHandle}
    (hout : ∀ s o', E .gaveUp s o') :
    Transmits (postEnv p SO_RCVTIMEO) p rounds y fd buffer destination E handles
      (fun r _ o' =>
        match r with
        | .failure error => error.hasError = true ∧ o.Tried fd o'
        | .success _ => o.Sends fd buffer destination o') o := by
  refine ⟨fun _ o₁ => o.Tried fd o₁, .inl rfl, fun s o' _ => hout s o', ?_⟩
  intro k s o₁ _ htried
  refine ⟨id, ?_⟩
  intro a o₂ ha
  cases a with
  | error e =>
      have htried₂ : o.Tried fd o₂ := by
        rcases ha with rfl | ⟨fd', bound, hfd', hsettles⟩
        · exact htried
        · cases hfd'
          exact .inr ⟨bound, htried.settles hsettles⟩
      exact ⟨fun _ => htried₂, fun _ _ _ => ⟨decide_eq_true e.2, htried₂⟩⟩
  | ok count =>
      obtain ⟨fd', destination', bound, source, o₁', hfd', hname, hsettles, hsource, rfl,
        hdelivers⟩ := ha
      cases hfd'
      obtain rfl := toNative_injective hname
      intro s' _
      rw [if_pos rfl]
      exact ⟨bound, source, o₁', htried.settles hsettles, hsource, hdelivers⟩

/-- `SendTo` on an object that has a socket. -/
theorem wp_sendTo_post (hidle : s.Idle) (hx : s.handles (.user name) = some (some fd))
    (hout : ∀ s o', E .gaveUp s o') :
    wp (postEnv p SO_RCVTIMEO) (UdpSocket.sendTo p rounds (.user name) buffer destination)
      (fun r s' o' => s'.handles = s.handles ∧
        match r with
        | .failure error => error.hasError = true ∧ o.Tried fd o'
        | .success _ => o.Sends fd buffer destination o') E s o := by
  refine wp_sendTo hidle hx ?_ ?_ (fun h => absurd h (Option.some_ne_none _))
  · exact fun _ => ⟨rfl, SocketError.hasError_ofErrc .., .inl rfl⟩
  · intro fd' hfd'
    cases hfd'
    exact (transmits_post hout).imp fun r s₁ o₁ _ hr s' hs' => ⟨hs', hr⟩

/-- `SendTo` on a free object makes the socket. -/
theorem wp_sendTo_new_post (hidle : s.Idle) (hx : s.handles (.user name) = some none)
    (hout : ∀ s o', E .gaveUp s o') :
    wp (postEnv p SO_RCVTIMEO) (UdpSocket.sendTo p rounds (.user name) buffer destination)
      (fun r s' o' =>
        match r with
        | .failure error => s'.handles = s.handles ∧ error.hasError = true ∧ o' = o
        | .success _ => ∃ fd, o fd = none ∧
            s'.handles = Function.update s.handles (.user name) (some (some fd)) ∧
            Post.Sends (Function.update o fd (some .new)) fd buffer destination o') E s o := by
  refine wp_sendTo hidle hx ?_ (fun fd h => absurd h.symm (Option.some_ne_none _)) ?_
  · exact fun _ => ⟨rfl, SocketError.hasError_ofErrc .., rfl⟩
  · intro _ family
    refine Asks.post id ?_
    intro a o₁ ha
    cases a with
    | error e =>
        obtain rfl : o₁ = o := ha
        exact fun s₁ hs₁ => ⟨hs₁, decide_eq_true e.2, rfl⟩
    | ok fd =>
        obtain ⟨hfree, rfl⟩ := ha
        refine (transmits_post hout).imp ?_
        intro r s₁ o₁ _ hr
        cases r with
        | success n => exact fun s₂ hs₂ => ⟨fd, hfree, hs₂, hr⟩
        | failure error =>
            -- the socket is closed again
            exact Closes.post fun s₂ hs₂ => ⟨hs₂, hr.1, hr.2.close hfree⟩

/-! ### Receiving

A receiving call may be made where a datagram waits or where the socket gives up after a
while. -/

theorem hasError_truncationError : (truncationError p).hasError = true := by
  rw [truncationError]
  split
  · exact decide_eq_true p.wsaeMsgSize_ne_zero
  · exact SocketError.hasError_ofErrc ..

/-- What a socket does after `setsockopt` with `SO_RCVTIMEO`. -/
theorem wp_timeout_post {value : Int} {Q : Except Errno Unit → Process → Post → Prop}
    (hfd : o fd = some box) (hvalue : 0 < value)
    (herror : ∀ (e : Errno) s', s'.handles = s.handles → s'.errno = e.1 → Q (.error e) s' o)
    (hok : ∀ s', s'.handles = s.handles →
      Q (.ok ()) s' (Function.update o fd (some { box with timeout := true }))) :
    wp (postEnv p SO_RCVTIMEO) (sys x (.setsockopt (some fd) p.SOL_SOCKET SO_RCVTIMEO value)) Q E
      s o := by
  refine wp_once (Asks.post id ?_)
  intro a o' ha s' hs' herrno
  cases a with
  | error e =>
      obtain rfl : o' = o := ha
      exact herror e s' hs' (herrno e rfl)
  | ok v =>
      obtain ⟨fd', box', hfd', hbox', rfl⟩ := ha
      cases hfd'
      obtain rfl := Option.some.inj (hfd.symm.trans hbox')
      rw [if_pos ⟨rfl, rfl⟩, decide_eq_true hvalue]
      exact hok s' hs'

/-- The receiving call takes the first datagram, or nothing. -/
theorem receives_post {size nameSize : Nat} (hfd : o fd = some box)
    (hready : box.letters = [] → box.timeout = true) :
    Receives (postEnv p SO_RCVTIMEO) p x (some fd) size nameSize (fun a o' =>
      match a with
      | .error _ => o' = o
      | .ok r => o.Collects p (some fd) r.reply o') s o := by
  have hblocks : ¬ o.Waits (some fd) := by
    rintro ⟨fd', box', hfd', hbox', hempty, hforever⟩
    cases hfd'
    obtain rfl := Option.some.inj (hfd.symm.trans hbox')
    rw [hready hempty] at hforever
    cases hforever
  rw [Receives]
  split
  · refine ⟨hblocks, ?_⟩
    intro a o' ha
    cases a <;> exact ha
  · refine ⟨hblocks, ?_⟩
    intro a o' ha
    cases a <;> exact ha

/-- `ReceiveFrom` on a socket where something waits, or that has a timeout. -/
theorem wp_receiveFrom_post (hx : s.handles x = some (some fd)) (hfd : o fd = some box)
    (hready : box.letters = [] → box.timeout = true) (hout : ∀ s o', E .gaveUp s o') :
    wp (postEnv p SO_RCVTIMEO) (UdpSocket.receiveFrom p rounds x buffer) (fun r s' o' =>
      s'.handles = s.handles ∧ ∃ rest,
        o' = Function.update o fd (some { box with letters := rest }) ∧
        match r.1 with
        | .failure error => error.hasError = true
        | .success got => ∃ letter, box.letters = letter :: rest ∧
            letter.payload.length ≤ buffer.length ∧
            got = ⟨letter.payload.length, letter.source⟩ ∧
            r.2 = Buffer.patch buffer 0 letter.payload) E s o := by
  have hsame : o = Function.update o fd (some { box with letters := box.letters }) :=
    (Function.update_eq_self_iff.mpr hfd.symm).symm
  refine wp_receiveFrom (fun _ o' => o' = o) hx (fun h => absurd h (Option.some_ne_none _)) ?_
    (fun _ _ => rfl) (fun s' o' _ => hout s' o') ?_
  · exact fun _ _ => ⟨rfl, _, hsame, SocketError.hasError_ofErrc ..⟩
  · intro fd' hfd' k _ s₁ o₁ hs₁ ho₁
    cases hfd'
    subst ho₁
    refine (receives_post hfd hready).imp ?_
    intro a o₂ ha
    cases a with
    | error e =>
        subst ha
        exact ⟨fun _ => rfl, fun _ s₂ hs₂ => ⟨hs₂, _, hsame, decide_eq_true e.2⟩⟩
    | ok r =>
        obtain ⟨fd', box', letter, rest, hfd', hbox', hletters, hbytes, hcut, hname, rfl⟩ := ha
        cases hfd'
        obtain rfl := Option.some.inj (hfd.symm.trans hbox')
        intro sender s₂ hsender hs₂
        have hread : sender = some letter.source :=
          Except.ok.inj (hsender.symm.trans (Names.fromNative hname))
        refine ⟨hs₂, rest, rfl, ?_⟩
        change r.bytes = letter.payload.take buffer.length at hbytes
        change r.truncated = decide (buffer.length < letter.payload.length) at hcut
        by_cases hfits : buffer.length < letter.payload.length
        · rw [decide_eq_true hfits] at hcut
          rw [receivedResult_cut hcut]
          exact hasError_truncationError
        · rw [decide_eq_false hfits, ← Bool.not_eq_true] at hcut
          rw [List.take_of_length_le (Nat.not_lt.mp hfits)] at hbytes
          rw [receivedResult_whole hcut, hread, hbytes]
          exact ⟨letter, hletters, Nat.not_lt.mp hfits, rfl, rfl⟩

end Net

end CoreSystems
