import CoreSystems.Net.AddressKeys
import CoreSystems.Net.DescriptorRuns
import CoreSystems.Net.PostSpecs
import CoreSystems.Net.SocketRuntime

/-!
# CoreSystems.Programs.UdpLoopback

The UDP example: one thread with two sockets. The client sends a message, the server sends it
back to where it came from, and the client compares what it gets; then comes a datagram
without a payload.

The client's socket is made and bound by its first `SendTo`. Datagrams may get lost, and every
receiving call waits for a while at most.

`Pair` is the invariant: two sockets were opened, and what is sent to one of them gets there
or is lost. From it each receiving call gets what the other end has sent or times out, so that
a datagram of somebody else or from a wrong sender never reaches the comparisons of `main`.
`main_replies` is the result.
-/

namespace CoreSystems

open Buffer (Bytes)
open Calls (Code wp)

namespace Net

open SocketHandle

namespace UdpLoopback

/-! ### The program

`mismatch` and `notEmpty` are endings of the program text; that a run never has them is part
of the result. -/

def server : HandleId := .user 0

def client : HandleId := .user 1

/-- How the program ends. -/
inductive Ending
  /-- Some operation failed. -/
  | failed (error : SocketError)
  /-- `Echo did not match the request or expected sender`. -/
  | mismatch
  /-- `Expected an empty datagram`. -/
  | notEmpty
  /-- It returns zero, and this is what it has printed after `Client received`. -/
  | echoed (printed : Bytes)

/-- `SetReceiveTimeout`, with the error that it prints. Winsock counts milliseconds. -/
def setReceiveTimeout (p : Platform) (SO_RCVTIMEO : Nat) (socket : HandleId) :
    N (Option SocketError) := do
  let timeout : Int := if p.windows then 5000 else 5
  match ← sys socket (.setsockopt (← get socket) p.SOL_SOCKET SO_RCVTIMEO timeout) with
  | .error _ => return some (← last)
  | .ok _ => return none

/-- The end of `main`: a datagram without a payload. -/
def sendEmpty (p : Platform) (rounds : Nat) (endpoint : SocketEndpoint) (printed : Bytes) :
    N Ending := do
  match ← UdpSocket.sendTo p rounds client [] endpoint with
  | .failure error => return .failed error
  | .success _ =>
    let (empty, _) ← UdpSocket.receiveFrom p rounds server []
    match empty with
    | .failure error => return .failed error
    | .success empty =>
      if empty.bytesReceived ≠ 0 then
        return .notEmpty
      else
        return .echoed printed

/-- `main` once the message is sent. -/
def exchange (p : Platform) (rounds : Nat) (message : Bytes) (endpoint : SocketEndpoint) :
    N Ending := do
  let (received, buffer) ← UdpSocket.receiveFrom p rounds server (List.replicate 256 0)
  match received with
  | .failure error => return .failed error
  | .success received =>
    match ← UdpSocket.sendTo p rounds server (buffer.take received.bytesReceived)
        received.sender with
    | .failure error => return .failed error
    | .success _ =>
      let (echoed, buffer) ← UdpSocket.receiveFrom p rounds client buffer
      match echoed with
      | .failure error => return .failed error
      | .success echoed =>
        let text := buffer.take echoed.bytesReceived
        if text ≠ message || !echoed.sender.equal endpoint then
          return .mismatch
        else
          sendEmpty p rounds endpoint text

/-- `main` inside the scope of `client`. -/
def request (p : Platform) (SO_RCVTIMEO rounds : Nat) (message : Bytes)
    (endpoint : SocketEndpoint) : N Ending := do
  match ← UdpSocket.sendTo p rounds client message endpoint with
  | .failure error => return .failed error
  | .success _ =>
    match ← setReceiveTimeout p SO_RCVTIMEO client with
    | some error => return .failed error
    | none => exchange p rounds message endpoint

/-- `main` inside the runtime. -/
def body (p : Platform) (SO_RCVTIMEO rounds : Nat) (message : Bytes) : N Ending := do
  construct server none
  leaving server do
    match ← UdpSocket.bind p server (.construct (.loopback .IPv4) 0 0) with
    | .failure error => return .failed error
    | .success _ =>
      match ← setReceiveTimeout p SO_RCVTIMEO server with
      | some error => return .failed error
      | none =>
        match ← queryEndpoint p server (← get server) false with
        | .failure error => return .failed error
        | .success endpoint =>
          construct client none
          leaving client (request p SO_RCVTIMEO rounds message endpoint)

/-- `main`. -/
def main (p : Platform) (SO_RCVTIMEO rounds : Nat) (message : Bytes) :
    Code (os.sum winsock) Process Exit Ending :=
  withRuntime p .failed (body p SO_RCVTIMEO rounds message)

/-! ### Two sockets

The server is bound to the loopback address, and known by its endpoint only; the client gets a
name with its first datagram. -/

/-- How the program may end: with an error, or with the message printed. -/
def Ending.Right (message : Bytes) : Ending → Prop
  | failed error => error.hasError = true
  | mismatch => False
  | notEmpty => False
  | echoed printed => printed = message

variable {p : Platform} {SO_RCVTIMEO rounds l c : Nat} {s : Process} {o o' : Post}
variable {message payload : Bytes} {endpoint name destination : SocketEndpoint} {a b : Mailbox}

/-- Two sockets beside those that were there. -/
def both (o : Post) (l c : Nat) (a b : Mailbox) : Post :=
  Function.update (Function.update o l (some a)) c (some b)

/-- The descriptors `l` and `c` were free. Nothing but the socket `l` gets what is sent to
`endpoint`, and nothing but `c` what is sent to `name`. -/
structure Pair (o : Post) (l c : Nat) (endpoint name : SocketEndpoint) : Prop where
  ne : c ≠ l
  server : o l = none
  client : o c = none
  own : ∀ e, Reaches endpoint e → e = endpoint
  serverAlone : o.Unshared endpoint
  clientAlone : o.Unshared name
  apart : ∀ e, Reaches endpoint e → ¬ Reaches name e

theorem both_client : both o l c a b c = some b := by
  simp [both]

theorem update_client (b' : Mailbox) :
    Function.update (both o l c a b) c (some b') = both o l c a b' :=
  Function.update_idem ..

namespace Pair

theorem both_server (h : Pair o l c endpoint name) : both o l c a b l = some a := by
  simp [both, h.ne.symm]

theorem update_server (h : Pair o l c endpoint name) (a' : Mailbox) :
    Function.update (both o l c a b) l (some a') = both o l c a' b := by
  rw [both, Function.update_comm h.ne, Function.update_idem]
  rfl

/-- When both are closed the sockets are as before. -/
theorem closed (h : Pair o l c endpoint name) :
    Function.update (Function.update (both o l c a b) c none) l none = o := by
  have hl : Function.update o l none = o := Function.update_eq_self_iff.mpr h.server.symm
  have hc : Function.update o c none = o := Function.update_eq_self_iff.mpr h.client.symm
  rw [both, Function.update_idem, Function.update_comm h.ne, Function.update_idem, hl, hc]

/-- What is sent to the server gets to it or is lost. -/
theorem delivers_server (h : Pair o l c endpoint name) {letter : Letter}
    (hb : b.bound = some name) (hdelivers : (both o l c a b).Delivers letter endpoint o') :
    ∃ letters, (letters = a.letters ∨ letters = a.letters ++ [letter]) ∧
      o' = both o l c { a with letters := letters } b := by
  rcases hdelivers with rfl | ⟨fd, box, bound, hbox, hbound, hreaches, rfl⟩
  · exact ⟨a.letters, .inl rfl, rfl⟩
  · by_cases hfd : fd = c
    · subst hfd
      rw [both_client] at hbox
      obtain rfl := Option.some.inj hbox
      obtain rfl := Option.some.inj (hb.symm.trans hbound)
      exact absurd hreaches (h.apart _ (.refl _))
    · by_cases hfd' : fd = l
      · subst hfd'
        rw [h.both_server] at hbox
        obtain rfl := Option.some.inj hbox
        exact ⟨_, .inr rfl, h.update_server _⟩
      · -- no other socket is bound there
        rw [both, Function.update_of_ne hfd, Function.update_of_ne hfd'] at hbox
        exact absurd (.refl _) (h.serverAlone fd box bound hbox hbound _ hreaches)

/-- What is sent to the client gets to it or is lost. -/
theorem delivers_client (h : Pair o l c endpoint name) {letter : Letter}
    (ha : a.bound = some endpoint) (hdelivers : (both o l c a b).Delivers letter destination o')
    (hname : Reaches name destination) :
    ∃ letters, (letters = b.letters ∨ letters = b.letters ++ [letter]) ∧
      o' = both o l c a { b with letters := letters } := by
  rcases hdelivers with rfl | ⟨fd, box, bound, hbox, hbound, hreaches, rfl⟩
  · exact ⟨b.letters, .inl rfl, rfl⟩
  · by_cases hfd : fd = c
    · subst hfd
      rw [both_client] at hbox
      obtain rfl := Option.some.inj hbox
      exact ⟨_, .inr rfl, update_client _⟩
    · by_cases hfd' : fd = l
      · subst hfd'
        rw [h.both_server] at hbox
        obtain rfl := Option.some.inj hbox
        obtain rfl := Option.some.inj (ha.symm.trans hbound)
        exact absurd hname (h.apart _ hreaches)
      · rw [both, Function.update_of_ne hfd, Function.update_of_ne hfd'] at hbox
        exact absurd hname (h.clientAlone fd box bound hbox hbound _ hreaches)

/-- The server replies: the client gets a datagram from `endpoint`, or nothing. -/
theorem sends_server (h : Pair o l c endpoint name) (ha : a.bound = some endpoint)
    (hsends : (both o l c a b).Sends l payload destination o') (hname : Reaches name destination) :
    ∃ letters, (letters = b.letters ∨ letters = b.letters ++ [⟨payload, endpoint⟩]) ∧
      o' = both o l c a { b with letters := letters } := by
  obtain ⟨bound, source, o₁, ⟨box, hbox, hsettled⟩, hsource, hdelivers⟩ := hsends
  rw [h.both_server] at hbox
  obtain rfl := Option.some.inj hbox
  rcases hsettled with ⟨hbound, rfl⟩ | ⟨hnone, -, -⟩
  · obtain rfl := Option.some.inj (ha.symm.trans hbound)
    obtain rfl := h.own source hsource
    exact h.delivers_client ha hdelivers hname
  · rw [ha] at hnone
    cases hnone

/-- The client sends: the server gets a datagram that can be replied to, or nothing. -/
theorem sends_client (h : Pair o l c endpoint name) (hb : b.bound = some name)
    (hsends : (both o l c a b).Sends c payload endpoint o') :
    ∃ letters source, Reaches name source ∧
      (letters = a.letters ∨ letters = a.letters ++ [⟨payload, source⟩]) ∧
      o' = both o l c { a with letters := letters } b := by
  obtain ⟨bound, source, o₁, ⟨box, hbox, hsettled⟩, hsource, hdelivers⟩ := hsends
  rw [both_client] at hbox
  obtain rfl := Option.some.inj hbox
  rcases hsettled with ⟨hbound, rfl⟩ | ⟨hnone, -, -⟩
  · obtain rfl := Option.some.inj (hb.symm.trans hbound)
    obtain ⟨letters, hletters, ho'⟩ := h.delivers_server hb hdelivers
    exact ⟨letters, source, hsource, hletters, ho'⟩
  · rw [hb] at hnone
    cases hnone

/-- The first datagram of the client, which gives its socket a name. -/
theorem of_first {o₁ : Post} (ho₁ : o₁ = Function.update o l (some a)) (hserver : o l = none)
    (hclient : o₁ c = none) (ha : a.bound = some endpoint)
    (hown : ∀ e, Reaches endpoint e → e = endpoint) (halone : o.Unshared endpoint)
    (hsends : Post.Sends (Function.update o₁ c (some .new)) c payload endpoint o') :
    ∃ name, Pair o l c endpoint name ∧ ∃ letters source, Reaches name source ∧
      (letters = a.letters ∨ letters = a.letters ++ [⟨payload, source⟩]) ∧
      o' = both o l c { a with letters := letters } ⟨some name, [], false⟩ := by
  subst ho₁
  have hne : c ≠ l := by
    rintro rfl
    simp at hclient
  have hclient₀ : o c = none := by rwa [Function.update_of_ne hne] at hclient
  obtain ⟨name, source, o₂, ⟨box, hbox, hsettled⟩, hsource, hdelivers⟩ := hsends
  rw [Function.update_self] at hbox
  obtain rfl := Option.some.inj hbox
  -- the socket is new, so it was bound for this datagram
  rcases hsettled with ⟨hbound, -⟩ | ⟨-, hunshared, rfl⟩
  · cases hbound
  · replace hunshared : (both o l c a .new).Unshared name := hunshared
    have hother : ∀ fd box, o fd = some box → both o l c a .new fd = some box := by
      intro fd box hbox
      rw [both, Function.update_of_ne, Function.update_of_ne, hbox]
      · rintro rfl
        simp [hserver] at hbox
      · rintro rfl
        simp [hclient₀] at hbox
    have hpair : Pair o l c endpoint name := {
      ne := hne
      server := hserver
      client := hclient₀
      own := hown
      serverAlone := halone
      clientAlone := fun fd box bound hbox => hunshared fd box bound (hother fd box hbox)
      apart := hunshared l a endpoint (by simp [both, hne.symm]) ha }
    obtain ⟨letters, hletters, ho'⟩ := hpair.delivers_server (b := ⟨some name, [], false⟩) rfl
      (show (both o l c a ⟨some name, [], false⟩).Delivers _ _ _ from by
        rwa [Function.update_idem] at hdelivers)
    exact ⟨name, hpair, letters, source, hsource, hletters, ho'⟩

end Pair

/-! ### The exchange

Each step is one operation; an operation that fails ends the program with its error. -/

variable {E : Exit → Process → Post → Prop}

/-- `SetReceiveTimeout`. -/
theorem wp_setReceiveTimeout {x : HandleId} {fd : Nat} (hx : s.handles x = some (some fd))
    (hfd : o fd = some a) :
    wp (postEnv p SO_RCVTIMEO) (setReceiveTimeout p SO_RCVTIMEO x) (fun r s' o' =>
      s'.handles = s.handles ∧
      match r with
      | some error => error.hasError = true ∧ o' = o
      | none => o' = Function.update o fd (some { a with timeout := true })) E s o := by
  rw [setReceiveTimeout, Calls.wp_bind, wp_getHandle hx, Calls.wp_bind]
  refine wp_timeout_post hfd (by split <;> decide) ?_ ?_
  · intro e s' hs' herrno
    rw [Calls.wp_bind, wp_last, herrno]
    exact ⟨hs', decide_eq_true e.2, rfl⟩
  · exact fun s' hs' => ⟨hs', rfl⟩

/-- What is left when `client` is destroyed. -/
def Exchanged (o : Post) (l c : Nat) (message : Bytes) (handles : HandleId → Option NativeHandle)
    (r : Ending) (s' : Process) (o' : Post) : Prop :=
  s'.handles = handles ∧ r.Right message ∧ ∃ a b, o' = both o l c a b

/-- The datagram without a payload is the only one that the server can get. -/
theorem wp_sendEmpty (h : Pair o l c endpoint name) (hidle : s.Idle)
    (hserver : s.handles server = some (some l)) (hclient : s.handles client = some (some c))
    (hb : b.bound = some name) (ha : a.timeout = true) (hempty : a.letters = [])
    (hout : ∀ s o', E .gaveUp s o') :
    wp (postEnv p SO_RCVTIMEO) (sendEmpty p rounds endpoint message)
      (Exchanged o l c message s.handles) E s (both o l c a b) := by
  rw [sendEmpty, Calls.wp_bind]
  refine (wp_sendTo_post hidle hclient hout).imp ?_
  intro r s₁ o₁ hr
  obtain ⟨hs₁, hr⟩ := hr
  cases r with
  | failure error =>
      obtain ⟨herror, htried⟩ := hr
      exact ⟨hs₁, herror, a, b, htried.eq both_client hb⟩
  | success sent =>
      obtain ⟨letters, source, -, hletters, rfl⟩ := h.sends_client hb hr
      rw [hempty] at hletters
      dsimp only
      rw [Calls.wp_bind]
      have hserver₁ : s₁.handles server = some (some l) := by rw [hs₁, hserver]
      have ha₁ : ({ a with letters := letters } : Mailbox).timeout = true := ha
      refine (wp_receiveFrom_post hserver₁ h.both_server (fun _ => ha₁) hout).imp ?_
      intro r s₂ o₂ hr
      obtain ⟨empty, buffer⟩ := r
      obtain ⟨hs₂, rest, ho₂, hr⟩ := hr
      rw [h.update_server] at ho₂
      cases empty with
      | failure error => exact ⟨hs₂.trans hs₁, hr, _, _, ho₂⟩
      | success got =>
          obtain ⟨letter, hletter, -, rfl, -⟩ := hr
          -- what the server gets can only be the empty datagram
          rcases hletters with rfl | rfl
          · cases hletter
          · cases hletter
            exact ⟨hs₂.trans hs₁, rfl, _, _, ho₂⟩

/-- The server gets the message, or nothing; so does the client. -/
theorem wp_exchange {source : SocketEndpoint} (h : Pair o l c endpoint name) (hidle : s.Idle)
    (hserver : s.handles server = some (some l)) (hclient : s.handles client = some (some c))
    (ha : a.bound = some endpoint) (hb : b.bound = some name) (haTime : a.timeout = true)
    (hbTime : b.timeout = true) (hbEmpty : b.letters = [])
    (hletters : a.letters = [] ∨ a.letters = [⟨message, source⟩]) (hsource : Reaches name source)
    (hout : ∀ s o', E .gaveUp s o') :
    wp (postEnv p SO_RCVTIMEO) (exchange p rounds message endpoint)
      (Exchanged o l c message s.handles) E s (both o l c a b) := by
  rw [exchange, Calls.wp_bind]
  refine (wp_receiveFrom_post hserver h.both_server (fun _ => haTime) hout).imp ?_
  intro r s₁ o₁ hr
  obtain ⟨received, buffer⟩ := r
  obtain ⟨hs₁, rest, ho₁, hr⟩ := hr
  rw [h.update_server] at ho₁
  cases received with
  | failure error => exact ⟨hs₁, hr, _, _, ho₁⟩
  | success got =>
      obtain ⟨letter, hletter, hfits, rfl, hbuffer⟩ := hr
      rcases hletters with hnone | hone
      · rw [hnone] at hletter
        cases hletter
      · rw [hone] at hletter
        cases hletter
        -- what stands first in the buffer is the message
        have htext : buffer.take message.length = message := by
          rw [show buffer = _ from hbuffer, Buffer.patch_zero, List.take_left]
        have hidle₁ : s₁.Idle := fun z hz => by rw [hs₁, hidle z hz]
        dsimp only
        rw [htext, Calls.wp_bind, ho₁]
        refine (wp_sendTo_post hidle₁ (by rw [hs₁]; exact hserver) hout).imp ?_
        intro r s₂ o₂ hr
        obtain ⟨hs₂, hr⟩ := hr
        have hkeep₂ : s₂.handles = s.handles := hs₂.trans hs₁
        cases r with
        | failure error =>
            obtain ⟨herror, htried⟩ := hr
            exact ⟨hkeep₂, herror, _, _, htried.eq h.both_server ha⟩
        | success sent =>
            obtain ⟨letters, hletters, rfl⟩ := h.sends_server
              (show ({ a with letters := [] } : Mailbox).bound = some endpoint from ha) hr hsource
            rw [hbEmpty] at hletters
            dsimp only
            rw [Calls.wp_bind]
            have hclient₂ : s₂.handles client = some (some c) := by rw [hkeep₂, hclient]
            have hb₂ : ({ b with letters := letters } : Mailbox).timeout = true := hbTime
            refine (wp_receiveFrom_post hclient₂ both_client (fun _ => hb₂) hout).imp ?_
            intro r s₃ o₃ hr
            obtain ⟨echoed, buffer₃⟩ := r
            obtain ⟨hs₃, rest₃, ho₃, hr⟩ := hr
            have hkeep₃ : s₃.handles = s.handles := hs₃.trans hkeep₂
            rw [update_client] at ho₃
            cases echoed with
            | failure error => exact ⟨hkeep₃, hr, _, _, ho₃⟩
            | success got =>
                obtain ⟨letter, hletter, -, rfl, hbuffer₃⟩ := hr
                rcases hletters with rfl | rfl
                · cases hletter
                · cases hletter
                  have htext₃ : buffer₃.take message.length = message := by
                    rw [show buffer₃ = _ from hbuffer₃, Buffer.patch_zero, List.take_left]
                  have hsender : endpoint.equal endpoint = true := SocketEndpoint.equal_iff.mpr rfl
                  have hidle₃ : s₃.Idle := fun z hz => by rw [hkeep₃, hidle z hz]
                  dsimp only
                  rw [htext₃, hsender, ho₃]
                  simp only [ne_eq, not_true_eq_false, decide_false, Bool.not_true, Bool.or_self,
                    Bool.false_eq_true, if_false]
                  refine (wp_sendEmpty (a := { a with letters := [] })
                    (b := { b with letters := [] }) h hidle₃ (by rw [hkeep₃, hserver])
                    (by rw [hkeep₃, hclient]) hb haTime rfl hout).imp ?_
                  intro r s₄ o₄ hr
                  exact ⟨hr.1.trans hkeep₃, hr.2⟩

/-! ### The whole program

Both sockets are closed, in whatever step the program ends. -/

/-- What `main` has done when `client` is destroyed: it holds the socket `l` of the server, and
the client may hold one more. -/
def Requested (o : Post) (l : Nat) (h : HandleId → Option NativeHandle) (message : Bytes)
    (r : Ending) (s' : Process) (o' : Post) : Prop :=
  r.Right message ∧ ∃ b : NativeHandle,
    s'.handles = Function.update (Function.update h server (some (some l))) client (some b) ∧
    Function.update ((b.map fun fd => Function.update o' fd none).getD o') l none = o

/-- `main` inside the scope of `client`. -/
theorem wp_request {h : HandleId → Option NativeHandle} {o₁ : Post} (hidle : s.Idle)
    (hs : s.handles = Function.update (Function.update h server (some (some l))) client
      (some none)) (hl : o l = none)
    (ho₁ : o₁ = Function.update o l (some ⟨some endpoint, [], true⟩))
    (hown : ∀ e, Reaches endpoint e → e = endpoint) (halone : o.Unshared endpoint)
    (hout : ∀ s o', E .gaveUp s o') :
    wp (postEnv p SO_RCVTIMEO) (request p SO_RCVTIMEO rounds message endpoint)
      (Requested o l h message) E s o₁ := by
  have hclosed : Function.update o₁ l none = o := by
    rw [ho₁, Function.update_idem, Function.update_eq_self_iff.mpr hl.symm]
  rw [request, Calls.wp_bind]
  refine (wp_sendTo_new_post hidle (by simp [hs, client]) hout).imp ?_
  intro r s₁ o₂ hr
  cases r with
  | failure error =>
      obtain ⟨hs₁, herror, rfl⟩ := hr
      exact ⟨herror, none, hs₁.trans hs, hclosed⟩
  | success sent =>
      obtain ⟨c, hfree, hs₁, hsends⟩ := hr
      obtain ⟨name, hpair, letters, source, hsource, hletters, rfl⟩ :=
        Pair.of_first ho₁ hl hfree rfl hown halone hsends
      have hidle₁ : s₁.Idle := hidle.update hs₁
      replace hs₁ : s₁.handles = Function.update (Function.update h server (some (some l))) client
          (some (some c)) := by
        rw [hs₁, hs]
        exact Function.update_idem ..
      have hclient₁ : s₁.handles client = some (some c) := by simp [hs₁]
      have hserver₁ : s₁.handles server = some (some l) := by simp [hs₁, client, server]
      -- however it goes on, both sockets are closed in the end
      have hend : ∀ {a b : Mailbox} {s' : Process}, s'.handles = s₁.handles → ∃ b' : NativeHandle,
          s'.handles = Function.update (Function.update h server (some (some l))) client (some b') ∧
          Function.update ((b'.map fun fd => Function.update (both o l c a b) fd none).getD
            (both o l c a b)) l none = o :=
        fun hs' => ⟨some c, hs'.trans hs₁, hpair.closed⟩
      dsimp only
      rw [Calls.wp_bind]
      refine (wp_setReceiveTimeout hclient₁ both_client).imp ?_
      intro r s₂ o₃ hr
      obtain ⟨hs₂, hr⟩ := hr
      cases r with
      | some error =>
          obtain ⟨herror, rfl⟩ := hr
          exact ⟨herror, hend hs₂⟩
      | none =>
          obtain rfl : o₃ = _ := hr
          rw [update_client]
          refine (wp_exchange hpair (fun z hz => by rw [hs₂, hidle₁ z hz]) (by rw [hs₂, hserver₁])
            (by rw [hs₂, hclient₁]) rfl rfl rfl rfl rfl hletters hsource hout).imp ?_
          intro r s₃ o₄ hr
          obtain ⟨hs₃, hright, a, b, rfl⟩ := hr
          exact ⟨hright, hend (hs₃.trans hs₂)⟩

/-- `main` inside the runtime: it closes both sockets. -/
theorem wp_body (hidle : s.Idle) (hdead : ∀ n ≤ 1, s.handles (.user n) = none) :
    wp (postEnv p SO_RCVTIMEO) (body p SO_RCVTIMEO rounds message) (fun r s' o' =>
      r.Right message ∧ s'.handles = s.handles ∧ o' = o) (fun e _ _ => e = .gaveUp) s o := by
  have hserver : s.handles server = none := hdead 0 (by decide)
  have hclient : s.handles client = none := hdead 1 (by decide)
  have hback : ∀ {s₁ : Process} {h : NativeHandle},
      s₁.handles = Function.update s.handles server (some h) →
      Function.update s₁.handles server none = s.handles := by
    intro s₁ h hs₁
    rw [hs₁, Function.update_idem, Function.update_eq_self_iff.mpr hserver.symm]
  rw [body, Calls.wp_bind, wp_construct, wp_leaving, Calls.wp_bind]
  refine (wp_bind_post hidle.put (by simp)).imp ?_
  intro r s₁ o₁ hr
  cases r with
  | failure error =>
      obtain ⟨hs₁, rfl, herror⟩ := hr
      refine (wp_destroy_post (h := none) (by simp [hs₁, server])).imp ?_
      intro _ s₂ o₂ hs₂
      exact ⟨herror, hs₂.1.trans (hback hs₁), hs₂.2⟩
  | success v =>
      obtain ⟨l, endpoint, hl, hs₁, hassigned, halone, rfl⟩ := hr
      replace hs₁ : s₁.handles = Function.update s.handles server (some (some l)) := by
        rw [hs₁]
        exact Function.update_idem ..
      have hserver₁ : s₁.handles server = some (some l) := by simp [hs₁]
      -- a failure leaves nothing but the socket of the server
      have hend : ∀ {error : SocketError} {s' : Process} {box : Mailbox}, error.hasError = true →
          s'.handles = s₁.handles →
          wp (postEnv p SO_RCVTIMEO) (destroy server) (fun _ s'' o'' =>
            (Ending.failed error).Right message ∧ s''.handles = s.handles ∧ o'' = o)
            (fun e _ _ => e = .gaveUp) s' (Function.update o l (some box)) := by
        intro error s' box herror hs'
        refine (wp_destroy_post (h := some l) (by rw [hs', hserver₁])).imp ?_
        intro _ s₂ o₂ hs₂
        obtain ⟨hs₂, rfl⟩ := hs₂
        refine ⟨herror, hs₂.trans (hback (hs'.trans hs₁)), ?_⟩
        show Function.update _ l none = o
        rw [Function.update_idem, Function.update_eq_self_iff.mpr hl.symm]
      dsimp only
      rw [Calls.wp_bind]
      refine (wp_setReceiveTimeout hserver₁ (Function.update_self ..)).imp ?_
      intro r s₂ o₂ hr
      obtain ⟨hs₂, hr⟩ := hr
      cases r with
      | some error =>
          obtain ⟨herror, rfl⟩ := hr
          exact hend herror hs₂
      | none =>
          obtain rfl : o₂ = _ := hr
          rw [Function.update_idem]
          dsimp only
          rw [Calls.wp_bind, wp_getHandle (h := some l) (by rw [hs₂, hserver₁]), Calls.wp_bind]
          have hbox : Function.update o l (some ⟨some endpoint, [], true⟩) l =
              some ⟨some endpoint, [], true⟩ := Function.update_self ..
          refine (wp_localEndpoint_post hbox rfl).imp ?_
          intro r s₃ o₃ hr
          obtain ⟨hs₃, rfl, hr⟩ := hr
          have hs₃' : s₃.handles = Function.update s.handles server (some (some l)) :=
            hs₃.trans (hs₂.trans hs₁)
          cases r with
          | failure error => exact hend hr (hs₃.trans hs₂)
          | success found =>
              obtain rfl : found = endpoint := hr
              have hown : ∀ e, Reaches found e → e = found := by
                intro e he
                refine he.eq fun hany => ?_
                rw [hassigned.address] at hany
                exact absurd (congrArg IPAddress.bytes hany) (by decide)
              dsimp only
              rw [Calls.wp_bind, wp_construct, wp_leaving]
              refine (wp_request (h := s.handles) (hidle.update hs₃').put ?_ hl rfl hown halone
                fun _ _ => rfl).imp ?_
              · funext z
                simp only [Process.handles_put, hs₃', Function.update_apply, client]
              · intro r s₄ o₄ hr
                obtain ⟨hright, b, hs₄, ho₄⟩ := hr
                refine (wp_destroy_post (h := b) (by simp [hs₄])).imp ?_
                intro _ s₅ o₅ hs₅
                obtain ⟨hs₅, rfl⟩ := hs₅
                refine (wp_destroy_post (h := some l)
                  (by simp [hs₅, hs₄, client, server])).imp ?_
                intro _ s₆ o₆ hs₆
                obtain ⟨hs₆, rfl⟩ := hs₆
                refine ⟨hright, ?_, ho₄⟩
                rw [hs₆, hs₅, hs₄]
                exact Process.written_congr [(_, _), (_, _), (_, _), (_, _)] []
                  (by simp [Process.written, client, server, hdead])

/-- **The UDP example.** On a host where nobody else sends to its sockets it never waits for
ever, closes both sockets, and prints the message that it has sent or reports an error: what
comes back is the message and comes from the server, and the last datagram is empty. It uses no
socket while Winsock is not started, and leaves Winsock as it was. -/
theorem main_replies {starts : Nat} (hidle : s.Idle)
    (hdead : ∀ n ≤ 1, s.handles (.user n) = none) :
    wp ((postEnv p SO_RCVTIMEO).beside (Started p) (winsockEnv p Process))
      (main p SO_RCVTIMEO rounds message) (fun r s' w' =>
        (r.Right message ∧ s'.handles = s.handles ∧ w'.1 = o) ∧ w'.2 = starts)
      (fun e _ _ => e = .gaveUp) s (o, starts) :=
  wp_withRuntime (w := (o, starts)) (fun _ herror => ⟨herror, rfl, rfl⟩) (wp_body hidle hdead)

/-- `Hello from the UDP client!` on a host without sockets. -/
theorem main_replies_hello :
    wp ((postEnv .linux 20).beside (Started .linux) (winsockEnv .linux Process))
      (main .linux 20 3 ("Hello from the UDP client!".toList.map fun c => UInt8.ofNat c.toNat))
      (fun r s' w' =>
        (r.Right ("Hello from the UDP client!".toList.map fun c => UInt8.ofNat c.toNat) ∧
          s'.handles = (fun _ => none) ∧ w'.1 = fun _ => none) ∧ w'.2 = 0)
      (fun e _ _ => e = .gaveUp) ⟨fun _ => none, 0⟩ (fun _ => none, 0) :=
  main_replies (fun _ _ => rfl) (fun _ _ => rfl)

end UdpLoopback

end Net

end CoreSystems
