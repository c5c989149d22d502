import CoreSystems.Net.Descriptors
import CoreSystems.Net.TcpOpening

/-!
# CoreSystems.Net.SocketSpecs

What `Connect` and both `Bind`s do to objects and descriptors.

The rules of `CoreSystems.Net.TcpOpening` are applied to the operating system as a set of
open descriptors, guarded or not. A call on a descriptor is accepted where the local or the
object that owns it makes it, and the ownership invariant holds at every call, because a new
descriptor is owned by one local after another. So it remains to say which descriptors are
open in the end: a failure closes what it has opened, and reports the call that failed, not
the `close` that came after it.
-/

namespace CoreSystems

open Buffer (Bytes)
open Calls (Env wp)

namespace Net

open SocketHandle

/-- How an operation fails that leaves everything as it was: `guards` says which fixed
error a guard gives before any call is made. -/
def FailedWith (guards : SocketError → Prop) (s : Process) (o : OS) (error : SocketError)
    (s' : Process) (o' : OS) : Prop :=
  s'.handles = s.handles ∧ o' = o ∧ guards error ∨ Kept s o s' o' ∧ Reports o o' error

/-- What `Connect` and `Bind` do on an object that holds `h`: a free object gets the new
descriptor, one in use is refused, and a failure leaves everything as it was. -/
def Attached (refusal : SocketError) (name : Nat) (h : NativeHandle) (s : Process) (o : OS)
    (r : SocketResult Unit) (s' : Process) (o' : OS) : Prop :=
  match r with
  | .success _ => h = none ∧ ∃ fd, Gained (.user name) fd s o s' o'
  | .failure error => FailedWith (fun e => e = refusal ∧ h.isSome) s o error s' o'

section Specs

variable {guarded : Prop} {s s₁ s' : Process} {o o₁ o' : OS} {p : Platform} {x y : HandleId}
variable {fd name : Nat} {h : NativeHandle} {endpoint : SocketEndpoint}
variable {guards : SocketError → Prop} {error : SocketError}

/-! ### Memory

What was done is read off the handles, so it may be said of any memory with these. -/

theorem Kept.held (h : Kept s o s₁ o') (hs : s'.handles = s₁.handles) : Kept s o s' o' :=
  ⟨hs.trans h.handles, h.openFds, h.managed, h.log⟩

theorem Gained.held (h : Gained x fd s o s₁ o') (hs : s'.handles = s₁.handles) :
    Gained x fd s o s' o' :=
  ⟨h.fresh, hs.trans h.handles, h.openFds, h.managed, h.log, h.created⟩

theorem Good.held (hg : Good s o) (hs : s'.handles = s.handles) : Good s' o :=
  hg.same fun z fd => by rw [hs]

theorem FailedWith.kept (h : FailedWith guards s o error s' o') : Kept s o s' o' := by
  rcases h with ⟨hs, rfl, -⟩ | ⟨h, -⟩
  · exact Kept.refl.held hs
  · exact h

theorem FailedWith.held (h : FailedWith guards s o error s₁ o')
    (hs : s'.handles = s₁.handles) : FailedWith guards s o error s' o' :=
  h.imp (fun h => ⟨hs.trans h.1, h.2⟩) fun h => ⟨h.1.held hs, h.2⟩

theorem Attached.held {refusal : SocketError} {r : SocketResult Unit}
    (hr : Attached refusal name h s o r s₁ o') (hs : s'.handles = s₁.handles) :
    Attached refusal name h s o r s' o' := by
  cases r with
  | success v => exact hr.imp_right fun h => h.imp fun fd hgain => hgain.held hs
  | failure error =>
      dsimp only [Attached] at hr ⊢
      exact hr.held hs

/-- A new descriptor is owned by the local that has taken it, so the invariant holds at the
calls made before the object gets it. -/
theorem Good.taken {created handle : HandleId} (hg : Good s o)
    (hcreated : s.handles created = none) (hhandle : s.handles handle = none)
    (hgain : Gained x fd s o s₁ o₁) (hs : s'.handles = taking s.handles created handle fd) :
    Good s' o₁ := by
  have hbefore : Good (s.put created none) o := hg.same fun z fd => by
    by_cases hz : z = created <;> simp [hz, hcreated]
  refine hbefore.gained (x := handle) ?_ ⟨hgain.fresh, hs, hgain.openFds,
    hgain.managed, hgain.log, hgain.created⟩
  intro d
  by_cases hz : handle = created <;> simp [hz, hhandle]

/-! ### Calls

One call of the owner of a descriptor. -/

/-- `socket` has answered. -/
theorem Gained.socket {family type protocol : Nat}
    (ho : (osEnv guarded).answers o ⟨y, .socket family type protocol⟩ (.ok fd) o') :
    Gained x fd s o (s.put x (some fd)) o' := by
  obtain ⟨hfresh, rfl⟩ := ho
  exact ⟨hfresh fd rfl, rfl, by ext; simp [OS.after, Event.created, Event.closed],
    by ext; simp [OS.after, Event.created, Event.closed], List.prefix_append ..,
    _, OS.mem_since_after, rfl⟩

/-- `accept` has answered. -/
theorem Gained.accept {h : NativeHandle}
    (ho : (osEnv guarded).answers o ⟨y, .accept h⟩ (.ok fd) o') :
    Gained x fd s o (s.put x (some fd)) o' := by
  obtain ⟨hfresh, rfl⟩ := ho
  exact ⟨hfresh fd rfl, rfl, by ext; simp [OS.after, Event.created, Event.closed],
    by ext; simp [OS.after, Event.created, Event.closed], List.prefix_append ..,
    _, OS.mem_since_after, rfl⟩

/-- A descriptor that was created and closed again. -/
theorem Gained.lost {s₀ s₁ s₂ s₃ : Process} {o₁ o₂ : OS} (hgain : Gained x fd s₀ o s₁ o₁)
    (hlost : Lost y fd s₂ o₁ s₃ o₂) (hs : s'.handles = s.handles) : Kept s o s' o₂ where
  handles := hs
  openFds := by rw [hlost.openFds, hgain.openFds, Finset.erase_insert hgain.fresh]
  managed := by
    rw [hlost.managed, hgain.managed,
      Finset.erase_insert fun hfd => hgain.fresh (o.managed_le hfd)]
  log := hgain.log.trans hlost.log

/-- A call that opens and frees nothing. -/
structure Call.Plain (c : Call) : Prop where
  created : ∀ x (a : os.Answer ⟨x, c⟩), Event.created ⟨⟨x, c⟩, a⟩ = none
  closed : ∀ x (a : os.Answer ⟨x, c⟩), Event.closed ⟨⟨x, c⟩, a⟩ = none
  ne_close : ∀ h, c ≠ .close h

/-- A call that neither opens nor closes has been answered. -/
theorem Kept.answer {r : Request} {a : os.Answer r} (hc : Event.created ⟨r, a⟩ = none)
    (hd : Event.closed ⟨r, a⟩ = none) (hs : s'.handles = s.handles)
    (ho : (osEnv guarded).answers o r a o') : Kept s o s' o' := by
  obtain ⟨-, rfl⟩ := ho
  exact Kept.after hc hd hs

/-- A call that is not a `close` has failed. -/
theorem Reports.answer {c : Call} {e : Errno} (hc : ∀ h, c ≠ .close h)
    (ho : (osEnv guarded).answers o ⟨x, c⟩ (.error e) o') : Reports o o' (.ofCode e) := by
  obtain ⟨-, rfl⟩ := ho
  refine Reports.last ?_
  intro hclose
  obtain ⟨h, hclose⟩ := hclose
  exact hc h hclose

/-- An owner's `close` has been answered. -/
theorem Lost.answer {a : os.Answer ⟨x, .close (some fd)⟩}
    (hs : s'.handles = Function.update s.handles x (some none))
    (ho : (osEnv guarded).answers o ⟨x, .close (some fd)⟩ a o') : Lost x fd s o s' o' := by
  obtain ⟨-, rfl⟩ := ho
  exact ⟨hs, by ext; simp [OS.after, Event.created, Event.closed, and_comm],
    by ext; simp [OS.after, Event.created, Event.closed, and_comm], List.prefix_append ..⟩

/-- What an owner asks of the operating system is accepted: this is where the ownership
invariant is used. -/
theorem Asks.os {c : Call} {Q : Except Errno c.Value → OS → Prop} (hg : guarded → Good s o)
    (hx : s.handles x = some (some fd)) (htarget : c.target = some (some fd))
    (hQ : ∀ a o', (osEnv guarded).answers o ⟨x, c⟩ a o' → Q a o') :
    Asks (osEnv guarded) s.handles ⟨x, c⟩ Q o := by
  refine ⟨?_, hQ⟩
  intro seen hseen
  exact accepts_owned (fun h => (hg h).held hseen) (hseen ▸ hx) htarget

/-- A call that opens and frees nothing keeps everything as it is. -/
theorem Asks.plain {c : Call} {Q : Except Errno c.Value → OS → Prop} (hg : guarded → Good s o)
    (hx : s.handles x = some (some fd)) (hc : c.Plain) (htarget : c.target = some (some fd))
    (hok : ∀ v o', Kept s o s o' → Q (.ok v) o')
    (herror : ∀ (e : Errno) o', Kept s o s o' → Reports o o' (.ofCode e) → Q (.error e) o') :
    Asks (osEnv guarded) s.handles ⟨x, c⟩ Q o := by
  refine Asks.os hg hx htarget ?_
  intro a o' ho
  have hkept : Kept s o s o' := Kept.answer (hc.created _ _) (hc.closed _ _) rfl ho
  cases a with
  | error e => exact herror e o' hkept (Reports.answer hc.ne_close ho)
  | ok v => exact hok v o' hkept

/-- The same for a call that is made again when it was interrupted. -/
theorem Repeats.plain {rounds : Nat} {c : Call} {Q : SocketResult c.Value → OS → Prop}
    (hg : guarded → Good s o) (hx : s.handles x = some (some fd)) (hc : c.Plain)
    (htarget : c.target = some (some fd)) (hQ : ∀ r o', Kept s o s o' → Q r o') :
    Repeats (osEnv guarded) p rounds s.handles ⟨x, c⟩ (fun e _ => e = .gaveUp) Q o := by
  refine Repeats.of_inv (fun o' => Kept s o s o') (fun o' => Kept s o s o') (fun _ h => h)
    Kept.refl (fun _ _ => rfl) ?_ fun error o' _ hkept => hQ _ _ hkept
  intro o₁ hkept
  refine Asks.plain (fun h => (hg h).kept hkept) hx hc htarget ?_ ?_
  · exact fun v o₂ hkept₂ => hQ _ _ (hkept.trans hkept₂)
  · exact fun e o₂ hkept₂ _ => hkept.trans hkept₂

/-- The owner of a descriptor closes it. -/
theorem Closes.os {Q : OS → Prop} (hg : guarded → Good s o) (hx : s.handles x = some (some fd))
    (hQ : ∀ o' e, Event.IsClose e → o' = o.after e → Lost x fd s o (s.put x none) o' → Q o') :
    Closes (osEnv guarded) s.handles x fd Q o :=
  Asks.os hg hx rfl fun _ _ ho => hQ _ _ ⟨_, rfl⟩ ho.2 (Lost.answer rfl ho)

/-- `Close` on an object with a descriptor. -/
theorem wp_close_os {Q : Unit → Process → OS → Prop} (hg : guarded → Good s o)
    (hx : s.handles x = some (some fd)) (hQ : ∀ s' o', Lost x fd s o s' o' → Q () s' o') :
    wp (osEnv guarded) (close x) Q OnlyGaveUp s o := by
  refine (wp_close_asks (Q := fun o' => Lost x fd s o (s.put x none) o') hx nofun ?_).imp ?_
  · intro fd' hfd
    cases hfd
    exact Closes.os hg hx fun _ _ _ _ hlost => hlost
  · intro _ s' o' hclosed
    obtain ⟨hs', hlost⟩ := hclosed
    exact hQ s' o' ⟨hs', hlost.openFds, hlost.managed, hlost.log⟩

/-! ### Opening

From `socket` or `accept` on, a descriptor is configured, attached to an address and given to
the object, or closed. -/

/-- `ConfigureTcpSocket`, by the owner of the descriptor. -/
theorem Configures.os {Q : SocketResult Unit → OS → Prop} (hg : guarded → Good s o)
    (hx : s.handles x = some (some fd)) (hok : ∀ o', Kept s o s o' → Q (.success ()) o')
    (herror : ∀ error o', Kept s o s o' → Reports o o' error → Q (.failure error) o') :
    Configures (osEnv guarded) p s.handles x fd Q o := by
  rw [Configures]
  split
  · exact hok o Kept.refl
  · refine Asks.plain hg hx ⟨fun _ _ => rfl, fun _ _ => rfl, by simp⟩ rfl ?_ ?_
    · exact fun v o' hkept => hok o' hkept
    · exact fun e o' hkept hreports => herror _ o' hkept hreports

/-- A new descriptor is closed if it cannot be configured. The error is that of the failed
option, not of the `close` that follows. -/
theorem Prepares.os {s₀ : Process} {o₀ : OS} {Q : SocketResult Nat → OS → Prop}
    (hg : guarded → Good s o) (hx : s.handles x = some (some fd))
    (hgain : Gained y fd s₀ o₀ s₁ o) (hok : ∀ o', Kept s o s o' → Q (.success fd) o')
    (herror : ∀ error o', Kept s₀ o₀ s₀ o' → Reports o₀ o' error → Q (.failure error) o') :
    Prepares (osEnv guarded) p s.handles x Q fd o := by
  refine Configures.os hg hx hok ?_
  intro error o₁ hkept hreports
  refine Closes.os (fun h => (hg h).kept hkept) hx ?_
  intro o₂ e he ho hlost
  exact herror error o₂ (hgain.lost (hkept.lost hlost) rfl)
    (ho ▸ (hreports.extend hgain.log).close he)

/-- `CreateTcpSocket`. -/
theorem Creates.os {Q : SocketResult Nat → OS → Prop} (hidle : s.Idle) (hg : guarded → Good s o)
    (hok : ∀ fd o', Gained (.created .operation) fd s o
      (s.put (.created .operation) (some fd)) o' → Q (.success fd) o')
    (herror : ∀ error o', Kept s o s o' → Reports o o' error → Q (.failure error) o') :
    Creates (osEnv guarded) p s.handles Q o := by
  intro family
  refine ⟨?_, ?_⟩
  · intro seen hseen hguard
    exact ⟨(hg hguard).held hseen, nofun⟩
  · intro a o₁ ha
    cases a with
    | error e => exact herror _ _ (Kept.answer rfl rfl rfl ha) (Reports.answer (by simp) ha)
    | ok fd =>
        have hgain : Gained (.created .operation) fd s o _ o₁ := Gained.socket ha
        have hcreated := hidle (.created .createTcpSocket) (by simp)
        have hhandle := hidle (.handle .createTcpSocket) (by simp)
        refine Prepares.os (s := ⟨taking s.handles _ _ fd, s.errno⟩)
          (fun h => (hg h).taken hcreated hhandle hgain rfl)
          (by simp [taking, Process.written]) hgain ?_ herror
        intro o₂ hkept
        refine hok fd o₂ (hgain.moved hkept ?_)
        intro z
        rw [Process.handles_put]

/-- The call that attaches the descriptor. -/
theorem Attaches.os {attach : Nat → Call} {Q : SocketResult Nat → OS → Prop}
    (hattach : (attach fd).Plain ∧ (attach fd).target = some (some fd)) (hidle : s.Idle)
    (hg : guarded → Good s o) (hgain : Gained (.created .operation) fd s o s₁ o₁)
    (hok : ∀ o', Gained x fd s o (s.put x (some fd)) o' → Q (.success fd) o')
    (herror : ∀ error o', Kept s o s o' → Reports o o' error → Q (.failure error) o') :
    Attaches (osEnv guarded) s.handles attach Q (.success fd) o₁ := by
  have hcreated := hidle (.created .operation) (by simp)
  have hhandle := hidle (.handle .operation) (by simp)
  have hown : taking s.handles (.created .operation) (.handle .operation) fd
      (.handle .operation) = some (some fd) := by simp [taking, Process.written]
  have hgood : guarded → Good ⟨taking s.handles _ _ fd, s.errno⟩ o₁ :=
    fun h => (hg h).taken hcreated hhandle hgain rfl
  refine Asks.plain (s := ⟨taking s.handles _ _ fd, s.errno⟩) hgood hown hattach.1 hattach.2 ?_ ?_
  · intro v o₂ hkept
    refine hok o₂ (hgain.moved hkept ?_)
    intro z
    rw [Process.handles_put]
  · intro e o₂ hkept hreports
    refine Closes.os (s := ⟨taking s.handles _ _ fd, s.errno⟩)
      (fun h => (hgood h).kept hkept) hown ?_
    intro o₃ e' he ho hlost
    exact herror _ o₃ (hgain.lost (hkept.lost hlost) rfl)
      (ho ▸ (hreports.extend hgain.log).close he)

/-- A call on a new descriptor as `Connect` and `Bind` make it. -/
theorem attach_plain {attach : NativeHandle → Bytes → Nat → Call}
    (hattach : attach = .connect ∨ attach = .bind) (h : NativeHandle) (b : Bytes) (n : Nat) :
    (attach h b n).Plain ∧ (attach h b n).target = some h := by
  rcases hattach with rfl | rfl <;> exact ⟨⟨fun _ _ => rfl, fun _ _ => rfl, by simp⟩, rfl⟩

/-- What the object holds when it was refused or the attempt has failed. -/
theorem Attached.refused {refusal : SocketError} (hx : s.handles (.user name) = some h)
    (hsome : h.isSome) :
    Attached refusal name h s o (.failure refusal) (s.put (.user name) h) o :=
  .inl ⟨by rw [Process.put_self hx], rfl, rfl, hsome⟩

theorem Attached.failed {refusal : SocketError} (hx : s.handles (.user name) = some none)
    (hkept : Kept s o s o') (hreports : Reports o o' error) :
    Attached refusal name none s o (.failure error) (s.put (.user name) none) o' :=
  .inr ⟨hkept.held (by rw [Process.put_self hx]), hreports⟩

/-- `Connect` and `TcpListener::Bind`. A refusal makes no call; a failure leaves everything
as it was; success gives the object the descriptor that was created. -/
theorem wp_openWith_os {refusal : SocketError} {attach : NativeHandle → Bytes → Nat → Call}
    (hrefusal : refusal.hasError = true) (hattach : attach = .connect ∨ attach = .bind)
    (hidle : s.Idle) (hx : s.handles (.user name) = some h) (hg : guarded → Good s o) :
    wp (osEnv guarded) (openWith p refusal (createTcpSocket p) attach (.user name) endpoint)
      (Attached refusal name h s o) OnlyGaveUp s o := by
  refine (wp_openWith_asks
    (Q := fun r h' o' => Attached refusal name h s o r (s.put (.user name) h') o') hrefusal hidle
    hx (Attached.refused hx) ?_).imp ?_
  · rintro rfl
    refine Creates.os hidle hg ?_ fun error o' => Attached.failed hx
    intro fd o₁ hgain
    exact Attaches.os (attach_plain hattach _ _ _) hidle hg hgain (fun o' h => ⟨rfl, fd, h⟩)
      fun error o' => Attached.failed hx
  · intro r s' o' hr
    obtain ⟨h', hs', hr⟩ := hr
    exact hr.held hs'

/-- `TcpSocket::Connect`. -/
theorem wp_connect (hidle : s.Idle) (hx : s.handles (.user name) = some h)
    (hg : guarded → Good s o) :
    wp (osEnv guarded) (TcpSocket.connect p (.user name) endpoint)
      (Attached (.ofErrc p .alreadyConnected) name h s o) OnlyGaveUp s o :=
  wp_openWith_os (SocketError.hasError_ofErrc ..) (.inl rfl) hidle hx hg

/-- `TcpListener::Bind`. -/
theorem wp_bindListener (hidle : s.Idle) (hx : s.handles (.user name) = some h)
    (hg : guarded → Good s o) :
    wp (osEnv guarded) (TcpListener.bind p (.user name) endpoint)
      (Attached (invalidArgument p) name h s o) OnlyGaveUp s o :=
  wp_openWith_os (SocketError.hasError_ofErrc ..) (.inr rfl) hidle hx hg

/-- `UdpSocket::Bind`, which configures nothing. -/
theorem wp_bindUdp (hidle : s.Idle) (hx : s.handles (.user name) = some h)
    (hg : guarded → Good s o) :
    wp (osEnv guarded) (UdpSocket.bind p (.user name) endpoint)
      (Attached (invalidArgument p) name h s o) OnlyGaveUp s o := by
  refine (wp_bindUdp_asks (Q := fun r h' o' =>
    Attached (invalidArgument p) name h s o r (s.put (.user name) h') o') hidle hx
    (Attached.refused hx) ?_).imp ?_
  · rintro rfl family
    refine ⟨fun seen hseen hguard => ⟨(hg hguard).held hseen, nofun⟩, ?_⟩
    intro a o₁ ha
    cases a with
    | error e =>
        exact Attached.failed hx (Kept.answer rfl rfl rfl ha) (Reports.answer (by simp) ha)
    | ok fd =>
        exact Attaches.os (attach_plain (.inr rfl) _ _ _) hidle hg (Gained.socket ha)
          (fun o' h => ⟨rfl, fd, h⟩) fun error o' => Attached.failed hx
  · intro r s' o' hr
    obtain ⟨h', hs', hr⟩ := hr
    exact hr.held hs'

end Specs

end Net

end CoreSystems
