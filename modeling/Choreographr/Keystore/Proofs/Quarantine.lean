import Choreographr.Keystore.Proofs.Handlers

/-!
# The quarantine of rejected grants

An account is quarantined by a notice, which names the account and not the grant that the
provider has rejected. Every command that replaces or removes the stored grant lifts the
quarantine, so a quarantined account holds a rejected grant exactly as long as no notice is
handled after its grant was replaced. The saves of a refresh are checked against the stored
refresh token; the notices are not, and a login that overtakes one is quarantined by it.
-/

namespace Choreographr.Keystore

open Lib

variable {cr : Crypto} {env : Outcome} {d d' : Daemon} {os : List Event}

/-- A notice is handled while the rejected grant is still stored, or changes nothing: the check
that the saves of a refresh make. -/
def State.noticeInTime (cr : Crypto) (s : State) : Action → Bool
  | .handle _ =>
      match s.inbox.head?.bind Command.notice? with
      | some (key, token) =>
          s.daemon.deadOauth key ||
            (s.daemon.stored cr key).any fun c => refreshTokenUnchanged c (some token)
      | none => true
  | _ => true

/-! ## The invariant -/

/-- The stored grant of a quarantined key is one that the provider has rejected. -/
def Daemon.SoundQuarantine (cr : Crypto) (os : List Event) (d : Daemon) : Prop :=
  ∀ key, d.deadOauth key = true → ∃ c token, d.stored cr key = some c ∧
    c.refreshToken = some token ∧ .rejected key token ∈ os

structure State.Quarantine (cr : Crypto) (os : List Event) (s : State) : Prop where
  mirrors : s.daemon.Mirrors cr
  notices : ∀ c ∈ s.inbox, ∀ key token, c.notice? = some (key, token) →
    .rejected key token ∈ os
  sound : s.daemon.SoundQuarantine cr os

namespace Daemon

theorem SoundQuarantine.mono {es : List Event} (h : d.SoundQuarantine cr os) :
    d.SoundQuarantine cr (os ++ es) := by
  intro key hDead
  obtain ⟨c, token, hStored, hToken, hRejected⟩ := h key hDead
  exact ⟨c, token, hStored, hToken, List.mem_append_left es hRejected⟩

theorem SoundQuarantine.of_le (h : d.SoundQuarantine cr os)
    (hDead : ∀ key, d'.deadOauth key = true →
      d.deadOauth key = true ∧ d'.stored cr key = d.stored cr key) : d'.SoundQuarantine cr os := by
  intro key hKey
  obtain ⟨hBefore, hSame⟩ := hDead key hKey
  obtain ⟨c, token, hStored, hToken, hRejected⟩ := h key hBefore
  exact ⟨c, token, hSame.trans hStored, hToken, hRejected⟩

/-! ## Storing and removing -/

theorem Stored.sound {key : String} {c : ServiceCredential} (h : Stored cr d d' key c)
    (hSound : d.SoundQuarantine cr os) : d'.SoundQuarantine cr os := by
  refine hSound.of_le ?_
  intro other hDead
  rw [h.deadOauth] at hDead
  by_cases hEq : other = key
  · subst hEq
    simp at hDead
  · rw [Function.update_of_ne hEq] at hDead
    exact ⟨hDead, stored_congr h.binding (h.blobs_of_ne hEq)⟩

theorem Removed.sound {key : String} (h : Removed d d' key) (hSound : d.SoundQuarantine cr os) :
    d'.SoundQuarantine cr os := by
  refine hSound.of_le ?_
  intro other hDead
  rw [h.deadOauth] at hDead
  by_cases hEq : other = key
  · subst hEq
    simp at hDead
  · rw [Function.update_of_ne hEq] at hDead
    refine ⟨hDead, stored_congr h.binding ?_⟩
    rw [h.blobs, Table.remove_of_ne _ hEq]

theorem Cached.sound {account : String} (h : Cached d d' account) (hSound : d.SoundQuarantine cr os) :
    d'.SoundQuarantine cr os := by
  refine hSound.of_le ?_
  intro other hDead
  rw [h.deadOauth] at hDead
  have hSame : d'.stored cr other = d.stored cr other :=
    stored_congr h.binding (congrFun h.blobs other)
  by_cases hEq : other = account
  · subst hEq
    simp at hDead
  · rw [Function.update_of_ne hEq] at hDead
    exact ⟨hDead, hSame⟩

theorem SoundQuarantine.publish (h : d.SoundQuarantine cr os) (key : String) :
    (d.publishMcpOauthKey key).SoundQuarantine cr os := by
  obtain ⟨view, hView⟩ := d.publishMcpOauthKey_eq key
  rw [hView]
  exact h

theorem SoundQuarantine.mark {key token : String} (h : d.SoundQuarantine cr os)
    (hStored : (d.stored cr key).any (fun c => refreshTokenUnchanged c (some token)) = true)
    (hRejected : .rejected key token ∈ os) : (d.setDead key true).SoundQuarantine cr os := by
  intro other hDead
  by_cases hEq : other = key
  · subst hEq
    obtain ⟨c, hSome, hToken⟩ := (Option.any_eq_true _ _).mp hStored
    exact ⟨c, token, hSome, by simpa [refreshTokenUnchanged] using hToken, hRejected⟩
  · rw [setDead_deadOauth, Function.update_of_ne hEq] at hDead
    exact h other hDead

/-! ## Every command keeps it -/

theorem unlockTail_sound {key : List UInt8} (h : d.unlockTail cr env key = .ok d')
    (hSound : d.SoundQuarantine cr os) : d'.SoundQuarantine cr os := by
  obtain ⟨-, hBinding, hBlobs, hDead, -, -⟩ := unlockTail_ok h
  refine hSound.of_le ?_
  intro other hOther
  rw [hDead] at hOther
  exact ⟨hOther, stored_congr hBinding (congrFun hBlobs other)⟩

/-- While nothing is bound, nothing is stored, so no key is quarantined. -/
theorem bindKeystore_sound {key : List UInt8} (h : d.bindKeystore cr env key = .ok d')
    (hSound : d.SoundQuarantine cr os) : d'.SoundQuarantine cr os := by
  obtain ⟨hBinding, rfl⟩ := bindKeystore_ok h
  refine hSound.of_le ?_
  intro other hDead
  refine ⟨hDead, ?_⟩
  rcases hBinding with hNone | hSome
  · obtain ⟨c, token, hStored, -⟩ := hSound other hDead
    rw [stored, hNone] at hStored
    cases hStored
  · exact stored_congr hSome.symm rfl

theorem Change.sound {command : Command} (hChange : d.Change cr env command d')
    (h : d.SoundQuarantine cr os)
    (hNotice : ∀ key token, command.notice? = some (key, token) → .rejected key token ∈ os ∧
      (d.deadOauth key = true ∨
        (d.stored cr key).any (fun c => refreshTokenUnchanged c (some token)) = true)) :
    d'.SoundQuarantine cr os := by
  cases hChange with
  | same _ => exact h
  | unlocked _ hTail => exact unlockTail_sound hTail h
  | bound hBound => exact bindKeystore_sound hBound h
  | opened hBound hTail => exact unlockTail_sound hTail (bindKeystore_sound hBound h)
  | lock => exact fun key hDead => by cases hDead
  | stored hStored => exact hStored.sound h
  | cached hCached => exact hCached.sound h
  | removed _ hRemoved => exact hRemoved.sound h
  | published => exact h.publish _
  | @marked account token hNew =>
    obtain ⟨hRejected, hInTime⟩ := hNotice account token rfl
    exact h.mark (hInTime.resolve_left hNew) hRejected
  | @rejected key token hNew =>
    obtain ⟨hRejected, hInTime⟩ := hNotice key token rfl
    exact (h.mark (hInTime.resolve_left hNew) hRejected).publish key

end Daemon

namespace State

variable {s s' : State}

theorem quarantine_opened (binding : Option (List UInt8)) (blobs : Table (List UInt8))
    (accounts : List AccountConfig) : (opened cr binding blobs accounts).Quarantine cr [] where
  mirrors hOpen := by cases hOpen
  notices c hMem := by cases hMem
  sound key hDead := by cases hDead

theorem Quarantine.handle {es : List Event} (h : s.Quarantine cr os)
    (hInTime : s.noticeInTime cr (.handle env) = true) (hStep : s.handle cr env = some (s', es)) :
    s'.Quarantine cr (os ++ es) := by
  obtain ⟨command, rest, hInbox, -, hDaemon, hRest⟩ := handle_eq_some hStep
  have hNotices := h.notices
  rw [hInbox] at hNotices
  constructor
  · rw [hDaemon]
    exact (Daemon.after_change _ _ _ command).mirrors h.mirrors
  · rw [hRest]
    intro c hMem key token hNotice
    exact List.mem_append_left es
      (hNotices c (List.mem_cons_of_mem command hMem) key token hNotice)
  · rw [hDaemon]
    refine ((Daemon.after_change _ _ _ command).sound h.sound ?_).mono
    intro key token hNotice
    refine ⟨hNotices command List.mem_cons_self key token hNotice, ?_⟩
    simpa [noticeInTime, hInbox, hNotice] using hInTime

theorem Quarantine.step {es : List Event} {a : Action} (h : s.Quarantine cr os)
    (hInTime : s.noticeInTime cr a = true) (hStep : (machine cr).step s a = some (s', es)) :
    s'.Quarantine cr (os ++ es) := by
  rcases step_cases hStep with ⟨env, rfl, hHandle⟩ | ⟨view, posted, hDaemon, hInbox, hNew, -⟩
  · exact h.handle hInTime hHandle
  · constructor
    · rw [hDaemon]
      exact h.mirrors.readView view
    · rw [hInbox]
      intro c hMem key token hNotice
      rcases List.mem_append.mp hMem with hOld | hPosted
      · exact List.mem_append_left es (h.notices c hOld key token hNotice)
      · exact List.mem_append_right os (hNew c hPosted key token hNotice)
    · rw [hDaemon]
      exact Daemon.SoundQuarantine.mono (d := { s.daemon with readView := view }) h.sound

end State

/-- In every run whose notices are handled in time, a key is quarantined only while the grant
that is stored for it is one that the provider has rejected. -/
theorem quarantine_sound (cr : Crypto) (binding : Option (List UInt8))
    (blobs : Table (List UInt8)) (accounts : List AccountConfig) {as : List Action} {s : State}
    {os : List Event}
    (hExec : ((machine cr).guard fun s a => s.noticeInTime cr a = true).exec
      (opened cr binding blobs accounts) as = some (s, os)) (key : String)
    (hDead : s.daemon.deadOauth key = true) :
    ∃ c token, s.daemon.stored cr key = some c ∧ c.refreshToken = some token ∧
      .rejected key token ∈ os ∧
      (s.daemon.locked = false → s.daemon.credentials key = some c) := by
  have hState := Machine.exec_invariant (P := fun os s => State.Quarantine cr os s)
    (fun hBefore hStep => by
      obtain ⟨hInTime, hTaken⟩ := Machine.guard_step_eq_some.mp hStep
      exact hBefore.step hInTime hTaken)
    (State.quarantine_opened binding blobs accounts) hExec
  obtain ⟨c, token, hStored, hToken, hRejected⟩ := hState.sound key hDead
  refine ⟨c, token, hStored, hToken, hRejected, ?_⟩
  intro hOpen
  obtain ⟨pub, hBinding, hSame⟩ := hState.mirrors hOpen
  rw [hSame, ← Daemon.stored_of_binding hBinding, hStored]

/-- A fresh keystore with one grant, whose refresh is under way. -/
def sampleExchange : List Action :=
  [.post (.bind sampleKey), .handle {}, .post (.saveCredential "acct" (sampleGrant "old")),
    .handle {}, .begin { account := "acct" }, .advance 0 .transient, .advance 0 .transient,
    .advance 0 .transient, .handle {}, .advance 0 .transient]

/-- The provider rejects the grant, and the notice is handled. -/
def sampleRejection : List Action :=
  sampleExchange ++ [Action.advance 0 .terminal, Action.handle {}]

theorem sample_quarantine_sound :
    ∃ s os c token, ((machine sampleCrypto).guard fun s a =>
        s.noticeInTime sampleCrypto a = true).exec (opened sampleCrypto none Table.empty []) sampleRejection =
          some (s, os) ∧
      s.daemon.stored sampleCrypto "acct" = some c ∧ c.refreshToken = some token ∧
        Event.rejected "acct" token ∈ os := by
  have hRun : ((machine sampleCrypto).guard fun s a =>
      s.noticeInTime sampleCrypto a = true).check (opened sampleCrypto none Table.empty []) sampleRejection
        (fun s _ => s.daemon.deadOauth "acct") = true := by decide +kernel
  obtain ⟨s, os, hExec, hDead⟩ := Machine.exists_of_check hRun
  obtain ⟨c, token, hStored, hToken, hRejected, -⟩ :=
    quarantine_sound sampleCrypto none Table.empty [] hExec "acct" hDead
  exact ⟨s, os, c, token, hExec, hStored, hToken, hRejected⟩

/-- The same, but the user signs in again while the exchange is running. -/
def overtakenRejection : List Action :=
  sampleExchange ++ [Action.post (.saveCredential "acct" (sampleGrant "new")), Action.handle {},
    Action.advance 0 .terminal, Action.handle {}]

/-- The new grant is quarantined, though the provider has never rejected it. -/
theorem new_grant_is_quarantined :
    ∃ s os, (machine sampleCrypto).exec (opened sampleCrypto none Table.empty []) overtakenRejection =
        some (s, os) ∧
      s.daemon.deadOauth "acct" = true ∧
      s.daemon.stored sampleCrypto "acct" = some (sampleGrant "new") ∧
      Event.rejected "acct" "new" ∉ os := by
  have hRun : (machine sampleCrypto).check (opened sampleCrypto none Table.empty []) overtakenRejection
      (fun s os => s.daemon.deadOauth "acct" &&
        decide (s.daemon.stored sampleCrypto "acct" = some (sampleGrant "new")) &&
        decide (Event.rejected "acct" "new" ∉ os)) = true := by decide +kernel
  obtain ⟨s, os, hExec, hTest⟩ := Machine.exists_of_check hRun
  simp only [Bool.and_eq_true, decide_eq_true_eq] at hTest
  exact ⟨s, os, hExec, hTest.1.1, hTest.1.2, hTest.2⟩

end Choreographr.Keystore
