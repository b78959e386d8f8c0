import Choreographr.Keystore.Proofs.Handlers

/-!
# A locked keystore holds no cleartext

Only an unlock or a bind with the key of the binding puts credentials in the clear, and it
clears the lock in the same assignment. Every other handler either leaves a locked daemon as
it is or removes entries from tables that are empty. The read view of the MCP credentials is
also written by connections, ahead of the command that makes a rotation durable; while the
daemon is locked, an entry of it is there only as long as that command waits.
-/

namespace Choreographr.Keystore

open Lib

variable {cr : Crypto} {env : Outcome} {d : Daemon} {command : Command} {os : List Event}

/-- While the daemon is locked, its tables of credentials are empty. -/
def Daemon.Clear (d : Daemon) : Prop :=
  d.locked = true →
    d.credentials = Table.empty ∧ d.accessTokens = Table.empty ∧ d.xCredentials = none

/-- While the daemon is locked, an entry of the read view waits for its command. -/
def Daemon.Covered (d : Daemon) (inbox : List Command) : Prop :=
  d.locked = true → ∀ key, d.readView key ≠ none → ∃ c e, Command.oauthSave key c e ∈ inbox

structure State.Sealed (s : State) : Prop where
  clear : s.daemon.Clear
  covered : s.daemon.Covered s.inbox
  mcpKeys : ∀ key c e, Command.oauthSave key c e ∈ s.inbox → isMcpCredentialKey key = true

namespace Daemon

theorem Clear.of_unlocked (h : d.locked = false) : d.Clear := fun hLocked => by
  rw [h] at hLocked
  cases hLocked

theorem Covered.of_unlocked {inbox : List Command} (h : d.locked = false) : d.Covered inbox :=
  fun hLocked => by
    rw [h] at hLocked
    cases hLocked

theorem Covered.tail {rest : List Command} (h : d.Covered (command :: rest))
    (hOther : ∀ key c e, command ≠ .oauthSave key c e) : d.Covered rest := by
  intro hLocked key hView
  obtain ⟨c, e, hMem⟩ := h hLocked key hView
  rcases List.mem_cons.mp hMem with hEq | hRest
  · exact absurd hEq.symm (hOther key c e)
  · exact ⟨c, e, hRest⟩

theorem Covered.mono {d' : Daemon} {inbox : List Command} (h : d.Covered inbox)
    (hLocked : d'.locked = d.locked)
    (hView : ∀ key, d'.readView key ≠ none → d.readView key ≠ none) : d'.Covered inbox := by
  intro hClosed key hKey
  exact h (hLocked ▸ hClosed) key (hView key hKey)

theorem mcpOauthSnapshot_of_empty (h : d.credentials = Table.empty) (key : String) :
    d.mcpOauthSnapshot key = none := by
  simp [mcpOauthSnapshot, h]

theorem publishMcpOauthKey_readView (h : d.credentials = Table.empty) (key other : String) :
    (d.publishMcpOauthKey key).readView other ≠ none → d.readView other ≠ none := by
  unfold publishMcpOauthKey
  split
  · by_cases hEq : other = key
    · subst hEq
      simp [mcpOauthSnapshot_of_empty h]
    · simp [Function.update_of_ne hEq]
  · exact id

theorem publishMcpOauthKey_withdraws (h : d.credentials = Table.empty) {key : String}
    (hKey : isMcpCredentialKey key = true) : (d.publishMcpOauthKey key).readView key = none := by
  simp [publishMcpOauthKey, hKey, mcpOauthSnapshot_of_empty h]

/-! ## Every command keeps it -/

theorem Clear.remove (h : d.Clear) {d' : Daemon} (key : String)
    (hLocked : d'.locked = d.locked) (hCredentials : d'.credentials = d.credentials.remove key)
    (hTokens : d'.accessTokens = d.accessTokens.remove key)
    (hX : d'.xCredentials = none ∨ d'.xCredentials = d.xCredentials) : d'.Clear := by
  intro hClosed
  obtain ⟨hEmpty, hNoTokens, hNoX⟩ := h (hLocked ▸ hClosed)
  refine ⟨?_, ?_, ?_⟩
  · rw [hCredentials, hEmpty, Table.remove_empty]
  · rw [hTokens, hNoTokens, Table.remove_empty]
  · rcases hX with hX | hX
    · exact hX
    · rw [hX, hNoX]

theorem Change.clear {d' : Daemon} (hChange : d.Change cr env command d') (h : d.Clear) :
    d'.Clear := by
  cases hChange with
  | same _ => exact h
  | unlocked _ hTail => exact .of_unlocked (unlockTail_ok hTail).1
  | bound hBound =>
    rw [(bindKeystore_ok hBound).2]
    exact h
  | opened _ hTail => exact .of_unlocked (unlockTail_ok hTail).1
  | lock => exact fun _ => ⟨rfl, rfl, rfl⟩
  | stored hStored => exact .of_unlocked (hStored.locked.trans hStored.unlocked)
  | cached hCached => exact .of_unlocked (hCached.locked.trans hCached.unlocked)
  | @removed _ key d' _ hRemoved _ hTokens hX =>
    exact h.remove key hRemoved.locked hRemoved.credentials (by simpa using hTokens)
      (by simpa using hX)
  | published => simpa [Clear] using h
  | marked _ =>
    intro hLocked
    obtain ⟨hEmpty, hNoTokens, hNoX⟩ := h hLocked
    exact ⟨hEmpty, by rw [hNoTokens, Table.remove_empty], hNoX⟩
  | rejected _ => simpa [Clear] using h

theorem Covered.publish {d' : Daemon} {inbox : List Command} {key : String}
    (hClear : d'.Clear) (h : d.Covered inbox) (hLocked : d'.locked = d.locked)
    (hView : d'.readView = d.readView) : (d'.publishMcpOauthKey key).Covered inbox := by
  intro hClosed other hOther
  rw [publishMcpOauthKey_locked] at hClosed
  have hKept := publishMcpOauthKey_readView (hClear hClosed).1 key other hOther
  exact h (hLocked ▸ hClosed) other (hView ▸ hKept)

theorem Change.covered {d' : Daemon} {rest : List Command} (hChange : d.Change cr env command d')
    (hClear : d.Clear) (h : d.Covered (command :: rest))
    (hKeys : ∀ key c e, command = .oauthSave key c e → isMcpCredentialKey key = true) :
    d'.Covered rest := by
  have hAfter := hChange.clear hClear
  cases hChange with
  | same hSave =>
    by_cases hIs : ∃ key c e, command = .oauthSave key c e
    · exact .of_unlocked (hSave hIs)
    · exact h.tail fun key c e hEq => hIs ⟨key, c, e, hEq⟩
  | unlocked _ hTail => exact .of_unlocked (unlockTail_ok hTail).1
  | bound hBound =>
    rw [(bindKeystore_ok hBound).2]
    exact h.tail (by simp)
  | opened _ hTail => exact .of_unlocked (unlockTail_ok hTail).1
  | lock =>
    intro hLocked key hView
    exact absurd (mcpOauthSnapshot_of_empty rfl key) hView
  | stored hStored => exact .of_unlocked (hStored.locked.trans hStored.unlocked)
  | cached hCached => exact .of_unlocked (hCached.locked.trans hCached.unlocked)
  | removed hCommand hRemoved hView _ _ =>
    have hTail := h.tail (by rcases hCommand with rfl | rfl <;> simp)
    exact hTail.publish (by simpa [Clear] using hAfter)
      ((publishMcpOauthKey_locked _).symm.trans hRemoved.locked) hView
  | @published key c expected =>
    intro hClosed other hOther
    rw [publishMcpOauthKey_locked] at hClosed
    have hEmpty := (hClear hClosed).1
    have hKept := publishMcpOauthKey_readView hEmpty key other hOther
    obtain ⟨c', e', hMem⟩ := h hClosed other hKept
    rcases List.mem_cons.mp hMem with hHead | hRest
    · cases hHead
      exact absurd (publishMcpOauthKey_withdraws hEmpty (hKeys _ _ _ rfl)) hOther
    · exact ⟨c', e', hRest⟩
  | marked _ => exact (h.tail (by simp)).mono rfl fun _ => id
  | rejected _ => exact (h.tail (by simp)).publish (by simpa [Clear] using hAfter) rfl rfl

end Daemon

namespace State

variable {s s' : State}

theorem sealed_opened (binding : Option (List UInt8)) (blobs : Table (List UInt8))
    (accounts : List AccountConfig) : (opened cr binding blobs accounts).Sealed where
  clear _ := ⟨rfl, rfl, rfl⟩
  covered _ key hView := absurd rfl hView
  mcpKeys key c e hMem := by cases hMem

/-- A step that leaves the daemon alone and posts commands that are not about the read view. -/
theorem Sealed.grow (h : s.Sealed) (posted : List Command) (hDaemon : s'.daemon = s.daemon)
    (hInbox : s'.inbox = s.inbox ++ posted)
    (hPosted : ∀ command ∈ posted, ∀ key c e, command ≠ .oauthSave key c e) : s'.Sealed where
  clear := hDaemon ▸ h.clear
  covered := by
    rw [hDaemon]
    intro hLocked key hView
    obtain ⟨c, e, hMem⟩ := h.covered hLocked key hView
    exact ⟨c, e, hInbox ▸ List.mem_append_left posted hMem⟩
  mcpKeys key c e hMem := by
    rw [hInbox] at hMem
    rcases List.mem_append.mp hMem with hOld | hNew
    · exact h.mcpKeys key c e hOld
    · exact absurd rfl (hPosted _ hNew key c e)

theorem Sealed.handle (h : s.Sealed) (hStep : s.handle cr env = some (s', os)) : s'.Sealed := by
  obtain ⟨command, rest, hInbox, -, hDaemon, hRest⟩ := handle_eq_some hStep
  have hCovered := h.covered
  have hKeys := h.mcpKeys
  rw [hInbox] at hCovered hKeys
  constructor
  · rw [hDaemon]
    exact (Daemon.after_change _ _ _ command).clear h.clear
  · rw [hDaemon, hRest]
    refine (Daemon.after_change _ _ _ command).covered h.clear hCovered ?_
    rintro key c e rfl
    exact hKeys key c e List.mem_cons_self
  · rw [hRest]
    exact fun key c e hMem => hKeys key c e (List.mem_cons_of_mem command hMem)

theorem Sealed.withdraw (h : s.Sealed) (key : String) : (s.withdraw key).Sealed where
  clear := h.clear
  covered := by
    refine h.covered.mono rfl ?_
    intro other hOther
    by_cases hEq : other = key
    · subst hEq
      exact absurd (Table.remove_same _ _) hOther
    · simpa [State.withdraw, Table.remove_of_ne _ hEq] using hOther
  mcpKeys := h.mcpKeys

theorem Sealed.mcpSave (h : s.Sealed) {key : String} {c : ServiceCredential}
    {expected : Option String} (hStep : s.mcpSave key c expected = some s') : s'.Sealed := by
  unfold State.mcpSave at hStep
  split at hStep
  · rename_i hKey
    cases hStep
    constructor
    · rw [issue_daemon]
      exact h.clear
    · rw [issue_daemon, issue_inbox]
      intro hLocked other hOther
      by_cases hEq : other = key
      · subst hEq
        exact ⟨c, expected, List.mem_append_right _ List.mem_cons_self⟩
      · have hView : s.daemon.readView other ≠ none := by
          simpa [State.send, Table.insert_of_ne _ hEq] using hOther
        obtain ⟨c', e', hMem⟩ := h.covered hLocked other hView
        exact ⟨c', e', List.mem_append_left _ hMem⟩
    · rw [issue_inbox]
      intro other c' e' hMem
      rcases List.mem_append.mp hMem with hOld | hNew
      · exact h.mcpKeys other c' e' hOld
      · cases List.mem_singleton.mp hNew
        exact hKey
  · cases hStep

theorem Sealed.step (h : s.Sealed) {a : Action} (hStep : (machine cr).step s a = some (s', os)) :
    s'.Sealed := by
  change s.step cr a = some (s', os) at hStep
  cases a with
  | post command =>
    obtain ⟨s₁, hPost, hEq⟩ := Option.map_eq_some_iff.mp hStep
    cases hEq
    obtain ⟨posted, hDaemon, hInbox, hKinds, -⟩ := post_grows hPost
    exact h.grow _ hDaemon hInbox hKinds
  | handle env => exact h.handle hStep
  | begin r =>
    cases hStep
    exact h.grow [] rfl (List.append_nil _).symm (by simp)
  | advance index result =>
    obtain ⟨posted, hDaemon, hInbox, hKinds, -⟩ := advance_grows hStep
    exact h.grow _ hDaemon hInbox hKinds
  | dropGuard index =>
    obtain ⟨s₁, hDrop, hEq⟩ := Option.map_eq_some_iff.mp hStep
    cases hEq
    obtain ⟨hDaemon, hInbox⟩ := dropGuard_same hDrop
    exact h.grow [] hDaemon (hInbox.trans (List.append_nil _).symm) (by simp)
  | mcpSave key c expected =>
    obtain ⟨s₁, hSave, hEq⟩ := Option.map_eq_some_iff.mp hStep
    cases hEq
    exact h.mcpSave hSave
  | mcpClear key =>
    cases hStep
    exact (h.withdraw key).grow [.oauthClear key] rfl rfl (by simp)
  | mcpReject key token =>
    cases hStep
    exact (h.withdraw key).grow [.mcpAuthRejected key token] rfl rfl (by simp)

end State

/-! ## The binding and the answers to a key -/

/-- What one step may do to the binding and to the lock. -/
structure KeyLaw (cr : Crypto) (s s' : State) (os : List Event) : Prop where
  binding : ∀ pub, s.daemon.binding = some pub → s'.daemon.binding = some pub
  unlocked : ∀ key, .unlocked key ∈ os → s.daemon.binding = some (cr.publicKey key)
  bound : ∀ key, .bound key ∈ os →
    (s.daemon.binding = none ∨ s.daemon.binding = some (cr.publicKey key)) ∧
      s'.daemon.binding = some (cr.publicKey key)
  refused : ∀ key e, .unlockRefused key e ∈ os → s'.daemon = s.daemon
  /-- Nothing else opens the lock. -/
  opens : s.daemon.locked = true → s'.daemon.locked = false →
    ∃ key, .unlocked key ∈ os ∨ .bound key ∈ os

namespace Daemon

/-- Every command but an unlock and a bind keeps the binding, and opens no lock. -/
theorem Change.keeps {d' : Daemon} (hChange : d.Change cr env command d')
    (hUnlock : ∀ key, command ≠ .unlock key) (hBind : ∀ key, command ≠ .bind key) :
    d'.binding = d.binding ∧ (d.locked = true → d'.locked = true) := by
  cases hChange with
  | same _ => exact ⟨rfl, id⟩
  | unlocked => exact absurd rfl (hUnlock _)
  | bound => exact absurd rfl (hBind _)
  | opened => exact absurd rfl (hBind _)
  | lock => exact ⟨rfl, fun _ => rfl⟩
  | stored hStored => exact ⟨hStored.binding, hStored.locked.trans⟩
  | cached hCached => exact ⟨hCached.binding, hCached.locked.trans⟩
  | removed _ hRemoved => exact ⟨hRemoved.binding, hRemoved.locked.trans⟩
  | published => exact ⟨by simp, by simp⟩
  | marked _ => exact ⟨rfl, id⟩
  | rejected _ => exact ⟨by simp, by simp⟩

end Daemon

namespace State

variable {s s' : State}

theorem handleCommand_answers (hUnlock : ∀ key, command ≠ .unlock key)
    (hBind : ∀ key, command ≠ .bind key) (h : s.handleCommand cr env command = (s', os)) :
    os = [] := by
  cases command with
  | unlock key => exact absurd rfl (hUnlock key)
  | bind key => exact absurd rfl (hBind key)
  | saveCredential service c =>
    simp only [handleCommand] at h
    split at h <;> exact (Prod.mk.inj h).2.symm
  | removeCredential service =>
    simp only [handleCommand] at h
    split at h <;> exact (Prod.mk.inj h).2.symm
  | oauthSave key c expected =>
    simp only [handleCommand] at h
    split at h <;> exact (Prod.mk.inj h).2.symm
  | oauthClear key =>
    simp only [handleCommand] at h
    split at h <;> exact (Prod.mk.inj h).2.symm
  | _ => exact (Prod.mk.inj h).2.symm

theorem keyLaw_unlock {key : List UInt8} (h : s.handleCommand cr env (.unlock key) = (s', os)) :
    KeyLaw cr s s' os := by
  simp only [handleCommand] at h
  rcases s.daemon.handleUnlock_cases cr env key with
    ⟨e, hEq⟩ | ⟨d', hEq, hBinding, hTail⟩
  · rw [hEq] at h
    cases h
    exact ⟨fun _ => id, by simp, by simp, by simp, by simp⟩
  · rw [hEq] at h
    cases h
    have hSame := (Daemon.unlockTail_ok hTail).2.1
    refine ⟨?_, ?_, by simp, by simp, ?_⟩
    · intro pub hPub
      exact hSame.trans hPub
    · intro key' hMem
      cases List.mem_singleton.mp hMem
      exact hBinding
    · exact fun _ _ => ⟨key, .inl List.mem_cons_self⟩

theorem keyLaw_bind {key : List UInt8} (h : s.handleCommand cr env (.bind key) = (s', os)) :
    KeyLaw cr s s' os := by
  simp only [handleCommand] at h
  rcases s.daemon.handleBindKeystoreInner_cases cr env key with
    ⟨e, hEq⟩ | ⟨bound, hBound, hEnd⟩
  · rw [hEq] at h
    cases h
    exact ⟨fun _ => id, by simp, by simp, by simp, by simp⟩
  · obtain ⟨hBinding, rfl⟩ := Daemon.bindKeystore_ok hBound
    have hKept : ∀ pub, s.daemon.binding = some pub → cr.publicKey key = pub := by
      intro pub hPub
      rcases hBinding with hNone | hSome
      · rw [hNone] at hPub
        cases hPub
      · rw [hSome] at hPub
        exact Option.some.inj hPub
    rcases hEnd with ⟨e, hEq⟩ | ⟨d', hTail, hEq⟩
    · rw [hEq] at h
      cases h
      refine ⟨?_, by simp, by simp, by simp, ?_⟩
      · exact fun pub hPub => congrArg some (hKept pub hPub)
      · intro hLocked hOpen
        rw [hLocked] at hOpen
        cases hOpen
    · rw [hEq] at h
      cases h
      have hSame : d'.binding = some (cr.publicKey key) := (Daemon.unlockTail_ok hTail).2.1
      refine ⟨?_, by simp, ?_, by simp, ?_⟩
      · exact fun pub hPub => hSame.trans (congrArg some (hKept pub hPub))
      · intro key' hMem
        cases List.mem_singleton.mp hMem
        exact ⟨hBinding, hSame⟩
      · exact fun _ _ => ⟨key, .inr List.mem_cons_self⟩

theorem keyLaw_step {a : Action} (h : (machine cr).step s a = some (s', os)) :
    KeyLaw cr s s' os := by
  rcases step_cases h with ⟨env, rfl, hHandle⟩ | ⟨view, posted, hDaemon, -, -, hEvents⟩
  · obtain ⟨command, rest, hInbox, hEq, hDaemon, -⟩ := handle_eq_some hHandle
    by_cases hUnlock : ∃ key, command = .unlock key
    · obtain ⟨key, rfl⟩ := hUnlock
      have hLaw := keyLaw_unlock hEq
      exact ⟨hLaw.binding, hLaw.unlocked, hLaw.bound, hLaw.refused, hLaw.opens⟩
    · by_cases hBind : ∃ key, command = .bind key
      · obtain ⟨key, rfl⟩ := hBind
        have hLaw := keyLaw_bind hEq
        exact ⟨hLaw.binding, hLaw.unlocked, hLaw.bound, hLaw.refused, hLaw.opens⟩
      · have hNoUnlock : ∀ key, command ≠ .unlock key := fun key hEq => hUnlock ⟨key, hEq⟩
        have hNoBind : ∀ key, command ≠ .bind key := fun key hEq => hBind ⟨key, hEq⟩
        obtain ⟨hBinding, hLocked⟩ :=
          (s.daemon.after_change cr env command).keeps hNoUnlock hNoBind
        obtain rfl := handleCommand_answers hNoUnlock hNoBind hEq
        rw [← hDaemon] at hBinding hLocked
        refine ⟨fun pub hPub => hBinding.trans hPub, by simp, by simp, by simp, ?_⟩
        intro hClosed hOpen
        rw [hLocked hClosed] at hOpen
        cases hOpen
  · have hNone : ∀ e : Event, e.answersKey = true → e ∉ os := by
      intro e hAnswer hMem
      rw [hEvents e hMem] at hAnswer
      cases hAnswer
    refine ⟨?_, ?_, ?_, ?_, ?_⟩
    · intro pub hPub
      rw [hDaemon]
      exact hPub
    · exact fun key hMem => absurd hMem (hNone _ rfl)
    · exact fun key hMem => absurd hMem (hNone _ rfl)
    · exact fun key e hMem => absurd hMem (hNone _ rfl)
    · intro hClosed hOpen
      rw [hDaemon] at hOpen
      rw [hClosed] at hOpen
      cases hOpen

end State

/-- In every run from the state the daemon opens with: while it is locked, no credential, access
token or X credential is in the clear, and what the read view holds waits for its command; and
every step keeps the binding, opens the lock only for the key of the binding, and leaves the
daemon as it was when it refuses an unlock. -/
theorem locked_keystore_holds_no_cleartext (cr : Crypto) (binding : Option (List UInt8))
    (blobs : Table (List UInt8)) (accounts : List AccountConfig) {as : List Action} {s : State}
    {os : List Event}
    (hExec : (machine cr).exec (opened cr binding blobs accounts) as = some (s, os)) :
    (s.daemon.locked = true →
      s.daemon.credentials = Table.empty ∧ s.daemon.accessTokens = Table.empty ∧
        s.daemon.xCredentials = none ∧
        ∀ key, s.daemon.readView key ≠ none → ∃ c e, Command.oauthSave key c e ∈ s.inbox) ∧
    (machine cr).EveryStep (fun s _ s' os => KeyLaw cr s s' os)
      (opened cr binding blobs accounts) as := by
  have hSealed := Machine.exec_state_invariant (P := State.Sealed)
    (fun hState hStep => hState.step hStep) (State.sealed_opened binding blobs accounts) hExec
  constructor
  · intro hLocked
    obtain ⟨hCredentials, hTokens, hX⟩ := hSealed.clear hLocked
    exact ⟨hCredentials, hTokens, hX, hSealed.covered hLocked⟩
  · exact Machine.everyStep_of_step (I := fun _ => True) (fun _ _ => trivial)
      (fun _ hStep => State.keyLaw_step hStep) trivial as

/-- Bind a fresh keystore, store a grant, lock, and try another key. -/
def sampleLockRun : List Action :=
  [.post (.bind sampleKey), .handle {}, .post (.saveCredential "acct" (sampleGrant "old")),
    .handle {}, .post .lock, .handle {}, .post (.unlock (sampleKey.map (· + 1))), .handle {}]

theorem sample_lock_holds_no_cleartext :
    ∃ s os, (machine sampleCrypto).exec (opened sampleCrypto none Table.empty []) sampleLockRun = some (s, os) ∧
      s.daemon.locked = true ∧ s.daemon.credentials = Table.empty := by
  have hRun : (machine sampleCrypto).check (opened sampleCrypto none Table.empty []) sampleLockRun
      (fun s _ => s.daemon.locked) = true := by decide +kernel
  obtain ⟨s, os, hExec, hLocked⟩ := Machine.exists_of_check hRun
  exact ⟨s, os, hExec, hLocked,
    ((locked_keystore_holds_no_cleartext sampleCrypto none Table.empty [] hExec).1 hLocked).1⟩

/-- A connection loads a grant, and saves its rotation when the keystore has been locked. -/
def lateSaveRun : List Action :=
  [.post (.bind sampleKey), .handle {}, .post (.saveCredential "mcp:notes" (sampleGrant "old")),
    .handle {}, .post .lock, .handle {}, .mcpSave "mcp:notes" (sampleGrant "new") (some "old")]

/-- Until the command of the save is handled, the read view of a locked keystore has the grant. -/
theorem lateSave_in_locked_view :
    ∃ s os, (machine sampleCrypto).exec (opened sampleCrypto none Table.empty []) lateSaveRun =
        some (s, os) ∧
      s.daemon.locked = true ∧ s.daemon.readView "mcp:notes" = some (sampleGrant "new") := by
  have hRun : (machine sampleCrypto).check (opened sampleCrypto none Table.empty []) lateSaveRun
      (fun s _ => s.daemon.locked &&
        decide (s.daemon.readView "mcp:notes" = some (sampleGrant "new"))) = true := by
    decide +kernel
  obtain ⟨s, os, hExec, hTest⟩ := Machine.exists_of_check hRun
  obtain ⟨hLocked, hView⟩ := Bool.and_eq_true_iff.mp hTest
  exact ⟨s, os, hExec, hLocked, of_decide_eq_true hView⟩

end Choreographr.Keystore
