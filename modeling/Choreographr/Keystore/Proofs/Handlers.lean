import Choreographr.Keystore.System

/-!
# What the handlers of the keystore do

One lemma for each handler says every way it can end. The proofs about runs split on these
cases and never unfold a handler again.
-/

namespace Choreographr.Keystore

variable {cr : Crypto} {env : Outcome} {d d' : Daemon}

namespace Daemon

variable {c : ServiceCredential} {key : String}

/-! ## What the handlers do to the lock and to the binding -/

@[simp] theorem setDead_locked (key : String) (dead : Bool) :
    (d.setDead key dead).locked = d.locked := rfl

@[simp] theorem setDead_binding (key : String) (dead : Bool) :
    (d.setDead key dead).binding = d.binding := rfl

@[simp] theorem setDead_blobs (key : String) (dead : Bool) :
    (d.setDead key dead).blobs = d.blobs := rfl

@[simp] theorem setDead_credentials (key : String) (dead : Bool) :
    (d.setDead key dead).credentials = d.credentials := rfl

@[simp] theorem setDead_accessTokens (key : String) (dead : Bool) :
    (d.setDead key dead).accessTokens = d.accessTokens := rfl

@[simp] theorem setDead_xCredentials (key : String) (dead : Bool) :
    (d.setDead key dead).xCredentials = d.xCredentials := rfl

@[simp] theorem setDead_deadOauth (key : String) (dead : Bool) :
    (d.setDead key dead).deadOauth = Function.update d.deadOauth key dead := rfl

theorem publishMcpOauthKey_eq (key : String) :
    ∃ view, d.publishMcpOauthKey key = { d with readView := view } := by
  rw [publishMcpOauthKey]
  split
  · exact ⟨_, rfl⟩
  · exact ⟨d.readView, rfl⟩

@[simp] theorem publishMcpOauthKey_locked (key : String) :
    (d.publishMcpOauthKey key).locked = d.locked := by
  obtain ⟨view, hView⟩ := d.publishMcpOauthKey_eq key
  rw [hView]

@[simp] theorem publishMcpOauthKey_binding (key : String) :
    (d.publishMcpOauthKey key).binding = d.binding := by
  obtain ⟨view, hView⟩ := d.publishMcpOauthKey_eq key
  rw [hView]

@[simp] theorem publishMcpOauthKey_blobs (key : String) :
    (d.publishMcpOauthKey key).blobs = d.blobs := by
  obtain ⟨view, hView⟩ := d.publishMcpOauthKey_eq key
  rw [hView]

@[simp] theorem publishMcpOauthKey_credentials (key : String) :
    (d.publishMcpOauthKey key).credentials = d.credentials := by
  obtain ⟨view, hView⟩ := d.publishMcpOauthKey_eq key
  rw [hView]

@[simp] theorem publishMcpOauthKey_accessTokens (key : String) :
    (d.publishMcpOauthKey key).accessTokens = d.accessTokens := by
  obtain ⟨view, hView⟩ := d.publishMcpOauthKey_eq key
  rw [hView]

@[simp] theorem publishMcpOauthKey_xCredentials (key : String) :
    (d.publishMcpOauthKey key).xCredentials = d.xCredentials := by
  obtain ⟨view, hView⟩ := d.publishMcpOauthKey_eq key
  rw [hView]

@[simp] theorem publishMcpOauthKey_deadOauth (key : String) :
    (d.publishMcpOauthKey key).deadOauth = d.deadOauth := by
  obtain ⟨view, hView⟩ := d.publishMcpOauthKey_eq key
  rw [hView]

/-- The one write path for boxes: it needs an open lock and a binding, and changes one box. -/
theorem encryptAndPersistCredential_ok {service : String} {d' : Daemon}
    (h : d.encryptAndPersistCredential cr env service c = .ok d') :
    d.locked = false ∧ ∃ pub blob, d.binding = some pub ∧
      cr.encrypt pub c env.seed = .ok blob ∧
      d' = { d with blobs := d.blobs.insert service blob } := by
  unfold encryptAndPersistCredential at h
  split at h
  · cases h
  · rename_i hLocked
    split at h
    · cases h
    · split at h
      · cases h
      · rename_i pub hBinding
        split at h
        · cases h
        · rename_i blob hBlob
          split at h
          · cases h
          · cases h
            exact ⟨by simpa using hLocked, pub, blob, hBinding, hBlob, rfl⟩

/-! ## Unlock and bind -/

theorem unlockTail_ok {key : List UInt8} {d' : Daemon} (h : d.unlockTail cr env key = .ok d') :
    d'.locked = false ∧ d'.binding = d.binding ∧ d'.blobs = d.blobs ∧
      d'.deadOauth = d.deadOauth ∧ d'.accessTokens = d.accessTokens ∧
      d'.credentials = fun service => (d.blobs service).bind (cr.decrypt (cr.publicKey key)) := by
  unfold unlockTail at h
  split at h
  · cases h
  · rename_i credentials hDecrypt
    unfold decryptCredentialBlobs at hDecrypt
    split at hDecrypt
    · cases hDecrypt
    · cases hDecrypt
      unfold finishUnlock at h
      split at h
      · cases h
      · cases h
        exact ⟨rfl, rfl, rfl, rfl, rfl, rfl⟩

theorem getKeystoreBinding_ok {binding : Option (List UInt8)}
    (h : d.getKeystoreBinding env = .ok binding) : binding = d.binding := by
  unfold getKeystoreBinding at h
  split at h
  · cases h
  · cases h
    rfl

theorem verifyKeystoreBinding_ok {key : List UInt8}
    (h : d.verifyKeystoreBinding cr env key = .ok ()) :
    d.binding = some (cr.publicKey key) := by
  unfold verifyKeystoreBinding at h
  split at h
  · cases h
  · cases h
  · rename_i stored hGet
    split at h
    · rename_i hEq
      rw [← getKeystoreBinding_ok hGet, hEq]
    · cases h

theorem bindKeystore_ok {key : List UInt8} {d' : Daemon}
    (h : d.bindKeystore cr env key = .ok d') :
    (d.binding = none ∨ d.binding = some (cr.publicKey key)) ∧
      d' = { d with
        binding := some (cr.publicKey key)
        keystoreBound := if d.binding = none then true else d.keystoreBound } := by
  unfold bindKeystore at h
  split at h
  · cases h
  · rename_i hGet
    have hNone := getKeystoreBinding_ok hGet
    split at h
    · cases h
    · cases h
      exact ⟨.inl hNone.symm, by simp [← hNone]⟩
  · rename_i stored hGet
    have hSome := getKeystoreBinding_ok hGet
    split at h
    · rename_i hEq
      cases h
      subst hEq
      refine ⟨.inr hSome.symm, ?_⟩
      rw [← hSome]
      simp only [reduceCtorEq, if_false]
      rw [hSome]
    · cases h

theorem handleUnlockInner_ok {key : List UInt8} {d' : Daemon}
    (h : d.handleUnlockInner cr env key = .ok d') :
    d.binding = some (cr.publicKey key) ∧ d.unlockTail cr env key = .ok d' := by
  unfold handleUnlockInner at h
  split at h
  · cases h
  · rename_i key' hKey
    unfold zeroizedKeyOrWipe at hKey
    split at hKey
    · cases hKey
      split at h
      · cases h
      · rename_i hVerify
        exact ⟨verifyKeystoreBinding_ok hVerify, h⟩
    · cases hKey

theorem handleUnlock_cases (cr : Crypto) (env : Outcome) (key : List UInt8) :
    (∃ e, d.handleUnlock cr env key = (d, .error e)) ∨
      ∃ d', d.handleUnlock cr env key = (d', .ok ()) ∧
        d.binding = some (cr.publicKey key) ∧ d.unlockTail cr env key = .ok d' := by
  unfold handleUnlock
  split
  · exact .inl ⟨_, rfl⟩
  · rename_i d' hInner
    exact .inr ⟨d', rfl, handleUnlockInner_ok hInner⟩

/-- The three ways a bind can end. -/
theorem handleBindKeystoreInner_cases (cr : Crypto) (env : Outcome) (key : List UInt8) :
    (∃ e, d.handleBindKeystoreInner cr env key = (d, .error e)) ∨
    ∃ bound, d.bindKeystore cr env key = .ok bound ∧
      ((∃ e, d.handleBindKeystoreInner cr env key = (bound, .error e)) ∨
        ∃ d', bound.unlockTail cr env key = .ok d' ∧
          d.handleBindKeystoreInner cr env key = (d', .ok ())) := by
  unfold handleBindKeystoreInner
  split
  · exact .inl ⟨_, rfl⟩
  · rename_i key' hKey
    unfold zeroizedKeyOrWipe at hKey
    split at hKey
    · cases hKey
      split
      · exact .inl ⟨_, rfl⟩
      · rename_i bound hBound
        refine .inr ⟨bound, hBound, ?_⟩
        split
        · exact .inl ⟨_, rfl⟩
        · rename_i d' hTail
          exact .inr ⟨d', hTail, rfl⟩
    · cases hKey

/-! ## Storing and removing -/

/-- A credential was stored under a key, in the database and in the clear. -/
structure Stored (cr : Crypto) (d d' : Daemon) (key : String) (c : ServiceCredential) : Prop where
  unlocked : d.locked = false
  locked : d'.locked = d.locked
  binding : d'.binding = d.binding
  blobs : ∃ pub blob seed, d.binding = some pub ∧ cr.encrypt pub c seed = .ok blob ∧
    d'.blobs = d.blobs.insert key blob
  credentials : d'.credentials = d.credentials.insert key c
  deadOauth : d'.deadOauth = Function.update d.deadOauth key false

/-- The credential of a key was removed. -/
structure Removed (d d' : Daemon) (key : String) : Prop where
  locked : d'.locked = d.locked
  binding : d'.binding = d.binding
  blobs : d'.blobs = d.blobs.remove key
  credentials : d'.credentials = d.credentials.remove key
  deadOauth : d'.deadOauth = Function.update d.deadOauth key false

theorem handleSaveCredential_cases (cr : Crypto) (env : Outcome) (service : String)
    (c : ServiceCredential) :
    (∃ e, d.handleSaveCredential cr env service c = (d, .error e)) ∨
      ∃ d', d.handleSaveCredential cr env service c = (d', .ok ()) ∧ Stored cr d d' service c := by
  unfold handleSaveCredential
  split
  · exact .inl ⟨_, rfl⟩
  · split
    · exact .inl ⟨_, rfl⟩
    · rename_i stored hStored
      obtain ⟨hLocked, pub, blob, hBinding, hBlob, rfl⟩ := encryptAndPersistCredential_ok hStored
      refine .inr ⟨_, rfl, hLocked, ?_, ?_, ⟨pub, blob, env.seed, hBinding, hBlob, ?_⟩, ?_, ?_⟩
      all_goals
        simp only [publishMcpOauthKey_locked, publishMcpOauthKey_binding,
          publishMcpOauthKey_blobs, publishMcpOauthKey_credentials, publishMcpOauthKey_deadOauth,
          setDead_locked, setDead_binding, setDead_blobs, setDead_credentials, setDead_deadOauth]
        split <;> rfl

theorem handleRemoveCredential_cases (env : Outcome) (service : String) :
    (∃ e, d.handleRemoveCredential env service = (d, .error e)) ∨
      ∃ d', d.handleRemoveCredential env service = (d', .ok ()) ∧ Removed d d' service := by
  unfold handleRemoveCredential
  split
  · exact .inl ⟨_, rfl⟩
  · refine .inr ⟨_, rfl, ?_, ?_, ?_, ?_, ?_⟩
    all_goals simp

theorem handleOauthClear_cases (env : Outcome) (key : String) :
    d.handleOauthClear env key = (d, false) ∨
      ∃ d', d.handleOauthClear env key = (d', true) ∧ Removed d d' key := by
  unfold handleOauthClear
  split
  · exact .inl rfl
  · refine .inr ⟨_, rfl, ?_, ?_, ?_, ?_, ?_⟩
    all_goals simp

theorem handleOauthSave_cases (cr : Crypto) (env : Outcome) (key : String)
    (c : ServiceCredential) (expected : Option String) :
    d.handleOauthSave cr env key c expected = (d.publishMcpOauthKey key, false) ∨
    d.handleOauthSave cr env key c expected = (d, false) ∧ d.locked = false ∨
    ∃ d', d.handleOauthSave cr env key c expected = (d', true) ∧ Stored cr d d' key c := by
  unfold handleOauthSave
  split
  · exact .inl rfl
  · rename_i hLocked
    split
    · exact .inl rfl
    · split
      · exact .inl rfl
      · split
        · exact .inr (.inl ⟨rfl, by simpa using hLocked⟩)
        · rename_i stored hStored
          obtain ⟨hOpen, pub, blob, hBinding, hBlob, rfl⟩ :=
            encryptAndPersistCredential_ok hStored
          refine .inr (.inr ⟨_, rfl, hOpen, ?_, ?_, ⟨pub, blob, env.seed, hBinding, hBlob, ?_⟩,
            ?_, ?_⟩)
          all_goals simp

/-- A refresh was saved without a change to the durable grant: the access token is cached. -/
structure Cached (d d' : Daemon) (account : String) : Prop where
  unlocked : d.locked = false
  locked : d'.locked = d.locked
  binding : d'.binding = d.binding
  blobs : d'.blobs = d.blobs
  credentials : d'.credentials = d.credentials
  deadOauth : d'.deadOauth = Function.update d.deadOauth account false

/-- What a refresh makes of the stored grant. -/
def refreshedGrant (save : SaveToken) (stored : OAuthGrant) : OAuthGrant :=
  { stored with
    refreshToken := save.rotatedRefreshToken.or stored.refreshToken
    accountId := save.newAccountId.or stored.accountId }

theorem refreshedGrant_eq_self {save : SaveToken} {grant : OAuthGrant}
    (h : (save.rotatedRefreshToken.any (fun rotated => grant.refreshToken ≠ some rotated) ||
      save.newAccountId.any (fun id => grant.accountId ≠ some id)) = false) :
    refreshedGrant save grant = grant := by
  have hToken : save.rotatedRefreshToken.or grant.refreshToken = grant.refreshToken := by
    cases hRotated : save.rotatedRefreshToken <;> simp_all
  have hId : save.newAccountId.or grant.accountId = grant.accountId := by
    cases hNew : save.newAccountId <;> simp_all
  rw [refreshedGrant, hToken, hId]

/-- A save is refused, or dropped since the grant was replaced, or it has found the grant that
the refresh presented. -/
theorem handleSaveOauthToken_cases (cr : Crypto) (env : Outcome) (save : SaveToken) :
    ((d.handleSaveOauthToken cr env save).1 = d ∧
      ((d.handleSaveOauthToken cr env save).2 ≠ .ok () ∨ ∃ current,
        d.credentials save.account = some current ∧
          refreshTokenUnchanged current save.expectedRefreshToken = false)) ∨
    ∃ grant, d.credentials save.account = some (.oauth grant) ∧ grant.kind = .provider ∧
      refreshTokenUnchanged (.oauth grant) save.expectedRefreshToken = true ∧
      (Cached d (d.handleSaveOauthToken cr env save).1 save.account ∧
          refreshedGrant save grant = grant ∨
        Stored cr d (d.handleSaveOauthToken cr env save).1 save.account
          (.oauth (refreshedGrant save grant))) := by
  unfold handleSaveOauthToken
  split
  · exact .inl ⟨rfl, .inl (by simp)⟩
  · rename_i hLocked
    have hOpen : d.locked = false := by simpa using hLocked
    split
    · exact .inl ⟨rfl, .inl (by simp)⟩
    · rename_i current hCurrent
      split
      · exact .inl ⟨rfl, .inl (by simp)⟩
      · rename_i grant hGrant
        cases current with
        | apiKey key => cases hGrant
        | x => cases hGrant
        | substrate => cases hGrant
        | oauth g =>
          cases hGrant
          split
          · exact .inl ⟨rfl, .inl (by simp)⟩
          · rename_i hKind
            split
            · rename_i hChanged
              exact .inl ⟨rfl, .inr ⟨_, hCurrent, by simpa using hChanged⟩⟩
            · rename_i hSame
              have hKind' : grant.kind = .provider := by simpa using hKind
              have hSame' : refreshTokenUnchanged (.oauth grant) save.expectedRefreshToken =
                  true := by simpa using hSame
              dsimp only
              split
              · rename_i hChange
                exact .inr ⟨grant, hCurrent, hKind', hSame', .inl
                  ⟨⟨hOpen, rfl, rfl, rfl, rfl, rfl⟩, refreshedGrant_eq_self (by simpa using hChange)⟩⟩
              · split
                · exact .inl ⟨rfl, .inl (by simp)⟩
                · rename_i persisted hPersisted
                  obtain ⟨_, pub, blob, hBinding, hBlob, rfl⟩ :=
                    encryptAndPersistCredential_ok hPersisted
                  exact .inr ⟨grant, hCurrent, hKind', hSame', .inr ⟨hOpen, rfl, rfl,
                    ⟨pub, blob, env.seed, hBinding, hBlob, rfl⟩, rfl, rfl⟩⟩

/-- The daemon after a command. -/
def after (cr : Crypto) (env : Outcome) (d : Daemon) : Command → Daemon
  | .unlock key => (d.handleUnlock cr env key).1
  | .bind key => (d.handleBindKeystoreInner cr env key).1
  | .lock => d.handleLock
  | .saveCredential service c => (d.handleSaveCredential cr env service c).1
  | .removeCredential service => (d.handleRemoveCredential env service).1
  | .loadOauthToken _ _ => d
  | .saveOauthToken _ save => (d.handleSaveOauthToken cr env save).1
  | .markOauthDead account _ => d.handleMarkOauthDead account
  | .oauthSave key c expected => (d.handleOauthSave cr env key c expected).1
  | .oauthClear key => (d.handleOauthClear env key).1
  | .mcpAuthRejected key _ => d.handleMcpAuthRejected key

/-! ## The credentials in the clear and in the database -/

/-- An unlocked daemon holds in the clear what the database holds. -/
def Mirrors (cr : Crypto) (d : Daemon) : Prop :=
  d.locked = false → ∃ pub, d.binding = some pub ∧
    ∀ key, d.credentials key = (d.blobs key).bind (cr.decrypt pub)

theorem stored_of_binding {pub : List UInt8} (h : d.binding = some pub) (key : String) :
    d.stored cr key = (d.blobs key).bind (cr.decrypt pub) := by
  rw [stored, h]
  rfl

theorem stored_congr (hBinding : d'.binding = d.binding) (hBlob : d'.blobs key = d.blobs key) :
    d'.stored cr key = d.stored cr key := by
  rw [stored, stored, hBinding, hBlob]

theorem Stored.blobs_of_ne {other : String} (h : Stored cr d d' key c) (hNe : other ≠ key) :
    d'.blobs other = d.blobs other := by
  obtain ⟨pub, blob, seed, -, -, hBlobs⟩ := h.blobs
  rw [hBlobs, Table.insert_of_ne _ hNe]

theorem Stored.mirrors (h : Stored cr d d' key c) (hMirrors : d.Mirrors cr) : d'.Mirrors cr := by
  intro _
  obtain ⟨pub, hBinding, hSame⟩ := hMirrors h.unlocked
  obtain ⟨pub', blob, seed, hBinding', hBlob, hBlobs⟩ := h.blobs
  obtain rfl : pub = pub' := Option.some.inj (hBinding.symm.trans hBinding')
  refine ⟨pub, h.binding.trans hBinding, ?_⟩
  intro other
  by_cases hEq : other = key
  · subst hEq
    rw [h.credentials, hBlobs, Table.insert_same, Table.insert_same]
    exact (cr.decrypt_encrypt pub c seed blob hBlob).symm
  · rw [h.credentials, hBlobs, Table.insert_of_ne _ hEq, Table.insert_of_ne _ hEq]
    exact hSame other

theorem Stored.stored_self (h : Stored cr d d' key c) : d'.stored cr key = some c := by
  obtain ⟨pub, blob, seed, hBinding, hBlob, hBlobs⟩ := h.blobs
  rw [stored_of_binding (h.binding.trans hBinding), hBlobs, Table.insert_same]
  exact cr.decrypt_encrypt pub c seed blob hBlob

theorem Stored.stored_of_ne {other : String} (h : Stored cr d d' key c) (hNe : other ≠ key) :
    d'.stored cr other = d.stored cr other :=
  stored_congr h.binding (h.blobs_of_ne hNe)

theorem Stored.isBound (h : Stored cr d d' key c) : d'.binding ≠ none := by
  obtain ⟨pub, blob, seed, hBinding, -⟩ := h.blobs
  rw [h.binding, hBinding]
  simp

theorem Removed.stored_self (h : Removed d d' key) : d'.stored cr key = none := by
  rw [stored, h.blobs, Table.remove_same]
  cases d'.binding <;> rfl

theorem Removed.stored_of_ne {other : String} (h : Removed d d' key) (hNe : other ≠ key) :
    d'.stored cr other = d.stored cr other := by
  refine stored_congr h.binding ?_
  rw [h.blobs, Table.remove_of_ne _ hNe]

theorem Removed.unbound (h : Removed d d' key) (hUnbound : d.binding = none → d.blobs = Table.empty) :
    d'.binding = none → d'.blobs = Table.empty := by
  intro hNone
  rw [h.blobs, hUnbound (h.binding.symm.trans hNone), Table.remove_empty]

theorem Removed.mirrors (h : Removed d d' key) (hMirrors : d.Mirrors cr) : d'.Mirrors cr := by
  intro hOpen
  obtain ⟨pub, hBinding, hSame⟩ := hMirrors (h.locked ▸ hOpen)
  refine ⟨pub, h.binding.trans hBinding, ?_⟩
  intro other
  by_cases hEq : other = key
  · subst hEq
    rw [h.credentials, h.blobs, Table.remove_same, Table.remove_same]
    rfl
  · rw [h.credentials, h.blobs, Table.remove_of_ne _ hEq, Table.remove_of_ne _ hEq]
    exact hSame other

theorem Cached.mirrors {account : String} (h : Cached d d' account) (hMirrors : d.Mirrors cr) :
    d'.Mirrors cr := by
  intro _
  obtain ⟨pub, hBinding, hSame⟩ := hMirrors h.unlocked
  refine ⟨pub, h.binding.trans hBinding, ?_⟩
  rw [h.credentials, h.blobs]
  exact hSame

theorem Mirrors.readView (h : d.Mirrors cr) (view : Table ServiceCredential) :
    ({ d with readView := view } : Daemon).Mirrors cr := h

theorem Mirrors.publish (h : d.Mirrors cr) (key : String) : (d.publishMcpOauthKey key).Mirrors cr := by
  obtain ⟨view, hView⟩ := d.publishMcpOauthKey_eq key
  rw [hView]
  exact h

theorem unlockTail_mirrors {key : List UInt8} (hBinding : d.binding = some (cr.publicKey key))
    (h : d.unlockTail cr env key = .ok d') : d'.Mirrors cr := by
  obtain ⟨-, hSame, hBlobs, -, -, hCredentials⟩ := unlockTail_ok h
  refine fun _ => ⟨cr.publicKey key, hSame.trans hBinding, ?_⟩
  intro other
  rw [hCredentials, hBlobs]

theorem bindKeystore_mirrors {key : List UInt8} (h : d.bindKeystore cr env key = .ok d')
    (hMirrors : d.Mirrors cr) : d'.Mirrors cr := by
  obtain ⟨hBinding, rfl⟩ := bindKeystore_ok h
  intro hOpen
  obtain ⟨pub, hPub, hSame⟩ := hMirrors hOpen
  rcases hBinding with hNone | hSome
  · rw [hNone] at hPub
    cases hPub
  · obtain rfl : cr.publicKey key = pub := Option.some.inj (hSome.symm.trans hPub)
    exact ⟨_, rfl, hSame⟩

/-- What a command may do to the daemon. -/
inductive Change (cr : Crypto) (env : Outcome) (d : Daemon) : Command → Daemon → Prop
  | same {command : Command} :
      ((∃ key c expected, command = .oauthSave key c expected) → d.locked = false) →
      Change cr env d command d
  | unlocked {key : List UInt8} {d' : Daemon} :
      d.binding = some (cr.publicKey key) → d.unlockTail cr env key = .ok d' →
      Change cr env d (.unlock key) d'
  | bound {key : List UInt8} {d' : Daemon} :
      d.bindKeystore cr env key = .ok d' → Change cr env d (.bind key) d'
  | opened {key : List UInt8} {bound d' : Daemon} :
      d.bindKeystore cr env key = .ok bound → bound.unlockTail cr env key = .ok d' →
      Change cr env d (.bind key) d'
  | lock : Change cr env d .lock d.handleLock
  | stored {command : Command} {key : String} {c : ServiceCredential} {d' : Daemon} :
      Stored cr d d' key c → Change cr env d command d'
  | cached {command : Command} {account : String} {d' : Daemon} :
      Cached d d' account → Change cr env d command d'
  | removed {command : Command} {key : String} {d' : Daemon} :
      command = .removeCredential key ∨ command = .oauthClear key →
      Removed d (d'.publishMcpOauthKey key) key → d'.readView = d.readView →
      d'.accessTokens = d.accessTokens.remove key →
      d'.xCredentials = none ∨ d'.xCredentials = d.xCredentials →
      Change cr env d command (d'.publishMcpOauthKey key)
  | published {key : String} {c : ServiceCredential} {expected : Option String} :
      Change cr env d (.oauthSave key c expected) (d.publishMcpOauthKey key)
  | marked {account token : String} : ¬ d.deadOauth account = true →
      Change cr env d (.markOauthDead account token)
        { d.setDead account true with accessTokens := d.accessTokens.remove account }
  | rejected {key token : String} : ¬ d.deadOauth key = true →
      Change cr env d (.mcpAuthRejected key token) ((d.setDead key true).publishMcpOauthKey key)

theorem after_change (cr : Crypto) (env : Outcome) (d : Daemon) (command : Command) :
    d.Change cr env command (d.after cr env command) := by
  cases command with
  | unlock key =>
    rcases d.handleUnlock_cases cr env key with ⟨e, hEq⟩ | ⟨d', hEq, hBinding, hTail⟩
    · rw [after, hEq]
      exact .same (by simp)
    · rw [after, hEq]
      exact .unlocked hBinding hTail
  | bind key =>
    rcases d.handleBindKeystoreInner_cases cr env key with
      ⟨e, hEq⟩ | ⟨bound, hBound, ⟨e, hEq⟩ | ⟨d', hTail, hEq⟩⟩
    · rw [after, hEq]
      exact .same (by simp)
    · rw [after, hEq]
      exact .bound hBound
    · rw [after, hEq]
      exact .opened hBound hTail
  | lock => exact .lock
  | saveCredential service c =>
    rcases d.handleSaveCredential_cases cr env service c with ⟨e, hEq⟩ | ⟨d', hEq, hStored⟩
    · rw [after, hEq]
      exact .same (by simp)
    · rw [after, hEq]
      exact .stored hStored
  | removeCredential service =>
    rw [after, handleRemoveCredential]
    split
    · exact .same (by simp)
    · refine .removed (.inl rfl) ⟨by simp, by simp, by simp, by simp, by simp⟩ rfl rfl ?_
      simp only [setDead_xCredentials]
      split
      · exact .inl rfl
      · exact .inr rfl
  | loadOauthToken index account => exact .same (by simp)
  | saveOauthToken index save =>
    rcases d.handleSaveOauthToken_cases cr env save with
      ⟨hEq, -⟩ | ⟨grant, -, -, -, ⟨hCached, -⟩ | hStored⟩
    · rw [after, hEq]
      exact .same (by simp)
    · exact .cached hCached
    · exact .stored hStored
  | markOauthDead account token =>
    rw [after, handleMarkOauthDead]
    split
    · exact .same (by simp)
    · rename_i hNew
      exact .marked hNew
  | oauthSave key c expected =>
    rcases d.handleOauthSave_cases cr env key c expected with
      hEq | ⟨hEq, hOpen⟩ | ⟨d', hEq, hStored⟩
    · rw [after, hEq]
      exact .published
    · rw [after, hEq]
      exact .same fun _ => hOpen
    · rw [after, hEq]
      exact .stored hStored
  | oauthClear key =>
    rw [after, handleOauthClear]
    split
    · exact .same (by simp)
    · exact .removed (.inr rfl) ⟨by simp, by simp, by simp, by simp, by simp⟩ rfl rfl (.inr rfl)
  | mcpAuthRejected key token =>
    rw [after, handleMcpAuthRejected]
    split
    · exact .same (by simp)
    · rename_i hNew
      exact .rejected hNew

theorem Change.mirrors {command : Command} (hChange : d.Change cr env command d')
    (h : d.Mirrors cr) : d'.Mirrors cr := by
  cases hChange with
  | same _ => exact h
  | unlocked hBinding hTail => exact unlockTail_mirrors hBinding hTail
  | bound hBound => exact bindKeystore_mirrors hBound h
  | opened hBound hTail =>
    refine unlockTail_mirrors ?_ hTail
    rw [(bindKeystore_ok hBound).2]
  | lock => exact fun hOpen => by cases hOpen
  | stored hStored => exact hStored.mirrors h
  | cached hCached => exact hCached.mirrors h
  | removed _ hRemoved => exact hRemoved.mirrors h
  | published => exact h.publish _
  | marked _ => exact h
  | rejected _ => exact Mirrors.publish (d := d.setDead _ true) h _

end Daemon

namespace State

variable {s : State}

theorem handleCommand_daemon (cr : Crypto) (env : Outcome) (command : Command) :
    (s.handleCommand cr env command).1.daemon = s.daemon.after cr env command := by
  cases command with
  | unlock key =>
    simp only [handleCommand, Daemon.after]
    split <;> simp_all
  | bind key =>
    simp only [handleCommand, Daemon.after]
    split <;> simp_all
  | saveCredential service c =>
    simp only [handleCommand, Daemon.after]
    split <;> simp_all [noteReplaced]
  | removeCredential service =>
    simp only [handleCommand, Daemon.after]
    split <;> simp_all [noteReplaced]
  | oauthSave key c expected =>
    simp only [handleCommand, Daemon.after]
    split <;> simp_all [noteReplaced, prune]
  | oauthClear key =>
    simp only [handleCommand, Daemon.after]
    split <;> simp_all [noteReplaced, prune]
  | _ => rfl

theorem handleCommand_inbox (cr : Crypto) (env : Outcome) (command : Command) :
    (s.handleCommand cr env command).1.inbox = s.inbox := by
  cases command with
  | unlock key =>
    simp only [handleCommand]
    split <;> rfl
  | bind key =>
    simp only [handleCommand]
    split <;> rfl
  | saveCredential service c =>
    simp only [handleCommand]
    split <;> rfl
  | removeCredential service =>
    simp only [handleCommand]
    split <;> rfl
  | oauthSave key c expected =>
    simp only [handleCommand]
    split <;> rfl
  | oauthClear key =>
    simp only [handleCommand]
    split <;> rfl
  | _ => rfl

/-- The loop takes the oldest command off the queue and handles it. -/
theorem handle_eq_some {s' : State} {os : List Event} (h : s.handle cr env = some (s', os)) :
    ∃ command rest, s.inbox = command :: rest ∧
      ({ s with inbox := rest } : State).handleCommand cr env command = (s', os) ∧
      s'.daemon = s.daemon.after cr env command ∧ s'.inbox = rest := by
  unfold handle at h
  split at h
  · cases h
  · rename_i command rest hInbox
    have hEq := Option.some.inj h
    refine ⟨command, rest, hInbox, hEq, ?_, ?_⟩
    · have hDaemon := handleCommand_daemon cr env
        (s := { s with inbox := rest }) command
      rw [hEq] at hDaemon
      exact hDaemon
    · have hRest := handleCommand_inbox cr env
        (s := { s with inbox := rest }) command
      rw [hEq] at hRest
      exact hRest

/-! ## What the other steps do -/

@[simp] theorem issue_daemon (key : String) (token : Option String) :
    (s.issue key token).daemon = s.daemon := by
  unfold issue
  split <;> rfl

@[simp] theorem issue_inbox (key : String) (token : Option String) :
    (s.issue key token).inbox = s.inbox := by
  unfold issue
  split <;> rfl

end State

/-- What a rejection notice is about. -/
def Command.notice? : Command → Option (String × String)
  | .markOauthDead account token => some (account, token)
  | .mcpAuthRejected key token => some (key, token)
  | _ => none

/-- The answer to an unlock or to a bind. -/
def Event.answersKey : Event → Bool
  | .unlocked _ => true
  | .unlockRefused _ _ => true
  | .bound _ => true
  | .bindRefused _ _ => true
  | _ => false

namespace State

variable {s s' : State}

theorem post_grows {command : Command} (h : s.post command = some s') :
    ∃ posted, s'.daemon = s.daemon ∧ s'.inbox = s.inbox ++ posted ∧
      (∀ c ∈ posted, ∀ key credential e, c ≠ .oauthSave key credential e) ∧
      ∀ c ∈ posted, c.notice? = none := by
  cases command with
  | saveCredential service c =>
    cases h
    exact ⟨[.saveCredential service c], issue_daemon _ _, issue_inbox _ _, by simp,
      by simp [Command.notice?]⟩
  | unlock key =>
    cases h
    exact ⟨[.unlock key], rfl, rfl, by simp, by simp [Command.notice?]⟩
  | bind key =>
    cases h
    exact ⟨[.bind key], rfl, rfl, by simp, by simp [Command.notice?]⟩
  | lock =>
    cases h
    exact ⟨[.lock], rfl, rfl, by simp, by simp [Command.notice?]⟩
  | removeCredential service =>
    cases h
    exact ⟨[.removeCredential service], rfl, rfl, by simp, by simp [Command.notice?]⟩
  | _ => cases h

/-- What a thread posts is a load, a save or the notice of a rejection. -/
theorem advance_grows {index : Nat} {result : ExchangeResult} {os : List Event}
    (h : s.advance index result = some (s', os)) :
    ∃ posted, s'.daemon = s.daemon ∧ s'.inbox = s.inbox ++ posted ∧
      (∀ c ∈ posted, ∀ key credential e, c ≠ .oauthSave key credential e) ∧
      (∀ c ∈ posted, ∀ key token, c.notice? = some (key, token) → .rejected key token ∈ os) ∧
      ∀ e ∈ os, e.answersKey = false := by
  have hNone : ∀ {s' : State}, s'.daemon = s.daemon → s'.inbox = s.inbox →
      (∀ e ∈ os, e.answersKey = false) →
      ∃ posted, s'.daemon = s.daemon ∧ s'.inbox = s.inbox ++ posted ∧
        (∀ c ∈ posted, ∀ key credential e, c ≠ .oauthSave key credential e) ∧
        (∀ c ∈ posted, ∀ key token, c.notice? = some (key, token) → .rejected key token ∈ os) ∧
        ∀ e ∈ os, e.answersKey = false :=
    fun hDaemon hInbox hEvents =>
      ⟨[], hDaemon, hInbox.trans (List.append_nil _).symm, by simp, by simp, hEvents⟩
  unfold advance at h
  split at h
  · cases h
  · rename_i r hGet
    split at h
    · cases h
      exact hNone rfl rfl (by simp [Event.answersKey])
    · split at h
      · cases h
        exact hNone rfl rfl (by simp [Event.answersKey])
      · cases h
    · cases h
      exact ⟨[.loadOauthToken index r.account], rfl, rfl, by simp, by simp [Command.notice?],
          by simp [Event.answersKey]⟩
    · cases h
    · split at h
      · cases h
        exact hNone rfl rfl (by simp [Event.answersKey])
      · cases h
        exact hNone rfl rfl (by simp [Event.answersKey])
    · rename_i lock material hPhase
      split at h
      · rename_i response
        cases h
        refine ⟨[.saveOauthToken index (saveOf r.account material r.now response)],
          issue_daemon _ _, issue_inbox _ _, by simp, by simp [Command.notice?], ?_⟩
        intro e hMem
        split at hMem
        · cases List.mem_singleton.mp hMem
          rfl
        · cases hMem
      · cases h
        exact ⟨[.markOauthDead r.account material.refreshToken], rfl, rfl, by simp,
          by simp [Command.notice?], by simp [Event.answersKey]⟩
      · cases h
        exact ⟨[.markOauthDead r.account material.refreshToken], rfl, rfl, by simp,
          by simp [Command.notice?], by simp [Event.answersKey]⟩
      · cases h
        exact hNone rfl rfl (by simp [Event.answersKey])
    · cases h
    · cases h
    · cases h
      exact hNone rfl rfl (by simp [Event.answersKey])
    · cases h
      exact hNone rfl rfl (by simp [Event.answersKey])
    · cases h
      exact hNone rfl rfl (by simp [Event.answersKey])
    · cases h

theorem dropGuard_same {index : Nat} (h : s.dropGuard index = some s') :
    s'.daemon = s.daemon ∧ s'.inbox = s.inbox := by
  unfold dropGuard at h
  split at h
  · cases h
  · split at h
    · cases h
      exact ⟨rfl, rfl⟩
    · cases h

/-- A step is a command of the loop, or it changes the daemon in its read view alone and posts
notices only of what the provider has rejected. -/
theorem step_cases {a : Action} {os : List Event}
    (h : (machine cr).step s a = some (s', os)) :
    (∃ env, a = .handle env ∧ s.handle cr env = some (s', os)) ∨
    ∃ view posted, s'.daemon = { s.daemon with readView := view } ∧
      s'.inbox = s.inbox ++ posted ∧
      (∀ c ∈ posted, ∀ key token, c.notice? = some (key, token) → .rejected key token ∈ os) ∧
      ∀ e ∈ os, e.answersKey = false := by
  change s.step cr a = some (s', os) at h
  cases a with
  | post command =>
    obtain ⟨s₁, hPost, hEq⟩ := Option.map_eq_some_iff.mp h
    cases hEq
    obtain ⟨posted, hDaemon, hInbox, -, hNone⟩ := post_grows hPost
    refine .inr ⟨s.daemon.readView, posted, hDaemon, hInbox, ?_, by simp⟩
    intro c hMem key token hNotice
    rw [hNone c hMem] at hNotice
    cases hNotice
  | handle env => exact .inl ⟨env, rfl, h⟩
  | begin r =>
    cases h
    exact .inr ⟨s.daemon.readView, [], rfl, (List.append_nil _).symm, by simp, by simp⟩
  | advance index result =>
    obtain ⟨posted, hDaemon, hInbox, -, hNotices, hEvents⟩ := advance_grows h
    exact .inr ⟨s.daemon.readView, posted, hDaemon, hInbox, hNotices, hEvents⟩
  | dropGuard index =>
    obtain ⟨s₁, hDrop, hEq⟩ := Option.map_eq_some_iff.mp h
    cases hEq
    obtain ⟨hDaemon, hInbox⟩ := dropGuard_same hDrop
    exact .inr ⟨s.daemon.readView, [], hDaemon, hInbox.trans (List.append_nil _).symm, by simp,
      by simp⟩
  | mcpSave key c expected =>
    obtain ⟨s₁, hSave, hEq⟩ := Option.map_eq_some_iff.mp h
    cases hEq
    unfold mcpSave at hSave
    split at hSave
    · cases hSave
      exact .inr ⟨_, [.oauthSave key c expected], issue_daemon _ _, issue_inbox _ _,
        by simp [Command.notice?], by simp⟩
    · cases hSave
  | mcpClear key =>
    cases h
    exact .inr ⟨_, [.oauthClear key], rfl, rfl, by simp [Command.notice?], by simp⟩
  | mcpReject key token =>
    cases h
    exact .inr ⟨_, [.mcpAuthRejected key token], rfl, rfl, by simp [Command.notice?],
      by simp [Event.answersKey]⟩

end State

/-! ## A sample keystore -/

def sampleKey : List UInt8 := List.replicate 32 7

/-- A provider grant with a refresh token. -/
def sampleGrant (token : String) : ServiceCredential :=
  .oauth {
    kind := .provider
    tokenEndpoint := some "https://auth.example/token"
    refreshEncoding := some .json
    refreshToken := some token }

/-- A box for two grants, which names the recipient and the grant. -/
def sampleCrypto : Crypto where
  publicKey key := key
  encrypt pub c _ :=
    if c = sampleGrant "old" then .ok (1 :: pub)
    else if c = sampleGrant "new" then .ok (2 :: pub)
    else .error "unknown credential"
  decrypt pub blob :=
    if blob = 1 :: pub then some (sampleGrant "old")
    else if blob = 2 :: pub then some (sampleGrant "new")
    else none
  decrypt_encrypt pub c seed blob h := by
    split at h
    · rename_i hOld
      cases h
      simp [hOld]
    · split at h
      · rename_i hNew
        cases h
        simp [hNew]
      · cases h

end Choreographr.Keystore
