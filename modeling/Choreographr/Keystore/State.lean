import Mathlib.Logic.Function.Basic

/-!
# The keystore of the daemon

Credentials are stored in the database, sealed to a public key: the binding. A client that
presents the private key unlocks the daemon, which then holds the credentials in the clear
until it is locked again. The daemon also holds the access tokens that OAuth refreshes have
brought, the set of accounts whose grant was rejected for good, and the read view of the MCP
credentials that connections use without asking the command loop.
-/

namespace Choreographr.Keystore

/-- `HashMap<String, α>`. -/
abbrev Table (α : Type) := String → Option α

namespace Table

variable {α : Type}

def empty : Table α := fun _ => none

def insert (t : Table α) (key : String) (a : α) : Table α := Function.update t key (some a)

def remove (t : Table α) (key : String) : Table α := Function.update t key none

@[simp] theorem empty_apply (key : String) : (empty : Table α) key = none := rfl

@[simp] theorem insert_same (t : Table α) (key : String) (a : α) :
    t.insert key a key = some a := by simp [insert]

theorem insert_of_ne (t : Table α) {key other : String} (h : other ≠ key) (a : α) :
    t.insert key a other = t other := by simp [insert, h]

@[simp] theorem remove_same (t : Table α) (key : String) : t.remove key key = none := by
  simp [remove]

theorem remove_of_ne (t : Table α) {key other : String} (h : other ≠ key) :
    t.remove key other = t other := by simp [remove, h]

@[simp] theorem remove_empty (key : String) : (empty : Table α).remove key = empty := by
  funext other
  by_cases h : other = key
  · simp [h]
  · simp [remove_of_ne _ h]

end Table

/-! ## Credentials -/

inductive OAuthKind where
  | provider
  | mcp
deriving DecidableEq

inductive OAuthGrantEncoding where
  | form
  | json
deriving DecidableEq

/-- The fields of `ServiceCredential::OAuth` that the daemon reads. -/
structure OAuthGrant where
  kind : OAuthKind
  tokenEndpoint : Option String := none
  refreshEncoding : Option OAuthGrantEncoding := none
  refreshToken : Option String := none
  accountId : Option String := none
  clientId : Option String := none
  clientSecret : Option String := none
  grantedScopes : List String := []
deriving DecidableEq

inductive ServiceCredential where
  | apiKey (key : String)
  | x (apiKey apiKeySecret accessToken accessTokenSecret : String) (bearerToken : Option String)
  | substrate (name accountId : String) (secret pub : List UInt8)
  | oauth (grant : OAuthGrant)
deriving DecidableEq

namespace ServiceCredential

def asOauth : ServiceCredential → Option OAuthGrant
  | oauth grant => some grant
  | _ => none

def refreshToken (c : ServiceCredential) : Option String := c.asOauth.bind OAuthGrant.refreshToken

def isX : ServiceCredential → Bool
  | x .. => true
  | _ => false

end ServiceCredential

/-- The sealed boxes of the keystore: x25519, the box itself, and the serialisation of a
credential, which the daemon takes from libraries. A box is opened with a private key; what it
holds for that key depends on the public key that belongs to it. -/
structure Crypto where
  publicKey : List UInt8 → List UInt8
  /-- Serialise and encrypt to a public key; the number is the randomness of the box. -/
  encrypt : List UInt8 → ServiceCredential → Nat → Except String (List UInt8)
  /-- Decrypt and decode with a private key of this public key. -/
  decrypt : List UInt8 → List UInt8 → Option ServiceCredential
  decrypt_encrypt : ∀ pub c seed blob, encrypt pub c seed = .ok blob → decrypt pub blob = some c

structure AccountConfig where
  name : String
  provider : String
deriving DecidableEq

structure AccessTokenCache where
  accessToken : String
  expiresAt : Option Int
  receivedAt : Int
deriving DecidableEq

/-! ## The state -/

structure Daemon where
  locked : Bool := true
  /-- The rows of the database: the public key the keystore is bound to, and the boxes. -/
  binding : Option (List UInt8) := none
  blobs : Table (List UInt8) := Table.empty
  keystoreBound : Bool := false
  credentials : Table ServiceCredential := Table.empty
  accessTokens : Table AccessTokenCache := Table.empty
  deadOauth : String → Bool := fun _ => false
  xCredentials : Option ServiceCredential := none
  accounts : List AccountConfig := []
  /-- The snapshot of `McpOAuthRuntime`. -/
  readView : Table ServiceCredential := Table.empty

/-- What the outside answers while one command is handled: `some` is the text of an error. -/
structure Outcome where
  readBinding : Option String := none
  writeBinding : Option String := none
  readBlobs : Option String := none
  writeBlob : Option String := none
  removeBlob : Option String := none
  accountsFile : Except String (List AccountConfig) := .ok []
  seed : Nat := 0

inductive KeystoreOpError where
  | unbound
  | other (e : String)
deriving DecidableEq

/-- `is_mcp_credential_key`. -/
def isMcpCredentialKey (key : String) : Bool := key.startsWith "mcp:"

/-- `refresh_token_unchanged`. -/
def refreshTokenUnchanged (stored : ServiceCredential) : Option String → Bool
  | none => true
  | some expected => decide (stored.refreshToken = some expected)

/-- The fields of a save that a provider refresh sends. -/
structure SaveToken where
  account : String
  accessToken : String
  expiresAt : Option Int
  receivedAt : Int
  rotatedRefreshToken : Option String
  newAccountId : Option String
  expectedRefreshToken : Option String

namespace Daemon

variable (cr : Crypto) (env : Outcome) (d : Daemon)

/-- The credential that the database holds for a key, as the key of the binding opens it. -/
def stored (key : String) : Option ServiceCredential :=
  d.binding.bind fun pub => (d.blobs key).bind (cr.decrypt pub)

/-- `mark` or unmark an account. -/
def setDead (key : String) (dead : Bool) : Daemon :=
  { d with deadOauth := Function.update d.deadOauth key dead }

/-! ## The read view -/

/-- `mcp_oauth_snapshot`. -/
def mcpOauthSnapshot : Table ServiceCredential := fun key =>
  if isMcpCredentialKey key && !d.deadOauth key then d.credentials key else none

/-- `publish_mcp_oauth_key`. -/
def publishMcpOauthKey (key : String) : Daemon :=
  if isMcpCredentialKey key then
    { d with readView := Function.update d.readView key (d.mcpOauthSnapshot key) }
  else d

/-- `publish_mcp_oauth_snapshot`. -/
def publishMcpOauthSnapshot : Daemon := { d with readView := d.mcpOauthSnapshot }

/-! ## Unlock, bind and lock -/

/-- `zeroized_key_or_wipe`. -/
def zeroizedKeyOrWipe (key : List UInt8) : Except KeystoreOpError (List UInt8) :=
  if key.length = 32 then .ok key else .error (.other "invalid key: expected exactly 32 bytes")

/-- `get_keystore_binding`, with the error its callers report. -/
def getKeystoreBinding : Except KeystoreOpError (Option (List UInt8)) :=
  match env.readBinding with
  | some e => .error (.other s!"failed to read keystore binding: {e}")
  | none => .ok d.binding

/-- `verify_keystore_binding`. -/
def verifyKeystoreBinding (key : List UInt8) : Except KeystoreOpError Unit :=
  match d.getKeystoreBinding env with
  | .error e => .error e
  | .ok none => .error .unbound
  | .ok (some stored) =>
      if stored = cr.publicKey key then .ok ()
      else .error (.other "unlock key does not match the daemon's keystore binding")

/-- `bind_keystore`. -/
def bindKeystore (key : List UInt8) : Except KeystoreOpError Daemon :=
  match d.getKeystoreBinding env with
  | .error e => .error e
  | .ok none =>
      match env.writeBinding with
      | some e => .error (.other s!"failed to persist keystore binding: {e}")
      | none => .ok { d with binding := some (cr.publicKey key), keystoreBound := true }
  | .ok (some stored) =>
      if stored = cr.publicKey key then .ok d
      else .error (.other ("keystore is already bound and the presented key does not match; " ++
        "refusing to overwrite the binding"))

/-- `decrypt_credential_blobs`: a box that does not open is skipped. -/
def decryptCredentialBlobs (key : List UInt8) :
    Except KeystoreOpError (Table ServiceCredential) :=
  match env.readBlobs with
  | some e => .error (.other s!"failed to read credentials from database: {e}")
  | none => .ok fun service => (d.blobs service).bind (cr.decrypt (cr.publicKey key))

/-- `finish_unlock`: everything that can fail happens before the first field is assigned. -/
def finishUnlock (credentials : Table ServiceCredential) : Except KeystoreOpError Daemon :=
  match env.accountsFile with
  | .error e => .error (.other s!"failed to load accounts: {e}")
  | .ok accounts =>
      -- An `openai` credential without any account gets a default account.
      let accounts :=
        if accounts.isEmpty && (credentials "openai").isSome then
          [{ name := "default", provider := "openai" }]
        else accounts
      .ok ({ d with
        xCredentials := (credentials "twitter").filter ServiceCredential.isX
        credentials := credentials
        accounts := accounts
        locked := false } : Daemon).publishMcpOauthSnapshot

/-- `unlock_tail`. -/
def unlockTail (key : List UInt8) : Except KeystoreOpError Daemon :=
  match d.decryptCredentialBlobs cr env key with
  | .error e => .error e
  | .ok credentials => d.finishUnlock env credentials

/-- `handle_unlock_inner`. -/
def handleUnlockInner (privateKey : List UInt8) : Except KeystoreOpError Daemon :=
  match zeroizedKeyOrWipe privateKey with
  | .error e => .error e
  | .ok key =>
      match d.verifyKeystoreBinding cr env key with
      | .error e => .error e
      | .ok () => d.unlockTail cr env key

/-- `handle_bind_keystore_inner`: a binding that was adopted stays when the tail fails. -/
def handleBindKeystoreInner (privateKey : List UInt8) : Daemon × Except KeystoreOpError Unit :=
  match zeroizedKeyOrWipe privateKey with
  | .error e => (d, .error e)
  | .ok key =>
      match d.bindKeystore cr env key with
      | .error e => (d, .error e)
      | .ok bound =>
          match bound.unlockTail cr env key with
          | .error e => (bound, .error e)
          | .ok unlocked => (unlocked, .ok ())

/-- `handle_unlock`. -/
def handleUnlock (privateKey : List UInt8) : Daemon × Except KeystoreOpError Unit :=
  match d.handleUnlockInner cr env privateKey with
  | .error e => (d, .error e)
  | .ok unlocked => (unlocked, .ok ())

/-- `handle_lock`. -/
def handleLock : Daemon :=
  ({ d with
    credentials := Table.empty
    accessTokens := Table.empty
    deadOauth := fun _ => false
    xCredentials := none
    locked := true } : Daemon).publishMcpOauthSnapshot

/-! ## Storing and removing credentials -/

/-- `encrypt_and_persist_credential`. -/
def encryptAndPersistCredential (service : String) (credential : ServiceCredential) :
    Except String Daemon :=
  if d.locked then .error "unlock the keystore first"
  else
    match env.readBinding with
    | some e => .error s!"failed to read keystore binding: {e}"
    | none =>
        match d.binding with
        | none => .error "keystore is not bound; bind it before adding credentials"
        | some binding =>
            match cr.encrypt binding credential env.seed with
            | .error e => .error s!"failed to encrypt credential: {e}"
            | .ok blob =>
                match env.writeBlob with
                | some e => .error s!"failed to save credential: {e}"
                | none => .ok { d with blobs := d.blobs.insert service blob }

/-- `handle_save_credential`. -/
def handleSaveCredential (service : String) (credential : ServiceCredential) :
    Daemon × Except String Unit :=
  if d.locked then (d, .error "unlock the keystore first")
  else
    match d.encryptAndPersistCredential cr env service credential with
    | .error e => (d, .error e)
    | .ok stored =>
        let mirrored :=
          if credential.isX && service = "twitter" then
            { stored with xCredentials := some credential }
          else stored
        ((({ mirrored with
          accessTokens := mirrored.accessTokens.remove service
          credentials := mirrored.credentials.insert service credential } : Daemon).setDead service
            false).publishMcpOauthKey service, .ok ())

/-- `handle_remove_credential`. -/
def handleRemoveCredential (service : String) : Daemon × Except String Unit :=
  match env.removeBlob with
  | some e => (d, .error s!"failed to remove credential: {e}")
  | none =>
      ((({ d with
        blobs := d.blobs.remove service
        credentials := d.credentials.remove service
        accessTokens := d.accessTokens.remove service
        xCredentials := if service = "twitter" then none else d.xCredentials } : Daemon).setDead
          service false).publishMcpOauthKey service, .ok ())

/-! ## OAuth tokens -/

/-- `handle_save_oauth_token`. -/
def handleSaveOauthToken (save : SaveToken) : Daemon × Except String Unit :=
  if d.locked then (d, .error "unlock the keystore first")
  else
    match d.credentials save.account with
    | none => (d, .error s!"no credential stored for account '{save.account}'")
    | some current =>
        match current.asOauth with
        | none => (d, .error s!"account '{save.account}' is not a provider OAuth credential")
        | some stored =>
            if stored.kind ≠ .provider then
              (d, .error s!"account '{save.account}' is not a provider OAuth credential")
            else if !refreshTokenUnchanged current save.expectedRefreshToken then (d, .ok ())
            else
              let cache (d : Daemon) : Daemon :=
                ({ d with
                  accessTokens := d.accessTokens.insert save.account
                    ⟨save.accessToken, save.expiresAt, save.receivedAt⟩ } : Daemon).setDead
                  save.account false
              -- Values are compared, not presence: an echoed token is no change.
              let durableChange :=
                save.rotatedRefreshToken.any (fun rotated => stored.refreshToken ≠ some rotated) ||
                  save.newAccountId.any (fun id => stored.accountId ≠ some id)
              if !durableChange then (cache d, .ok ())
              else
                let updated : OAuthGrant :=
                  { stored with
                    refreshToken := save.rotatedRefreshToken.or stored.refreshToken
                    accountId := save.newAccountId.or stored.accountId }
                match d.encryptAndPersistCredential cr env save.account (.oauth updated) with
                | .error e => (d, .error e)
                | .ok persisted =>
                    (cache { persisted with
                      credentials := persisted.credentials.insert save.account
                        (.oauth updated) }, .ok ())

/-- `handle_mark_oauth_dead`. -/
def handleMarkOauthDead (account : String) : Daemon :=
  if d.deadOauth account then d
  else { d.setDead account true with accessTokens := d.accessTokens.remove account }

/-- `handle_oauth_save`; the flag says whether the credential was stored. -/
def handleOauthSave (key : String) (credential : ServiceCredential)
    (expectedRefreshToken : Option String) : Daemon × Bool :=
  if d.locked then (d.publishMcpOauthKey key, false)
  else
    match d.credentials key with
    | none => (d.publishMcpOauthKey key, false)
    | some current =>
        if !refreshTokenUnchanged current expectedRefreshToken then
          (d.publishMcpOauthKey key, false)
        else
          match d.encryptAndPersistCredential cr env key credential with
          | .error _ => (d, false)
          | .ok stored =>
              ((({ stored with
                credentials := stored.credentials.insert key credential
                accessTokens := stored.accessTokens.remove key } : Daemon).setDead key
                  false).publishMcpOauthKey key, true)

/-- `handle_oauth_clear`; the flag says whether the credential was removed. -/
def handleOauthClear (key : String) : Daemon × Bool :=
  match env.removeBlob with
  | some _ => (d, false)
  | none =>
      ((({ d with
        blobs := d.blobs.remove key
        credentials := d.credentials.remove key
        accessTokens := d.accessTokens.remove key } : Daemon).setDead key
          false).publishMcpOauthKey key, true)

/-- `handle_mcp_auth_rejected`. -/
def handleMcpAuthRejected (key : String) : Daemon :=
  if d.deadOauth key then d else (d.setDead key true).publishMcpOauthKey key

end Daemon

end Choreographr.Keystore
