import Choreographr.Keystore.State
import Mathlib.Algebra.Ring.Int.Defs

/-!
# Refreshing an OAuth token

A session thread refreshes the token of an account under a lock of that account: it loads the
durable grant from the daemon, exchanges the refresh token at the provider, and has the daemon
save what came back. The locks are kept in a registry, which makes one when it is asked for a
key that has none, and drops those that no thread holds or waits for.
-/

namespace Choreographr.Keystore

/-- `RefreshMaterial`. -/
structure RefreshMaterial where
  tokenEndpoint : String
  encoding : OAuthGrantEncoding
  clientId : Option String
  clientSecret : Option String
  refreshToken : String
  grantedScopes : List String
deriving DecidableEq

/-- `TokenLoad`. -/
structure TokenLoad where
  cached : Option AccessTokenCache := none
  material : Option RefreshMaterial := none
  dead : Bool := false
deriving DecidableEq

/-- What the refresh reads of a grant. -/
def OAuthGrant.material (g : OAuthGrant) : Option RefreshMaterial :=
  if g.kind ≠ .provider then none
  else
    match g.refreshToken, g.tokenEndpoint, g.refreshEncoding with
    | some refreshToken, some tokenEndpoint, some encoding =>
        some {
          tokenEndpoint := tokenEndpoint
          encoding := encoding
          clientId := g.clientId
          clientSecret := g.clientSecret
          refreshToken := refreshToken
          grantedScopes := g.grantedScopes }
    | _, _, _ => none

/-- `oauth_refresh_material`. -/
def Daemon.oauthRefreshMaterial (d : Daemon) (account : String) : Option RefreshMaterial :=
  ((d.credentials account).bind ServiceCredential.asOauth).bind OAuthGrant.material

/-- `oauth_token_load`. -/
def Daemon.oauthTokenLoad (d : Daemon) (account : String) : TokenLoad where
  cached := d.accessTokens account
  material := d.oauthRefreshMaterial account
  dead := d.deadOauth account

/-- `i64::saturating_add`. -/
def saturatingAdd (a b : Int) : Int := max (-(2 ^ 63)) (min (a + b) (2 ^ 63 - 1))

/-- `REFRESH_BUFFER_SECS`. -/
def refreshBufferSecs : Int := 60

/-- `token_is_usable`. -/
def tokenIsUsable (cached : AccessTokenCache) (now : Int) : Bool :=
  match cached.expiresAt with
  | some expiresAt => decide (saturatingAdd now refreshBufferSecs < expiresAt)
  | none => true

/-- A token set that the provider has issued. -/
structure OAuthTokenResponse where
  accessToken : String
  expiresIn : Option Nat := none
  refreshToken : Option String := none
  /-- The identity claim of its `id_token`. -/
  accountId : Option String := none

/-- `refresh_oauth_token`, as the provider answers it. -/
inductive ExchangeResult where
  | tokens (response : OAuthTokenResponse)
  | terminal
  | insecureEndpoint
  | transient

inductive RefreshTokenOutcome where
  | refreshed
  | notNeeded
  | notApplicable
deriving DecidableEq

inductive RefreshFailure where
  | terminal
  | transient
deriving DecidableEq

/-- What a load decides: go on with the exchange, or end. -/
def decideRefresh (load : TokenLoad) (force : Bool) (now : Int) :
    Except (Except RefreshFailure RefreshTokenOutcome) RefreshMaterial :=
  if load.dead then .error (.error .terminal)
  else
    match load.material with
    | none => .error (.ok .notApplicable)
    | some material =>
        if !force && load.cached.any (fun cached => tokenIsUsable cached now) then
          .error (.ok .notNeeded)
        else .ok material

/-- What a successful exchange has the daemon save. -/
def saveOf (account : String) (material : RefreshMaterial) (now : Int)
    (response : OAuthTokenResponse) : SaveToken where
  account := account
  accessToken := response.accessToken
  expiresAt := response.expiresIn.map fun secs =>
    saturatingAdd now (if secs < 2 ^ 63 then (secs : Int) else 2 ^ 63 - 1)
  receivedAt := now
  rotatedRefreshToken := response.refreshToken
  newAccountId := response.accountId
  expectedRefreshToken := some material.refreshToken

/-! ## The threads -/

/-- Where a thread that refreshes stands in `refresh_single_flight`. From `waiting` to
`unlocked` it owns a handle of the lock, and from `load` to `release` the lock itself. -/
inductive Phase where
  | acquire
  | waiting (lock : Nat)
  | load (lock : Nat)
  | awaitLoad (lock : Nat)
  | loaded (lock : Nat) (load : TokenLoad)
  | exchange (lock : Nat) (material : RefreshMaterial)
  | awaitSave (lock : Nat) (save : SaveToken)
  /-- The engine of an MCP connection has the guard. -/
  | guarded (lock : Nat)
  | release (lock : Nat)
  | unlocked (lock : Nat)
  | prune
  | done

namespace Phase

/-- The lock of which the thread owns a handle. -/
def handle? : Phase → Option Nat
  | waiting lock => some lock
  | load lock => some lock
  | awaitLoad lock => some lock
  | loaded lock _ => some lock
  | exchange lock _ => some lock
  | awaitSave lock _ => some lock
  | guarded lock => some lock
  | release lock => some lock
  | unlocked lock => some lock
  | _ => none

/-- The lock that the thread holds. -/
def held? : Phase → Option Nat
  | load lock => some lock
  | awaitLoad lock => some lock
  | loaded lock _ => some lock
  | exchange lock _ => some lock
  | awaitSave lock _ => some lock
  | guarded lock => some lock
  | release lock => some lock
  | _ => none

end Phase

structure Refresher where
  /-- The credential key: the account, or the key of an MCP server. -/
  account : String
  force : Bool := false
  now : Int := 0
  /-- The thread runs `refresh_single_flight`; otherwise it is an MCP connection, whose
  exchange happens elsewhere. -/
  provider : Bool := true
  phase : Phase := .acquire
  /-- The credential was replaced or removed since the thread loaded it. -/
  replaced : Bool := false

/-- `OAuthRefreshLocks`: a lock is a number, and its semaphore holds its token or not. -/
structure Locks where
  map : Table Nat := Table.empty
  free : Nat → Bool := fun _ => false
  next : Nat := 0

namespace Locks

/-- `acquire`: the lock of the key, made if there is none. -/
def acquire (locks : Locks) (key : String) : Locks × Nat :=
  match locks.map key with
  | some lock => (locks, lock)
  | none =>
      ({ map := locks.map.insert key locks.next
         free := Function.update locks.free locks.next true
         next := locks.next + 1 }, locks.next)

/-- `prune`: a lock stays while some thread owns a handle of it. -/
def prune (locks : Locks) (refreshers : List Refresher) : Locks :=
  { locks with
    map := fun key => (locks.map key).filter fun lock =>
      refreshers.any fun r => r.phase.handle? = some lock }

end Locks

end Choreographr.Keystore
