import Choreographr.Keystore.Refresh
import Choreographr.Lib.Machine

/-!
# The keystore system

The command loop handles its commands one at a time and in order. Clients post commands,
session threads refresh OAuth tokens, and MCP connections advance the read view and post what
they have done. A rejection notice names the account; the token it is about is not part of the
command and is kept here only to say what the notice meant.
-/

namespace Choreographr.Keystore

open Lib

inductive Command where
  | unlock (key : List UInt8)
  | bind (key : List UInt8)
  | lock
  | saveCredential (service : String) (credential : ServiceCredential)
  | removeCredential (service : String)
  /-- The thread with this number waits for the answer. -/
  | loadOauthToken (refresher : Nat) (account : String)
  | saveOauthToken (refresher : Nat) (save : SaveToken)
  | markOauthDead (account : String) (token : String)
  | oauthSave (key : String) (credential : ServiceCredential)
      (expectedRefreshToken : Option String)
  | oauthClear (key : String)
  | mcpAuthRejected (key : String) (token : String)

inductive Event where
  | unlocked (key : List UInt8)
  | unlockRefused (key : List UInt8) (e : KeystoreOpError)
  | bound (key : List UInt8)
  | bindRefused (key : List UInt8) (e : KeystoreOpError)
  /-- An exchange has sent the refresh token of an account to the provider. -/
  | presented (account token : String)
  /-- The provider has replaced the refresh token it was sent. -/
  | rotated (account token : String)
  /-- The provider has rejected the refresh token for good, or its endpoint is not secure. -/
  | rejected (key token : String)
deriving DecidableEq

inductive Action where
  /-- A client posts a command. -/
  | post (command : Command)
  /-- The loop handles the oldest command. -/
  | handle (env : Outcome)
  /-- A thread begins a refresh. -/
  | begin (refresher : Refresher)
  /-- A thread goes on; the result is the answer of the provider to an exchange. -/
  | advance (index : Nat) (result : ExchangeResult)
  /-- The engine of an MCP connection drops its guard. -/
  | dropGuard (index : Nat)
  | mcpSave (key : String) (credential : ServiceCredential)
      (expectedRefreshToken : Option String)
  | mcpClear (key : String)
  | mcpReject (key token : String)

structure State where
  daemon : Daemon := {}
  inbox : List Command := []
  refreshers : List Refresher := []
  locks : Locks := {}
  /-- The refresh tokens that were stored for a key at first, or have been brought since. -/
  issued : String → String → Bool := fun _ _ => false

namespace Refresher

/-- The answer to a load: from here on the thread works with this credential. -/
def answerLoad (load : TokenLoad) (r : Refresher) : Refresher :=
  match r.phase with
  | .awaitLoad lock => { r with phase := .loaded lock load, replaced := false }
  | _ => r

/-- The answer to a save. -/
def answerSave (r : Refresher) : Refresher :=
  match r.phase with
  | .awaitSave lock _ => { r with phase := .release lock }
  | _ => r

end Refresher

namespace State

variable (cr : Crypto) (s : State)

def setPhase (index : Nat) (phase : Phase) : State :=
  { s with refreshers := s.refreshers.modify index fun r => { r with phase := phase } }

def send (command : Command) : State := { s with inbox := s.inbox ++ [command] }

def issue (key : String) (token : Option String) : State :=
  match token with
  | none => s
  | some t =>
      { s with issued := Function.update s.issued key (Function.update (s.issued key) t true) }

/-- The threads that have loaded the credential of an account learn that it was replaced. -/
def noteReplaced (account : String) : State :=
  { s with
    refreshers := s.refreshers.map fun r =>
      if r.account = account then { r with replaced := true } else r }

/-- `oauth_refresh_locks::prune`. -/
def prune : State := { s with locks := s.locks.prune s.refreshers }

/-- A client may post what is its own to post. -/
def post : Command → Option State
  | .saveCredential service credential =>
      some ((s.send (.saveCredential service credential)).issue service credential.refreshToken)
  | .unlock key => some (s.send (.unlock key))
  | .bind key => some (s.send (.bind key))
  | .lock => some (s.send .lock)
  | .removeCredential service => some (s.send (.removeCredential service))
  | _ => none

/-- `refresh_single_flight`, step by step. -/
def advance (index : Nat) (result : ExchangeResult) : Option (State × List Event) :=
  match s.refreshers[index]? with
  | none => none
  | some r =>
      match r.phase with
      | .acquire =>
          let (locks, lock) := s.locks.acquire r.account
          some ({ s.setPhase index (.waiting lock) with locks := locks }, [])
      | .waiting lock =>
          if s.locks.free lock then
            some ({ s.setPhase index (if r.provider then .load lock else .guarded lock) with
              locks := { s.locks with free := Function.update s.locks.free lock false } }, [])
          else none
      | .load lock =>
          some ((s.setPhase index (.awaitLoad lock)).send (.loadOauthToken index r.account), [])
      | .awaitLoad _ => none
      | .loaded lock load =>
          match decideRefresh load r.force r.now with
          | .error _ => some (s.setPhase index (.release lock), [])
          | .ok material =>
              some (s.setPhase index (.exchange lock material),
                [.presented r.account material.refreshToken])
      | .exchange lock material =>
          match result with
          | .tokens response =>
              let save := saveOf r.account material r.now response
              some (((s.setPhase index (.awaitSave lock save)).send
                  (.saveOauthToken index save)).issue r.account response.refreshToken,
                if response.refreshToken.any (fun t => t ≠ material.refreshToken) then
                  [.rotated r.account material.refreshToken]
                else [])
          | .terminal | .insecureEndpoint =>
              some ((s.setPhase index (.release lock)).send
                (.markOauthDead r.account material.refreshToken),
                [.rejected r.account material.refreshToken])
          | .transient => some (s.setPhase index (.release lock), [])
      | .awaitSave _ _ => none
      | .guarded _ => none
      | .release lock =>
          some ({ s.setPhase index (.unlocked lock) with
            locks := { s.locks with free := Function.update s.locks.free lock true } }, [])
      | .unlocked _ => some (s.setPhase index (if r.provider then .prune else .done), [])
      | .prune => some ((s.setPhase index .done).prune, [])
      | .done => none

/-- The engine of an MCP connection is done with its refresh. -/
def dropGuard (index : Nat) : Option State :=
  match s.refreshers[index]? with
  | none => none
  | some r =>
      match r.phase with
      | .guarded lock => some (s.setPhase index (.release lock))
      | _ => none

/-- The command loop handles one command. -/
def handleCommand (env : Outcome) : Command → State × List Event
  | .unlock key =>
      match s.daemon.handleUnlock cr env key with
      | (d, .ok ()) => ({ s with daemon := d }, [.unlocked key])
      | (d, .error e) => ({ s with daemon := d }, [.unlockRefused key e])
  | .bind key =>
      match s.daemon.handleBindKeystoreInner cr env key with
      | (d, .ok ()) => ({ s with daemon := d }, [.bound key])
      | (d, .error e) => ({ s with daemon := d }, [.bindRefused key e])
  | .lock => ({ s with daemon := s.daemon.handleLock }, [])
  | .saveCredential service credential =>
      match s.daemon.handleSaveCredential cr env service credential with
      | (d, .ok ()) => (({ s with daemon := d } : State).noteReplaced service, [])
      | (d, .error _) => ({ s with daemon := d }, [])
  | .removeCredential service =>
      match s.daemon.handleRemoveCredential env service with
      | (d, .ok ()) => (({ s with daemon := d } : State).noteReplaced service, [])
      | (d, .error _) => ({ s with daemon := d }, [])
  | .loadOauthToken index account =>
      ({ s with
        refreshers := s.refreshers.modify index
          (Refresher.answerLoad (s.daemon.oauthTokenLoad account)) }, [])
  | .saveOauthToken index save =>
      ({ s with
        daemon := (s.daemon.handleSaveOauthToken cr env save).1
        refreshers := s.refreshers.modify index Refresher.answerSave }, [])
  | .markOauthDead account _ =>
      ({ s with daemon := s.daemon.handleMarkOauthDead account }, [])
  | .oauthSave key credential expected =>
      match s.daemon.handleOauthSave cr env key credential expected with
      | (d, true) => ((({ s with daemon := d } : State).noteReplaced key).prune, [])
      | (d, false) => ({ s with daemon := d }, [])
  | .oauthClear key =>
      match s.daemon.handleOauthClear env key with
      | (d, true) => ((({ s with daemon := d } : State).noteReplaced key).prune, [])
      | (d, false) => ({ s with daemon := d }, [])
  | .mcpAuthRejected key _ =>
      ({ s with daemon := s.daemon.handleMcpAuthRejected key }, [])

def handle (env : Outcome) : Option (State × List Event) :=
  match s.inbox with
  | [] => none
  | command :: rest => some (({ s with inbox := rest } : State).handleCommand cr env command)

/-- `McpOAuthBackend::save`: the read view is advanced before the command is posted. -/
def mcpSave (key : String) (credential : ServiceCredential) (expected : Option String) :
    Option State :=
  if isMcpCredentialKey key then
    some ((({ s with
      daemon := { s.daemon with readView := s.daemon.readView.insert key credential } } :
        State).send (.oauthSave key credential expected)).issue key credential.refreshToken)
  else none

def withdraw (key : String) : State :=
  { s with daemon := { s.daemon with readView := s.daemon.readView.remove key } }

def step : Action → Option (State × List Event)
  | .post command => (s.post command).map fun s' => (s', [])
  | .handle env => s.handle cr env
  | .begin r => some ({ s with refreshers := s.refreshers ++ [{ r with phase := .acquire }] }, [])
  | .advance index result => s.advance index result
  | .dropGuard index => (s.dropGuard index).map fun s' => (s', [])
  | .mcpSave key credential expected => (s.mcpSave key credential expected).map fun s' => (s', [])
  | .mcpClear key => some ((s.withdraw key).send (.oauthClear key), [])
  | .mcpReject key token =>
      some ((s.withdraw key).send (.mcpAuthRejected key token), [.rejected key token])

end State

/-- The transition system of the keystore. -/
def machine (cr : Crypto) : Machine State Action Event := ⟨State.step cr⟩

/-- The daemon opens with what the database and the accounts file hold, and locked. -/
def opened (cr : Crypto) (binding : Option (List UInt8)) (blobs : Table (List UInt8))
    (accounts : List AccountConfig) : State :=
  let daemon : Daemon := {
    binding := binding
    blobs := blobs
    keystoreBound := binding.isSome
    accounts := accounts }
  { daemon := daemon
    issued := fun key token =>
      decide ((daemon.stored cr key).bind ServiceCredential.refreshToken = some token) }

end Choreographr.Keystore
