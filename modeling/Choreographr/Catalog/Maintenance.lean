import Choreographr.Catalog.Overlay
import Choreographr.Lib.Machine

/-!
# Catalog maintenance

The maintenance thread fetches the base and watches the user overlay, and the command loop merges,
swaps and persists. They talk over two queues. The durable state is the cache file and the etag
in the database, which are written one after the other; a crash leaves exactly these.
-/

namespace Choreographr.Catalog

open Lib

/-! ## Data -/

/-- What the build embeds, and the TOML parser. The embedded base is not empty. -/
structure Embedded where
  fromStr : String → Option Document
  base : List ProviderEntry
  overlaySrc : String
  base_ne_nil : base ≠ []

inductive RefreshStatus where
  | updated
  | forced
  | upToDate
deriving DecidableEq

structure RefreshReport where
  providers : Nat
  models : Nat
  status : RefreshStatus
deriving DecidableEq

structure RefreshRequester where
  force : Bool
  tx : Nat
deriving DecidableEq

inductive MaintenanceEvent where
  | refreshNow (force : Bool) (reply : Nat)
  | catalogPersistFailed
deriving DecidableEq

inductive Command where
  | catalogBaseChanged (base : List ProviderEntry) (etag userOverlay : Option String)
      (persist : Bool) (reply : List RefreshRequester)
  | catalogNotModified (reply : List RefreshRequester)
  | catalogOverlayChanged (userOverlay : Option String)
deriving DecidableEq

inductive CacheWrite where
  | fetch (etag : Option String)
  | skip

/-- The outcome of reading the overlay file: its contents, none when it is absent. -/
inductive OverlayRead where
  | contents (text : Option String)
  | failed

/-- The outcome of one GET; a body counts as the base it normalizes to. -/
inductive FetchOutcome where
  | notModified
  | fetched (base : List ProviderEntry) (etag : Option String)
  | error (text : String)

inductive Reply where
  | ok (report : RefreshReport)
  | err (text : String)
deriving DecidableEq

inductive Output where
  | reply (tx : Nat) (result : Reply)
  /-- A body was served with this etag. -/
  | fetched (base : List ProviderEntry) (etag : Option String)
  /-- The command loop has swapped in a catalog built on this base. -/
  | accepted (base : List ProviderEntry)
  /-- The command loop was handed this overlay. -/
  | handed (userOverlay : Option String)
  | started
deriving DecidableEq

/-! ## State -/

structure Disk where
  cache : Option (List ProviderEntry) := none
  etag : Option String := none
deriving DecidableEq

structure MaintenanceState where
  etag : Option String
  lastAppliedUserOverlay : Option String
  /-- The requesters of the GET that is under way. -/
  fetching : Option (Bool × List RefreshRequester) := none
deriving DecidableEq

/-- The rest of a swap whose cache file is written: the etag to store and the replies. -/
structure Storing where
  etag : Option String
  reply : List RefreshRequester
  providers : Nat
  models : Nat
deriving DecidableEq

structure CommandLoop where
  live : List ProviderEntry
  catalogAppliedBase : Option (List ProviderEntry) := none
  storing : Option Storing := none
deriving DecidableEq

structure System where
  disk : Disk
  maintenance : MaintenanceState
  inbox : List MaintenanceEvent := []
  commands : List Command := []
  loop : CommandLoop
deriving DecidableEq

/-! ## Reading the disk -/

/-- The stored etag without surrounding blanks; a blank one counts as absent. -/
def trimmed (raw : String) : String := raw.trimAscii.copy

def getCatalogEtag (disk : Disk) : Option String :=
  disk.etag.bind fun raw => if trimmed raw = "" then none else some (trimmed raw)

/-- The cache file when there is a valid one, else the embedded base. -/
def loadPersistedBase (emb : Embedded) (disk : Disk) : List ProviderEntry :=
  disk.cache.getD emb.base

/-- The etag a starting thread takes over: none without a cache file. -/
def startEtag (disk : Disk) (etagRead : Bool) : Option String :=
  if disk.cache.isSome && etagRead then getCatalogEtag disk else none

/-! ## The command loop -/

def mergeCatalogLayers (emb : Embedded) (base : List ProviderEntry) (userOverlay : Option String) :
    List ProviderEntry :=
  let effective := mergeOverlay emb.fromStr base emb.overlaySrc
  userOverlay.elim effective fun overlay => mergeOverlay emb.fromStr effective overlay

def countModels (catalog : List ProviderEntry) : Nat := (catalog.map fun e => e.models.length).sum

def sendCatalogReply (reply : List RefreshRequester) (providers models : Nat) : List Output :=
  reply.map fun r => .reply r.tx (.ok ⟨providers, models, if r.force then .forced else .updated⟩)

namespace System

variable (emb : Embedded) (s : System)

/-- The cache file first. On success the etag is left to be stored, on failure the base is
retained in memory and the maintenance thread is told. -/
def persistCatalogCache (base : List ProviderEntry) (write : CacheWrite) (writeOk : Bool)
    (reply : List RefreshRequester) (providers models : Nat) : System × List Output :=
  match write with
  | .skip => (s, sendCatalogReply reply providers models)
  | .fetch etag =>
      if writeOk then
        ({ s with
          disk := { s.disk with cache := some base }
          loop := { s.loop with
            catalogAppliedBase := none
            storing := some ⟨etag, reply, providers, models⟩ } }, [])
      else
        ({ s with
          loop := { s.loop with catalogAppliedBase := some base }
          inbox := s.inbox ++ [.catalogPersistFailed] }, sendCatalogReply reply providers models)

def applyCatalogSwap (base : List ProviderEntry) (userOverlay : Option String)
    (write : CacheWrite) (writeOk : Bool) (reply : List RefreshRequester) :
    System × List Output :=
  let effective := mergeCatalogLayers emb base userOverlay
  if effective = [] then
    (s, .handed userOverlay :: reply.map fun r =>
      .reply r.tx (.err "merged catalog is empty; keeping the current catalog"))
  else
    let swapped := { s with loop := { s.loop with live := effective } }
    let (s', os) := persistCatalogCache swapped base write writeOk reply effective.length
      (countModels effective)
    (s', .accepted base :: .handed userOverlay :: os)

def handleCatalogOverlayChanged (userOverlay : Option String) : System × List Output :=
  let base := s.loop.catalogAppliedBase.getD (loadPersistedBase emb s.disk)
  applyCatalogSwap emb s base userOverlay .skip true []

def handleCatalogNotModified (reply : List RefreshRequester) : List Output :=
  reply.map fun r => .reply r.tx (.ok ⟨s.loop.live.length, countModels s.loop.live, .upToDate⟩)

/-- One command, unless the etag of the last one is still to be stored. -/
def handle (writeOk : Bool) : Option (System × List Output) :=
  match s.loop.storing, s.commands with
  | none, .catalogBaseChanged base etag userOverlay persist reply :: rest =>
      some (applyCatalogSwap emb { s with commands := rest } base userOverlay
        (if persist then .fetch etag else .skip) writeOk reply)
  | none, .catalogOverlayChanged userOverlay :: rest =>
      some (handleCatalogOverlayChanged emb { s with commands := rest } userOverlay)
  | none, .catalogNotModified reply :: rest =>
      some ({ s with commands := rest }, handleCatalogNotModified s reply)
  | _, _ => none

/-- The second write of a persist; a failure keeps the old etag. -/
def storeEtag (ok : Bool) : Option (System × List Output) :=
  s.loop.storing.map fun rest =>
    ({ s with
      disk := { s.disk with etag := if ok then rest.etag else s.disk.etag }
      loop := { s.loop with storing := none } },
      sendCatalogReply rest.reply rest.providers rest.models)

/-- `handle_refresh_models`: the request goes to the maintenance thread. -/
def requestRefresh (force : Bool) (reply : Nat) : Option (System × List Output) :=
  if s.loop.storing = none then
    some ({ s with inbox := s.inbox ++ [.refreshNow force reply] }, [])
  else none

/-! ## The maintenance thread -/

/-- Hand a changed overlay to the command loop; an unreadable file keeps the last one. -/
def reloadUserOverlay : OverlayRead → System
  | .contents text =>
      if s.maintenance.lastAppliedUserOverlay = text then s
      else
        { s with
          maintenance := { s.maintenance with lastAppliedUserOverlay := text }
          commands := s.commands ++ [.catalogOverlayChanged text] }
  | .failed => s

/-- Drain the requests that are queued. The receive that ends the drain takes the event off the
queue as well. -/
def foldRefreshNows : List MaintenanceEvent → Bool → List RefreshRequester →
    Bool × List RefreshRequester × List MaintenanceEvent
  | .refreshNow force reply :: rest, anyForce, replies =>
      foldRefreshNows rest (anyForce || force) (replies ++ [⟨force, reply⟩])
  | .catalogPersistFailed :: rest, anyForce, replies => (anyForce, replies, rest)
  | [], anyForce, replies => (anyForce, replies, [])

def receive (overlay : OverlayRead) : Option (System × List Output) :=
  match s.maintenance.fetching, s.inbox with
  | none, .refreshNow force reply :: rest =>
      let s₁ := reloadUserOverlay s overlay
      let (anyForce, replies, rest) := foldRefreshNows rest force [⟨force, reply⟩]
      some ({ s₁ with
        maintenance := { s₁.maintenance with fetching := some (anyForce, replies) }
        inbox := rest }, [])
  | none, .catalogPersistFailed :: rest =>
      some ({ s with maintenance := { s.maintenance with etag := none }, inbox := rest }, [])
  | _, _ => none

def overlayEvent (overlay : OverlayRead) : Option (System × List Output) :=
  if s.maintenance.fetching = none then some (reloadUserOverlay s overlay, []) else none

def timer : Option (System × List Output) :=
  if s.maintenance.fetching = none then
    some ({ s with maintenance := { s.maintenance with fetching := some (false, []) } }, [])
  else none

/-- The end of `run_refresh_impl`: the GET has returned. -/
def fetched (outcome : FetchOutcome) : Option (System × List Output) :=
  s.maintenance.fetching.map fun (_, reply) =>
    let idle := { s with maintenance := { s.maintenance with fetching := none } }
    match outcome with
    | .notModified =>
        (if reply.isEmpty then idle
          else { idle with commands := idle.commands ++ [.catalogNotModified reply] }, [])
    | .fetched base etag =>
        if base = [] then
          (idle, reply.map fun r =>
            .reply r.tx (.err "models.dev response did not parse into a non-empty catalog"))
        else
          ({ idle with
            maintenance := { idle.maintenance with etag := etag }
            commands := idle.commands ++ [.catalogBaseChanged base etag
              idle.maintenance.lastAppliedUserOverlay true reply] }, [.fetched base etag])
    | .error text => (idle, reply.map fun r => .reply r.tx (.err text))

end System

/-! ## The whole system -/

/-- A starting daemon: the catalog is the embedded one until the command that the maintenance
thread sends first is handled. -/
def start (emb : Embedded) (disk : Disk) (overlay : OverlayRead) (etagRead fetchNow : Bool) :
    System where
  disk := disk
  maintenance := {
    etag := startEtag disk etagRead
    lastAppliedUserOverlay := match overlay with
      | .contents text => text
      | .failed => none
    fetching := if disk.cache.isNone || fetchNow then some (false, []) else none }
  commands := [.catalogBaseChanged (loadPersistedBase emb disk) (startEtag disk etagRead)
    (match overlay with
      | .contents text => text
      | .failed => none) false []]
  loop := { live := mergeCatalogLayers emb emb.base none }

inductive Action where
  | requestRefresh (force : Bool) (reply : Nat)
  | receive (overlay : OverlayRead)
  | overlayEvent (overlay : OverlayRead)
  | timer
  | fetched (outcome : FetchOutcome)
  | handle (writeOk : Bool)
  | storeEtag (ok : Bool)
  /-- The daemon dies and starts again from the disk. -/
  | restart (overlay : OverlayRead) (etagRead fetchNow : Bool)

def System.step (emb : Embedded) (s : System) : Action → Option (System × List Output)
  | .requestRefresh force reply => s.requestRefresh force reply
  | .receive overlay => s.receive overlay
  | .overlayEvent overlay => s.overlayEvent overlay
  | .timer => s.timer
  | .fetched outcome => s.fetched outcome
  | .handle writeOk => s.handle emb writeOk
  | .storeEtag ok => s.storeEtag ok
  | .restart overlay etagRead fetchNow =>
      some (start emb s.disk overlay etagRead fetchNow, [.started])

def machine (emb : Embedded) : Machine System Action Output := ⟨System.step emb⟩

end Choreographr.Catalog
