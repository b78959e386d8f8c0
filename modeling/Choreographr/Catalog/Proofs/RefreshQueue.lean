import Choreographr.Catalog.Proofs.Coherence

/-!
# What a burst of refresh requests takes off the queue

The drain behind a request ends with a receive, and what that receive returns
is gone from the queue whatever it is. So a burst loses nothing exactly when
nothing but requests is queued behind its first one. The replies are kept track
of by `owed`: every step but a restart moves a requester on, or answers it.
-/

namespace Choreographr.Catalog

open Lib

/-! ## Requests, notices and replies -/

def MaintenanceEvent.isRefreshNow : MaintenanceEvent → Bool
  | .refreshNow _ _ => true
  | .catalogPersistFailed => false

def MaintenanceEvent.requester? : MaintenanceEvent → Option RefreshRequester
  | .refreshNow force reply => some ⟨force, reply⟩
  | .catalogPersistFailed => none

/-- The events of a queue that are not requests. -/
def otherEvents (queue : List MaintenanceEvent) : List MaintenanceEvent :=
  queue.filter fun e => !e.isRefreshNow

def Command.reply : Command → List RefreshRequester
  | .catalogBaseChanged _ _ _ _ reply => reply
  | .catalogNotModified reply => reply
  | .catalogOverlayChanged _ => []

/-- The requesters that still wait, wherever their request is. -/
def System.waiting (s : System) : List RefreshRequester :=
  s.inbox.filterMap MaintenanceEvent.requester? ++ (s.maintenance.fetching.elim [] Prod.snd ++
    (s.commands.flatMap Command.reply ++ s.loop.storing.elim [] Storing.reply))

/-- The replies that a channel is still to get. -/
def System.owed (s : System) (tx : Nat) : Nat := (s.waiting.map RefreshRequester.tx).count tx

def Output.answers? : Output → Option Nat
  | .reply tx _ => some tx
  | _ => none

/-- The replies that a channel got. -/
def answered (tx : Nat) (os : List Output) : Nat := (os.filterMap Output.answers?).count tx

def Action.asks? : Action → Option Nat
  | .requestRefresh _ reply => some reply
  | _ => none

/-- The requests that a channel was handed over for. -/
def asked (tx : Nat) (as : List Action) : Nat := (as.filterMap Action.asks?).count tx

def Action.isRestart : Action → Bool
  | .restart _ _ _ => true
  | _ => false

@[simp] theorem answered_nil (tx : Nat) : answered tx [] = 0 := rfl

theorem answered_append (tx : Nat) (os es : List Output) :
    answered tx (os ++ es) = answered tx os + answered tx es := by
  simp [answered]

theorem asked_cons (tx : Nat) (a : Action) (as : List Action) :
    asked tx (a :: as) = asked tx [a] + asked tx as := by
  rw [asked, ← List.singleton_append, List.filterMap_append, List.count_append]
  rfl

theorem answered_map (tx : Nat) (reply : List RefreshRequester) (result : RefreshRequester → Reply) :
    answered tx (reply.map fun r => .reply r.tx (result r)) =
      (reply.map RefreshRequester.tx).count tx := by
  rw [answered, List.filterMap_map]
  congr 1
  induction reply with
  | nil => rfl
  | cons r rest ih => exact congrArg (r.tx :: ·) ih

namespace System

/-! ## The drain -/

/-- What the drain takes: requests, and then the event that ends it, if there is one. -/
theorem foldRefreshNows_spec (queue : List MaintenanceEvent) (anyForce : Bool)
    (replies : List RefreshRequester) :
    ∃ consumed ending, queue = consumed ++ (ending ++ (foldRefreshNows queue anyForce replies).2.2) ∧
      (∀ e ∈ consumed, e.isRefreshNow = true) ∧
      (foldRefreshNows queue anyForce replies).2.1 =
        replies ++ consumed.filterMap MaintenanceEvent.requester? ∧
      (queue = consumed ∧ ending = [] ∨ ending = [.catalogPersistFailed]) := by
  induction queue generalizing anyForce replies with
  | nil => exact ⟨[], [], rfl, by simp, by simp [foldRefreshNows], Or.inl ⟨rfl, rfl⟩⟩
  | cons event rest ih =>
    cases event with
    | catalogPersistFailed =>
      exact ⟨[], [.catalogPersistFailed], rfl, by simp, by simp [foldRefreshNows], Or.inr rfl⟩
    | refreshNow force reply =>
      obtain ⟨consumed, ending, hQueue, hRequests, hReplies, hEnding⟩ :=
        ih (anyForce || force) (replies ++ [⟨force, reply⟩])
      refine ⟨.refreshNow force reply :: consumed, ending, ?_, ?_, ?_, ?_⟩
      · rw [foldRefreshNows, List.cons_append, ← hQueue]
      · intro e hMem
        rcases List.mem_cons.mp hMem with rfl | hTail
        · rfl
        · exact hRequests e hTail
      · rw [foldRefreshNows, hReplies, List.append_assoc]
        rfl
      · rcases hEnding with ⟨hAll, hNone⟩ | hEnding
        · exact Or.inl ⟨by rw [← hAll], hNone⟩
        · exact Or.inr hEnding

/-! ## No reply is lost and none is given twice -/

section Replies

variable {emb : Embedded} {s s' : System} {os : List Output} (tx : Nat)

theorem owed_eq (s : System) : s.owed tx =
    ((s.inbox.filterMap MaintenanceEvent.requester?).map RefreshRequester.tx).count tx +
      (((s.maintenance.fetching.elim [] Prod.snd).map RefreshRequester.tx).count tx +
        (((s.commands.flatMap Command.reply).map RefreshRequester.tx).count tx +
          ((s.loop.storing.elim [] Storing.reply).map RefreshRequester.tx).count tx)) := by
  simp [owed, waiting]

theorem owed_reloadUserOverlay (overlay : OverlayRead) :
    (reloadUserOverlay s overlay).owed tx = s.owed tx := by
  cases overlay with
  | failed => rfl
  | contents text =>
    rw [reloadUserOverlay]
    split
    · rfl
    · simp [owed_eq, Command.reply]

theorem owed_receive {overlay : OverlayRead} (h : s.receive overlay = some (s', os)) :
    answered tx os + s'.owed tx = s.owed tx := by
  obtain ⟨rfl, hIdle, ⟨force, reply, rest, hInbox, anyForce, replies, rest', hFold, rfl⟩ |
    ⟨rest, hInbox, rfl⟩⟩ := receive_cases h
  · obtain ⟨consumed, ending, hQueue, -, hReplies, hEnding⟩ :=
      foldRefreshNows_spec rest force [⟨force, reply⟩]
    rw [hFold] at hQueue hReplies
    have hNone : ending.filterMap MaintenanceEvent.requester? = [] := by
      rcases hEnding with ⟨-, rfl⟩ | rfl <;> rfl
    have hReload := owed_reloadUserOverlay (s := s) tx overlay
    obtain ⟨-, -, hSame, -⟩ := reloadUserOverlay_spec s overlay
    have hFetching : (reloadUserOverlay s overlay).maintenance.fetching = none := by
      cases overlay with
      | failed => exact hIdle
      | contents text =>
        rw [reloadUserOverlay]
        split <;> exact hIdle
    rw [← hReload, owed_eq, owed_eq, hFetching, hSame, hInbox, hQueue]
    simp only at hReplies
    simp [hReplies, hNone, MaintenanceEvent.requester?, List.count_cons]
    omega
  · rw [owed_eq, owed_eq, hInbox]
    simp [MaintenanceEvent.requester?, List.filterMap_cons]

theorem owed_fetched {outcome : FetchOutcome} (h : s.fetched outcome = some (s', os)) :
    answered tx os + s'.owed tx = s.owed tx := by
  obtain ⟨⟨force, reply⟩, hFetching, hEq⟩ := Option.map_eq_some_iff.mp h
  cases outcome with
  | notModified =>
    cases reply with
    | nil =>
      cases hEq
      simp [owed_eq, hFetching]
    | cons r rest =>
      cases hEq
      simp [owed_eq, hFetching, Command.reply]
      omega
  | fetched base etag =>
    by_cases hBase : base = []
    · simp only [hBase, if_true] at hEq
      cases hEq
      simp [owed_eq, hFetching, answered_map]
      omega
    · simp only [hBase, if_false] at hEq
      cases hEq
      simp [owed_eq, hFetching, Command.reply, answered, List.filterMap_cons, Output.answers?]
      omega
  | error text =>
    cases hEq
    simp [owed_eq, hFetching, answered_map]
    omega

theorem answered_sendCatalogReply (reply : List RefreshRequester) (providers models : Nat) :
    answered tx (sendCatalogReply reply providers models) =
      (reply.map RefreshRequester.tx).count tx :=
  answered_map tx reply _

/-- A swap answers its requesters, or leaves them to the write of the etag. -/
theorem owed_applyCatalogSwap (emb : Embedded) (base : List ProviderEntry) (overlay : Option String)
    (write : CacheWrite) (writeOk : Bool) (reply : List RefreshRequester)
    (hStoring : s.loop.storing = none) :
    answered tx (applyCatalogSwap emb s base overlay write writeOk reply).2 +
        (applyCatalogSwap emb s base overlay write writeOk reply).1.owed tx =
      s.owed tx + (reply.map RefreshRequester.tx).count tx := by
  have hSkip : ∀ (o₁ o₂ : Output) (es : List Output), o₁.answers? = none → o₂.answers? = none →
      answered tx (o₁ :: o₂ :: es) = answered tx es := by
    intro o₁ o₂ es h₁ h₂
    simp [answered, h₁, h₂]
  rw [applyCatalogSwap]
  dsimp only
  split
  · have hOne := answered_append tx [.handed overlay]
      (reply.map fun r => .reply r.tx (.err "merged catalog is empty; keeping the current catalog"))
    rw [List.singleton_append] at hOne
    rw [hOne, answered_map]
    simp only [answered, Output.answers?, List.filterMap_cons, List.filterMap_nil,
      List.count_nil]
    omega
  · rw [hSkip _ _ _ rfl rfl]
    cases write with
    | skip =>
      simp only [persistCatalogCache, answered_sendCatalogReply, owed_eq]
      omega
    | fetch etag =>
      cases writeOk with
      | true =>
        simp only [persistCatalogCache, if_true, answered_nil, owed_eq, hStoring, Option.elim_none,
          Option.elim_some, List.map_nil, List.count_nil]
        omega
      | false =>
        simp [persistCatalogCache, answered_sendCatalogReply, owed_eq, MaintenanceEvent.requester?,
          List.filterMap_cons]
        omega

theorem owed_handle {writeOk : Bool} (h : s.handle emb writeOk = some (s', os)) :
    answered tx os + s'.owed tx = s.owed tx := by
  unfold handle at h
  split at h
  · next base etag overlay persist reply rest hStoring hCommands =>
    have hSwap := owed_applyCatalogSwap (s := { s with commands := rest }) tx emb base
      overlay (if persist then .fetch etag else .skip) writeOk reply hStoring
    rw [Option.some.inj h] at hSwap
    rw [hSwap, owed_eq, owed_eq, hCommands]
    simp [Command.reply]
    omega
  · next overlay rest hStoring hCommands =>
    have hSwap := owed_applyCatalogSwap (s := { s with commands := rest }) tx emb
      (s.loop.catalogAppliedBase.getD (loadPersistedBase emb s.disk)) overlay .skip true []
      hStoring
    change some (applyCatalogSwap emb { s with commands := rest }
      (s.loop.catalogAppliedBase.getD (loadPersistedBase emb s.disk)) overlay .skip true []) = _ at h
    rw [Option.some.inj h] at hSwap
    rw [hSwap, owed_eq, owed_eq, hCommands]
    simp [Command.reply]
  · next reply rest hStoring hCommands =>
    cases h
    rw [handleCatalogNotModified, answered_map, owed_eq, owed_eq, hCommands]
    simp [Command.reply]
    omega
  · cases h

theorem owed_storeEtag {ok : Bool} (h : s.storeEtag ok = some (s', os)) :
    answered tx os + s'.owed tx = s.owed tx := by
  obtain ⟨rest, hStoring, hEq⟩ := Option.map_eq_some_iff.mp h
  cases hEq
  rw [answered_sendCatalogReply, owed_eq, owed_eq, hStoring]
  simp only [Option.elim_none, Option.elim_some, List.map_nil, List.count_nil]
  omega

/-- Every step but a restart accounts for every requester. -/
theorem owed_step {a : Action} (hRestart : a.isRestart = false)
    (h : s.step emb a = some (s', os)) :
    answered tx os + s'.owed tx = s.owed tx + asked tx [a] := by
  cases a with
  | requestRefresh force reply =>
    change (if s.loop.storing = none then _ else none) = _ at h
    split at h
    · cases h
      simp [owed_eq, asked, Action.asks?, MaintenanceEvent.requester?]
      omega
    · cases h
  | receive overlay => exact owed_receive tx h
  | overlayEvent overlay =>
    change (if s.maintenance.fetching = none then _ else none) = _ at h
    split at h
    · cases h
      rw [owed_reloadUserOverlay, answered_nil, Nat.zero_add]
      rfl
    · cases h
  | timer =>
    change (if s.maintenance.fetching = none then _ else none) = _ at h
    split at h
    · next hIdle =>
      cases h
      simp [owed_eq, hIdle, asked, List.filterMap_cons, Action.asks?]
    · cases h
  | fetched outcome => exact owed_fetched tx h
  | handle writeOk => exact owed_handle tx h
  | storeEtag ok => exact owed_storeEtag tx h
  | restart overlay etagRead fetchNow => cases hRestart

/-- Every run without a restart accounts for every requester: who waited or asked is answered
once, or still waits. -/
theorem owed_exec {as : List Action} (hRestart : ∀ a ∈ as, a.isRestart = false)
    (h : (machine emb).exec s as = some (s', os)) :
    answered tx os + s'.owed tx = s.owed tx + asked tx as := by
  induction as generalizing s os with
  | nil =>
    cases h
    simp [asked]
  | cons a rest ih =>
    obtain ⟨s₁, os₁, os₂, hFirst, hRest, rfl⟩ := Machine.exec_cons_eq_some.mp h
    have hStep := owed_step tx (hRestart a List.mem_cons_self) hFirst
    have hTail := ih (fun b hMem => hRestart b (List.mem_cons_of_mem a hMem)) hRest
    rw [answered_append, asked_cons]
    omega

end Replies

/-! ## The batch is answered whatever the GET brings -/

section Settling

variable {emb : Embedded} {s s' : System} {os : List Output}

/-- Nobody waits outside the queue of the maintenance thread. -/
def Settled (s : System) : Prop :=
  s.maintenance.fetching = none ∧ s.commands = [] ∧ s.loop.storing = none

theorem Settled.owed (h : s.Settled) (tx : Nat) : s.owed tx =
    ((s.inbox.filterMap MaintenanceEvent.requester?).map RefreshRequester.tx).count tx := by
  obtain ⟨hFetching, hCommands, hStoring⟩ := h
  rw [owed_eq, hFetching, hCommands, hStoring]
  simp

theorem applyCatalogSwap_frame (emb : Embedded) (s : System) (base : List ProviderEntry)
    (overlay : Option String) (write : CacheWrite) (writeOk : Bool)
    (reply : List RefreshRequester) :
    (applyCatalogSwap emb s base overlay write writeOk reply).1.maintenance = s.maintenance ∧
      (applyCatalogSwap emb s base overlay write writeOk reply).1.commands = s.commands := by
  rw [applyCatalogSwap]
  dsimp only
  split
  · exact ⟨rfl, rfl⟩
  · cases write with
    | skip => exact ⟨rfl, rfl⟩
    | fetch etag => cases writeOk <;> exact ⟨rfl, rfl⟩

/-- The command loop takes the next command when no etag is left to be stored. -/
theorem handle_enabled (emb : Embedded) {c : Command} {rest : List Command} (hStoring : s.loop.storing = none)
    (hCommands : s.commands = c :: rest) (writeOk : Bool) :
    ∃ s' os, s.handle emb writeOk = some (s', os) ∧ s'.maintenance = s.maintenance ∧
      s'.commands = rest := by
  cases c with
  | catalogBaseChanged base etag overlay persist reply =>
    have hFrame := applyCatalogSwap_frame emb { s with commands := rest } base overlay
      (if persist then .fetch etag else .skip) writeOk reply
    have hHandle : s.handle emb writeOk = some (applyCatalogSwap emb { s with commands := rest }
        base overlay (if persist then .fetch etag else .skip) writeOk reply) := by
      rw [handle, hStoring, hCommands]
    exact ⟨_, _, hHandle, hFrame⟩
  | catalogOverlayChanged overlay =>
    have hFrame := applyCatalogSwap_frame emb { s with commands := rest }
      (s.loop.catalogAppliedBase.getD (loadPersistedBase emb s.disk)) overlay .skip true []
    have hHandle : s.handle emb writeOk = some (applyCatalogSwap emb { s with commands := rest }
        (s.loop.catalogAppliedBase.getD (loadPersistedBase emb s.disk)) overlay .skip true []) := by
      rw [handle, hStoring, hCommands]
      rfl
    exact ⟨_, _, hHandle, hFrame⟩
  | catalogNotModified reply =>
    have hHandle : s.handle emb writeOk = some ({ s with commands := rest },
        handleCatalogNotModified { s with commands := rest } reply) := by
      rw [handle, hStoring, hCommands]
      rfl
    exact ⟨_, _, hHandle, rfl, rfl⟩

/-- An etag that is left to be stored does not hold up the command loop. -/
theorem storing_ends (emb : Embedded) (s : System) (ok : Bool) :
    ∃ as s' os, (machine emb).exec s as = some (s', os) ∧ s'.loop.storing = none ∧
      s'.maintenance = s.maintenance ∧ s'.commands = s.commands ∧ ∀ a ∈ as, a = .storeEtag ok := by
  cases hStoring : s.loop.storing with
  | none => exact ⟨[], s, [], rfl, hStoring, rfl, rfl, by simp⟩
  | some rest =>
    refine ⟨[.storeEtag ok],
      { s with
        disk := { s.disk with etag := if ok then rest.etag else s.disk.etag }
        loop := { s.loop with storing := none } },
      sendCatalogReply rest.reply rest.providers rest.models, ?_, rfl, rfl, rfl, by simp⟩
    rw [Machine.exec_singleton]
    change s.storeEtag ok = _
    rw [storeEtag, hStoring, Option.map_some]

/-- The command loop works off what it has been sent, however its writes turn out. -/
theorem commands_drain (emb : Embedded) (writeOk ok : Bool) (n : Nat) (hFetching : s.maintenance.fetching = none)
    (hCommands : s.commands.length = n) :
    ∃ as s' os, (machine emb).exec s as = some (s', os) ∧ s'.Settled ∧
      ∀ a ∈ as, a = .handle writeOk ∨ a = .storeEtag ok := by
  induction n generalizing s with
  | zero =>
    obtain ⟨as, s₁, os, hStored, hStoring, hMaintenance, hSame, hActions⟩ := storing_ends emb s ok
    have hNil := List.eq_nil_of_length_eq_zero hCommands
    exact ⟨as, s₁, os, hStored, ⟨hMaintenance ▸ hFetching, hSame ▸ hNil, hStoring⟩,
      fun a hMem => Or.inr (hActions a hMem)⟩
  | succ n ih =>
    obtain ⟨as, s₁, os, hStored, hStoring, hMaintenance, hSame, hActions⟩ := storing_ends emb s ok
    obtain ⟨c, rest, hHead⟩ := List.exists_cons_of_length_eq_add_one hCommands
    obtain ⟨s₂, os₂, hHandle, hMaintenance₂, hRest⟩ :=
      handle_enabled emb hStoring (hSame.trans hHead) writeOk
    have hLength : s₂.commands.length = n := by
      rw [hRest]
      rw [hHead, List.length_cons] at hCommands
      omega
    obtain ⟨later, s₃, os₃, hLater, hSettled, hActions'⟩ :=
      ih ((hMaintenance₂.trans hMaintenance) ▸ hFetching) hLength
    refine ⟨as ++ .handle writeOk :: later, s₃, os ++ (os₂ ++ os₃), ?_, hSettled, ?_⟩
    · exact Machine.exec_append_eq_some.mpr ⟨s₁, os, _, hStored,
        Machine.exec_cons_eq_some.mpr ⟨s₂, os₂, os₃, hHandle, hLater, rfl⟩, rfl⟩
    · intro a hMem
      rcases List.mem_append.mp hMem with hFirst | hTail
      · exact Or.inr (hActions a hFirst)
      · rcases List.mem_cons.mp hTail with rfl | hIn
        · exact Or.inl rfl
        · exact hActions' a hIn

theorem fetched_enabled (outcome : FetchOutcome) {batch : Bool × List RefreshRequester}
    (h : s.maintenance.fetching = some batch) :
    ∃ s' os, s.fetched outcome = some (s', os) ∧ s'.maintenance.fetching = none := by
  rw [fetched, h, Option.map_some]
  refine ⟨_, _, rfl, ?_⟩
  cases outcome with
  | notModified =>
    dsimp only
    split <;> rfl
  | fetched base etag =>
    dsimp only
    split <;> rfl
  | error text => rfl

end Settling

/-! ## The other events stay queued until they are processed -/

section Others

variable {emb : Embedded} {s s' : System} {os : List Output}

/-- Nothing but requests is queued behind a request that is taken. -/
def TakesRequestsOnly (s : System) : Action → Prop
  | .receive _ => ∀ force reply queue, s.inbox = .refreshNow force reply :: queue →
      ∀ e ∈ queue, e.isRefreshNow = true
  | _ => True

/-- What a step takes off the other events is the one it processes: it drops the etag for it. -/
def ProcessesOthers (s : System) (a : Action) (s' : System) (_ : List Output) : Prop :=
  ∃ processed new, otherEvents s.inbox ++ new = processed ++ otherEvents s'.inbox ∧
    (processed = [] ∨ ∃ overlay rest, a = .receive overlay ∧ processed = [.catalogPersistFailed] ∧
      s.inbox = .catalogPersistFailed :: rest ∧ s'.maintenance.etag = none)

theorem processesOthers_of_append {a : Action} {new : List MaintenanceEvent}
    (h : s'.inbox = s.inbox ++ new) : ProcessesOthers s a s' os :=
  ⟨[], otherEvents new, by simp [h, otherEvents], Or.inl rfl⟩

theorem foldRefreshNows_requests {queue : List MaintenanceEvent}
    (h : ∀ e ∈ queue, e.isRefreshNow = true) (anyForce : Bool) (replies : List RefreshRequester) :
    (foldRefreshNows queue anyForce replies).2.2 = [] := by
  obtain ⟨consumed, ending, hQueue, -, -, ⟨hAll, rfl⟩ | rfl⟩ :=
    foldRefreshNows_spec queue anyForce replies
  · rw [← hAll, List.nil_append] at hQueue
    exact List.self_eq_append_right.mp hQueue
  · have hMem : .catalogPersistFailed ∈ queue := by
      rw [hQueue]
      simp
    cases h _ hMem

theorem inbox_applyCatalogSwap (emb : Embedded) (s : System) (base : List ProviderEntry)
    (overlay : Option String) (write : CacheWrite) (writeOk : Bool)
    (reply : List RefreshRequester) :
    ∃ new, (applyCatalogSwap emb s base overlay write writeOk reply).1.inbox = s.inbox ++ new ∧
      new.filterMap MaintenanceEvent.requester? = [] := by
  rw [applyCatalogSwap]
  dsimp only
  split
  · exact ⟨[], by simp, rfl⟩
  · cases write with
    | skip => exact ⟨[], by simp [persistCatalogCache], rfl⟩
    | fetch etag =>
      cases writeOk with
      | true => exact ⟨[], by simp [persistCatalogCache], rfl⟩
      | false => exact ⟨[.catalogPersistFailed], by simp [persistCatalogCache], rfl⟩

/-- The command loop puts no request into the queue of the maintenance thread. -/
theorem inbox_handle {writeOk : Bool} (h : s.handle emb writeOk = some (s', os)) :
    ∃ new, s'.inbox = s.inbox ++ new ∧ new.filterMap MaintenanceEvent.requester? = [] := by
  unfold handle at h
  split at h
  · next base etag overlay persist reply rest hStoring hCommands =>
    have hSwap := inbox_applyCatalogSwap emb { s with commands := rest } base overlay
      (if persist then .fetch etag else .skip) writeOk reply
    rwa [Option.some.inj h] at hSwap
  · next overlay rest hStoring hCommands =>
    have hSwap := inbox_applyCatalogSwap emb { s with commands := rest }
      (s.loop.catalogAppliedBase.getD (loadPersistedBase emb s.disk)) overlay .skip true []
    change some (applyCatalogSwap emb { s with commands := rest }
      (s.loop.catalogAppliedBase.getD (loadPersistedBase emb s.disk)) overlay .skip true []) = _ at h
    rwa [Option.some.inj h] at hSwap
  · next reply rest hStoring hCommands =>
    cases h
    exact ⟨[], by simp, rfl⟩
  · cases h

theorem inbox_storeEtag {ok : Bool} (h : s.storeEtag ok = some (s', os)) : s'.inbox = s.inbox := by
  obtain ⟨rest, hStoring, hEq⟩ := Option.map_eq_some_iff.mp h
  cases hEq
  rfl

/-- Every step but a restart processes what it takes, when a drain meets nothing but requests. -/
theorem processesOthers_step {a : Action} (hRestart : a.isRestart = false)
    (hTakes : s.TakesRequestsOnly a) (h : s.step emb a = some (s', os)) :
    ProcessesOthers s a s' os := by
  cases a with
  | requestRefresh force reply =>
    change (if s.loop.storing = none then _ else none) = _ at h
    split at h
    · cases h
      exact processesOthers_of_append rfl
    · cases h
  | receive overlay =>
    obtain ⟨rfl, -, ⟨force, reply, rest, hInbox, anyForce, replies, rest', hFold, rfl⟩ |
      ⟨rest, hInbox, rfl⟩⟩ := receive_cases h
    · have hRequests := hTakes force reply rest hInbox
      have hNil := foldRefreshNows_requests hRequests force [⟨force, reply⟩]
      rw [hFold] at hNil
      have hNone : otherEvents s.inbox = [] := by
        rw [hInbox]
        refine List.filter_eq_nil_iff.mpr fun e hMem => ?_
        rcases List.mem_cons.mp hMem with rfl | hTail
        · simp [MaintenanceEvent.isRefreshNow]
        · simp [hRequests e hTail]
      exact ⟨[], [], by rw [hNone]; dsimp only at hNil ⊢; rw [hNil]; rfl, Or.inl rfl⟩
    · refine ⟨[.catalogPersistFailed], [], ?_, Or.inr ⟨overlay, rest, rfl, rfl, hInbox, rfl⟩⟩
      rw [hInbox, List.append_nil]
      rfl
  | overlayEvent overlay =>
    change (if s.maintenance.fetching = none then _ else none) = _ at h
    split at h
    · cases h
      obtain ⟨-, -, hInbox, -⟩ := reloadUserOverlay_spec s overlay
      exact processesOthers_of_append (hInbox.trans (List.append_nil _).symm)
    · cases h
  | timer =>
    change (if s.maintenance.fetching = none then _ else none) = _ at h
    split at h
    · cases h
      exact processesOthers_of_append (List.append_nil _).symm
    · cases h
  | fetched outcome =>
    obtain ⟨-, -, hInbox, -⟩ := fetched_cases h
    exact processesOthers_of_append (hInbox.trans (List.append_nil _).symm)
  | handle writeOk =>
    obtain ⟨new, hInbox, -⟩ := inbox_handle h
    exact processesOthers_of_append hInbox
  | storeEtag ok => exact processesOthers_of_append ((inbox_storeEtag h).trans (List.append_nil _).symm)
  | restart overlay etagRead fetchNow => cases hRestart

end Others

/-! ## Taking a request -/

section Taking

variable {emb : Embedded} {s : System} {force : Bool} {reply : Nat}
  {queue : List MaintenanceEvent}

/-- Taking the request at the head of the queue takes requests only, and all of them are
answered once, whatever the GET brings and however the writes turn out. What else is queued
stays queued in its order, and stays so until it is processed. -/
structure LosesNothing (emb : Embedded) (s : System) (overlay : OverlayRead) (s₁ : System)
    (batch : List RefreshRequester) : Prop where
  taken : s.receive overlay = some (s₁, [])
  fetching : s₁.maintenance.fetching.map Prod.snd = some batch
  requests : s.inbox.filterMap MaintenanceEvent.requester? =
    batch ++ s₁.inbox.filterMap MaintenanceEvent.requester?
  others : otherEvents s₁.inbox = otherEvents s.inbox
  processed : ∀ as, (∀ a ∈ as, a.isRestart = false) →
    (machine emb).EveryStep (fun s a _ _ => s.TakesRequestsOnly a) s₁ as →
      (machine emb).EveryStep ProcessesOthers s₁ as
  once : ∀ as s₂ os, (∀ a ∈ as, a.isRestart = false) → (machine emb).exec s₁ as = some (s₂, os) →
    ∀ tx, answered tx os + s₂.owed tx = s.owed tx + asked tx as
  answered : ∀ outcome writeOk ok, ∃ as s₂ os,
    (∀ a ∈ as, a = .handle writeOk ∨ a = .storeEtag ok) ∧
      (machine emb).exec s₁ (.fetched outcome :: as) = some (s₂, os) ∧
      ∀ tx, answered tx os +
        ((s₁.inbox.filterMap MaintenanceEvent.requester?).map RefreshRequester.tx).count tx =
          s.owed tx

theorem requests_drain {writeOk ok : Bool} {as : List Action} {s₁ s₂ : System} {os : List Output}
    (hActions : ∀ a ∈ as, a = .handle writeOk ∨ a = .storeEtag ok)
    (h : (machine emb).exec s₁ as = some (s₂, os)) :
    s₂.inbox.filterMap MaintenanceEvent.requester? =
      s₁.inbox.filterMap MaintenanceEvent.requester? := by
  refine Machine.exec_invariant_on (P := fun s => s.inbox.filterMap MaintenanceEvent.requester? =
    s₁.inbox.filterMap MaintenanceEvent.requester?) ?_ rfl hActions h
  intro s a s' os hSame hAction hStep
  rcases hAction with rfl | rfl
  · obtain ⟨new, hInbox, hNone⟩ := inbox_handle hStep
    rw [hInbox, List.filterMap_append, hNone, List.append_nil, hSame]
  · rw [inbox_storeEtag hStep, hSame]

/-- Every GET can end, and then the command loop answers the whole batch. -/
theorem batch_answered (emb : Embedded) {s₁ : System} {batch : Bool × List RefreshRequester}
    (hFetching : s₁.maintenance.fetching = some batch) (outcome : FetchOutcome)
    (writeOk ok : Bool) : ∃ as s₂ os, (∀ a ∈ as, a = .handle writeOk ∨ a = .storeEtag ok) ∧
      (machine emb).exec s₁ (.fetched outcome :: as) = some (s₂, os) ∧
      ∀ tx, answered tx os +
        ((s₁.inbox.filterMap MaintenanceEvent.requester?).map RefreshRequester.tx).count tx =
          s₁.owed tx := by
  obtain ⟨s', os', hFetched, hIdle⟩ := fetched_enabled outcome hFetching
  obtain ⟨as, s₂, os, hDrain, hSettled, hActions⟩ :=
    commands_drain emb writeOk ok s'.commands.length hIdle rfl
  have hExec : (machine emb).exec s₁ (.fetched outcome :: as) = some (s₂, os' ++ os) :=
    Machine.exec_cons_eq_some.mpr ⟨s', os', os, hFetched, hDrain, rfl⟩
  refine ⟨as, s₂, _, hActions, hExec, fun tx => ?_⟩
  obtain ⟨-, -, hInbox, -⟩ := fetched_cases hFetched
  have hNoAsk : ∀ a ∈ Action.fetched outcome :: as, a.isRestart = false ∧ a.asks? = none := by
    intro a hMem
    rcases List.mem_cons.mp hMem with rfl | hTail
    · exact ⟨rfl, rfl⟩
    · rcases hActions a hTail with rfl | rfl <;> exact ⟨rfl, rfl⟩
  have hOwed := owed_exec tx (fun a hMem => (hNoAsk a hMem).1) hExec
  have hAsked : asked tx (.fetched outcome :: as) = 0 := by
    rw [asked, List.filterMap_eq_nil_iff.mpr fun a hMem => (hNoAsk a hMem).2, List.count_nil]
  rw [hAsked, hSettled.owed, requests_drain hActions hDrain, hInbox] at hOwed
  exact hOwed

theorem processesOthers_exec {s₁ : System} {as : List Action}
    (hRestart : ∀ a ∈ as, a.isRestart = false)
    (hTakes : (machine emb).EveryStep (fun s a _ _ => s.TakesRequestsOnly a) s₁ as) :
    (machine emb).EveryStep ProcessesOthers s₁ as := by
  induction as generalizing s₁ with
  | nil => trivial
  | cons a rest ih =>
    simp only [Machine.EveryStep] at hTakes ⊢
    split at hTakes
    · trivial
    · next s₂ os hStep =>
      exact ⟨processesOthers_step (hRestart a List.mem_cons_self) hTakes.1 hStep,
        ih (fun b hMem => hRestart b (List.mem_cons_of_mem a hMem)) hTakes.2⟩

/-- Taking a request: what the drain consumed, what ended it, and what it left. -/
theorem receive_request (overlay : OverlayRead) (hIdle : s.maintenance.fetching = none)
    (hInbox : s.inbox = .refreshNow force reply :: queue) :
    ∃ s₁ anyForce consumed ending, s.receive overlay = some (s₁, []) ∧
      s₁.maintenance.fetching =
        some (anyForce, ⟨force, reply⟩ :: consumed.filterMap MaintenanceEvent.requester?) ∧
      queue = consumed ++ (ending ++ s₁.inbox) ∧ (∀ e ∈ consumed, e.isRefreshNow = true) ∧
      (queue = consumed ∧ ending = [] ∨ ending = [.catalogPersistFailed]) := by
  obtain ⟨consumed, ending, hQueue, hRequests, hReplies, hEnding⟩ :=
    foldRefreshNows_spec queue force [⟨force, reply⟩]
  have hTaken : s.receive overlay = some
      ({ reloadUserOverlay s overlay with
        maintenance := { (reloadUserOverlay s overlay).maintenance with
          fetching := some ((foldRefreshNows queue force [⟨force, reply⟩]).1,
            (foldRefreshNows queue force [⟨force, reply⟩]).2.1) }
        inbox := (foldRefreshNows queue force [⟨force, reply⟩]).2.2 }, []) := by
    rw [receive, hIdle, hInbox]
  refine ⟨_, (foldRefreshNows queue force [⟨force, reply⟩]).1, consumed, ending, hTaken, ?_, hQueue,
    hRequests, hEnding⟩
  exact congrArg (fun replies => some (_, replies)) hReplies

theorem otherEvents_requests {events : List MaintenanceEvent}
    (h : ∀ e ∈ events, e.isRefreshNow = true) : otherEvents events = [] := by
  refine List.filter_eq_nil_iff.mpr fun e hMem => ?_
  simp [h e hMem]

/-- **The burst that loses nothing.** The drain behind a request takes the requests behind it, and
the first other event as well. So nothing is lost exactly when all that is queued behind the
request are requests. -/
theorem refreshNow_losesNothing_iff (emb : Embedded) {s : System} {force : Bool} {reply : Nat}
    {queue : List MaintenanceEvent} (overlay : OverlayRead)
    (hIdle : s.maintenance.fetching = none) (hInbox : s.inbox = .refreshNow force reply :: queue) :
    (∃ s₁ batch, LosesNothing emb s overlay s₁ batch) ↔ ∀ e ∈ queue, e.isRefreshNow = true := by
  obtain ⟨s₁, anyForce, consumed, ending, hTaken, hFetching, hQueue, hRequests, hEnding⟩ :=
    receive_request overlay hIdle hInbox
  have hOthers : otherEvents s.inbox = otherEvents (ending ++ s₁.inbox) := by
    have hNone : otherEvents (.refreshNow force reply :: consumed) = [] := by
      refine otherEvents_requests fun e hMem => ?_
      rcases List.mem_cons.mp hMem with rfl | hTail
      · rfl
      · exact hRequests e hTail
    have hSplit : s.inbox = (.refreshNow force reply :: consumed) ++ (ending ++ s₁.inbox) := by
      rw [hInbox, hQueue, List.cons_append]
    rw [hSplit]
    unfold otherEvents at hNone ⊢
    rw [List.filter_append, hNone, List.nil_append]
  constructor
  · rintro ⟨s₂, batch, hLoses⟩
    have hSame := Option.some.inj (hLoses.taken.symm.trans hTaken)
    obtain rfl : s₂ = s₁ := congrArg Prod.fst hSame
    rcases hEnding with ⟨hAll, -⟩ | hNotice
    · exact fun e hMem => hRequests e (hAll ▸ hMem)
    · -- the notice that ends the drain was queued and is not any more
      have hLost := hLoses.others.trans hOthers
      rw [hNotice] at hLost
      exact absurd hLost.symm (List.cons_ne_self _ _)
  · intro hAll
    obtain ⟨hConsumed, rfl⟩ : queue = consumed ∧ ending = [] := by
      rcases hEnding with hDone | rfl
      · exact hDone
      · have hMem : .catalogPersistFailed ∈ queue := by
          rw [hQueue]
          simp
        cases hAll _ hMem
    refine ⟨s₁, _, hTaken, by rw [hFetching]; rfl, ?_, hOthers.symm, ?_, ?_, ?_⟩
    · rw [hInbox, hQueue, List.nil_append]
      have hAppend : (consumed ++ s₁.inbox).filterMap MaintenanceEvent.requester? =
          consumed.filterMap MaintenanceEvent.requester? ++
            s₁.inbox.filterMap MaintenanceEvent.requester? := List.filterMap_append
      exact congrArg (RefreshRequester.mk force reply :: ·) hAppend
    · exact fun as hRestart hTakes => processesOthers_exec hRestart hTakes
    · intro as s₂ os hRestart hExec tx
      have hOwed := owed_receive tx hTaken
      rw [answered_nil, Nat.zero_add] at hOwed
      rw [← hOwed]
      exact owed_exec tx hRestart hExec
    · intro outcome writeOk ok
      obtain ⟨as, s₂, os, hActions, hExec, hAnswered⟩ :=
        batch_answered emb hFetching outcome writeOk ok
      refine ⟨as, s₂, os, hActions, hExec, fun tx => ?_⟩
      have hOwed := owed_receive tx hTaken
      rw [answered_nil, Nat.zero_add] at hOwed
      rw [hAnswered tx, hOwed]

/-- A first start whose fetch cannot be persisted, with a request queued before the notice. -/
def burstRun : List Action :=
  [.fetched (.fetched [newProvider "fresh"] (some "v1")), .requestRefresh false 0, .handle true,
    .handle false]

/-- A first start, idle, with two requests queued. -/
def requestsRun : List Action :=
  [.fetched (.error "offline"), .requestRefresh false 0, .requestRefresh true 1]

theorem sample_losesNothing : ∃ s os s₁ batch,
    (machine sampleEmbedded).exec (firstStart sampleEmbedded (.contents none) true true)
        requestsRun = some (s, os) ∧
      LosesNothing sampleEmbedded s (.contents none) s₁ batch := by
  have hCheck : (machine sampleEmbedded).check
      (firstStart sampleEmbedded (.contents none) true true) requestsRun
      (fun s _ => decide (s.maintenance.fetching = none ∧
        s.inbox = [.refreshNow false 0, .refreshNow true 1])) = true := by
    decide +kernel
  obtain ⟨s, os, hExec, hTest⟩ := Machine.exists_of_check hCheck
  obtain ⟨hIdle, hInbox⟩ := of_decide_eq_true hTest
  obtain ⟨s₁, batch, hNothing⟩ :=
    (refreshNow_losesNothing_iff sampleEmbedded (.contents none) hIdle hInbox).mpr (by decide)
  exact ⟨s, os, s₁, batch, hExec, hNothing⟩

/-- The notice of the failed write is lost with the burst in front of it. -/
theorem burst_loses_notice : ∃ s os,
    (machine sampleEmbedded).exec (firstStart sampleEmbedded (.contents none) true true)
        burstRun = some (s, os) ∧ s.maintenance.fetching = none ∧
      s.inbox = [.refreshNow false 0, .catalogPersistFailed] ∧
      ¬∃ s₁ batch, LosesNothing sampleEmbedded s (.contents none) s₁ batch := by
  have hCheck : (machine sampleEmbedded).check
      (firstStart sampleEmbedded (.contents none) true true) burstRun
      (fun s _ => decide (s.maintenance.fetching = none ∧
        s.inbox = [.refreshNow false 0, .catalogPersistFailed])) = true := by
    decide +kernel
  obtain ⟨s, os, hExec, hTest⟩ := Machine.exists_of_check hCheck
  obtain ⟨hIdle, hInbox⟩ := of_decide_eq_true hTest
  refine ⟨s, os, hExec, hIdle, hInbox, ?_⟩
  rintro ⟨s₁, batch, hNothing⟩
  have hTaken := hNothing.taken
  rw [receive, hIdle, hInbox] at hTaken
  obtain ⟨rfl, -⟩ := Prod.mk.inj (Option.some.inj hTaken)
  have hOthers := hNothing.others
  rw [hInbox] at hOthers
  exact absurd (congrArg List.length hOthers) (Nat.zero_ne_one)

end Taking

end System

end Choreographr.Catalog
