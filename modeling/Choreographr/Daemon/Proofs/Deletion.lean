import Choreographr.Daemon.Proofs.LoopLifecycle

/-!
# Deleted sessions do not come back

Every step of the daemon keeps the invariant of `Lifecycle`. A step that answers a
deletion leaves the session gone, and every step that does not create a session
under its id keeps it gone; at rest no row of it is left.
-/

namespace Choreographr.Daemon

open Session Lib

namespace System

variable {s s' : System} {sid : Nat}

def core (s : System) : Core where
  nextSessionId := s.loop.nextSessionId
  activeSessions := s.loop.activeSessions
  sessionMetadata := s.loop.sessionMetadata
  deletedSessions := s.loop.deletedSessions
  inbox := s.loop.inbox
  threads := s.threads
  finalizers := s.finalizers
  disk := s.disk
  marks := s.events.filter Event.marksLife

theorem keeps_foldl {α : Type} {f : System → α → System} (h : ∀ s a, Keeps s.core (f s a).core)
    (xs : List α) (s : System) : Keeps s.core (xs.foldl f s).core := by
  induction xs generalizing s with
  | nil => exact Keeps.refl _
  | cons x rest ih => exact (h s x).trans (ih (f s x))

/-! ## Clients and connections -/

theorem core_emit (s : System) {events : List Event} (h : ∀ e ∈ events, e.marksLife = false) :
    (s.emit events).core = s.core := by
  have hMarks : (s.events ++ events).filter Event.marksLife = s.events.filter Event.marksLife := by
    have hNone : events.filter Event.marksLife = [] := by
      apply List.filter_eq_nil_iff.mpr
      intro e he
      simp [h e he]
    rw [List.filter_append, hNone, List.append_nil]
  simp only [core, emit, hMarks]

@[simp] theorem core_send (s : System) (client : ClientId) (message : ClientMessage) :
    (s.send client message).core = s.core := by
  unfold send
  split
  · rfl
  · apply core_emit
    intro e he
    rw [List.mem_singleton.mp he]
    rfl

@[simp] theorem core_fanOutClients (s : System) (skip : ClientState → Bool)
    (message : ClientMessage) : (s.fanOutClients skip message).core = s.core := by
  refine (core_emit _ fun e he => ?_).trans rfl
  obtain ⟨x, -, rfl⟩ := List.mem_map.mp he
  rfl

@[simp] theorem core_broadcast (s : System) (message : ClientMessage) :
    (s.broadcast message).core = s.core := by
  rw [broadcast, core_fanOutClients, core_fanOutClients]

@[simp] theorem core_resume (s : System) (client : ClientId) (effects : List ConnEffect) :
    (s.resume client effects).core = s.core := rfl

/-! ## Session threads -/

theorem keeps_sendSession (s : System) (thread : ThreadId) {command : SessionCommand}
    (h : command.finished? = none) : Keeps s.core (s.sendSession thread command).core := by
  refine Core.keeps_modify fun t _ hOk => ?_
  split
  · exact hOk.refl
  · rename_i hOpen
    refine hOk.push h fun hPhase => hOpen ?_
    rw [Thread.finished, hPhase]

theorem keeps_sendActive (s : System) (sessionId : Nat) {command : SessionCommand}
    (h : command.finished? = none) : Keeps s.core (s.sendActive sessionId command).core := by
  unfold sendActive
  split
  · exact keeps_sendSession s _ h
  · exact Keeps.refl _

theorem keeps_cancelAndShutdownChild (s : System) (childId : Nat) :
    Keeps s.core (s.cancelAndShutdownChild childId).core :=
  (keeps_sendActive s childId rfl).trans (keeps_sendActive _ childId rfl)

theorem keeps_removeClient (s : System) (client : ClientId) :
    Keeps s.core (s.removeClient client).core := by
  unfold removeClient
  split
  · exact Keeps.refl _
  · refine Keeps.trans (Keeps.of_eq ?_) (keeps_foldl (fun s (e : Nat × ThreadId) =>
      @keeps_sendSession s e.2 (.removeSubscriber client) rfl) _ _)
    rfl

theorem keeps_handleEvictClient (s : System) (client : ClientId) :
    Keeps s.core (s.handleEvictClient client).core := by
  unfold handleEvictClient
  split
  · exact Keeps.refl _
  · refine Keeps.trans ?_ (keeps_removeClient _ client)
    exact Keeps.of_eq (core_send s client _)

theorem keeps_cancelChildrenOf (s : System) (parentId : Nat) :
    Keeps s.core (s.cancelChildrenOf parentId).core := by
  unfold cancelChildrenOf
  split
  · exact Keeps.refl _
  · exact keeps_foldl (fun s child => keeps_sendActive s child rfl) _ _

/-! ## The exit of a thread -/

/-- Start deletion threads. -/
def addFinalizers (s : System) (finalizers : List Finalizer) : System :=
  { s with finalizers := s.finalizers ++ finalizers }

/-- Stop the children of a session that has ended. -/
def stopChildren (s : System) (children : List Nat) : System :=
  children.foldl (fun s child => (s.removeChildFromAllParents child).cancelAndShutdownChild child) s

theorem sendActive_addFinalizers (s : System) (fs : List Finalizer) (sessionId : Nat)
    (command : SessionCommand) :
    (s.addFinalizers fs).sendActive sessionId command =
      (s.sendActive sessionId command).addFinalizers fs := by
  unfold sendActive
  cases hActive : s.loop.activeSessions.get? sessionId with
  | none => rw [addFinalizers, hActive]
  | some thread =>
    rw [addFinalizers, hActive]
    rfl

theorem loop_sendActive (s : System) (sessionId : Nat) (command : SessionCommand) :
    (s.sendActive sessionId command).loop = s.loop := by
  unfold sendActive
  split <;> rfl

theorem stopChildren_addFinalizers (children : List Nat) (fs : List Finalizer) (s : System) :
    (s.addFinalizers fs).stopChildren children = (s.stopChildren children).addFinalizers fs := by
  induction children generalizing s with
  | nil => rfl
  | cons child rest ih =>
    have hStep : ((s.addFinalizers fs).removeChildFromAllParents child).cancelAndShutdownChild
        child =
        ((s.removeChildFromAllParents child).cancelAndShutdownChild child).addFinalizers fs := by
      rw [cancelAndShutdownChild, cancelAndShutdownChild, ← sendActive_addFinalizers,
        ← sendActive_addFinalizers]
      rfl
    rw [stopChildren, List.foldl_cons, hStep]
    exact ih _

theorem deletedSessions_stopChildren (children : List Nat) (s : System) :
    (s.stopChildren children).loop.deletedSessions = s.loop.deletedSessions := by
  induction children generalizing s with
  | nil => rfl
  | cons child rest ih =>
    rw [stopChildren, List.foldl_cons]
    refine (ih _).trans ?_
    rw [cancelAndShutdownChild, loop_sendActive, loop_sendActive]
    rfl

theorem markSleeping_addFinalizers (s : System) (fs : List Finalizer) (sessionId : Nat) :
    (s.addFinalizers fs).markSleeping sessionId = (s.markSleeping sessionId).addFinalizers fs := by
  unfold markSleeping
  cases hList : s.loop.sessionMetadata.get? sessionId with
  | none => rw [addFinalizers, hList]
  | some metadata =>
    rw [addFinalizers, hList]
    rfl

theorem deletedSessions_markSleeping (s : System) (sessionId : Nat) :
    (s.markSleeping sessionId).loop.deletedSessions = s.loop.deletedSessions := by
  unfold markSleeping
  split <;> rfl

theorem keeps_markSleeping (s : System) (sessionId : Nat) :
    Keeps s.core (s.markSleeping sessionId).core := by
  unfold markSleeping
  split
  · exact Keeps.refl _
  · rw [core_broadcast]
    exact Core.keeps_modify_metadata (c := s.core) sessionId fun m => { m with status := .sleeping }

theorem keeps_stopChildren (s : System) (children : List Nat) :
    Keeps s.core (s.stopChildren children).core :=
  keeps_foldl (fun s child => keeps_cancelAndShutdownChild (s.removeChildFromAllParents child) child)
    _ _

/-! ## What the loop does with a command -/

section Loop

variable {rest : List DaemonCommand} (env : LoopEnv)

/-- The loop has taken the first command. -/
def popped (s : System) (rest : List DaemonCommand) : System :=
  { s with loop := { s.loop with inbox := rest } }

theorem handleSessionExited_eq (s : System) (sessionId : Nat) :
    s.handleSessionExited sessionId =
      ((({ s with
          loop := { s.loop with activeSessions := s.loop.activeSessions.erase sessionId }
          finalizers := s.finalizers ++ if sessionId ∈ s.loop.deletedSessions then
            [{ sessionId := sessionId }] else [] } : System).forgetChildren sessionId).stopChildren
        (s.childrenOf sessionId)).markSleeping sessionId := by
  set s₁ : System := { s with
    loop := { s.loop with activeSessions := s.loop.activeSessions.erase sessionId } }
  set s₂ := ((s₁.forgetChildren sessionId).stopChildren (s.childrenOf sessionId)).markSleeping
    sessionId
  have hDeleted : s₂.loop.deletedSessions = s.loop.deletedSessions := by
    rw [deletedSessions_markSleeping, deletedSessions_stopChildren]
    rfl
  have hHandled : s.handleSessionExited sessionId = s₂.addFinalizers
      (if sessionId ∈ s.loop.deletedSessions then [{ sessionId := sessionId }] else []) := by
    show (if sessionId ∈ s₂.loop.deletedSessions then _ else s₂) = _
    rw [hDeleted]
    split
    · rfl
    · simp [addFinalizers]
  rw [hHandled, ← markSleeping_addFinalizers, ← stopChildren_addFinalizers]
  rfl

theorem keeps_handleSessionExited {sessionId : Nat}
    (hInbox : s.loop.inbox = .sessionExited sessionId :: rest) :
    Keeps s.core ((s.popped rest).handleSessionExited sessionId).core := by
  rw [handleSessionExited_eq]
  refine Keeps.trans ?_ ((keeps_stopChildren _ _).trans (keeps_markSleeping _ _))
  exact Core.keeps_sessionExited (c := s.core) hInbox

theorem keeps_handleUpdateMetadata {sessionId : Nat} {metadata : SessionMetadata}
    (hInbox : s.loop.inbox = .updateMetadata sessionId metadata :: rest) :
    Keeps s.core ((s.popped rest).handleUpdateMetadata sessionId metadata).core := by
  unfold handleUpdateMetadata
  split
  · exact Core.keeps_pop (c := s.core) hInbox (fun _ => rfl) fun _ => rfl
  · rename_i hKept
    exact Core.keeps_pop_update (c := s.core) hInbox hKept

theorem keeps_handleBroadcastSessionStatus (s : System) (sessionId : Nat) (status : SessionStatus)
    (tag : Tag) : Keeps s.core (s.handleBroadcastSessionStatus sessionId status tag).core := by
  unfold handleBroadcastSessionStatus
  split
  · exact Keeps.refl _
  · dsimp only
    rw [core_fanOutClients, core_emit]
    · exact Core.keeps_modify_metadata (c := s.core) sessionId fun m => { m with status := status }
    · intro e he
      rw [List.mem_singleton.mp he]
      rfl

theorem keeps_handleBroadcastActivity (s : System) (sessionId : Nat) (tag : Tag) :
    Keeps s.core (s.handleBroadcastActivity sessionId tag).core := by
  refine Keeps.of_eq ?_
  rw [handleBroadcastActivity, core_fanOutClients, core_emit]
  intro e he
  rw [List.mem_singleton.mp he]
  rfl

theorem keeps_handleAttachSession (s : System) (client : ClientId) (sessionId : Nat) :
    Keeps s.core (s.handleAttachSession env client sessionId).core := by
  unfold handleAttachSession ensureActiveSession
  by_cases hDeleted : sessionId ∈ s.loop.deletedSessions
  · rw [if_pos hDeleted]
    exact Keeps.refl _
  · rw [if_neg hDeleted]
    cases hActive : s.loop.activeSessions.get? sessionId with
    | some thread => exact Keeps.refl _
    | none =>
      cases hRecord : s.disk.db.sessions.get? sessionId with
      | none => exact Keeps.refl _
      | some record => exact Core.keeps_spawn (c := s.core) hDeleted hActive hRecord

theorem keeps_handleSetSessionFlags (s : System) (client : ClientId) (sessionId : Nat)
    (pinned archived : Option Bool) :
    Keeps s.core (s.handleSetSessionFlags env client sessionId pinned archived).core := by
  unfold handleSetSessionFlags
  split
  · exact Keeps.refl _
  · split
    · exact Keeps.refl _
    · dsimp only
      rw [core_resume, core_broadcast]
      exact (Core.keeps_modify_metadata (c := s.core) sessionId _).trans
        (Core.keeps_flags sessionId _ _)

end Loop

/-! ## A deletion -/

section Delete

variable {thread : ThreadId} {t : Thread}

theorem getElem?_sendSession (hGet : s.threads[thread]? = some t) (hOpen : t.finished = false)
    (command : SessionCommand) :
    (s.sendSession thread command).threads[thread]? =
      some { t with queue := t.queue ++ [command] } := by
  rw [sendSession, modifyThread, List.getElem?_modify_eq, hGet]
  simp [hOpen]

theorem finished_of_live (h : t.live = true) : t.finished = false := by
  unfold Thread.live at h
  unfold Thread.finished
  cases hPhase : t.phase <;> rw [hPhase] at h
  all_goals first | rfl | cases h

/-- The session has a thread that has ended already. -/
theorem keeps_delete_finished (hActive : s.loop.activeSessions.get? sid = some thread)
    (hFinished : s.isFinished thread = true) :
    Keeps s.core (s.core.deleteActive sid
      ((s.disk.deleteSession sid).clearSessionTombstone sid)) := by
  refine Core.keeps_deleteActive hActive (fun h => (h.deleteSession sid).of_db_eq rfl)
    (fun _ h => (h.deleteSession sid).of_db_eq rfl)
    (fun _ h => Disk.record_deleteSession_eq_none h sid)
    (fun _ hNe h => Disk.hasTombstone_clear h hNe) fun h => ?_
  have hDead : ∀ t ∈ s.threads, ¬t.livesFor sid = true := by
    intro t ht hLives
    obtain ⟨i, hGet⟩ := List.getElem?_of_mem ht
    obtain rfl := ((h.session sid).owner thread hActive).unique i t hGet hLives
    rw [isFinished, hGet] at hFinished
    simp only [Thread.livesFor, Bool.and_eq_true] at hLives
    rw [Option.all_some, finished_of_live hLives.1] at hFinished
    cases hFinished
  refine ⟨.inr ⟨(h.disk.noRows_deleteSession sid).of_db_eq rfl, List.countP_eq_zero.mpr hDead⟩, ?_⟩
  intro t ht hLives
  exact absurd hLives (hDead t ht)

/-- The session has a thread that is told to end. -/
theorem keeps_delete_running (hActive : s.loop.activeSessions.get? sid = some thread)
    (hRunning : s.isFinished thread = false) :
    Keeps s.core (((s.sendSession thread (.cancel 0)).sendSession thread .shutdown).core.deleteActive
      sid (s.disk.markSessionDeleted sid)) := by
  refine Keeps.trans (keeps_sendSession s thread rfl) (Keeps.trans
    (@keeps_sendSession (s.sendSession thread (.cancel 0)) thread .shutdown rfl) ?_)
  have hActive' : (s.sendSession thread (.cancel 0)).core.activeSessions.get? sid = some thread :=
    hActive
  refine Core.keeps_deleteActive hActive' (fun h => h.of_db_eq rfl)
    (fun _ h => h.of_db_eq rfl) (fun _ h => h) (fun _ _ h => Disk.hasTombstone_mark_of h)
    fun h => ⟨.inl Disk.hasTombstone_mark, fun t ht hLives => ?_⟩
  -- the only live thread is the one that was sent the command
  obtain ⟨i, hGet⟩ := List.getElem?_of_mem ht
  obtain rfl := ((h.session sid).owner thread hActive).unique i t hGet hLives
  obtain ⟨t₀, hGet₀, hOpen⟩ : ∃ t₀, s.threads[i]? = some t₀ ∧ t₀.finished = false := by
    cases hGet₀ : s.threads[i]? with
    | none =>
      rw [isFinished, hGet₀] at hRunning
      cases hRunning
    | some t₀ =>
      rw [isFinished, hGet₀] at hRunning
      exact ⟨t₀, rfl, hRunning⟩
  have hSent := getElem?_sendSession (getElem?_sendSession hGet₀ hOpen (.cancel 0)) hOpen .shutdown
  change ((s.sendSession i (.cancel 0)).sendSession i .shutdown).threads[i]? = some t at hGet
  rw [hSent] at hGet
  cases hGet
  exact .inl (List.mem_append_right _ (List.mem_singleton.mpr rfl))

theorem keeps_deleteSessionInner (s : System) (sid : Nat) :
    Keeps s.core (s.deleteSessionInner sid).core := by
  unfold deleteSessionInner
  cases hActive : s.loop.activeSessions.get? sid with
  | some thread =>
    dsimp only
    split
    · rename_i hFinished
      rw [unlistSession, core_broadcast]
      exact keeps_delete_finished hActive hFinished
    · rename_i hRunning
      rw [unlistSession, core_broadcast]
      exact keeps_delete_running hActive (Bool.eq_false_iff.mpr hRunning)
  | none =>
    rw [unlistSession, core_broadcast]
    exact Core.keeps_deleteInactive (c := s.core) sid

theorem gone_deleteSessionInner (h : s.core.Inv) : (s.deleteSessionInner sid).core.Gone sid := by
  unfold deleteSessionInner
  cases hActive : s.loop.activeSessions.get? sid with
  | some thread =>
    dsimp only
    split
    · rw [unlistSession, core_broadcast]
      exact Core.gone_deleteActive (c := s.core) _
    · rw [unlistSession, core_broadcast]
      exact Core.gone_deleteActive
        (c := ((s.sendSession thread (.cancel 0)).sendSession thread .shutdown).core) _
  | none =>
    rw [unlistSession, core_broadcast]
    exact Core.gone_deleteInactive (c := s.core) h.disk hActive

theorem keeps_deleteAndForget (s : System) (sid : Nat) :
    Keeps s.core (s.deleteAndForget sid).core :=
  keeps_deleteSessionInner (s.removeChildFromAllParents sid) sid

/-- The cascade of a deletion, before it is answered. -/
def deleteCascade (s : System) (sid : Nat) : System :=
  (s.deleteTargets sid).foldl deleteAndForget (s.forgetChildren sid)

theorem keeps_deleteCascade (s : System) (sid : Nat) : Keeps s.core (s.deleteCascade sid).core :=
  keeps_foldl keeps_deleteAndForget _ (s.forgetChildren sid)

theorem gone_foldl_deleteAndForget {xs : List Nat} (h : s.core.Inv) (hMem : sid ∈ xs) :
    (xs.foldl deleteAndForget s).core.Gone sid := by
  induction xs generalizing s with
  | nil => cases hMem
  | cons x rest ih =>
    have hInv : (s.deleteAndForget x).core.Inv := (keeps_deleteAndForget s x).inv h
    rcases List.mem_cons.mp hMem with rfl | hMem
    · have hGone : (s.deleteAndForget sid).core.Gone sid :=
        gone_deleteSessionInner (s := s.removeChildFromAllParents sid) h
      exact (keeps_foldl keeps_deleteAndForget rest _).gone hInv sid hGone
    · exact ih hInv hMem

theorem gone_deleteCascade (h : s.core.Inv) {target : Nat} (hMem : target ∈ s.deleteTargets sid) :
    (s.deleteCascade sid).core.Gone target :=
  gone_foldl_deleteAndForget (s := s.forgetChildren sid) h hMem

end Delete

/-! ## Steps -/

/-- What a step does, from its marks on: the invariant is kept, a session that is gone
comes back only by its creation, and a deletion that is answered leaves it gone. -/
structure Advances (c c' : Core) : Prop where
  inv : c'.Inv
  gone : ∀ sid, c.Gone sid → .created sid ∉ c'.marks → c'.Gone sid
  acked : ∀ sid, .deleteAcked sid ∈ c'.marks → c'.Gone sid

theorem advances_of_keeps {c c' : Core} (h : Keeps c c') (hInv : c.Inv) (hMarks : c.marks = []) :
    Advances c c' where
  inv := h.inv hInv
  gone sid hGone _ := h.gone hInv sid hGone
  acked sid hMem := by
    rw [h.marks, hMarks] at hMem
    cases hMem

theorem Advances.keeps {a b c : Core} (h : Advances a b) (h' : Keeps b c) : Advances a c where
  inv := h'.inv h.inv
  gone sid hGone hMem := by
    rw [h'.marks] at hMem
    exact h'.gone h.inv sid (h.gone sid hGone hMem)
  acked sid hMem := by
    rw [h'.marks] at hMem
    exact h'.gone h.inv sid (h.acked sid hMem)

theorem core_emit_mark (s : System) {e : Event} (h : e.marksLife = true) :
    (s.emit [e]).core = { s.core with marks := s.core.marks ++ [e] } := by
  simp [core, emit, List.filter_append, h]

@[simp] theorem core_trackChild (s : System) (parent : Option Nat) (sessionId : Nat) :
    (s.trackChild parent sessionId).core = s.core := by
  cases parent <;> rfl

section Loop

variable {rest : List DaemonCommand} {command : DaemonCommand} {env : LoopEnv}

theorem core_handleCreateSession (s : System) (env : LoopEnv) (client : Option ClientId)
    (params : CreateSessionParams) :
    ∃ metadata, (s.handleCreateSession env client params).core =
      { (s.core.create (createdRecord params env.now)).spawn s.loop.nextSessionId
          (createdRecord params env.now) env.metadata metadata with
        marks := s.core.marks ++ [.created s.loop.nextSessionId] } := by
  refine ⟨{ metadataOfRecord (createdRecord params env.now) with
    status := .inactive
    contextWindow := env.contextWindow }, ?_⟩
  unfold handleCreateSession
  dsimp only
  rw [core_broadcast, core_broadcast, core_emit_mark _ rfl]
  cases client with
  | some client =>
    dsimp only
    rw [core_resume, core_trackChild]
    rfl
  | none =>
    dsimp only
    rw [core_trackChild]
    rfl

theorem keeps_popped (hInbox : s.loop.inbox = command :: rest) (h : command.neutral = true) :
    Keeps s.core (s.popped rest).core := by
  apply Core.keeps_pop (c := s.core) hInbox
  · intro sid
    cases command <;> first | rfl | cases h
  · intro sid
    cases command <;> first | rfl | cases h

theorem advances_handleCreateSession (hInv : s.core.Inv) (hMarks : s.core.marks = [])
    (hRoom : s.loop.nextSessionId + 1 < 2 ^ 64) (env : LoopEnv) (client : Option ClientId)
    (params : CreateSessionParams) :
    Advances s.core (s.handleCreateSession env client params).core := by
  obtain ⟨metadata, hCore⟩ := core_handleCreateSession s env client params
  rw [hCore, hMarks, List.nil_append]
  refine ⟨(Core.inv_created hInv hRoom).mark _, fun sid hGone hCreated => ?_, fun sid hMem => ?_⟩
  · have hNe : sid ≠ s.loop.nextSessionId := by
      rintro rfl
      exact hCreated List.mem_cons_self
    exact ((hGone.create hNe).spawn hNe).mark _
  · simp at hMem

theorem advances_handleDeleteSession (hInv : s.core.Inv) (hMarks : s.core.marks = [])
    (client : ClientId) (sessionId : Nat) :
    Advances s.core (s.handleDeleteSession client sessionId).core := by
  have hCore : (s.handleDeleteSession client sessionId).core =
      { (s.deleteCascade sessionId).core with
        marks := (s.deleteCascade sessionId).core.marks ++ [.deleteAcked sessionId] } := by
    rw [handleDeleteSession, core_resume, core_emit_mark _ rfl]
    rfl
  have hKeeps := keeps_deleteCascade s sessionId
  rw [hCore, hKeeps.marks, hMarks, List.nil_append]
  refine ⟨(hKeeps.inv hInv).mark _, fun sid hGone _ => (hKeeps.gone hInv sid hGone).mark _,
    fun sid hMem => ?_⟩
  obtain rfl : sid = sessionId := by simpa using hMem
  exact (gone_deleteCascade hInv (List.mem_append_right _ List.mem_cons_self)).mark _

/-- The commands other than a creation and a deletion. -/
theorem keeps_handleCommand (hInbox : s.loop.inbox = command :: rest)
    (hCreate : ∀ client params, command ≠ .createSession client params)
    (hDelete : ∀ client sessionId, command ≠ .deleteSession client sessionId) :
    Keeps s.core ((s.popped rest).handleCommand env command).core := by
  cases command with
  | createSession client params => exact absurd rfl (hCreate client params)
  | deleteSession client sessionId => exact absurd rfl (hDelete client sessionId)
  | updateMetadata sessionId metadata => exact keeps_handleUpdateMetadata hInbox
  | sessionExited sessionId => exact keeps_handleSessionExited hInbox
  | sessionDeleteFinalized sessionId => exact Core.keeps_finalized (c := s.core) hInbox
  | attachSession client sessionId =>
    exact (keeps_popped hInbox rfl).trans (keeps_handleAttachSession env _ client sessionId)
  | setSessionFlags client sessionId pinned archived =>
    exact (keeps_popped hInbox rfl).trans
      (keeps_handleSetSessionFlags env _ client sessionId pinned archived)
  | cancelRequest sessionId streamId =>
    exact (keeps_popped hInbox rfl).trans
      ((keeps_sendActive _ sessionId rfl).trans (keeps_cancelChildrenOf _ sessionId))
  | broadcastActivity sessionId tag =>
    exact (keeps_popped hInbox rfl).trans (keeps_handleBroadcastActivity _ sessionId tag)
  | broadcastSessionStatus sessionId status tag =>
    exact (keeps_popped hInbox rfl).trans
      (keeps_handleBroadcastSessionStatus _ sessionId status tag)
  | evictClient client =>
    exact (keeps_popped hInbox rfl).trans (keeps_handleEvictClient _ client)
  | clientDisconnected client =>
    exact (keeps_popped hInbox rfl).trans (keeps_removeClient _ client)
  | registerClientWriter client => exact keeps_popped hInbox rfl
  | registerSummarySubscriber client => exact keeps_popped hInbox rfl
  | unregisterSummarySubscriber client => exact keeps_popped hInbox rfl
  | registerActivitySubscriber client => exact keeps_popped hInbox rfl
  | unregisterActivitySubscriber client => exact keeps_popped hInbox rfl
  | trackSessionSubscription client sessionId => exact keeps_popped hInbox rfl
  | untrackSessionSubscription client sessionId => exact keeps_popped hInbox rfl

theorem advances_loopStep (hInv : s.core.Inv) (hMarks : s.core.marks = [])
    (hStep : s.loopStep env = some s') : Advances s.core s'.core := by
  unfold loopStep at hStep
  split at hStep
  · cases hStep
  rename_i command rest hInbox
  split at hStep
  rotate_left
  · cases hStep
  rename_i hRoom
  cases hStep
  have hHandled : Advances s.core ((s.popped rest).handleCommand env command).core := by
    cases command with
    | createSession client params =>
      have hPop := keeps_popped hInbox rfl
      have hAdvances := advances_handleCreateSession (hPop.inv hInv) (hPop.marks.trans hMarks)
        (of_decide_eq_true hRoom) env client params
      exact ⟨hAdvances.inv, fun sid hGone => hAdvances.gone sid (hPop.gone hInv sid hGone),
        hAdvances.acked⟩
    | deleteSession client sessionId =>
      have hPop := keeps_popped hInbox rfl
      have hAdvances := advances_handleDeleteSession (hPop.inv hInv) (hPop.marks.trans hMarks)
        client sessionId
      exact ⟨hAdvances.inv, fun sid hGone => hAdvances.gone sid (hPop.gone hInv sid hGone),
        hAdvances.acked⟩
    | _ =>
      refine advances_of_keeps ?_ hInv hMarks
      apply keeps_handleCommand hInbox
      · intro _ _ hEq
        cases hEq
      · intro _ _ hEq
        cases hEq
  exact hHandled.keeps (keeps_foldl keeps_handleEvictClient _ _)

end Loop

section Threads

variable {thread : ThreadId} {t t' : Thread}

theorem keeps_modifyThread (hGet : s.threads[thread]? = some t) {f : Thread → Thread}
    (hSame : t.Ok → t.Same (f t)) : Keeps s.core (s.modifyThread thread f).core := by
  refine Core.keeps_modify fun t₀ hGet₀ hOk => ?_
  change s.threads[thread]? = some t₀ at hGet₀
  rw [hGet] at hGet₀
  cases hGet₀
  exact hSame hOk

theorem keeps_performEffect (hGet : s.threads[thread]? = some t')
    (hLive : t'.live = true) (hSid : t'.sessionId = t.sessionId) (effect : ThreadEffect)
    (hQuiet : ∀ number, effect = .broadcast number → ∀ c, .sendState c ∉ t'.effects) :
    Keeps s.core (s.performEffect thread t effect).core := by
  have hMem : t' ∈ s.core.threads := List.mem_of_getElem? hGet
  cases effect with
  | write row =>
    rw [performEffect, ← hSid]
    exact Core.keeps_write hMem hLive row
  | updateMetadata metadata =>
    rw [performEffect, ← hSid]
    exact Core.keeps_update hMem hLive metadata
  | track client => exact Core.keeps_post_neutral (c := s.core) rfl
  | untrack client => exact Core.keeps_post_neutral (c := s.core) rfl
  | sendStarted client streamId => exact Keeps.of_eq (core_send s _ _)
  | sendState client => exact Keeps.of_eq (core_send s _ _)
  | broadcastSessionStatus status number => exact Core.keeps_post_neutral (c := s.core) rfl
  | broadcast number =>
    have hPost : Keeps s.core (s.sendDaemon (.broadcastActivity t.sessionId ⟨thread, number⟩)).core :=
      Core.keeps_post_neutral (c := s.core) rfl
    rw [performEffect]
    refine hPost.trans (Keeps.trans (Keeps.of_eq (core_emit _ ?_))
      (keeps_modifyThread (t := t') ?_ fun hOk => hOk.of_eq rfl rfl rfl rfl rfl rfl id ?_))
    rotate_left
    · exact hGet
    · exact fun c hMem => absurd hMem (hQuiet number rfl c)
    · intro e he
      rcases List.mem_cons.mp he with rfl | he
      · rfl
      · obtain ⟨client, -, rfl⟩ := List.mem_map.mp he
        rfl

theorem keeps_exitStep (hGet : s.threads[thread]? = some t)
    (hEffects : t.effects = []) (hStep : s.exitStep thread t = some s') :
    Keeps s.core s'.core := by
  unfold exitStep at hStep
  cases hPhase : t.phase with
  | persisting record =>
    rw [hPhase] at hStep
    cases hStep
    have hLive : t.live = true := by
      rw [Thread.live, hPhase]
    have hWrite : Keeps s.core
        ({ s with disk := s.disk.write t.sessionId (.record record) } : System).core :=
      Core.keeps_write (c := s.core) (List.mem_of_getElem? hGet) hLive (.record record)
    refine hWrite.trans (keeps_modifyThread ?_ fun hOk => hOk.written hPhase hEffects)
    exact hGet
  | reporting =>
    rw [hPhase] at hStep
    cases hStep
    exact Core.keeps_report (c := s.core) hGet hPhase hEffects
  | ending =>
    rw [hPhase] at hStep
    cases hStep
    refine keeps_modifyThread hGet fun _ => Thread.same_kill ?_
    rw [Thread.live, hPhase]
  | running =>
    rw [hPhase] at hStep
    cases hStep
  | finished =>
    rw [hPhase] at hStep
    cases hStep

theorem keeps_threadStep (hInv : s.core.Inv) (hStep : s.threadStep thread = some s') :
    Keeps s.core s'.core := by
  unfold threadStep at hStep
  split at hStep
  · cases hStep
  rename_i t hGet
  have hOk := hInv.threads t (List.mem_of_getElem? hGet)
  split at hStep
  · rename_i effect rest hEffects
    cases hStep
    have hLive : t.live = true := hOk.live_of_effect (by simp [hEffects])
    have hRest : ∀ e ∈ rest, e ∈ t.effects := by
      rw [hEffects]
      exact fun e he => List.mem_cons_of_mem _ he
    have hTaken : Keeps s.core (s.modifyThread thread fun t => { t with effects := rest }).core := by
      refine keeps_modifyThread hGet fun hOk => ?_
      refine hOk.of_eq rfl rfl rfl rfl rfl rfl (fun hNil => ?_) fun c hMem => ?_
      · rw [hEffects] at hNil
        cases hNil
      · obtain ⟨hRunning, hSubscribed, hQuiet⟩ := hOk.snapshot c (hRest _ hMem)
        exact ⟨hRunning, hSubscribed, fun number hNumber => hQuiet number (hRest _ hNumber)⟩
    have hGet' : (s.modifyThread thread fun t => { t with effects := rest }).threads[thread]? =
        some { t with effects := rest } := by
      rw [modifyThread, List.getElem?_modify_eq, hGet]
      rfl
    refine hTaken.trans (keeps_performEffect hGet' hLive rfl effect fun number hEq c hMem => ?_)
    apply (hOk.snapshot c (hRest _ hMem)).2.2 number
    rw [hEffects, hEq]
    exact List.mem_cons_self
  · rename_i hEffects
    exact keeps_exitStep hGet hEffects hStep

theorem keeps_processStep {env : ProcessEnv}
    (hStep : s.processStep thread env = some s') : Keeps s.core s'.core := by
  unfold processStep at hStep
  split at hStep
  · cases hStep
  rename_i t hGet
  obtain ⟨t', hNext, rfl⟩ := Option.map_eq_some_iff.mp hStep
  exact keeps_modifyThread hGet fun hOk => hOk.processNext hNext

theorem keeps_workerStep {streamId : Nat} {move : WorkerMove} (hInv : s.core.Inv)
    (hStep : s.workerStep thread streamId move = some s') : Keeps s.core s'.core := by
  unfold workerStep at hStep
  split at hStep
  · cases hStep
  rename_i t hGet
  split at hStep
  rotate_left
  · cases hStep
  rename_i hWorker
  cases hStep
  have hMem : t ∈ s.core.threads := List.mem_of_getElem? hGet
  have hRunning := (hInv.threads t hMem).running_of_worker hWorker
  have hLive := Thread.live_of_running hRunning
  cases move with
  | writeTurn turnId turn => exact Core.keeps_write hMem hLive (.turn turnId turn)
  | writeAttachment turnId slot data =>
    exact Core.keeps_write hMem hLive (.attachment turnId slot data)
  | broadcast => exact keeps_sendSession s thread rfl
  | statusChanged status => exact keeps_sendSession s thread rfl
  | createSession params => exact Core.keeps_post_neutral (c := s.core) rfl
  | finish =>
    rw [performMove, sendSession, modifyThread, modifyThread, List.modify_modify_eq]
    refine keeps_modifyThread hGet fun hOk => ?_
    have hOpen : ({ t with workers := t.workers.erase streamId } : Thread).finished = false :=
      finished_of_live hLive
    simp only [Function.comp, hOpen]
    exact hOk.finishWorker hWorker

end Threads

theorem keeps_finalizeStep {index : Nat} (hStep : s.finalizeStep index = some s') :
    Keeps s.core s'.core := by
  unfold finalizeStep at hStep
  split at hStep
  · cases hStep
  rename_i f hGet
  split at hStep
  · cases hStep
    exact Core.keeps_finalize_delete (c := s.core) hGet rfl
  · rename_i hPhase
    cases hStep
    exact Core.keeps_finalize_clear (c := s.core) hGet (by simp [hPhase]) rfl
  · rename_i hPhase
    cases hStep
    exact Core.keeps_finalize_report (c := s.core) hGet (by simp [hPhase])

theorem neutral_of_fromClient {command : DaemonCommand} (h : command.fromClient = true) :
    command.neutral = true := by
  cases command <;> first | rfl | cases h

theorem keeps_connStep {client : ClientId} (hStep : s.connStep client = some s') :
    Keeps s.core s'.core := by
  unfold connStep at hStep
  split at hStep
  · cases hStep
  rename_i effect rest _
  cases hStep
  cases effect with
  | daemon command h => exact Core.keeps_post_neutral (c := s.core) (neutral_of_fromClient h)
  | attach sessionId thread => exact keeps_sendSession (setConn s _ _) thread rfl
  | detach thread => exact keeps_sendSession (setConn s _ _) thread rfl
  | runInput thread => exact keeps_sendSession (setConn s _ _) thread rfl
  | edit thread => exact keeps_sendSession (setConn s _ _) thread rfl
  | reply message => exact Keeps.of_eq (core_send _ client message)

/-- Every step but one of the loop keeps. -/
theorem keeps_next {a : Action} (hInv : s.core.Inv) (hLoop : ∀ env, a ≠ .loop env)
    (hStep : s.next a = some s') : Keeps s.core s'.core := by
  cases a with
  | loop env => exact absurd rfl (hLoop env)
  | connect client =>
    change s.connectStep client = some s' at hStep
    unfold connectStep at hStep
    split at hStep
    · cases hStep
    · cases hStep
      exact Core.keeps_post_neutral (c := s.core) rfl
  | request client request =>
    change s.requestStep client request = some s' at hStep
    unfold requestStep at hStep
    split at hStep
    · cases hStep
      exact Keeps.refl _
    · cases hStep
  | conn client => exact keeps_connStep hStep
  | disconnect client =>
    change s.disconnectStep client = some s' at hStep
    unfold disconnectStep at hStep
    split at hStep
    · cases hStep
      exact Keeps.refl _
    · cases hStep
  | writerExit client =>
    cases hStep
    exact Keeps.refl _
  | process thread env => exact keeps_processStep hStep
  | thread thread => exact keeps_threadStep hInv hStep
  | worker thread streamId move => exact keeps_workerStep hInv hStep
  | runChild thread =>
    cases hStep
    exact keeps_sendSession s thread rfl
  | finalize index => exact keeps_finalizeStep hStep
  | overLag client =>
    cases hStep
    exact Core.keeps_post_neutral (c := s.core) rfl
  | crash =>
    cases hStep
    exact Core.keeps_restart (c := s.core)
  | crashDuring n =>
    change s.crashDuring n = some s' at hStep
    unfold crashDuring at hStep
    split at hStep
    · rename_i client sessionId rest _
      cases hStep
      have hDone := keeps_foldl keeps_deleteAndForget ((s.deleteTargets sessionId).take n)
        (s.forgetChildren sessionId)
      exact Keeps.trans hDone (Core.keeps_restart (c := core _))
    · cases hStep

theorem advances_step {a : Action} {os : List Event} (hInv : s.core.Inv)
    (hStep : daemon.step s a = some (s', os)) :
    s'.core.Inv ∧ (∀ sid, s.core.Gone sid → .created sid ∉ os → s'.core.Gone sid) ∧
      ∀ sid, .deleteAcked sid ∈ os → s'.core.Gone sid := by
  obtain ⟨s₁, hNext, hEq⟩ := Option.map_eq_some_iff.mp hStep
  cases hEq
  set s₀ : System := { s with events := [] }
  have hInv₀ : s₀.core.Inv := hInv.mark []
  have hAdvances : Advances s₀.core s'.core := by
    by_cases hLoop : ∃ env, a = .loop env
    · obtain ⟨env, rfl⟩ := hLoop
      exact advances_loopStep hInv₀ rfl hNext
    · exact advances_of_keeps (keeps_next hInv₀ (fun env hEq => hLoop ⟨env, hEq⟩) hNext) hInv₀ rfl
  refine ⟨hAdvances.inv, fun sid hGone hCreated => ?_, fun sid hAcked => ?_⟩
  · exact hAdvances.gone sid (hGone.mark []) fun hMem => hCreated (List.mem_filter.mp hMem).1
  · exact hAdvances.acked sid (List.mem_filter.mpr ⟨hAcked, rfl⟩)

theorem inv_init : init.core.Inv := by
  refine ⟨fun sid => ?_, fun t ht => absurd ht List.not_mem_nil,
    fun t ht => absurd ht List.not_mem_nil, fun sid => .inr (Disk.noRows_empty sid)⟩
  refine ⟨fun _ => ⟨rfl, rfl⟩, fun hMem => absurd hMem (Finset.notMem_empty _),
    fun _ => ⟨Finset.notMem_empty _, rfl, rfl⟩, fun thread hSome => ?_,
    fun hMem => absurd hMem (Finset.notMem_empty _), fun f hf => absurd hf List.not_mem_nil,
    fun hMem => absurd hMem List.not_mem_nil, fun hMem => absurd hMem (Finset.notMem_empty _),
    fun before metadata after hSplit => ?_⟩
  · cases hSome
  · have hNil : [] = before ++ DaemonCommand.updateMetadata sid metadata :: after := hSplit
    simp at hNil

/-! ## At rest -/

/-- Nothing is left to do: the loop has no command, no deletion is being finished, and
every session thread has ended or waits for a command. -/
structure AtRest (s : System) : Prop where
  inbox : s.loop.inbox = []
  finalizers : s.finalizers = []
  threads : ∀ t ∈ s.threads, t.phase = .finished ∨
    t.phase = .running ∧ t.queue = [] ∧ t.effects = [] ∧ t.workers = []

/-- A thread that was told to shut down is not at rest. -/
theorem not_idle_of_shuttingDown {t : Thread} (hOk : t.Ok) (hShutdown : t.ShuttingDown)
    (hRunning : t.phase = .running) (hQueue : t.queue = []) (hWorkers : t.workers = []) : False := by
  have hEnds : t.endings = [] := by
    rw [Thread.endings, hQueue]
    rfl
  rcases hShutdown with hMem | hRequested | hStopped
  · rw [hQueue] at hMem
    cases hMem
  · have hActive := hOk.shutdown hRunning hRequested
    cases hOk.request (by simp [hRunning]) with
    | none hNone _ _ => exact hActive hNone
    | working x _ hWorking _ =>
      rw [hWorkers] at hWorking
      cases hWorking
    | ended x _ _ hEnded =>
      rw [hEnds] at hEnded
      cases hEnded
  · exact hStopped hRunning

/-- At rest no row of a deleted session is left. -/
theorem noRows_of_atRest (hInv : s.core.Inv) (hGone : s.core.Gone sid) (hRest : s.AtRest) :
    s.disk.NoRows sid := by
  by_cases hDeleted : sid ∈ s.core.deletedSessions
  · have hExits : s.core.exits sid = 0 := by
      show s.loop.inbox.countP _ = 0
      rw [hRest.inbox]
      rfl
    have hFinals : s.core.finals sid = 0 := by
      show s.finalizers.countP _ + s.loop.inbox.countP _ = 0
      rw [hRest.inbox, hRest.finalizers]
      rfl
    have hSum := ((hInv.session sid).deleted hDeleted).2.2
    obtain ⟨t, ht, hLives⟩ := List.countP_pos_iff.mp (show 0 < s.core.live sid by omega)
    have hShutdown := (hInv.session sid).shutdown hDeleted t ht hLives
    rcases hRest.threads t ht with hFinished | ⟨hRunning, hQueue, -, hWorkers⟩
    · simp [Thread.livesFor, Thread.live, hFinished] at hLives
    · exact (not_idle_of_shuttingDown (hInv.threads t ht) hShutdown hRunning hQueue hWorkers).elim
  · exact hGone.rows hDeleted

theorem ensureActiveSession_of_gone (hGone : s.core.Gone sid) (env : LoopEnv) :
    s.ensureActiveSession env sid = none := by
  unfold ensureActiveSession
  by_cases hDeleted : sid ∈ s.loop.deletedSessions
  · rw [if_pos hDeleted]
  · have hInactive : s.loop.activeSessions.get? sid = none := hGone.inactive
    have hRecord : s.disk.db.sessions.get? sid = none := (hGone.rows hDeleted).record
    rw [if_neg hDeleted, hInactive, hRecord]

theorem inv_exec {as : List Action} {os : List Event} (h : daemon.exec init as = some (s, os)) :
    s.core.Inv :=
  Machine.exec_state_invariant (fun hInv hStep => (advances_step hInv hStep).1) inv_init h

/-- Once a deletion of a session is answered, then after any further run that does not
create a session of that id the session is not listed, cannot be attached, and at rest
has no row in the database. -/
theorem deleted_session_stays_deleted {as bs : List Action} {a : Action} {s₁ s₂ s₃ : System}
    {os₁ os₂ os₃ : List Event} (hRun : daemon.exec init as = some (s₁, os₁))
    (hStep : daemon.step s₁ a = some (s₂, os₂)) (hAcked : .deleteAcked sid ∈ os₂)
    (hLater : daemon.exec s₂ bs = some (s₃, os₃)) (hCreated : .created sid ∉ os₃) :
    s₃.loop.sessionMetadata.get? sid = none ∧ (∀ env, s₃.ensureActiveSession env sid = none) ∧
      (s₃.AtRest → s₃.disk.NoRows sid) := by
  obtain ⟨hInv, -, hGone⟩ := advances_step (inv_exec hRun) hStep
  have hKept := Machine.exec_invariant
    (P := fun os s => s.core.Inv ∧ (.created sid ∉ os → s.core.Gone sid))
    (fun {os s a s' os'} h hNext => by
      obtain ⟨hNextInv, hNextGone, -⟩ := advances_step h.1 hNext
      refine ⟨hNextInv, fun hNone => ?_⟩
      rw [List.mem_append, not_or] at hNone
      exact hNextGone sid (h.2 hNone.1) hNone.2)
    ⟨hInv, fun _ => hGone sid hAcked⟩ hLater
  have hStill := hKept.2 hCreated
  exact ⟨hStill.unlisted, fun env => ensureActiveSession_of_gone hStill env,
    fun hRest => noRows_of_atRest hKept.1 hStill hRest⟩

/-! A session is created and deleted. Its thread is told to end and writes its record
once more, and the deletion is finished after that. -/

def sampleRecord : SessionRecord := createdRecord {} 0

def sampleLoopEnv : LoopEnv := { now := 0, metadata := metadataOfRecord sampleRecord }

def sampleProcessEnv : ProcessEnv :=
  { record := sampleRecord, metadata := metadataOfRecord sampleRecord }

/-- A client connects and creates a session. -/
def createRun : List Action :=
  [.connect 0, .loop sampleLoopEnv, .request 0 (.createSession {}), .conn 0, .loop sampleLoopEnv,
    .conn 0]

/-- The client asks for the deletion of the session. -/
def deleteRun : List Action :=
  createRun ++ [Action.request 0 (.deleteSession 1), Action.conn 0]

/-- The session thread ends, and the deletion is finished. -/
def finishRun : List Action :=
  [.thread 0, .process 0 sampleProcessEnv, .process 0 sampleProcessEnv, .thread 0, .thread 0,
    .thread 0, .loop sampleLoopEnv, .loop sampleLoopEnv, .finalize 0, .finalize 0, .finalize 0,
    .loop sampleLoopEnv]

theorem deletion_finishes : daemon.check init deleteRun (fun s₁ _ =>
    daemon.check s₁ [.loop sampleLoopEnv] fun s₂ os₂ =>
      decide (.deleteAcked 1 ∈ os₂) && daemon.check s₂ finishRun fun s₃ os₃ =>
        decide (.created 1 ∉ os₃) && s₃.loop.inbox.isEmpty && s₃.finalizers.isEmpty &&
          s₃.threads.all Thread.finished) = true := by
  decide +kernel

theorem phase_of_finished {t : Thread} (h : t.finished = true) : t.phase = .finished := by
  unfold Thread.finished at h
  split at h
  · assumption
  · cases h

theorem sample_session_stays_deleted :
    ∃ s os, daemon.exec init (deleteRun ++ .loop sampleLoopEnv :: finishRun) = some (s, os) ∧
      s.AtRest ∧ s.loop.sessionMetadata.get? 1 = none ∧ s.disk.NoRows 1 := by
  obtain ⟨s₁, os₁, hRun, hTest⟩ := Machine.exists_of_check deletion_finishes
  obtain ⟨s₂, os₂, hStep, hTest⟩ := Machine.exists_of_check hTest
  simp only [Bool.and_eq_true, decide_eq_true_eq] at hTest
  obtain ⟨hAcked, hTest⟩ := hTest
  obtain ⟨s₃, os₃, hLater, hTest⟩ := Machine.exists_of_check hTest
  simp only [Bool.and_eq_true, decide_eq_true_eq, List.isEmpty_iff, List.all_eq_true] at hTest
  obtain ⟨⟨⟨hCreated, hInbox⟩, hFinalizers⟩, hFinished⟩ := hTest
  have hRest : s₃.AtRest :=
    ⟨hInbox, hFinalizers, fun t ht => .inl (phase_of_finished (hFinished t ht))⟩
  rw [Machine.exec_singleton] at hStep
  have hGone := deleted_session_stays_deleted hRun hStep hAcked hLater hCreated
  refine ⟨s₃, os₁ ++ (os₂ ++ os₃), ?_, hRest, hGone.1, hGone.2.2 hRest⟩
  exact Machine.exec_append_eq_some.mpr ⟨s₁, os₁, os₂ ++ os₃, hRun,
    Machine.exec_cons_eq_some.mpr ⟨s₂, os₂, os₃, hStep, hLater, rfl⟩, rfl⟩

end System

end Choreographr.Daemon
