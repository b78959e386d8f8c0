import Mathlib.Algebra.GroupWithZero.Nat
import Choreographr.Daemon.Proofs.Deletion

/-!
# What the daemon has of an attach

A client that is told `SessionAttached` is owed one snapshot of the session. The
attach is in the hands of its connection thread, then in the queue of the session
thread, and then among the things that the session thread does next. `Desk` is what
the system has of one client's attaches; `surplus` counts the answers for which there
is neither a snapshot nor an attach on its way.
-/

namespace Choreographr.Daemon

open Session Lib

/-- The client that waits for the answer to a command. -/
def DaemonCommand.waiter : DaemonCommand → Option ClientId
  | .createSession client _ => client
  | .attachSession client _ => some client
  | .deleteSession client _ => some client
  | .setSessionFlags client _ _ _ => some client
  | _ => none

/-- The connection thread is going to tell its client that it is attached. -/
def ConnEffect.promises (sid : Nat) : ConnEffect → Bool
  | .reply message => message = .sessionAttached sid
  | _ => false

/-- The connection thread is going to send an attach. -/
def ConnEffect.attaches (sid : Nat) : ConnEffect → Bool
  | .attach sessionId _ => sessionId = sid
  | _ => false

/-- The messages that a client's attaches are counted by. -/
def ClientMessage.aboutAttach : ClientMessage → Bool
  | .sessionAttached _ | .sessionState _ => true
  | _ => false

def Event.aboutAttach : Event → Bool
  | .sent _ message => message.aboutAttach
  | _ => false

namespace Thread

/-- The thread is in its loop. -/
def inLoop (t : Thread) : Bool :=
  match t.phase with
  | .running => true
  | _ => false

/-- The attaches of a client that the thread will answer with a snapshot. -/
def attaching (client : ClientId) (sid : Nat) (t : Thread) : Nat :=
  if t.sessionId = sid then
    (if t.inLoop then t.queue.count (.attach client) else 0) +
      t.effects.countP (ThreadEffect.snapshots client)
  else 0

/-- The next command does not make the thread leave its loop with an attach of the
client behind it. -/
def keepsAttach (client : ClientId) (env : ProcessEnv) (t : Thread) : Bool :=
  match t.queue with
  | [] => true
  | command :: rest =>
      !({ t with queue := rest }.processCommand env command).2 || !rest.contains (.attach client)

end Thread

/-- No attach of the client goes to a thread that has left its loop, or is in the queue
of a thread that leaves it. -/
def System.attachKept (client : ClientId) (s : System) : Action → Bool
  | .conn c =>
      match (s.conns c).effects with
      | .attach _ thread :: _ => decide (c ≠ client) || (s.threads[thread]?).all Thread.inLoop
      | _ => true
  | .process thread env => (s.threads[thread]?).all (Thread.keepsAttach client env)
  | _ => true

/-- What the system has of one client's attaches. -/
structure Desk where
  conn : Conn
  /-- The commands in the loop's inbox that the client waits for. -/
  waits : Nat
  /-- The session of each session thread. -/
  ids : List Nat
  attaching : Nat → Nat
  told : Nat → Nat
  got : Nat → Nat

namespace Desk

variable (k : Desk) (sid : Nat)

def promised : Nat := k.conn.effects.countP (ConnEffect.promises sid)

def toSend : Nat := k.conn.effects.countP (ConnEffect.attaches sid)

/-- The loop starts threads. -/
def grow (more : List Nat) : Desk := { k with ids := k.ids ++ more }

/-- The answers for which there is neither a snapshot nor an attach on its way. -/
def surplus : Int :=
  ↑(k.told sid + k.promised sid) - ↑(k.got sid + k.toSend sid + k.attaching sid)

/-- The client is not connected yet, or its writer is there. -/
def isOpen : Prop := k.conn.used = false ∨ k.conn.writerGone = false

structure Ok (client : ClientId) : Prop where
  unused : k.conn.used = false → k.conn.up = false ∧ k.conn.waiting = false ∧
    k.conn.effects = [] ∧ ∀ sid, k.attaching sid = 0
  waiting : k.conn.waiting = true → (k.conn.effects = [] ∧ k.waits = 1) ∨
    (k.waits = 0 ∧ ∃ command h, k.conn.effects = [.daemon command h] ∧
      command.waiter = some client)
  free : k.conn.waiting = false → k.waits = 0 ∧
    ∀ command h, .daemon command h ∈ k.conn.effects → command.waiter = none
  /-- The connection thread tells its client first. -/
  first : ∀ e ∈ k.conn.effects.tail, ∀ sid, e.promises sid = false
  targets : ∀ sid thread, .attach sid thread ∈ k.conn.effects → k.ids[thread]? = some sid
  noSnapshot : ∀ sid, .reply (.sessionState sid) ∉ k.conn.effects

end Desk

/-- The loop answers the client that waits: its connection thread goes on, and where it
is going to tell its client that it is attached it is going to send the attach too. -/
structure Answers (k k' : Desk) : Prop where
  used : k'.conn.used = k.conn.used
  writerGone : k'.conn.writerGone = k.conn.writerGone
  waiting : k'.conn.waiting = false
  noCommand : ∀ command h, .daemon command h ∉ k'.conn.effects
  matched : ∀ sid, k'.promised sid = k'.toSend sid
  first : ∀ e ∈ k'.conn.effects.tail, ∀ sid, e.promises sid = false
  targets : ∀ sid thread, .attach sid thread ∈ k'.conn.effects → k'.ids[thread]? = some sid
  noSnapshot : ∀ sid, .reply (.sessionState sid) ∉ k'.conn.effects
  waits : k'.waits = k.waits
  attaching : k'.attaching = k.attaching
  told : k'.told = k.told
  got : k'.got = k.got

def System.desk (s : System) (client : ClientId) : Desk where
  conn := { s.conns client with evicted := false }
  waits := s.loop.inbox.countP fun command => command.waiter = some client
  ids := s.threads.map Thread.sessionId
  attaching sid := (s.threads.map (Thread.attaching client sid)).sum
  told sid := s.events.count (.sent client (.sessionAttached sid))
  got sid := s.events.count (.sent client (.sessionState sid))

/-- An operation that loses no attach. -/
structure Moves (client : ClientId) (k k' : Desk) : Prop where
  ok : k.Ok client → k'.Ok client
  opened : k'.isOpen → k.isOpen
  surplus : k.Ok client → k'.isOpen → ∀ sid, k'.surplus sid = k.surplus sid

namespace System

variable {s s' : System} {client : ClientId} {sid : Nat} {message : ClientMessage}
  {command : SessionCommand} {c : ClientId}

/-! ## What leaves the desk alone -/

theorem desk_emit (s : System) {events : List Event} (h : ∀ e ∈ events, e.aboutAttach = false) :
    (s.emit events).desk client = s.desk client := by
  have hCount : ∀ e : Event, e.aboutAttach = true →
      (s.events ++ events).count e = s.events.count e := by
    intro e he
    have hNone : events.count e = 0 := by
      apply List.count_eq_zero_of_not_mem
      intro hMem
      rw [h e hMem] at he
      cases he
    rw [List.count_append, hNone, Nat.add_zero]
  have hTold : ∀ sid, (s.events ++ events).count (.sent client (.sessionAttached sid)) = _ :=
    fun sid => hCount _ rfl
  have hGot : ∀ sid, (s.events ++ events).count (.sent client (.sessionState sid)) = _ :=
    fun sid => hCount _ rfl
  unfold desk emit
  simp only [hTold, hGot]

theorem desk_send (s : System) (c : ClientId) (h : message.aboutAttach = false) :
    (s.send c message).desk client = s.desk client := by
  unfold send
  split
  · rfl
  · apply desk_emit
    intro e he
    rw [List.mem_singleton.mp he]
    exact h

theorem desk_fanOutClients (s : System) (skip : ClientState → Bool)
    (h : message.aboutAttach = false) :
    (s.fanOutClients skip message).desk client = s.desk client := by
  refine (desk_emit _ fun e he => ?_).trans rfl
  obtain ⟨x, -, rfl⟩ := List.mem_map.mp he
  exact h

theorem desk_broadcast (s : System) (h : message.aboutAttach = false) :
    (s.broadcast message).desk client = s.desk client := by
  rw [broadcast, desk_fanOutClients _ _ h, desk_fanOutClients _ _ h]

theorem desk_modifyThread (s : System) (thread : ThreadId) {f : Thread → Thread}
    (hId : ∀ t, s.threads[thread]? = some t → (f t).sessionId = t.sessionId)
    (hAttaching : ∀ t, s.threads[thread]? = some t →
      ∀ sid, (f t).attaching client sid = t.attaching client sid) :
    (s.modifyThread thread f).desk client = s.desk client := by
  have hSum : ∀ sid, (s.threads.modify thread f).map (Thread.attaching client sid) =
      s.threads.map (Thread.attaching client sid) := fun sid =>
    map_modify_of_eq fun t hGet => hAttaching t hGet sid
  unfold desk modifyThread
  simp only [map_modify_of_eq hId, hSum]

theorem attaching_push {t : Thread} (h : command ≠ .attach client) :
    ({ t with queue := t.queue ++ [command] } : Thread).attaching client sid =
      t.attaching client sid := by
  have hCount : (t.queue ++ [command]).count (.attach client) = t.queue.count (.attach client) := by
    rw [List.count_append, List.count_singleton, beq_false_of_ne h]
    rfl
  unfold Thread.attaching
  rw [hCount]
  rfl

theorem desk_sendSession (s : System) (thread : ThreadId) (h : command ≠ .attach client) :
    (s.sendSession thread command).desk client = s.desk client := by
  apply desk_modifyThread
  · intro t _
    split <;> rfl
  · intro t _ sid
    split
    · rfl
    · exact attaching_push h

theorem desk_sendActive (s : System) (id : Nat) (h : command ≠ .attach client) :
    (s.sendActive id command).desk client = s.desk client := by
  unfold sendActive
  split
  · exact desk_sendSession s _ h
  · rfl

theorem desk_foldl {α : Type} {f : System → α → System}
    (h : ∀ s a, (f s a).desk client = s.desk client) (xs : List α) (s : System) :
    (xs.foldl f s).desk client = s.desk client := by
  induction xs generalizing s with
  | nil => rfl
  | cons x rest ih => rw [List.foldl_cons, ih, h]

theorem desk_removeClient (s : System) (c : ClientId) :
    (s.removeClient c).desk client = s.desk client := by
  unfold removeClient
  split
  · rfl
  · refine (desk_foldl (fun s (e : Nat × ThreadId) => ?_) _ _).trans rfl
    exact desk_sendSession s e.2 (by simp)

theorem desk_setConn_evicted (s : System) (c : ClientId) :
    (s.setConn c { s.conns c with evicted := true }).desk client = s.desk client := by
  unfold desk setConn
  by_cases hEq : client = c
  · subst hEq
    simp only [Function.update_self]
  · simp only [Function.update_of_ne hEq]

theorem desk_handleEvictClient (s : System) (c : ClientId) :
    (s.handleEvictClient c).desk client = s.desk client := by
  unfold handleEvictClient
  split
  · rfl
  · rw [desk_removeClient, desk_setConn_evicted, desk_send _ _ rfl]

theorem desk_evictions (clients : List ClientId) (s : System) :
    (clients.foldl handleEvictClient s).desk client = s.desk client :=
  desk_foldl desk_handleEvictClient clients s

theorem desk_cancelAndShutdownChild (s : System) (id : Nat) :
    (s.cancelAndShutdownChild id).desk client = s.desk client := by
  rw [cancelAndShutdownChild, desk_sendActive _ _ (by simp), desk_sendActive _ _ (by simp)]

theorem desk_handleCancelRequest (s : System) (id streamId : Nat) :
    (s.handleCancelRequest id streamId).desk client = s.desk client := by
  unfold handleCancelRequest cancelChildrenOf
  split
  · exact desk_sendActive s id (by simp)
  · rw [desk_foldl fun s child => desk_sendActive s child (by simp)]
    exact desk_sendActive s id (by simp)

theorem desk_markSleeping (s : System) (id : Nat) :
    (s.markSleeping id).desk client = s.desk client := by
  unfold markSleeping
  split
  · rfl
  · exact (desk_broadcast _ rfl).trans rfl

theorem desk_handleSessionExited (s : System) (id : Nat) :
    (s.handleSessionExited id).desk client = s.desk client := by
  unfold handleSessionExited
  dsimp only
  split
  · refine Eq.trans (b := (markSleeping _ id).desk client) rfl ?_
    rw [desk_markSleeping, desk_foldl fun s child => desk_cancelAndShutdownChild
      (s.removeChildFromAllParents child) child]
    rfl
  · rw [desk_markSleeping, desk_foldl fun s child => desk_cancelAndShutdownChild
      (s.removeChildFromAllParents child) child]
    rfl

theorem desk_handleUpdateMetadata (s : System) (id : Nat) (metadata : SessionMetadata) :
    (s.handleUpdateMetadata id metadata).desk client = s.desk client := by
  unfold handleUpdateMetadata
  split <;> rfl

theorem desk_emit_fanOut (s : System) (tag : Tag) (entitled : Finset ClientId) :
    (s.emit [.fanOut tag entitled]).desk client = s.desk client := by
  apply desk_emit
  intro e he
  rw [List.mem_singleton.mp he]
  rfl

theorem desk_handleBroadcastActivity (s : System) (id : Nat) (tag : Tag) :
    (s.handleBroadcastActivity id tag).desk client = s.desk client := by
  rw [handleBroadcastActivity, desk_fanOutClients _ _ rfl, desk_emit_fanOut]

theorem desk_handleBroadcastSessionStatus (s : System) (id : Nat) (status : SessionStatus)
    (tag : Tag) : (s.handleBroadcastSessionStatus id status tag).desk client = s.desk client := by
  unfold handleBroadcastSessionStatus
  split
  · rfl
  · dsimp only
    rw [desk_fanOutClients _ _ rfl, desk_emit_fanOut]
    rfl

theorem desk_unlistSession (s : System) (id : Nat) :
    (s.unlistSession id).desk client = s.desk client :=
  (desk_broadcast _ rfl).trans rfl

theorem desk_deleteAndForget (s : System) (id : Nat) :
    (s.deleteAndForget id).desk client = s.desk client := by
  unfold deleteAndForget deleteSessionInner
  split
  · dsimp only
    split
    · rw [desk_unlistSession]
      rfl
    · rw [desk_unlistSession, desk_sendSession _ _ (by simp), desk_sendSession _ _ (by simp)]
      rfl
  · rw [desk_unlistSession]
    rfl

/-! ## What the loop answers -/

theorem desk_spawnSession (s : System) (env : LoopEnv) (id : Nat) (record : SessionRecord)
    (metadata : SessionMetadata) :
    (s.spawnSession env id record metadata).desk client = (s.desk client).grow [id] := by
  have hNew : ∀ sid, (Thread.spawn id record env.metadata).attaching client sid = 0 := by
    intro sid
    unfold Thread.attaching
    split <;> rfl
  unfold desk spawnSession Desk.grow
  simp only [List.map_append, List.map_cons, List.map_nil, List.sum_append, List.sum_cons,
    List.sum_nil, hNew, Nat.add_zero]
  rfl

theorem desk_setConn_other (s : System) (h : client ≠ c) (conn : Conn) :
    (s.setConn c conn).desk client = s.desk client := by
  unfold desk setConn
  simp only [Function.update_of_ne h]

theorem desk_setConn_self (s : System) (conn : Conn) :
    (s.setConn client conn).desk client =
      { s.desk client with conn := { conn with evicted := false } } := by
  unfold desk setConn
  simp only [Function.update_self]

/-- An answer that sends replies other than `SessionAttached`. -/
theorem answers_resume (s : System) (replies : List ClientMessage)
    (h : ∀ m ∈ replies, m.aboutAttach = false) :
    Answers (s.desk client) ((s.resume client (replies.map ConnEffect.reply)).desk client) := by
  rw [resume, desk_setConn_self]
  have hPromises : ∀ e ∈ replies.map ConnEffect.reply, ∀ sid, e.promises sid = false := by
    intro e he sid
    obtain ⟨m, hm, rfl⟩ := List.mem_map.mp he
    have hNe : m ≠ .sessionAttached sid := by
      rintro rfl
      cases h _ hm
    simp [ConnEffect.promises, hNe]
  have hReply : ∀ e ∈ replies.map ConnEffect.reply, ∃ m, e = .reply m := by
    intro e he
    obtain ⟨m, -, rfl⟩ := List.mem_map.mp he
    exact ⟨m, rfl⟩
  refine ⟨rfl, rfl, rfl, fun command hFrom hMem => ?_, fun sid => ?_, fun e he => ?_,
    fun sid thread hMem => ?_, fun sid hMem => ?_, rfl, rfl, rfl, rfl⟩
  · obtain ⟨m, hEq⟩ := hReply _ hMem
    cases hEq
  · have hNone : (replies.map ConnEffect.reply).countP (ConnEffect.promises sid) = 0 := by
      apply List.countP_eq_zero.mpr
      intro e he
      simp [hPromises e he sid]
    have hNoAttach : (replies.map ConnEffect.reply).countP (ConnEffect.attaches sid) = 0 := by
      apply List.countP_eq_zero.mpr
      intro e he
      obtain ⟨m, rfl⟩ := hReply e he
      simp [ConnEffect.attaches]
    exact hNone.trans hNoAttach.symm
  · exact hPromises e (List.mem_of_mem_tail he)
  · obtain ⟨m, hEq⟩ := hReply _ hMem
    cases hEq
  · obtain ⟨m, hm, hEq⟩ := List.mem_map.mp hMem
    cases hEq
    cases h _ hm

theorem answers_grow {k k' : Desk} (more : List Nat) (h : Answers (k.grow more) k') :
    Answers k k' :=
  ⟨h.used, h.writerGone, h.waiting, h.noCommand, h.matched, h.first, h.targets, h.noSnapshot,
    h.waits, h.attaching, h.told, h.got⟩

theorem leaveSession_eq {conn : Conn} {e : ConnEffect} (h : e ∈ leaveSession conn sid) :
    ∃ old, e = .detach old := by
  unfold leaveSession at h
  split at h
  · split at h
    · cases h
    · exact ⟨_, List.mem_singleton.mp h⟩
  · cases h

/-- An answer to an attach. -/
theorem answers_switchAttachedSession {thread : ThreadId}
    (hTarget : (s.desk client).ids[thread]? = some sid) :
    Answers (s.desk client) ((s.switchAttachedSession client sid thread).desk client) := by
  rw [switchAttachedSession, desk_setConn_self]
  have hOnly : ∀ e ∈ leaveSession (s.conns client) sid,
      ∃ old, e = ConnEffect.detach old := fun e he => leaveSession_eq he
  generalize leaveSession (s.conns client) sid = detach at hOnly
  have hPromises : ∀ sid', detach.countP (ConnEffect.promises sid') = 0 := by
    intro sid'
    apply List.countP_eq_zero.mpr
    intro e he
    obtain ⟨old, rfl⟩ := hOnly e he
    simp [ConnEffect.promises]
  have hAttaches : ∀ sid', detach.countP (ConnEffect.attaches sid') = 0 := by
    intro sid'
    apply List.countP_eq_zero.mpr
    intro e he
    obtain ⟨old, rfl⟩ := hOnly e he
    simp [ConnEffect.attaches]
  have hTail : ∀ e ∈ detach ++ [ConnEffect.attach sid thread],
      (∃ old, e = .detach old) ∨ e = .attach sid thread := by
    intro e he
    exact (List.mem_append.mp he).imp (hOnly e) List.mem_singleton.mp
  refine ⟨rfl, rfl, rfl, fun command hFrom hMem => ?_, fun sid' => ?_, fun e he sid' => ?_,
    fun sid' thread' hMem => ?_, fun sid' hMem => ?_, rfl, rfl, rfl, rfl⟩
  · rcases List.mem_cons.mp hMem with hEq | hMem
    · cases hEq
    · rcases hTail _ hMem with ⟨old, hEq⟩ | hEq <;> cases hEq
  · unfold Desk.promised Desk.toSend
    simp [List.countP_append, hPromises, hAttaches, ConnEffect.promises, ConnEffect.attaches,
      List.countP_cons]
  · rcases hTail e he with ⟨old, rfl⟩ | rfl <;> rfl
  · rcases List.mem_cons.mp hMem with hEq | hMem
    · cases hEq
    · rcases hTail _ hMem with ⟨old, hEq⟩ | hEq <;> cases hEq
      exact hTarget
  · rcases List.mem_cons.mp hMem with hEq | hMem
    · cases hEq
    · rcases hTail _ hMem with ⟨old, hEq⟩ | hEq <;> cases hEq

theorem desk_resume_other (s : System) (h : client ≠ c) (effects : List ConnEffect) :
    (s.resume c effects).desk client = s.desk client :=
  desk_setConn_other s h _

theorem grow_nil (k : Desk) : k.grow [] = k := by
  simp [Desk.grow]

theorem desk_trackChild (s : System) (parent : Option Nat) (id : Nat) :
    (s.trackChild parent id).desk client = s.desk client := by
  cases parent <;> rfl

/-- A new session before its creation is announced. -/
def createdSession (s : System) (env : LoopEnv) (params : CreateSessionParams) : System :=
  let record := createdRecord params env.now
  (spawnSession
    { s with
      loop := { s.loop with nextSessionId := s.loop.nextSessionId + 1 }
      disk := s.disk.write s.loop.nextSessionId (.record record) }
    env s.loop.nextSessionId record
    { metadataOfRecord record with
      status := .inactive
      contextWindow := env.contextWindow }).trackChild params.parentSessionId s.loop.nextSessionId

theorem desk_createdSession (s : System) (env : LoopEnv) (params : CreateSessionParams) :
    (s.createdSession env params).desk client =
      (s.desk client).grow [s.loop.nextSessionId] := by
  rw [createdSession, desk_trackChild, desk_spawnSession]
  rfl

theorem desk_announce (s : System) (id : Nat) :
    (((s.emit [.created id]).broadcast (.sessionCreated id)).broadcast
      (.sessionStatusChanged id .inactive)).desk client = s.desk client := by
  rw [desk_broadcast _ rfl, desk_broadcast _ rfl]
  apply desk_emit
  intro e he
  rw [List.mem_singleton.mp he]
  rfl

theorem desk_handleAttachSession_other (s : System) (env : LoopEnv) (h : client ≠ c) (id : Nat) :
    ∃ more, (s.handleAttachSession env c id).desk client = (s.desk client).grow more := by
  unfold handleAttachSession ensureActiveSession
  by_cases hDeleted : id ∈ s.loop.deletedSessions
  · rw [if_pos hDeleted]
    exact ⟨[], (desk_resume_other s h _).trans (grow_nil _).symm⟩
  · rw [if_neg hDeleted]
    cases hActive : s.loop.activeSessions.get? id with
    | some thread => exact ⟨[], (desk_setConn_other s h _).trans (grow_nil _).symm⟩
    | none =>
      cases hRecord : s.disk.db.sessions.get? id with
      | none => exact ⟨[], (desk_resume_other s h _).trans (grow_nil _).symm⟩
      | some record => exact ⟨[id], (desk_setConn_other _ h _).trans (desk_spawnSession s env id _ _)⟩

theorem answers_handleAttachSession (hInv : s.core.Inv) (env : LoopEnv) (id : Nat) :
    Answers (s.desk client) ((s.handleAttachSession env client id).desk client) := by
  have hFailed : Answers (s.desk client)
      ((s.resume client [.reply (.sessionFailed "attach_session")]).desk client) :=
    answers_resume s [.sessionFailed "attach_session"] (by simp [ClientMessage.aboutAttach])
  unfold handleAttachSession ensureActiveSession
  by_cases hDeleted : id ∈ s.loop.deletedSessions
  · rw [if_pos hDeleted]
    exact hFailed
  · rw [if_neg hDeleted]
    cases hActive : s.loop.activeSessions.get? id with
    | some thread =>
      apply answers_switchAttachedSession
      obtain ⟨t, hGet, hSid⟩ := ((hInv.session id).owner thread hActive).known
      change (s.threads.map Thread.sessionId)[thread]? = some id
      change s.threads[thread]? = some t at hGet
      rw [List.getElem?_map, hGet, Option.map_some, hSid]
    | none =>
      cases hRecord : s.disk.db.sessions.get? id with
      | none => exact hFailed
      | some record =>
        refine answers_grow [id] ?_
        rw [← desk_spawnSession s env id record
          { metadataOfRecord record with status := .inactive }]
        apply answers_switchAttachedSession
        rw [desk_spawnSession]
        have hLength : (s.desk client).ids.length = s.threads.length := List.length_map _
        show ((s.desk client).ids ++ [id])[s.threads.length]? = some id
        rw [← hLength]
        exact List.getElem?_concat_length

theorem desk_handleDeleteSession (s : System) (c : ClientId) (id : Nat) :
    ∃ s₁ : System, s.handleDeleteSession c id = s₁.resume c [.reply (.deleted id)] ∧
      ∀ client, s₁.desk client = s.desk client := by
  refine ⟨_, rfl, fun client => ?_⟩
  refine (desk_emit _ fun e he => ?_).trans ((desk_foldl desk_deleteAndForget _ _).trans rfl)
  rw [List.mem_singleton.mp he]
  rfl

theorem desk_handleSetSessionFlags (s : System) (env : LoopEnv) (c : ClientId) (id : Nat)
    (pinned archived : Option Bool) :
    ∃ (s₁ : System) (replies : List ClientMessage),
      s.handleSetSessionFlags env c id pinned archived =
        s₁.resume c (replies.map ConnEffect.reply) ∧
      (∀ m ∈ replies, m.aboutAttach = false) ∧
      ∀ client, s₁.desk client = s.desk client := by
  unfold handleSetSessionFlags
  split
  · exact ⟨s, [.flagsFailed id], rfl, by simp [ClientMessage.aboutAttach], fun _ => rfl⟩
  · split
    · exact ⟨s, [.flagsFailed id], rfl, by simp [ClientMessage.aboutAttach], fun _ => rfl⟩
    · exact ⟨_, [], rfl, by simp, fun client => (desk_broadcast _ rfl).trans rfl⟩

section Loop

variable {command : DaemonCommand} (env : LoopEnv)

/-- A command that another client waits for, or none. -/
theorem desk_handleCommand (s : System) (h : command.waiter ≠ some client) :
    ∃ more, (s.handleCommand env command).desk client = (s.desk client).grow more := by
  have hSame : ∀ {k : Desk}, k = s.desk client → ∃ more, k = (s.desk client).grow more :=
    fun hEq => ⟨[], hEq.trans (grow_nil _).symm⟩
  cases command with
  | createSession c params =>
    refine ⟨[s.loop.nextSessionId], (desk_announce _ _).trans ?_⟩
    cases c with
    | none => exact desk_createdSession s env params
    | some c =>
      have hNe : client ≠ c := fun hEq => h (by rw [hEq]; rfl)
      exact (desk_resume_other _ hNe _).trans (desk_createdSession s env params)
  | attachSession c id =>
    exact desk_handleAttachSession_other s env (fun hEq => h (by rw [hEq]; rfl)) id
  | deleteSession c id =>
    have hNe : client ≠ c := fun hEq => h (by rw [hEq]; rfl)
    obtain ⟨s₁, hHandled, hDesk⟩ := desk_handleDeleteSession s c id
    apply hSame
    rw [handleCommand, hHandled, desk_resume_other _ hNe, hDesk]
  | setSessionFlags c id pinned archived =>
    have hNe : client ≠ c := fun hEq => h (by rw [hEq]; rfl)
    obtain ⟨s₁, replies, hHandled, -, hDesk⟩ :=
      desk_handleSetSessionFlags s env c id pinned archived
    apply hSame
    rw [handleCommand, hHandled, desk_resume_other _ hNe, hDesk]
  | updateMetadata id metadata => exact hSame (desk_handleUpdateMetadata s id metadata)
  | sessionExited id => exact hSame (desk_handleSessionExited s id)
  | sessionDeleteFinalized id => exact hSame rfl
  | cancelRequest id streamId => exact hSame (desk_handleCancelRequest s id streamId)
  | broadcastActivity id tag => exact hSame (desk_handleBroadcastActivity s id tag)
  | broadcastSessionStatus id status tag =>
    exact hSame (desk_handleBroadcastSessionStatus s id status tag)
  | evictClient c => exact hSame (desk_handleEvictClient s c)
  | clientDisconnected c => exact hSame (desk_removeClient s c)
  | registerClientWriter c => exact hSame rfl
  | registerSummarySubscriber c => exact hSame rfl
  | unregisterSummarySubscriber c => exact hSame rfl
  | registerActivitySubscriber c => exact hSame rfl
  | unregisterActivitySubscriber c => exact hSame rfl
  | trackSessionSubscription c id => exact hSame rfl
  | untrackSessionSubscription c id => exact hSame rfl

/-- The command that the client waits for. -/
theorem answers_handleCommand (hInv : s.core.Inv) (h : command.waiter = some client) :
    Answers (s.desk client) ((s.handleCommand env command).desk client) := by
  cases command with
  | createSession c params =>
    obtain rfl : c = some client := h
    rw [handleCommand, handleCreateSession, desk_announce]
    refine answers_grow [s.loop.nextSessionId] ?_
    rw [← desk_createdSession s env params]
    exact answers_resume (s.createdSession env params)
      [.sessionCreatedForRequester s.loop.nextSessionId] (by simp [ClientMessage.aboutAttach])
  | attachSession c id =>
    obtain rfl : c = client := Option.some.inj h
    exact answers_handleAttachSession hInv env id
  | deleteSession c id =>
    obtain rfl : c = client := Option.some.inj h
    obtain ⟨s₁, hHandled, hDesk⟩ := desk_handleDeleteSession s c id
    rw [handleCommand, hHandled, ← hDesk]
    exact answers_resume s₁ [.deleted id] (by simp [ClientMessage.aboutAttach])
  | setSessionFlags c id pinned archived =>
    obtain rfl : c = client := Option.some.inj h
    obtain ⟨s₁, replies, hHandled, hReplies, hDesk⟩ :=
      desk_handleSetSessionFlags s env c id pinned archived
    rw [handleCommand, hHandled, ← hDesk]
    exact answers_resume s₁ replies hReplies
  | _ => cases h

end Loop

/-! ## Steps of the loop -/

theorem moves_refl (k : Desk) : Moves client k k := ⟨id, id, fun _ _ _ => rfl⟩

theorem moves_of_eq {k k' : Desk} (h : k' = k) : Moves client k k' := by
  rw [h]
  exact moves_refl k

theorem moves_trans {a b c : Desk} (h : Moves client a b) (h' : Moves client b c) :
    Moves client a c where
  ok hOk := h'.ok (h.ok hOk)
  opened hOpen := h.opened (h'.opened hOpen)
  surplus hOk hOpen sid :=
    (h'.surplus (h.ok hOk) hOpen sid).trans (h.surplus hOk (h'.opened hOpen) sid)

theorem moves_grow (k : Desk) (more : List Nat) : Moves client k (k.grow more) where
  ok hOk := by
    refine ⟨hOk.unused, hOk.waiting, hOk.free, hOk.first, fun sid thread hMem => ?_, hOk.noSnapshot⟩
    have hTarget := hOk.targets sid thread hMem
    have hLt := (List.getElem?_eq_some_iff.mp hTarget).1
    exact (List.getElem?_append_left hLt).trans hTarget
  opened := id
  surplus _ _ _ := rfl

/-- A desk with one command less to wait for is answered. -/
theorem moves_answers {k₀ k k' : Desk} (hConn : k.conn = k₀.conn) (hWaits : k.waits + 1 = k₀.waits)
    (hAttaching : k.attaching = k₀.attaching) (hTold : k.told = k₀.told) (hGot : k.got = k₀.got)
    (h : Answers k k') : Moves client k₀ k' := by
  have hBefore : k₀.Ok client → k₀.conn.waiting = true ∧ k₀.conn.effects = [] ∧ k₀.waits = 1 := by
    intro hOk
    cases hWaiting : k₀.conn.waiting with
    | false =>
      have hNone := (hOk.free hWaiting).1
      omega
    | true =>
      rcases hOk.waiting hWaiting with ⟨hEffects, hOne⟩ | ⟨hNone, -⟩
      · exact ⟨rfl, hEffects, hOne⟩
      · omega
  refine ⟨fun hOk => ?_, fun hOpen => ?_, fun hOk _ sid => ?_⟩
  · obtain ⟨hWaiting, hEffects, hOne⟩ := hBefore hOk
    refine ⟨fun hUnused => ?_, fun hTrue => ?_, fun _ => ⟨?_, fun command hFrom hMem => ?_⟩, h.first,
      h.targets, h.noSnapshot⟩
    · rw [h.used, hConn] at hUnused
      rw [(hOk.unused hUnused).2.1] at hWaiting
      cases hWaiting
    · rw [h.waiting] at hTrue
      cases hTrue
    · rw [h.waits]
      omega
    · exact absurd hMem (h.noCommand command hFrom)
  · rw [Desk.isOpen, h.used, h.writerGone, hConn] at hOpen
    exact hOpen
  · obtain ⟨-, hEffects, -⟩ := hBefore hOk
    have hMatched := h.matched sid
    have hPromised : k₀.promised sid = 0 := by
      rw [Desk.promised, hEffects]
      rfl
    have hToSend : k₀.toSend sid = 0 := by
      rw [Desk.toSend, hEffects]
      rfl
    unfold Desk.surplus
    rw [h.told, h.got, h.attaching, hTold, hGot, hAttaching, hPromised, hToSend]
    omega

theorem desk_popped (client : ClientId) {command : DaemonCommand} {rest : List DaemonCommand}
    (hInbox : s.loop.inbox = command :: rest) :
    s.desk client = { (s.popped rest).desk client with
      waits := ((s.popped rest).desk client).waits +
        if command.waiter = some client then 1 else 0 } := by
  unfold desk popped
  rw [hInbox, List.countP_cons]
  simp only [decide_eq_true_eq]

theorem moves_loopStep {env : LoopEnv} (hInv : s.core.Inv) (hStep : s.loopStep env = some s') :
    Moves client (s.desk client) (s'.desk client) := by
  unfold loopStep at hStep
  split at hStep
  · cases hStep
  rename_i command rest hInbox
  split at hStep
  rotate_left
  · cases hStep
  cases hStep
  rw [desk_evictions]
  have hDesk := desk_popped client hInbox
  by_cases hWaiter : command.waiter = some client
  · rw [if_pos hWaiter] at hDesk
    have hPopped : (s.popped rest).core.Inv := by
      refine (keeps_popped hInbox ?_).inv hInv
      cases command <;> first | rfl | cases hWaiter
    refine moves_answers (k := (s.popped rest).desk client) ?_ ?_ ?_ ?_ ?_
      (answers_handleCommand env hPopped hWaiter)
    all_goals rw [hDesk]
  · rw [if_neg hWaiter, Nat.add_zero] at hDesk
    obtain ⟨more, hHandled⟩ := desk_handleCommand env (s.popped rest) hWaiter
    change Moves client _ (((s.popped rest).handleCommand env command).desk client)
    rw [hHandled, hDesk]
    exact moves_grow _ more

end System

end Choreographr.Daemon
