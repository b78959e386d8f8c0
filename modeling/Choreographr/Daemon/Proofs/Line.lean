import Choreographr.Daemon.Proofs.Attach

/-!
# What a client's copies of broadcasts depend on

A broadcast of a session reaches a client as a subscriber of the session thread, as a
subscriber of all activity, or as a subscriber of the session list. The loop leaves a
client out on the later paths if it knows the client as a subscriber on an earlier one,
and it learns about the subscribers of a thread from the inbox. `Line` is what the system
has of this for one client. Most operations leave the line alone as long as the client is
not lost (`Stays`).
-/

namespace Choreographr.Daemon

open Session Lib

/-- The broadcast is fanned out on a path, and the client is entitled to it there. -/
def Event.entitles (client : ClientId) (tag : Tag) : Event → Bool
  | .fanOut tag' entitled => decide (tag' = tag) && decide (client ∈ entitled)
  | _ => false

def ClientMessage.isEvent : ClientMessage → Bool
  | .event _ => true
  | _ => false

/-- An event that is neither a copy nor a fan-out of a broadcast. -/
def Event.aside : Event → Bool
  | .sent _ message => !message.isEvent
  | .fanOut _ _ => false
  | _ => true

/-- The commands that change whether a client is a subscriber of the thread. -/
def SessionCommand.joins (client : ClientId) : SessionCommand → Bool
  | .attach c | .removeSubscriber c => c = client
  | _ => false

/-- The client has been connected, and it has left, or its writer has ended, or it was evicted. -/
def System.lost (s : System) (client : ClientId) : Bool :=
  (s.conns client).used &&
    (!(s.conns client).up || (s.conns client).writerGone || (s.conns client).evicted)

/-- What matters of a session thread. -/
structure Port where
  sessionId : Nat
  live : Bool
  subscribed : Bool
  effects : List ThreadEffect
  broadcasts : Nat
  /-- The commands that subscribe the client or end that. -/
  queue : List SessionCommand

def Thread.port (client : ClientId) (t : Thread) : Port where
  sessionId := t.sessionId
  live := t.live
  subscribed := decide (client ∈ t.subscribers)
  effects := t.effects
  broadcasts := t.broadcasts
  queue := t.queue.filter (SessionCommand.joins client)

structure Line where
  used : Bool
  lost : Bool
  entry : Option ClientState
  inbox : List DaemonCommand
  ports : List Port
  /-- How many copies the last step has sent. -/
  heard : Tag → Nat
  /-- Whether it has entitled the client to one. -/
  entitled : Tag → Bool

def System.line (s : System) (client : ClientId) : Line where
  used := (s.conns client).used
  lost := s.lost client
  entry := s.loop.clients.get? client
  inbox := s.loop.inbox
  ports := s.threads.map (Thread.port client)
  heard tag := s.events.count (.sent client (.event tag))
  entitled tag := s.events.any (Event.entitles client tag)

/-- A broadcast is fanned out on a path. -/
def Line.fanOut (k : Line) (tag : Tag) (reached entitled : Bool) : Line :=
  { k with
    heard := fun tag' => k.heard tag' + if tag = tag' ∧ reached = true then 1 else 0
    entitled := fun tag' => k.entitled tag' || (decide (tag = tag') && entitled) }

/-- The client is lost, or nothing has changed for it. -/
structure Stays (k k' : Line) : Prop where
  used : k'.used = k.used
  lost : k.lost = true → k'.lost = true
  same : (k.entry ≠ none → k.used = true) → k'.lost = false → k' = k

namespace Stays

variable {a b c : Line}

theorem of_eq (h : b = a) : Stays a b := by
  rw [h]
  exact ⟨rfl, id, fun _ _ => rfl⟩

theorem trans (h : Stays a b) (h' : Stays b c) : Stays a c where
  used := h'.used.trans h.used
  lost hLost := h'.lost (h.lost hLost)
  same hUsed hKept := by
    have hBetween : b.lost = false := by
      cases hLost : b.lost with
      | false => rfl
      | true =>
        rw [h'.lost hLost] at hKept
        cases hKept
    have hSame := h.same hUsed hBetween
    rw [h'.same (by rwa [hSame]) hKept, hSame]

end Stays

/-- A thread that has just been started. -/
structure Port.Fresh (p : Port) : Prop where
  live : p.live = true
  subscribed : p.subscribed = false
  effects : ∃ metadata, p.effects = [.updateMetadata metadata]
  broadcasts : p.broadcasts = 0
  queue : p.queue = []

/-- Whether the loop has an entry of the client, and the session in it. -/
def membership (sid : Nat) (entry : Option ClientState) : Option Bool :=
  entry.map fun st => decide (sid ∈ st.sessions)

/-- What a command does to the membership of a client that stays. -/
def DaemonCommand.follow (client : ClientId) (sid : Nat) (m : Option Bool) :
    DaemonCommand → Option Bool
  | .registerClientWriter c | .registerSummarySubscriber c | .registerActivitySubscriber c =>
      if c = client then some (m.getD false) else m
  | .trackSessionSubscription c id => if c = client ∧ id = sid then m.map fun _ => true else m
  | .untrackSessionSubscription c id => if c = client ∧ id = sid then m.map fun _ => false else m
  | _ => m

/-- The commands by which a broadcast of a session is fanned out. -/
def DaemonCommand.isFanOut : DaemonCommand → Bool
  | .broadcastActivity _ _ | .broadcastSessionStatus _ _ _ => true
  | _ => false

/-- The session for which a command makes the loop start a thread. -/
def System.started (s : System) : DaemonCommand → Option Nat
  | .createSession _ _ => some s.loop.nextSessionId
  | .attachSession _ sid =>
      if sid ∈ s.loop.deletedSessions ∨ (s.loop.activeSessions.get? sid).isSome ∨
          (s.disk.db.sessions.get? sid).isNone then none
      else some sid
  | _ => none

namespace System

variable {s s' : System} {client : ClientId}

/-! ## Clients that stay -/

theorem writerGone_of_kept (hUsed : (s.conns client).used = true) (hKept : s.lost client = false) :
    (s.conns client).writerGone = false := by
  unfold lost at hKept
  rw [hUsed, Bool.true_and, Bool.or_eq_false_iff, Bool.or_eq_false_iff] at hKept
  exact hKept.1.2

theorem used_of_get? {st : ClientState}
    (hUsed : (s.line client).entry ≠ none → (s.line client).used = true)
    (hGet : s.loop.clients.get? client = some st) : (s.conns client).used = true := by
  apply hUsed
  show s.loop.clients.get? client ≠ none
  rw [hGet]
  exact Option.some_ne_none st

/-! ## What leaves the line alone -/

theorem line_emit (s : System) {events : List Event} (h : ∀ e ∈ events, e.aside = true) :
    (s.emit events).line client = s.line client := by
  have hHeard : ∀ tag, (s.events ++ events).count (.sent client (.event tag)) =
      s.events.count (.sent client (.event tag)) := by
    intro tag
    have hNone : events.count (.sent client (.event tag)) = 0 := by
      apply List.count_eq_zero_of_not_mem
      intro hMem
      cases h _ hMem
    rw [List.count_append, hNone, Nat.add_zero]
  have hEntitled : ∀ tag, (s.events ++ events).any (Event.entitles client tag) =
      s.events.any (Event.entitles client tag) := by
    intro tag
    have hNone : events.any (Event.entitles client tag) = false := by
      rw [List.any_eq_false]
      intro e he hEntitles
      cases e with
      | fanOut tag' entitled => cases h _ he
      | _ => cases hEntitles
    rw [List.any_append, hNone, Bool.or_false]
  unfold line emit
  simp only [hHeard, hEntitled]
  rfl

theorem line_send (s : System) (c : ClientId) {message : ClientMessage}
    (h : message.isEvent = false) : (s.send c message).line client = s.line client := by
  unfold send
  split
  · rfl
  · apply line_emit
    intro e he
    rw [List.mem_singleton.mp he, Event.aside, h]
    rfl

theorem line_modifyThread (s : System) (thread : ThreadId) {f : Thread → Thread}
    (h : ∀ t, s.threads[thread]? = some t → (f t).port client = t.port client) :
    (s.modifyThread thread f).line client = s.line client := by
  unfold line modifyThread
  simp only [map_modify_of_eq h]
  rfl

theorem line_sendSession (s : System) (thread : ThreadId) {command : SessionCommand}
    (h : command.joins client = false) :
    (s.sendSession thread command).line client = s.line client := by
  apply line_modifyThread
  intro t _
  split
  · rfl
  · unfold Thread.port
    dsimp only
    rw [List.filter_append, List.filter_singleton, h, cond_false, List.append_nil]
    rfl

theorem line_sendActive (s : System) (id : Nat) {command : SessionCommand}
    (h : command.joins client = false) :
    (s.sendActive id command).line client = s.line client := by
  unfold sendActive
  split
  · exact line_sendSession s _ h
  · rfl

theorem line_setConn (s : System) (c : ClientId) {conn : Conn} (hUsed : conn.used = (s.conns c).used)
    (hUp : conn.up = (s.conns c).up) (hWriter : conn.writerGone = (s.conns c).writerGone)
    (hEvicted : conn.evicted = (s.conns c).evicted) :
    (s.setConn c conn).line client = s.line client := by
  unfold line setConn lost
  by_cases hEq : client = c
  · subst hEq
    simp only [Function.update_self, hUsed, hUp, hWriter, hEvicted]
  · simp only [Function.update_of_ne hEq]

theorem line_resume (s : System) (c : ClientId) (effects : List ConnEffect) :
    (s.resume c effects).line client = s.line client :=
  line_setConn s c rfl rfl rfl rfl

/-! ## Fan-outs -/

/-- The loop forgets clients whose writer is gone. -/
theorem stays_forget (s : System) (keep : ClientState → Bool) :
    Stays (s.line client) (System.line
      { s with
        loop :=
          { s.loop with
            clients := s.loop.clients.filter fun c st => keep st || !(s.conns c).writerGone } }
      client) where
  used := rfl
  lost := id
  same hUsed hKept := by
    have hEntry : (s.loop.clients.filter fun c st => keep st || !(s.conns c).writerGone).get? client =
        s.loop.clients.get? client := by
      apply Option.ext
      intro st
      rw [OrdMap.get?_filter_eq_some]
      refine and_iff_left_of_imp fun hGet => ?_
      rw [writerGone_of_kept (used_of_get? hUsed hGet) hKept, Bool.not_false, Bool.or_true]
    unfold line
    simp only [hEntry]
    rfl

theorem stays_fanOutClients (s : System) (skip : ClientState → Bool) {message : ClientMessage}
    (h : message.isEvent = false) :
    Stays (s.line client) ((s.fanOutClients skip message).line client) := by
  refine (s.stays_forget skip).trans (.of_eq (line_emit _ fun e he => ?_))
  obtain ⟨x, -, rfl⟩ := List.mem_map.mp he
  rw [Event.aside, h]
  rfl

theorem stays_broadcast (s : System) {message : ClientMessage} (h : message.isEvent = false) :
    Stays (s.line client) ((s.broadcast message).line client) :=
  (s.stays_fanOutClients _ h).trans (stays_fanOutClients _ _ h)

/-- A fan-out of a broadcast sends one copy to each client that it reaches. -/
theorem count_copies {reached : List ClientId} (hNodup : reached.Nodup) (tag tag' : Tag) :
    (reached.map fun c => Event.sent c (.event tag)).count (.sent client (.event tag')) =
      if tag = tag' ∧ client ∈ reached then 1 else 0 := by
  by_cases hTag : tag = tag'
  · subst hTag
    have hInjective : Function.Injective fun c => Event.sent c (.event tag) := by
      intro c c' hEq
      cases hEq
      rfl
    rw [List.count_map_of_injective _ _ hInjective]
    by_cases hMem : client ∈ reached
    · rw [if_pos ⟨rfl, hMem⟩]
      exact List.count_eq_one_of_mem hNodup hMem
    · rw [if_neg fun h => hMem h.2]
      exact List.count_eq_zero_of_not_mem hMem
  · rw [if_neg fun h => hTag h.1]
    apply List.count_eq_zero_of_not_mem
    intro hMem
    obtain ⟨e, -, hEq⟩ := List.mem_map.mp hMem
    cases hEq
    exact hTag rfl

/-- A broadcast is fanned out on one path. -/
theorem line_fanOut (s : System) (tag : Tag) (entitled : Finset ClientId) {reached : List ClientId}
    (hNodup : reached.Nodup) :
    (s.emit (.fanOut tag entitled :: reached.map fun c => .sent c (.event tag))).line client =
      (s.line client).fanOut tag (decide (client ∈ reached)) (decide (client ∈ entitled)) := by
  have hHeard : ∀ tag', (s.events ++ Event.fanOut tag entitled :: reached.map fun c =>
      Event.sent c (.event tag)).count (.sent client (.event tag')) =
      s.events.count (.sent client (.event tag')) +
        if tag = tag' ∧ client ∈ reached then 1 else 0 := by
    intro tag'
    have hOther : Event.fanOut tag entitled ≠ .sent client (.event tag') := by
      intro hEq
      cases hEq
    rw [List.count_append, List.count_cons_of_ne hOther, count_copies hNodup]
  have hEntitled : ∀ tag', (s.events ++ Event.fanOut tag entitled :: reached.map fun c =>
      Event.sent c (.event tag)).any (Event.entitles client tag') =
      (s.events.any (Event.entitles client tag') ||
        (decide (tag = tag') && decide (client ∈ entitled))) := by
    intro tag'
    have hCopies : (reached.map fun c => Event.sent c (.event tag)).any
        (Event.entitles client tag') = false := by
      rw [List.any_eq_false]
      intro e he
      obtain ⟨c, -, rfl⟩ := List.mem_map.mp he
      exact Bool.false_ne_true
    rw [List.any_append, List.any_cons, hCopies, Bool.or_false]
    rfl
  unfold line emit Line.fanOut
  simp only [hHeard, hEntitled, decide_eq_true_eq]
  rfl

theorem stays_foldl {α : Type} {f : System → α → System}
    (h : ∀ s a, Stays (s.line client) ((f s a).line client)) (xs : List α) (s : System) :
    Stays (s.line client) ((xs.foldl f s).line client) := by
  induction xs generalizing s with
  | nil => exact .of_eq rfl
  | cons x rest ih => exact (h s x).trans (ih (f s x))

theorem line_foldl {α : Type} {f : System → α → System}
    (h : ∀ s a, (f s a).line client = s.line client) (xs : List α) (s : System) :
    (xs.foldl f s).line client = s.line client := by
  induction xs generalizing s with
  | nil => rfl
  | cons x rest ih => rw [List.foldl_cons, ih, h]

/-! ## Clients that leave -/

theorem line_removeClient (s : System) {c : ClientId} (h : client ≠ c) :
    (s.removeClient c).line client = s.line client := by
  unfold removeClient
  split
  · rfl
  · have hJoins : (SessionCommand.removeSubscriber c).joins client = false :=
      decide_eq_false (Ne.symm h)
    rw [line_foldl fun s (e : Nat × ThreadId) => line_sendSession s e.2 hJoins]
    unfold line lost
    simp only [OrdMap.get?_erase, if_neg h]

theorem conns_removeClient (s : System) (c : ClientId) : (s.removeClient c).conns = s.conns := by
  have hFold : ∀ (xs : List (Nat × ThreadId)) (s : System),
      (xs.foldl (fun s e => s.sendSession e.2 (.removeSubscriber c)) s).conns = s.conns := by
    intro xs
    induction xs with
    | nil => exact fun _ => rfl
    | cons x rest ih => exact fun s => (ih _).trans rfl
  unfold removeClient
  split
  · rfl
  · exact (hFold _ _).trans rfl

theorem stays_handleEvictClient (s : System) (c : ClientId) :
    Stays (s.line client) ((s.handleEvictClient c).line client) := by
  unfold handleEvictClient
  split
  · exact .of_eq rfl
  rename_i st hGet
  by_cases hEq : client = c
  · subst hEq
    -- A client with an entry has been connected, so it is lost now.
    have hConns : ((((s.send client .evicted).setConn client
        { (s.send client .evicted).conns client with evicted := true }).removeClient
          client).conns client) = { s.conns client with evicted := true } := by
      have hSend : (s.send client .evicted).conns = s.conns := by
        unfold send
        split <;> rfl
      rw [conns_removeClient, setConn, hSend]
      exact Function.update_self _ _ _
    refine ⟨?_, fun hLost => ?_, fun hUsed hKept => ?_⟩
    · show (System.conns _ client).used = _
      rw [hConns]
      rfl
    · show System.lost _ client = true
      change s.lost client = true at hLost
      unfold lost at hLost ⊢
      rw [hConns]
      simp only [Bool.and_eq_true, Bool.or_true, and_true] at hLost ⊢
      exact hLost.1
    · change System.lost _ client = false at hKept
      unfold lost at hKept
      rw [hConns] at hKept
      simp [used_of_get? hUsed hGet] at hKept
  · refine .of_eq ?_
    rw [line_removeClient _ hEq, ← @line_send client s c .evicted rfl]
    unfold line lost setConn
    simp only [Function.update_of_ne hEq]

theorem stays_evictions (clients : List ClientId) (s : System) :
    Stays (s.line client) ((clients.foldl handleEvictClient s).line client) :=
  stays_foldl stays_handleEvictClient clients s

/-! ## Handlers of the loop -/

theorem line_cancelAndShutdownChild (s : System) (id : Nat) :
    (s.cancelAndShutdownChild id).line client = s.line client := by
  rw [cancelAndShutdownChild, line_sendActive _ _ rfl, line_sendActive _ _ rfl]

theorem line_handleCancelRequest (s : System) (id streamId : Nat) :
    (s.handleCancelRequest id streamId).line client = s.line client := by
  unfold handleCancelRequest cancelChildrenOf
  split
  · exact line_sendActive s id rfl
  · rw [line_foldl fun s child => line_sendActive s child rfl]
    exact line_sendActive s id rfl

theorem stays_markSleeping (s : System) (id : Nat) :
    Stays (s.line client) ((s.markSleeping id).line client) := by
  unfold markSleeping
  split
  · exact .of_eq rfl
  · exact stays_broadcast _ rfl

theorem stays_handleSessionExited (s : System) (id : Nat) :
    Stays (s.line client) ((s.handleSessionExited id).line client) := by
  have hChildren : ∀ s : System, Stays (s.line client)
      (((s.childrenOf id).foldl
        (fun s child => (s.removeChildFromAllParents child).cancelAndShutdownChild child)
        (forgetChildren { s with
          loop := { s.loop with activeSessions := s.loop.activeSessions.erase id } } id)).line
        client) := by
    intro s
    refine .of_eq ((line_foldl (fun s child => ?_) _ _).trans rfl)
    exact (line_cancelAndShutdownChild _ _).trans rfl
  have hStays := (hChildren s).trans (stays_markSleeping _ id)
  unfold handleSessionExited
  dsimp only
  split
  · exact hStays.trans (.of_eq rfl)
  · exact hStays

theorem line_handleUpdateMetadata (s : System) (id : Nat) (metadata : SessionMetadata) :
    (s.handleUpdateMetadata id metadata).line client = s.line client := by
  unfold handleUpdateMetadata
  split <;> rfl

theorem stays_unlistSession (s : System) (id : Nat) :
    Stays (s.line client) ((s.unlistSession id).line client) :=
  stays_broadcast _ rfl

theorem stays_deleteAndForget (s : System) (id : Nat) :
    Stays (s.line client) ((s.deleteAndForget id).line client) := by
  unfold deleteAndForget deleteSessionInner
  split
  · dsimp only
    split
    · exact stays_unlistSession _ id
    · refine Stays.trans (.of_eq ?_) (stays_unlistSession _ id)
      rw [line_sendSession _ _ rfl, line_sendSession _ _ rfl]
      rfl
  · exact stays_unlistSession _ id

theorem stays_handleDeleteSession (s : System) (c : ClientId) (id : Nat) :
    Stays (s.line client) ((s.handleDeleteSession c id).line client) := by
  have hDeleted := @stays_foldl client _ _ stays_deleteAndForget (s.deleteTargets id)
    (s.forgetChildren id)
  refine Stays.trans hDeleted (.of_eq ?_)
  rw [handleDeleteSession, line_resume]
  apply line_emit
  intro e he
  rw [List.mem_singleton.mp he]
  rfl

theorem stays_handleSetSessionFlags (s : System) (env : LoopEnv) (c : ClientId) (id : Nat)
    (pinned archived : Option Bool) :
    Stays (s.line client) ((s.handleSetSessionFlags env c id pinned archived).line client) := by
  unfold handleSetSessionFlags
  split
  · exact .of_eq (line_resume s c _)
  · split
    · exact .of_eq (line_resume s c _)
    · exact (stays_broadcast _ rfl).trans (.of_eq (line_resume _ c _))

/-! ## Commands of the loop -/

theorem line_spawnSession (s : System) (env : LoopEnv) (id : Nat) (record : SessionRecord)
    (metadata : SessionMetadata) :
    (s.spawnSession env id record metadata).line client =
      { s.line client with
        ports := (s.line client).ports ++ [(Thread.spawn id record env.metadata).port client] } := by
  unfold line spawnSession
  dsimp only
  rw [List.map_append]
  rfl

theorem fresh_spawn (id : Nat) (record : SessionRecord) (metadata : SessionMetadata) :
    ((Thread.spawn id record metadata).port client).Fresh :=
  ⟨rfl, rfl, ⟨_, rfl⟩, rfl, rfl⟩

theorem line_trackChild (s : System) (parent : Option Nat) (id : Nat) :
    (s.trackChild parent id).line client = s.line client := by
  cases parent <;> rfl

theorem stays_handleCreateSession (s : System) (env : LoopEnv) (c : Option ClientId)
    (params : CreateSessionParams) :
    ∃ port : Port, port.Fresh ∧ port.sessionId = s.loop.nextSessionId ∧
      Stays { s.line client with ports := (s.line client).ports ++ [port] }
        ((s.handleCreateSession env c params).line client) := by
  let port := (Thread.spawn s.loop.nextSessionId (createdRecord params env.now) env.metadata).port
    client
  have hCreated : (s.createdSession env params).line client =
      { s.line client with ports := (s.line client).ports ++ [port] } := by
    rw [createdSession, line_trackChild, line_spawnSession]
    rfl
  refine ⟨port, fresh_spawn _ _ _, rfl, ?_⟩
  rw [← hCreated]
  have hAnnounced : ∀ s₁ : System, Stays (s₁.line client)
      ((((s₁.emit [.created s.loop.nextSessionId]).broadcast
        (.sessionCreated s.loop.nextSessionId)).broadcast
        (.sessionStatusChanged s.loop.nextSessionId .inactive)).line client) := by
    intro s₁
    have hEmit : (s₁.emit [.created s.loop.nextSessionId]).line client = s₁.line client := by
      apply line_emit
      intro e he
      rw [List.mem_singleton.mp he]
      rfl
    rw [← hEmit]
    exact (stays_broadcast _ rfl).trans (stays_broadcast _ rfl)
  cases c with
  | none => exact hAnnounced (s.createdSession env params)
  | some c =>
    rw [← line_resume (s.createdSession env params) c
      [.reply (.sessionCreatedForRequester s.loop.nextSessionId)]]
    exact hAnnounced _

theorem line_switchAttachedSession (s : System) (c : ClientId) (id : Nat) (thread : ThreadId) :
    (s.switchAttachedSession c id thread).line client = s.line client :=
  line_setConn s c rfl rfl rfl rfl

theorem line_handleAttachSession (s : System) (env : LoopEnv) (c : ClientId) (id : Nat) :
    ∃ more : List Port, more.map Port.sessionId = (s.started (.attachSession c id)).toList ∧
      (∀ port ∈ more, port.Fresh) ∧
      (s.handleAttachSession env c id).line client =
        { s.line client with ports := (s.line client).ports ++ more } := by
  have hSame : s.line client = { s.line client with ports := (s.line client).ports ++ [] } := by
    rw [List.append_nil]
  have hNone : ∀ port ∈ ([] : List Port), port.Fresh := fun _ h => absurd h List.not_mem_nil
  have hStarted : s.started (.attachSession c id) =
      if id ∈ s.loop.deletedSessions ∨ (s.loop.activeSessions.get? id).isSome ∨
        (s.disk.db.sessions.get? id).isNone then none else some id := rfl
  rw [hStarted]
  unfold handleAttachSession ensureActiveSession
  by_cases hDeleted : id ∈ s.loop.deletedSessions
  · rw [if_pos hDeleted, if_pos (Or.inl hDeleted)]
    exact ⟨[], rfl, hNone, (line_resume s c _).trans hSame⟩
  · rw [if_neg hDeleted]
    cases hActive : s.loop.activeSessions.get? id with
    | some thread =>
      rw [if_pos (Or.inr (Or.inl Option.isSome_some))]
      exact ⟨[], rfl, hNone, (line_switchAttachedSession s c id thread).trans hSame⟩
    | none =>
      cases hRecord : s.disk.db.sessions.get? id with
      | none =>
        rw [if_pos (Or.inr (Or.inr Option.isNone_none))]
        exact ⟨[], rfl, hNone, (line_resume s c _).trans hSame⟩
      | some record =>
        rw [if_neg (by simp [hDeleted])]
        refine ⟨[(Thread.spawn id record env.metadata).port client], rfl, fun port hMem => ?_, ?_⟩
        · rw [List.mem_singleton.mp hMem]
          exact fresh_spawn id record env.metadata
        · exact (line_switchAttachedSession _ c id _).trans (line_spawnSession s env id _ _)

theorem membership_insert (entry : Option ClientState) (c : ClientId) {st : ClientState}
    (h : st.sessions = (entry.getD {}).sessions) (sid : Nat) :
    membership sid (if c = client then some st else entry) =
      if c = client then some ((membership sid entry).getD false) else membership sid entry := by
  split
  · cases entry with
    | none => simp [membership, h]
    | some st' => simp [membership, h]
  · rfl

theorem membership_modify (entry : Option ClientState) (c : ClientId) {f : ClientState → ClientState}
    (h : ∀ st, (f st).sessions = st.sessions) (sid : Nat) :
    membership sid (if c = client then entry.map f else entry) = membership sid entry := by
  split
  · cases entry with
    | none => rfl
    | some st => simp [membership, h]
  · rfl

/-- A session is added to the sessions of a client, or taken out of them. -/
theorem membership_sessions (entry : Option ClientState) (c : ClientId) (id sid : Nat)
    {f : Finset Nat → Finset Nat} {b : Bool} (hSelf : ∀ sessions, decide (id ∈ f sessions) = b)
    (hOther : ∀ sessions, sid ≠ id → (sid ∈ f sessions ↔ sid ∈ sessions)) :
    membership sid (if c = client then entry.map fun st => { st with sessions := f st.sessions }
      else entry) =
      if c = client ∧ id = sid then (membership sid entry).map fun _ => b
      else membership sid entry := by
  by_cases hEq : c = client
  · cases entry with
    | none => simp [membership]
    | some st =>
      by_cases hSid : id = sid
      · subst hSid
        simp [membership, hEq, ← hSelf st.sessions]
      · simp [membership, hEq, hSid, hOther st.sessions (Ne.symm hSid)]
  · rw [if_neg hEq, if_neg fun h => hEq h.1]

theorem line_subscribeClient (s : System) (c : ClientId) (f : ClientState → ClientState) :
    (s.subscribeClient c f).line client =
      { s.line client with
        entry := if c = client then some (f ((s.line client).entry.getD {}))
          else (s.line client).entry } := by
  unfold line subscribeClient lost
  dsimp only
  rw [OrdMap.get?_insert]
  by_cases hEq : c = client
  · subst hEq
    rw [if_pos rfl]
  · rw [if_neg (Ne.symm hEq), if_neg hEq]

theorem line_modifyClient (s : System) (c : ClientId) (f : ClientState → ClientState) :
    (s.modifyClient c f).line client =
      { s.line client with
        entry := if c = client then (s.line client).entry.map f else (s.line client).entry } := by
  unfold line modifyClient lost
  dsimp only
  rw [OrdMap.get?_modify]
  by_cases hEq : c = client
  · subst hEq
    rw [if_pos rfl]
  · rw [if_neg (Ne.symm hEq), if_neg hEq]

/-- What a command that fans nothing out does to the line of a client that it does not
take out. -/
theorem stays_handleCommand (s : System) (env : LoopEnv) {command : DaemonCommand}
    (hFanOut : command.isFanOut = false) (hLeaves : command ≠ .clientDisconnected client) :
    ∃ (entry : Option ClientState) (more : List Port),
      (∀ sid, membership sid entry =
        command.follow client sid (membership sid (s.line client).entry)) ∧
      more.map Port.sessionId = (s.started command).toList ∧ (∀ port ∈ more, port.Fresh) ∧
      Stays { s.line client with entry := entry, ports := (s.line client).ports ++ more }
        ((s.handleCommand env command).line client) := by
  have hNone : ∀ port ∈ ([] : List Port), port.Fresh := fun _ h => absurd h List.not_mem_nil
  -- The loop starts no thread.
  have hKept : ∀ {entry : Option ClientState},
      Stays { s.line client with entry := entry } ((s.handleCommand env command).line client) →
      (∀ sid, membership sid entry =
        command.follow client sid (membership sid (s.line client).entry)) →
      (s.started command).toList = [] →
      ∃ (entry : Option ClientState) (more : List Port),
        (∀ sid, membership sid entry =
          command.follow client sid (membership sid (s.line client).entry)) ∧
        more.map Port.sessionId = (s.started command).toList ∧ (∀ port ∈ more, port.Fresh) ∧
        Stays { s.line client with entry := entry, ports := (s.line client).ports ++ more }
          ((s.handleCommand env command).line client) := by
    intro entry hStays hEntry hStarts
    refine ⟨entry, [], hEntry, hStarts.symm, hNone, ?_⟩
    rwa [List.append_nil]
  cases command with
  | createSession c params =>
    obtain ⟨port, hFresh, hId, hStays⟩ := @stays_handleCreateSession client s env c params
    refine ⟨(s.line client).entry, [port], fun _ => rfl, congrArg (fun id => [id]) hId,
      fun p hMem => ?_, hStays⟩
    rwa [List.mem_singleton.mp hMem]
  | attachSession c id =>
    obtain ⟨more, hIds, hFresh, hLine⟩ := @line_handleAttachSession client s env c id
    exact ⟨(s.line client).entry, more, fun _ => rfl, hIds, hFresh, .of_eq hLine⟩
  | deleteSession c id => exact hKept (stays_handleDeleteSession s c id) (fun _ => rfl) rfl
  | setSessionFlags c id pinned archived =>
    exact hKept (stays_handleSetSessionFlags s env c id pinned archived) (fun _ => rfl) rfl
  | updateMetadata id metadata =>
    exact hKept (.of_eq (line_handleUpdateMetadata s id metadata)) (fun _ => rfl) rfl
  | sessionExited id => exact hKept (stays_handleSessionExited s id) (fun _ => rfl) rfl
  | sessionDeleteFinalized id => exact hKept (.of_eq rfl) (fun _ => rfl) rfl
  | cancelRequest id streamId =>
    exact hKept (.of_eq (line_handleCancelRequest s id streamId)) (fun _ => rfl) rfl
  | registerClientWriter c =>
    have hLine := @line_subscribeClient client s c id
    exact hKept (.of_eq hLine) (membership_insert _ c rfl) rfl
  | registerSummarySubscriber c =>
    have hLine := @line_subscribeClient client s c fun st => { st with wantsSummary := true }
    exact hKept (.of_eq hLine) (membership_insert _ c rfl) rfl
  | registerActivitySubscriber c =>
    have hLine := @line_subscribeClient client s c fun st => { st with wantsActivity := true }
    exact hKept (.of_eq hLine) (membership_insert _ c rfl) rfl
  | unregisterSummarySubscriber c =>
    have hLine := @line_modifyClient client s c fun st => { st with wantsSummary := false }
    exact hKept (.of_eq hLine) (membership_modify _ c fun _ => rfl) rfl
  | unregisterActivitySubscriber c =>
    have hLine := @line_modifyClient client s c fun st => { st with wantsActivity := false }
    exact hKept (.of_eq hLine) (membership_modify _ c fun _ => rfl) rfl
  | trackSessionSubscription c id =>
    have hLine := @line_modifyClient client s c fun st =>
      { st with sessions := insert id st.sessions }
    exact hKept (.of_eq hLine) (fun sid => membership_sessions _ c id sid
      (fun _ => decide_eq_true (Finset.mem_insert_self id _))
      fun _ hNe => Finset.mem_insert.trans (or_iff_right hNe)) rfl
  | untrackSessionSubscription c id =>
    have hLine := @line_modifyClient client s c fun st =>
      { st with sessions := st.sessions.erase id }
    exact hKept (.of_eq hLine) (fun sid => membership_sessions _ c id sid
      (fun _ => decide_eq_false (Finset.notMem_erase id _))
      fun _ hNe => Finset.mem_erase.trans (and_iff_right hNe)) rfl
  | broadcastActivity id tag => cases hFanOut
  | broadcastSessionStatus id status tag => cases hFanOut
  | evictClient c => exact hKept (stays_handleEvictClient s c) (fun _ => rfl) rfl
  | clientDisconnected c =>
    have hOther : client ≠ c := fun hEq => hLeaves (by rw [hEq])
    exact hKept (.of_eq (line_removeClient s hOther)) (fun _ => rfl) rfl

end System

end Choreographr.Daemon
