import Mathlib.Algebra.Order.Group.Multiset
import Mathlib.Tactic.Abel
import Choreographr.Server.System
import Choreographr.Session.Proofs.Runs
import Choreographr.Lib.Counting

/-!
# One reply per request

Every request is, at any moment of a run, in exactly one of three places: it has
been answered, it waits in the queue of a session thread, or the connection thread
has given it up. A target that is dropped answers for itself, so the only requests
given up are the ones that a connection thread itself waits for when the session
thread is gone, and the connection stays up.
-/

namespace Choreographr.Server

open Session Lib

variable {f : Thread → Thread} {s : Daemon} {thread : ThreadId} {t : Thread} {c : SessionCommand}
  {r : Daemon × List Event}

/-! ## The books -/

@[simp] def receivedOf : Event → Option (Nat × Nat)
  | .received client id => some (client, id)
  | _ => none

@[simp] def repliedOf : Event → Option (Nat × Nat)
  | .message client ⟨some id, _⟩ => some (client, id)
  | _ => none

@[simp] def abandonedOf : Event → Option (Nat × Nat)
  | .abandoned client id => some (client, id)
  | _ => none

def requests (os : List Event) : Multiset (Nat × Nat) := os.filterMap receivedOf

def replies (os : List Event) : Multiset (Nat × Nat) := os.filterMap repliedOf

def givenUp (os : List Event) : Multiset (Nat × Nat) := os.filterMap abandonedOf

/-- The request that a command answers. -/
def SessionCommand.owed (c : SessionCommand) : Multiset (Nat × Nat) :=
  match c.query? with
  | some q => {(q.client, q.id)}
  | none => c.target?.toList.map fun t => (t.client, t.id)

/-- The requests that wait in the queues of session threads. -/
def Daemon.pending (s : Daemon) : Multiset (Nat × Nat) :=
  (s.threads.map fun t => (t.queue.map SessionCommand.owed).sum).sum

@[simp] theorem requests_nil : requests [] = 0 := rfl

@[simp] theorem replies_nil : replies [] = 0 := rfl

@[simp] theorem givenUp_nil : givenUp [] = 0 := rfl

@[simp] theorem requests_cons (e : Event) (os : List Event) :
    requests (e :: os) = (receivedOf e).toList + requests os := by
  rw [requests, List.filterMap_cons]
  cases receivedOf e <;> rfl

@[simp] theorem replies_cons (e : Event) (os : List Event) :
    replies (e :: os) = (repliedOf e).toList + replies os := by
  rw [replies, List.filterMap_cons]
  cases repliedOf e <;> rfl

@[simp] theorem givenUp_cons (e : Event) (os : List Event) :
    givenUp (e :: os) = (abandonedOf e).toList + givenUp os := by
  rw [givenUp, List.filterMap_cons]
  cases abandonedOf e <;> rfl

@[simp] theorem requests_append (xs ys : List Event) :
    requests (xs ++ ys) = requests xs + requests ys := by
  simp [requests]

@[simp] theorem replies_append (xs ys : List Event) :
    replies (xs ++ ys) = replies xs + replies ys := by
  simp [replies]

@[simp] theorem givenUp_append (xs ys : List Event) :
    givenUp (xs ++ ys) = givenUp xs + givenUp ys := by
  simp [givenUp]

theorem givenUp_append_eq_zero {xs ys : List Event} :
    givenUp (xs ++ ys) = 0 ↔ givenUp xs = 0 ∧ givenUp ys = 0 := by
  simp only [givenUp, List.filterMap_append, Multiset.coe_eq_zero, List.append_eq_nil_iff]

/-- An effect that takes over `owed` accounts for it and for what was pending. -/
structure Settles (owed : Multiset (Nat × Nat)) (s : Daemon) (r : Daemon × List Event) :
    Prop where
  none : requests r.2 = 0
  balance : owed + s.pending = replies r.2 + givenUp r.2 + r.1.pending

namespace Daemon

theorem settles_nil (s : Daemon) : Settles 0 s (s, []) := ⟨rfl, by simp⟩

theorem settles_andThen {α : Type} {f : Daemon → α → Daemon × List Event}
    {owed : α → Multiset (Nat × Nat)} (h : ∀ s a, Settles (owed a) s (f s a)) (s : Daemon)
    (as : List α) : Settles (as.map owed).sum s (andThen f s as) := by
  induction as generalizing s with
  | nil => exact settles_nil s
  | cons a rest ih =>
    obtain ⟨hNone, hBalance⟩ := h s a
    obtain ⟨hRestNone, hRest⟩ := ih (f s a).1
    constructor
    · simp [andThen, hNone, hRestNone]
    · simp only [andThen, List.map_cons, List.sum_cons, replies_append, givenUp_append]
      calc owed a + (rest.map owed).sum + s.pending
          = (rest.map owed).sum + (owed a + s.pending) := by abel
        _ = (rest.map owed).sum + (f s a).1.pending + (replies (f s a).2 + givenUp (f s a).2) := by
            rw [hBalance]
            abel
        _ = _ := by
            rw [hRest]
            abel

/-! ## Threads -/

theorem pending_modifyThread (f : Thread → Thread) (h : s.threads[thread]? = some t) :
    (s.modifyThread thread f).pending + (t.queue.map SessionCommand.owed).sum =
      s.pending + ((f t).queue.map SessionCommand.owed).sum :=
  sum_map_modify s.threads (fun t => (t.queue.map SessionCommand.owed).sum) f h

@[simp] theorem pending_setConn (s : Daemon) (client : Nat) (conn : Conn) :
    (s.setConn client conn).pending = s.pending := rfl

@[simp] theorem pending_unblock (s : Daemon) (client : Nat) :
    (s.unblock client).pending = s.pending := rfl

def queues (s : Daemon) : List (List SessionCommand) := s.threads.map Thread.queue

theorem pending_eq_queues (s : Daemon) :
    s.pending = (s.queues.map fun queue => (queue.map SessionCommand.owed).sum).sum := by
  rw [pending, queues, List.map_map]
  rfl

theorem queues_modifyThread (s : Daemon) (thread : ThreadId) (h : ∀ t, (f t).queue = t.queue) :
    (s.modifyThread thread f).queues = s.queues := by
  apply List.ext_getElem?
  intro i
  simp only [queues, modifyThread, List.getElem?_map, List.getElem?_modify]
  by_cases hSame : thread = i
  · cases s.threads[i]? <;> simp [hSame, h]
  · simp [hSame]

theorem pending_modifyThread_of_queue (h : ∀ t, (f t).queue = t.queue) :
    (s.modifyThread thread f).pending = s.pending := by
  rw [pending_eq_queues, pending_eq_queues, queues_modifyThread s thread h]

theorem settles_dropCommand (s : Daemon) (c : SessionCommand) :
    Settles c.owed s (s.dropCommand c) := by
  rw [dropCommand, SessionCommand.owed]
  cases c.query? with
  | some q => exact ⟨rfl, by simp⟩
  | none => cases c.target? <;> exact ⟨rfl, by simp [reply]⟩

theorem settles_sendCommand (s : Daemon) (m : ThreadId × SessionCommand) :
    Settles m.2.owed s (s.sendCommand m) := by
  rw [sendCommand]
  split
  · rename_i hAlive
    obtain ⟨t, hThread, -⟩ := (Option.any_eq_true _ _).mp hAlive
    have hModify := pending_modifyThread (fun t => { t with queue := t.queue ++ [m.2] }) hThread
    refine ⟨rfl, ?_⟩
    simp only [List.map_append, List.sum_append, List.map_cons, List.map_nil, List.sum_cons,
      List.sum_nil, add_zero] at hModify
    have hPending := add_right_cancel (hModify.trans (by abel : _ = m.2.owed + s.pending +
      (t.queue.map SessionCommand.owed).sum))
    simp [hPending]
  · exact settles_dropCommand s m.2

/-! ## Session handlers -/

/-- A handler that answers its requester once. -/
def RepliesOnce (outputs : List Output) : Prop := ∃ r, outputs.filterMap replyOf = [r]

theorem replyOf_contextWindowEvent (window : Option Nat) :
    (contextWindowEvent window).filterMap replyOf = [] := by
  cases window <;> rfl

theorem RepliesOnce.append {xs ys : List Output} (hx : xs.filterMap replyOf = [])
    (hy : RepliesOnce ys) : RepliesOnce (xs ++ ys) := by
  obtain ⟨r, hr⟩ := hy
  exact ⟨r, by rw [List.filterMap_append, hx, hr, List.nil_append]⟩

theorem repliesOnce_persistAnd (env : Env) (now : Int) (s : SessionState) (db : Db)
    {before : List Output} (h : before.filterMap replyOf = []) (r : Session.Reply) :
    RepliesOnce (persistAnd env now s db before [.reply r]).outputs := by
  apply RepliesOnce.append
  · rw [List.filterMap_append, h]
    rfl
  · exact ⟨r, rfl⟩

theorem repliesOnce_handleRunInput (env : Env) (shutdownRequested : Bool) (s : SessionState)
    (db : Db) (text : String) (account : Option ResolvedAccount) :
    RepliesOnce (handleRunInput env shutdownRequested s db text account).1.outputs := by
  rw [handleRunInput]
  dsimp only
  split
  · exact ⟨_, rfl⟩
  · split
    · exact ⟨_, rfl⟩
    · have hWindow := replyOf_contextWindowEvent
      split
      · exact RepliesOnce.append (hWindow _) ⟨_, rfl⟩
      · split
        · exact RepliesOnce.append (hWindow _) ⟨_, rfl⟩
        · split
          · exact RepliesOnce.append (hWindow _) ⟨_, rfl⟩
          · exact RepliesOnce.append (hWindow _) ⟨_, rfl⟩

theorem repliesOnce_handleUndo (env : Env) (s : SessionState) (db : Db) :
    RepliesOnce (handleUndo env s db).outputs := by
  rw [handleUndo]
  split
  · exact ⟨_, rfl⟩
  · split <;> exact ⟨_, rfl⟩

theorem repliesOnce_handleRedo (env : Env) (s : SessionState) (db : Db) :
    RepliesOnce (handleRedo env s db).outputs := by
  rw [handleRedo]
  split
  · exact ⟨_, rfl⟩
  · split <;> exact ⟨_, rfl⟩

theorem repliesOnce_handleSetModel (env : Env) (now : Int) (s : SessionState) (db : Db)
    (model : String) (validation : Option String) :
    RepliesOnce (handleSetModel env now s db model validation).outputs := by
  cases validation with
  | some error => exact ⟨_, rfl⟩
  | none =>
    apply repliesOnce_persistAnd
    simp only [selectModel, List.filterMap_append, replyOf_contextWindowEvent]
    split <;> rfl

theorem repliesOnce_handleSetAccount (env : Env) (now : Int) (s : SessionState) (db : Db)
    (name : String) (account : Option ResolvedAccount) :
    RepliesOnce (handleSetAccount env now s db name account).outputs := by
  have hBound : (bindAccount env s name account).2.filterMap replyOf = [] := by
    rw [bindAccount]
    dsimp only
    split
    · split
      · rfl
      · exact replyOf_contextWindowEvent _
    · rfl
  apply repliesOnce_persistAnd
  rw [List.filterMap_append, hBound]
  rfl

theorem repliesOnce_handleSetReasoningEffort (env : Env) (s : SessionState) (db : Db)
    (effort : String) : RepliesOnce (handleSetReasoningEffort env s db effort).outputs := by
  rw [handleSetReasoningEffort]
  split
  · exact ⟨_, rfl⟩
  · split <;> exact ⟨_, rfl⟩

/-- The session answers every command that a client waits for, once. -/
theorem repliesOnce_command (t : Thread) (env : CommandEnv) {target : ReplyTarget}
    (hTarget : c.target? = some target) :
    ∃ command, sessionCommand env c = some command ∧
      RepliesOnce (t.system.command t.env env.now command).2 := by
  cases c with
  | runInput input reply =>
    refine ⟨_, rfl, ?_⟩
    rw [System.command]
    dsimp only
    exact repliesOnce_handleRunInput t.env t.system.shutdownRequested t.system.main
      t.system.db input env.account
  | setModel model reply => exact ⟨_, rfl, repliesOnce_handleSetModel ..⟩
  | setAccount name reply => exact ⟨_, rfl, repliesOnce_handleSetAccount ..⟩
  | setReasoningEffort effort reply => exact ⟨_, rfl, repliesOnce_handleSetReasoningEffort ..⟩
  | undo reply => exact ⟨_, rfl, repliesOnce_handleUndo ..⟩
  | redo reply => exact ⟨_, rfl, repliesOnce_handleRedo ..⟩
  | getReasoningEffort reply | getState reply | attach client | detach client => cases hTarget

/-! ## Taking a command, and leaving -/

theorem queryMessage_query (t : Thread) (c : SessionCommand) :
    (queryMessage t c).map Prod.fst = c.query? := by
  cases c <;> rfl

theorem settles_processCommand (s : Daemon) (thread : ThreadId) (t : Thread) (env : CommandEnv)
    (c : SessionCommand) :
    Settles c.owed s (s.processCommand thread t env c) ∧
      givenUp (s.processCommand thread t env c).2 = 0 := by
  have hQuery := queryMessage_query t c
  rw [processCommand, SessionCommand.owed]
  cases hMessage : queryMessage t c with
  | some answer =>
    obtain ⟨q, inner⟩ := answer
    rw [hMessage] at hQuery
    rw [← hQuery]
    exact ⟨⟨rfl, by simp⟩, rfl⟩
  | none =>
    rw [hMessage] at hQuery
    rw [← hQuery]
    cases hTarget : c.target? with
    | none =>
      dsimp only [Option.map_none, Option.toList_none, List.map_nil]
      split
      · exact ⟨settles_nil s, rfl⟩
      · exact ⟨⟨rfl, by simp [targetEvents, pending_modifyThread_of_queue]⟩, rfl⟩
    | some target =>
      obtain ⟨command, hCommand, r, hReply⟩ := repliesOnce_command t env hTarget
      simp only [hCommand, targetEvents, hReply]
      exact ⟨⟨rfl, by simp [reply, pending_modifyThread_of_queue]⟩, rfl⟩

theorem pending_take {rest : List SessionCommand} (hThread : s.threads[thread]? = some t)
    (hQueue : t.queue = c :: rest) :
    s.pending = c.owed + (s.modifyThread thread fun t => { t with queue := rest }).pending := by
  have hModify := pending_modifyThread (fun t => { t with queue := rest }) hThread
  rw [hQueue, List.map_cons, List.sum_cons, ← add_assoc] at hModify
  rw [← add_right_cancel hModify, add_comm]

theorem pending_exit (hThread : s.threads[thread]? = some t) :
    s.pending = (t.queue.map SessionCommand.owed).sum +
      (s.modifyThread thread fun t => { t with queue := [], alive := false }).pending := by
  have hModify := pending_modifyThread (fun t => { t with queue := [], alive := false }) hThread
  rw [List.map_nil, List.sum_nil, add_zero] at hModify
  rw [← hModify, add_comm]

end Daemon

/-! ## Dispatch -/

/-- The session thread that a request makes its connection thread wait for. -/
def waitsFor (ctx : ClientCtx) : ClientMessageType → Option ThreadId
  | .getReasoningEffort => ctx.attachedSessionTx
  | .getSessionState _ => ctx.daemon.bind fun d => d.ensureActiveSession.toOption
  | _ => none

def isQuery (m : ThreadId × SessionCommand) : Bool := m.2.query?.isSome

/-- While the command loop runs, a handler answers its request or hands the
obligation on, and does not do both. It sends a query to the thread it waits for
and to no other. -/
structure Accounts (ctx : ClientCtx) (awaited : Option ThreadId) (o : Outcome) : Prop where
  kept : o.abandoned = false
  stays : o.closes = false
  once : Multiset.replicate o.replies.length (ctx.clientId, ctx.requestId) +
    (o.sends.map fun m => m.2.owed).sum = {(ctx.clientId, ctx.requestId)}
  queries : (o.sends.filter isQuery).map Prod.fst = awaited.toList

section Dispatch

variable {ctx : ClientCtx} {d : DaemonAnswers}

theorem accounts_send (inner : DaemonMessageType) : Accounts ctx none (ctx.send inner) :=
  ⟨rfl, rfl, by simp [ClientCtx.send], rfl⟩

theorem accounts_replyFromDaemon {T E : Type} (hDaemon : ctx.daemon = some d)
    (answer : DaemonAnswers → Except E T) (onOk : T → DaemonMessageType)
    (onErr : E → DaemonMessageType) :
    Accounts ctx none (replyFromDaemon ctx answer onOk onErr) := by
  rw [replyFromDaemon, requestDaemon, hDaemon, Option.map_some]
  cases answer d <;> exact accounts_send _

theorem accounts_replyWithValue {T : Type} (hDaemon : ctx.daemon = some d)
    (answer : DaemonAnswers → T) (message : T → DaemonMessageType) :
    Accounts ctx none (replyWithValue ctx answer message) := by
  rw [replyWithValue, requestDaemon, hDaemon, Option.map_some]
  exact accounts_send _

theorem accounts_replyThroughTarget {T : Type} (hDaemon : ctx.daemon = some d)
    (kind : MessageKind) (answer : DaemonAnswers → T) (message : T → DaemonMessageType) :
    Accounts ctx none (replyThroughTarget ctx kind answer message) := by
  rw [replyThroughTarget, requestDaemon, hDaemon, Option.map_some]
  exact accounts_send _

theorem accounts_target {tx : ThreadId} {kind : MessageKind} (hQuery : c.query? = none)
    (hTarget : c.target? = some (ctx.replyTarget kind)) :
    Accounts ctx none { sends := [(tx, c)] } :=
  ⟨rfl, rfl, by simp [SessionCommand.owed, hQuery, hTarget, ClientCtx.replyTarget],
    by simp [isQuery, hQuery]⟩

theorem accounts_forwardToSession (kind : MessageKind)
    {command : Option ReplyTarget → SessionCommand} (hQuery : ∀ t, (command t).query? = none)
    (hTarget : ∀ t, (command t).target? = t) :
    Accounts ctx none (forwardToSession ctx kind command) := by
  rw [forwardToSession]
  split
  · exact accounts_target (hQuery _) (hTarget _)
  · exact accounts_send _

theorem accounts_query {tx : ThreadId} {sessionId : Option Nat}
    (hQuery : c.query? = some ⟨ctx.clientId, ctx.requestId, sessionId⟩) :
    Accounts ctx (some tx) { sends := [(tx, c)], blocked := true } :=
  ⟨rfl, rfl, by simp [SessionCommand.owed, hQuery], by simp [isQuery, hQuery]⟩

/-- Switching sends nothing that anybody waits for. -/
theorem switchAttachedSession_sends (ctx : ClientCtx) (sessionId : Nat) (tx : ThreadId)
    (o : Outcome) :
    ∃ more, (switchAttachedSession ctx sessionId tx o).sends = o.sends ++ more ∧
      ∀ m ∈ more, m.2.query? = none ∧ m.2.target? = none := by
  rw [switchAttachedSession]
  dsimp only
  rw [List.append_assoc]
  refine ⟨_, rfl, ?_⟩
  intro m hm
  rcases List.mem_append.mp hm with hm | hm
  · split at hm
    · split at hm
      · rw [List.mem_singleton.mp hm]
        exact ⟨rfl, rfl⟩
      · cases hm
    · cases hm
  · rw [List.mem_singleton.mp hm]
    exact ⟨rfl, rfl⟩

theorem accounts_switchAttachedSession {awaited : Option ThreadId} (sessionId : Nat)
    (tx : ThreadId) {o : Outcome} (h : Accounts ctx awaited o) :
    Accounts ctx awaited (switchAttachedSession ctx sessionId tx o) := by
  obtain ⟨more, hSends, hMore⟩ := switchAttachedSession_sends ctx sessionId tx o
  refine ⟨h.kept, h.stays, ?_, ?_⟩
  · have hSilent : (more.map fun m => m.2.owed).sum = 0 := by
      apply List.sum_eq_zero
      intro x hx
      obtain ⟨m, hm, rfl⟩ := List.mem_map.mp hx
      simp [SessionCommand.owed, hMore m hm]
    have hReplies : (switchAttachedSession ctx sessionId tx o).replies = o.replies := rfl
    rw [hSends, hReplies, List.map_append, List.sum_append, hSilent, add_zero, h.once]
  · have hSilent : more.filter isQuery = [] := by
      rw [List.filter_eq_nil_iff]
      intro m hm
      simp [isQuery, hMore m hm]
    rw [hSends, List.filter_append, hSilent, List.append_nil, h.queries]

theorem accounts_dispatchClientMessage (hDaemon : ctx.daemon = some d)
    (msg : ClientMessageType) :
    Accounts ctx (waitsFor ctx msg) (dispatchClientMessage ctx msg) := by
  cases msg with
  | createSession params contextConfig =>
    simp only [dispatchClientMessage, handleClientCreateSession, requestDaemon, hDaemon,
      Option.map_some]
    cases d.createSession <;> exact accounts_send _
  | attachSession sessionId =>
    simp only [dispatchClientMessage, handleClientAttachSession, requestDaemon, hDaemon,
      Option.map_some]
    cases d.attachSession with
    | error e => exact accounts_send _
    | ok tx => exact accounts_switchAttachedSession sessionId tx (accounts_send _)
  | setSessionAccount name =>
    simp only [dispatchClientMessage, handleClientSetSessionAccount, requestDaemon, hDaemon,
      Option.map_some]
    split
    · exact accounts_send _
    · split
      · exact accounts_target rfl rfl
      · exact accounts_send _
  | getReasoningEffort =>
    simp only [dispatchClientMessage, handleGetReasoningEffort, waitsFor]
    cases ctx.attachedSessionTx with
    | none => exact accounts_send _
    | some tx => exact accounts_query rfl
  | getSessionState sessionId =>
    simp only [dispatchClientMessage, handleGetSessionStateSync, requestDaemon, hDaemon,
      Option.map_some, waitsFor, Option.bind_some]
    cases d.ensureActiveSession with
    | error e => exact accounts_send _
    | ok tx => exact accounts_query rfl
  | mcpReconnect slug =>
    simp only [dispatchClientMessage, handleMcpReconnectSync, requestDaemon, hDaemon,
      Option.map_some]
    cases d.mcpReconnect with
    | error e => exact accounts_send _
    | ok value => exact accounts_replyWithValue hDaemon _ _
  | mcpTrust | mcpUntrust =>
    simp only [dispatchClientMessage, handleMcpTrustSync]
    split
    · exact accounts_send _
    · exact accounts_replyWithValue hDaemon _ _
  | aclAdd pubkey =>
    simp only [dispatchClientMessage, handleAclAddSync]
    split
    · exact accounts_send _
    · exact accounts_replyFromDaemon hDaemon _ _ _
  | runInput input | setModel model | setReasoningEffort effort | undo | redo
  | continueGeneration => exact accounts_forwardToSession _ (fun _ => rfl) fun _ => rfl
  | unlock key | bindKeystore key | addCredential service credential =>
    exact accounts_replyThroughTarget hDaemon _ _ _
  | listSessions | mcpStatusRequest | mcpTrustList | getCredential service =>
    exact accounts_replyWithValue hDaemon _ _
  | lock | removeCredential service | listModels | refreshModels force | mcpReload
  | deleteSession sessionId | setSessionPinned sessionId pinned
  | setSessionArchived sessionId archived | addAccount name provider overrides
  | removeAccount name | listAccounts => exact accounts_replyFromDaemon hDaemon _ _ _
  | subscribeSessionsSummary | unsubscribeSessionsSummary | cancel streamId | ping
  | getImage sessionId turnId key | listOAuthProviders | subscribeAllActivity
  | unsubscribeAllActivity | unknown kind => exact accounts_send _

end Dispatch

/-! ## One step -/

namespace Daemon

/-- What commands sent and dropped leave alone: which connections are up, which
threads are there, and the command loop. -/
structure Frame (s s' : Daemon) : Prop where
  loop : s'.commandLoop = s.commandLoop
  shutting : s'.shuttingDown = s.shuttingDown
  up : ∀ c, (s'.conns c).up = (s.conns c).up
  alive : ∀ thread, s'.isAlive thread = s.isAlive thread

theorem Frame.refl (s : Daemon) : Frame s s := ⟨rfl, rfl, fun _ => rfl, fun _ => rfl⟩

theorem Frame.trans {s₁ s₂ s₃ : Daemon} (h : Frame s₁ s₂) (h' : Frame s₂ s₃) : Frame s₁ s₃ :=
  ⟨h'.loop.trans h.loop, h'.shutting.trans h.shutting, fun c => (h'.up c).trans (h.up c),
    fun thread => (h'.alive thread).trans (h.alive thread)⟩

theorem frame_modifyThread (s : Daemon) (thread : ThreadId) (h : ∀ t, (f t).alive = t.alive) :
    Frame s (s.modifyThread thread f) := by
  refine ⟨rfl, rfl, fun _ => rfl, ?_⟩
  intro other
  simp only [isAlive, modifyThread, List.getElem?_modify]
  by_cases hSame : thread = other
  · cases s.threads[other]? <;> simp [hSame, h]
  · simp [hSame]

theorem frame_unblock (s : Daemon) (client : Nat) : Frame s (s.unblock client) := by
  refine ⟨rfl, rfl, ?_, fun _ => rfl⟩
  intro c
  by_cases hSame : c = client
  · subst hSame
    simp [unblock, setConn]
  · simp [unblock, setConn, hSame]

theorem frame_dropCommand (s : Daemon) (c : SessionCommand) : Frame s (s.dropCommand c).1 := by
  rw [dropCommand]
  split
  · exact frame_unblock s _
  · exact Frame.refl s

theorem frame_sendCommand (s : Daemon) (m : ThreadId × SessionCommand) :
    Frame s (s.sendCommand m).1 := by
  rw [sendCommand]
  split
  · exact frame_modifyThread s _ fun _ => rfl
  · exact frame_dropCommand s _

theorem frame_andThen {α : Type} {f : Daemon → α → Daemon × List Event}
    (h : ∀ s a, Frame s (f s a).1) (s : Daemon) (as : List α) : Frame s (andThen f s as).1 := by
  induction as generalizing s with
  | nil => exact Frame.refl s
  | cons a rest ih => exact (h s a).trans (ih _)

theorem givenUp_sendCommand (s : Daemon) (m : ThreadId × SessionCommand) :
    givenUp (s.sendCommand m).2 = 0 ↔ (isQuery m = true → s.isAlive m.1 = true) := by
  rw [sendCommand, isQuery]
  split
  · rename_i hAlive
    simp [hAlive]
  · rename_i hGone
    rw [dropCommand]
    cases m.2.query? with
    | some q => simp [hGone]
    | none => cases m.2.target? <;> simp [reply]

theorem givenUp_sendCommands (s : Daemon) (ms : List (ThreadId × SessionCommand)) :
    givenUp (andThen sendCommand s ms).2 = 0 ↔
      ∀ thread ∈ (ms.filter isQuery).map Prod.fst, s.isAlive thread = true := by
  induction ms generalizing s with
  | nil => simp [andThen]
  | cons m rest ih =>
    simp only [andThen, givenUp_append_eq_zero, givenUp_sendCommand, ih,
      (frame_sendCommand s m).alive]
    cases hQuery : isQuery m <;> simp [hQuery]

theorem givenUp_dropCommands (s : Daemon) (cs : List SessionCommand) :
    givenUp (andThen dropCommand s cs).2 = 0 ↔ cs.all (fun c => c.query?.isNone) = true := by
  induction cs generalizing s with
  | nil => simp [andThen]
  | cons c rest ih =>
    have hFirst : givenUp (s.dropCommand c).2 = 0 ↔ c.query?.isNone = true := by
      rw [dropCommand]
      cases c.query? with
      | some q => simp
      | none => cases c.target? <;> simp [reply]
    simp only [andThen, givenUp_append_eq_zero, ih, hFirst, List.all_cons, Bool.and_eq_true]

/-- The session threads that connection threads wait for are there: the one a
request asks, when it is sent, and the one that leaves, with the commands left in
its queue. -/
def queriesKept (s : Daemon) : Action → Bool
  | .request client id msg env =>
      (waitsFor (s.clientCtx client id env) msg).all s.isAlive
  | .threadExit thread =>
      (s.threads[thread]?).all fun t => t.queue.all fun c => c.query?.isNone
  | _ => true

/-- Commands wait only for threads that are there. -/
def Live (s : Daemon) : Prop :=
  ∀ (thread : ThreadId) (t : Thread), s.threads[thread]? = some t → t.queue ≠ [] → t.alive = true

theorem Live.modifyThread (h : Live s)
    (hf : ∀ t, s.threads[thread]? = some t → (f t).queue ≠ [] → (f t).alive = true) :
    Live (s.modifyThread thread f) := by
  intro other t hThread
  rw [Daemon.modifyThread, List.getElem?_modify] at hThread
  by_cases hSame : thread = other
  · subst hSame
    simp only [if_true] at hThread
    obtain ⟨t', hThread', rfl⟩ := Option.map_eq_some_iff.mp hThread
    exact hf t' hThread'
  · simp only [hSame, if_false, Option.map_eq_map, Option.map_id'] at hThread
    exact h other t hThread

theorem Live.dropCommand (h : Live s) (c : SessionCommand) : Live (s.dropCommand c).1 := by
  rw [Daemon.dropCommand]
  split <;> exact h

theorem Live.sendCommand (h : Live s) (m : ThreadId × SessionCommand) :
    Live (s.sendCommand m).1 := by
  rw [Daemon.sendCommand]
  split
  · rename_i hAlive
    apply h.modifyThread
    intro t hThread _
    simpa [isAlive, hThread] using hAlive
  · exact h.dropCommand m.2

theorem Live.andThen {α : Type} {f : Daemon → α → Daemon × List Event}
    (hf : ∀ {s : Daemon}, Live s → ∀ a, Live (f s a).1) (h : Live s) (as : List α) :
    Live (andThen f s as).1 := by
  induction as generalizing s with
  | nil => exact h
  | cons a rest ih => exact ih (hf h a)

/-- The command loop is there as long as a connection is up. -/
structure Inv (s : Daemon) : Prop where
  loop : ∀ c, (s.conns c).up = true → s.commandLoop = true ∧ s.shuttingDown = false
  live : Live s

theorem Inv.of_frame {s' : Daemon} (h : Inv s) (hFrame : Frame s s') (hLive : Live s') :
    Inv s' := by
  refine ⟨?_, hLive⟩
  intro c hUp
  rw [hFrame.loop, hFrame.shutting]
  exact h.loop c (hFrame.up c ▸ hUp)

theorem inv_init (isUnix : Nat → Bool) : Inv (init isUnix) :=
  ⟨fun _ _ => ⟨rfl, rfl⟩, fun thread t hThread => by simp [init] at hThread⟩

theorem Inv.setConn (h : Inv s) {client : Nat} {conn : Conn}
    (hUp : conn.up = true → (s.conns client).up = true) : Inv (s.setConn client conn) := by
  refine ⟨?_, h.live⟩
  intro c hConn
  by_cases hSame : c = client
  · subst hSame
    exact h.loop c (hUp (by simpa [Daemon.setConn] using hConn))
  · exact h.loop c (by simpa [Daemon.setConn, hSame] using hConn)

theorem Inv.sendCommands (h : Inv s) (ms : List (ThreadId × SessionCommand)) :
    Inv (Daemon.andThen Daemon.sendCommand s ms).1 :=
  h.of_frame (frame_andThen frame_sendCommand s ms)
    (Live.andThen (fun hLive m => hLive.sendCommand m) h.live ms)

theorem inv_processCommand (h : Inv s) (thread : ThreadId) (t : Thread) (env : CommandEnv)
    (c : SessionCommand) : Inv (s.processCommand thread t env c).1 := by
  rw [processCommand]
  split
  · exact h.of_frame (frame_unblock s _) h.live
  · split
    · exact h
    · exact h.of_frame (frame_modifyThread s thread fun _ => rfl)
        (h.live.modifyThread fun t => h.live thread t)

/-- What one step does to the books. -/
structure Kept (s : Daemon) (a : Action) (r : Daemon × List Event) : Prop where
  inv : Inv r.1
  balance : requests r.2 + s.pending = replies r.2 + givenUp r.2 + r.1.pending
  kept : givenUp r.2 = 0 ↔ queriesKept s a = true

theorem kept_request {client id : Nat} {msg : ClientMessageType} {env : RequestEnv} (hInv : Inv s)
    (h : s.handleRequest client id msg env = some r) : Kept s (.request client id msg env) r := by
  rw [handleRequest] at h
  split at h
  · cases h
  · rename_i hFree
    have hUp : (s.conns client).up = true := by
      simp only [Bool.or_eq_true, Bool.not_eq_true', not_or] at hFree
      simpa using hFree.1
    have hDaemon : (s.clientCtx client id env).daemon = some env.daemon := by
      simp [clientCtx, (hInv.loop client hUp).1]
    obtain ⟨hKept, hStays, hOnce, hQueries⟩ := accounts_dispatchClientMessage hDaemon msg
    cases h
    generalize hOutcome : dispatchClientMessage (s.clientCtx client id env) msg = o at *
    have hSends := settles_andThen settles_sendCommand
      (s.setConn client ((s.conns client).after o)) o.sends
    have hReplies : ∀ inners : List DaemonMessageType,
        requests (inners.map fun inner => .message client ⟨some id, inner⟩) = 0 ∧
          replies (inners.map fun inner => .message client ⟨some id, inner⟩) =
            Multiset.replicate inners.length (client, id) ∧
          givenUp (inners.map fun inner => .message client ⟨some id, inner⟩) = 0 := by
      intro inners
      induction inners with
      | nil => simp
      | cons inner rest ih => simp [ih, Multiset.replicate_succ]
    obtain ⟨hNoRequest, hReply, hNoGivenUp⟩ := hReplies o.replies
    refine ⟨?_, ?_, ?_⟩
    · exact (hInv.setConn fun _ => hUp).sendCommands o.sends
    · have hOwed : Multiset.replicate o.replies.length (client, id) +
          (o.sends.map fun m => m.2.owed).sum = {(client, id)} := hOnce
      have hBalance := hSends.balance
      rw [pending_setConn] at hBalance
      simp only [hKept, Bool.false_eq_true, if_false, List.append_nil, List.cons_append,
        requests_cons, requests_append, replies_cons, replies_append, givenUp_cons,
        givenUp_append, hNoRequest, hReply, hNoGivenUp, hSends.none, receivedOf, repliedOf,
        abandonedOf, Option.toList_some, Option.toList_none, Multiset.coe_nil, zero_add, add_zero,
        Multiset.coe_singleton]
      rw [← hOwed, add_assoc, hBalance]
      abel
    · simp only [hKept, Bool.false_eq_true, if_false, List.append_nil, List.cons_append,
        givenUp_cons, givenUp_append, hNoGivenUp, abandonedOf, Option.toList_none,
        Multiset.coe_nil, zero_add, givenUp_sendCommands, hQueries, queriesKept]
      cases waitsFor (s.clientCtx client id env) msg with
      | none => simp
      | some thread => simp [Daemon.setConn, isAlive]

theorem kept_process {env : CommandEnv} (hInv : Inv s) (h : s.process thread env = some r) :
    Kept s (.process thread env) r := by
  rw [process] at h
  split at h
  · cases h
  · rename_i t hThread
    split at h
    · cases h
    · rename_i c rest hQueue
      cases h
      have hTaken : Inv (s.modifyThread thread fun t => { t with queue := rest }) := by
        refine hInv.of_frame (frame_modifyThread s thread fun _ => rfl) ?_
        apply hInv.live.modifyThread
        intro t' hThread' _
        rw [hThread] at hThread'
        cases hThread'
        exact hInv.live thread t hThread (by simp [hQueue])
      obtain ⟨hSettles, hKept⟩ := settles_processCommand
        (s.modifyThread thread fun t => { t with queue := rest }) thread t env c
      refine ⟨inv_processCommand hTaken thread t env c, ?_, by simp [hKept, queriesKept]⟩
      rw [hSettles.none, zero_add, pending_take hThread hQueue, hSettles.balance]

theorem kept_threadExit (hInv : Inv s) (h : s.threadExit thread = some r) :
    Kept s (.threadExit thread) r := by
  rw [threadExit] at h
  split at h
  · cases h
  · rename_i t hThread
    cases h
    have hSettles := settles_andThen settles_dropCommand
      (s.modifyThread thread fun t => { t with queue := [], alive := false }) t.queue
    have hLive : Live (s.modifyThread thread fun t => { t with queue := [], alive := false }) :=
      hInv.live.modifyThread fun _ _ hQueue => absurd rfl hQueue
    have hLeft : Inv (s.modifyThread thread fun t => { t with queue := [], alive := false }) :=
      ⟨hInv.loop, hLive⟩
    refine ⟨?_, ?_, ?_⟩
    · exact hLeft.of_frame (frame_andThen frame_dropCommand _ _)
        (Live.andThen (fun hLive c => hLive.dropCommand c) hLive _)
    · rw [hSettles.none, zero_add, pending_exit hThread, hSettles.balance]
    · rw [givenUp_dropCommands]
      simp [queriesKept, hThread]

theorem kept_disconnect (hInv : Inv s) (client : Nat) :
    Kept s (.disconnect client)
      (andThen sendCommand (s.setConn client { s.conns client with up := false })
        ((s.conns client).attachedSessionTx.toList.map fun tx => (tx, .detach client))) := by
  have hSettles := settles_andThen settles_sendCommand
    (s.setConn client { s.conns client with up := false })
    ((s.conns client).attachedSessionTx.toList.map fun tx => (tx, .detach client))
  have hNone : (((s.conns client).attachedSessionTx.toList.map fun tx =>
      (tx, SessionCommand.detach client)).map fun m => m.2.owed).sum = 0 := by
    cases (s.conns client).attachedSessionTx <;> rfl
  refine ⟨?_, ?_, ?_⟩
  · exact (hInv.setConn fun hUp => by cases hUp).sendCommands _
  · rw [hSettles.none, zero_add]
    have hBalance := hSettles.balance
    rw [hNone, zero_add, pending_setConn] at hBalance
    exact hBalance
  · rw [givenUp_sendCommands]
    cases (s.conns client).attachedSessionTx <;> simp [queriesKept, isQuery, SessionCommand.query?]

theorem kept_silent {s' : Daemon} {a : Action} (hInv : Inv s') (hPending : s'.pending = s.pending)
    (hKept : queriesKept s a = true) : Kept s a (s', []) :=
  ⟨hInv, by simp [hPending], by simp [hKept]⟩

/-- Every step keeps the books. -/
theorem kept_step {a : Action} (hInv : Inv s) (h : s.step a = some r) : Kept s a r := by
  cases a with
  | request client id msg env => exact kept_request hInv h
  | process thread env => exact kept_process hInv h
  | threadExit thread => exact kept_threadExit hInv h
  | session thread a =>
    simp only [step, sessionStep] at h
    split at h
    · cases h
    · cases h
    · split at h
      · cases h
      · cases h
        refine kept_silent ?_ (pending_modifyThread_of_queue fun _ => rfl) rfl
        exact hInv.of_frame (frame_modifyThread s thread fun _ => rfl)
          (hInv.live.modifyThread fun t => hInv.live thread t)
  | spawn env system =>
    cases h
    refine kept_silent ⟨hInv.loop, ?_⟩ (by simp [pending]) rfl
    intro thread t hThread hQueue
    rcases getElem?_concat_cases hThread with hOld | ⟨-, rfl⟩
    · exact hInv.live thread t hOld hQueue
    · exact absurd rfl hQueue
  | push client inner =>
    cases h
    exact ⟨hInv, by simp, by simp [queriesKept]⟩
  | disconnect client =>
    cases h
    exact kept_disconnect hInv client
  | broadcastShuttingDown =>
    cases h
    exact kept_silent ⟨fun c hUp => Bool.noConfusion hUp, hInv.live⟩ rfl rfl
  | commandLoopExit =>
    simp only [step] at h
    split at h
    · rename_i hShutting
      cases h
      refine kept_silent ⟨fun c hUp => ?_, hInv.live⟩ rfl rfl
      rw [(hInv.loop c hUp).2] at hShutting
      cases hShutting
    · cases h

/-! ## Runs -/

/-- Over a whole run every request is answered, waiting or given up, and none is
given up exactly when every step finds the threads that are waited for. -/
theorem kept_exec {s' : Daemon} {actions : List Action} {os : List Event} (hInv : Inv s)
    (h : server.exec s actions = some (s', os)) :
    Inv s' ∧ requests os + s.pending = replies os + givenUp os + s'.pending ∧
      (givenUp os = 0 ↔ server.EveryStep (fun s a _ _ => queriesKept s a = true) s actions) := by
  induction actions generalizing s os with
  | nil =>
    cases h
    exact ⟨hInv, by simp, by simp [Machine.EveryStep]⟩
  | cons a rest ih =>
    obtain ⟨s₁, os₁, os₂, hStep, hRest, rfl⟩ := Machine.exec_cons_eq_some.mp h
    have hFirst : Kept s a (s₁, os₁) := kept_step hInv hStep
    obtain ⟨hInv', hBalance, hKept⟩ := ih hFirst.inv hRest
    refine ⟨hInv', ?_, ?_⟩
    · have hNow := hFirst.balance
      dsimp only at hNow
      simp only [requests_append, replies_append, givenUp_append]
      calc requests os₁ + requests os₂ + s.pending
          = requests os₂ + (requests os₁ + s.pending) := by abel
        _ = requests os₂ + s₁.pending + (replies os₁ + givenUp os₁) := by
            rw [hNow]
            abel
        _ = _ := by
            rw [hBalance]
            abel
    · have hNext : server.step s a = some (s₁, os₁) := hStep
      rw [givenUp_append_eq_zero, hKept, Machine.EveryStep, hNext]
      exact and_congr_left fun _ => hFirst.kept

theorem everyStep_process {actions : List Action}
    (h : ∀ a ∈ actions, ∃ thread env, a = .process thread env) :
    server.EveryStep (fun s a _ _ => queriesKept s a = true) s actions := by
  induction actions generalizing s with
  | nil => trivial
  | cons a rest ih =>
    obtain ⟨⟨thread, env, rfl⟩, hRest⟩ := List.forall_mem_cons.mp h
    rw [Machine.EveryStep]
    split
    · trivial
    · exact ⟨rfl, ih hRest⟩

/-- How many commands wait. -/
def queued (s : Daemon) : Nat := (s.queues.map List.length).sum

theorem queues_processCommand (s : Daemon) (thread : ThreadId) (t : Thread) (env : CommandEnv)
    (c : SessionCommand) : (s.processCommand thread t env c).1.queues = s.queues := by
  rw [processCommand]
  split
  · rfl
  · split
    · rfl
    · exact queues_modifyThread s thread fun _ => rfl

theorem queued_process {rest : List SessionCommand} (hThread : s.threads[thread]? = some t)
    (hQueue : t.queue = c :: rest) (env : CommandEnv) :
    ∃ r, s.process thread env = some r ∧ r.1.queued + 1 = s.queued := by
  have hStep : s.process thread env =
      some ((s.modifyThread thread fun t => { t with queue := rest }).processCommand
        thread t env c) := by
    rw [process, hThread]
    simp only [hQueue]
  refine ⟨_, hStep, ?_⟩
  have hTaken := sum_map_modify s.threads (fun t => t.queue.length)
    (fun t => { t with queue := rest }) hThread
  rw [hQueue, List.length_cons] at hTaken
  rw [queued, queues_processCommand, queued, queues, queues, List.map_map, List.map_map]
  simp only [modifyThread, Function.comp_def] at hTaken ⊢
  omega

theorem pending_of_queued (h : s.queued = 0) : s.pending = 0 := by
  rw [pending_eq_queues]
  apply List.sum_eq_zero
  intro x hx
  obtain ⟨queue, hQueue, rfl⟩ := List.mem_map.mp hx
  have hEmpty : queue = [] := by
    rw [queued, List.sum_eq_zero_iff_forall_eq_nat] at h
    exact List.eq_nil_of_length_eq_zero (h _ (List.mem_map_of_mem hQueue))
  simp [hEmpty]

/-- Session threads that take their commands get through them. -/
theorem exists_drain (s : Daemon) :
    ∃ actions s' os, server.exec s actions = some (s', os) ∧
      (∀ a ∈ actions, ∃ thread env, a = .process thread env) ∧ s'.pending = 0 := by
  generalize hCount : s.queued = n
  induction n generalizing s with
  | zero => exact ⟨[], s, [], rfl, by simp, pending_of_queued hCount⟩
  | succ n ih =>
    have hBusy : ∃ (thread : ThreadId) (t : Thread), s.threads[thread]? = some t ∧ t.queue ≠ [] := by
      by_contra hIdle
      simp only [not_exists, not_and, not_not] at hIdle
      have hZero : s.queued = 0 := by
        rw [queued, queues, List.map_map]
        apply List.sum_eq_zero
        intro x hx
        obtain ⟨t, ht, rfl⟩ := List.mem_map.mp hx
        obtain ⟨i, hi⟩ := List.getElem?_of_mem ht
        simp [hIdle i t hi]
      omega
    obtain ⟨thread, t, hThread, hQueue⟩ := hBusy
    obtain ⟨c, rest, hQueue⟩ := List.exists_cons_of_ne_nil hQueue
    obtain ⟨r, hStep, hFewer⟩ := queued_process hThread hQueue ⟨0, none, none⟩
    obtain ⟨actions, s', os, hExec, hAll, hPending⟩ := ih r.1 (by omega)
    refine ⟨.process thread ⟨0, none, none⟩ :: actions, s', r.2 ++ os, ?_, ?_, hPending⟩
    · exact Machine.exec_cons_eq_some.mpr ⟨r.1, r.2, os, hStep, hExec, rfl⟩
    · exact List.forall_mem_cons.mpr ⟨⟨thread, _, rfl⟩, hAll⟩

end Daemon

/-! ## The clients' view -/

/-- Every request has one reply, with its own id, or waits for a session thread
that will give it one: there are no other replies, and once the threads have taken
their commands the replies are the requests. -/
structure AnsweredOnce (s : Daemon) (os : List Event) : Prop where
  once : requests os = replies os + s.pending
  live : s.Live
  served : ∃ actions s' os', server.exec s actions = some (s', os') ∧
    (∀ a ∈ actions, ∃ thread env, a = .process thread env) ∧
    requests (os ++ os') = replies (os ++ os')

/-- Exactly the runs in which no session thread leaves a connection thread waiting
answer every request once. -/
theorem answeredOnce_iff_queriesKept {isUnix : Nat → Bool} {actions : List Action} {s : Daemon}
    {os : List Event} (h : server.exec (Daemon.init isUnix) actions = some (s, os)) :
    AnsweredOnce s os ↔
      server.EveryStep (fun s a _ _ => s.queriesKept a = true) (Daemon.init isUnix) actions := by
  obtain ⟨hInv, hBalance, hKept⟩ := Daemon.kept_exec (Daemon.inv_init isUnix) h
  have hStart : (Daemon.init isUnix).pending = 0 := rfl
  rw [hStart, add_zero] at hBalance
  rw [← hKept]
  constructor
  · intro hAnswered
    have hSame : replies os + s.pending + givenUp os = replies os + s.pending + 0 := calc
      replies os + s.pending + givenUp os = replies os + givenUp os + s.pending := by abel
      _ = requests os := hBalance.symm
      _ = replies os + s.pending + 0 := by rw [hAnswered.once, add_zero]
    exact add_left_cancel hSame
  · intro hNone
    have hOnce : requests os = replies os + s.pending := by
      rw [hBalance, hNone, add_zero]
    refine ⟨hOnce, hInv.live, ?_⟩
    obtain ⟨more, s', os', hExec, hAll, hPending⟩ := Daemon.exists_drain s
    refine ⟨more, s', os', hExec, hAll, ?_⟩
    obtain ⟨-, hLater, hLaterKept⟩ := Daemon.kept_exec hInv hExec
    have hLaterNone : givenUp os' = 0 := by
      rw [hLaterKept]
      exact Daemon.everyStep_process hAll
    rw [hLaterNone, hPending, add_zero, add_zero] at hLater
    rw [requests_append, replies_append, hOnce, ← hLater]
    abel

/-! ## Concrete runs -/

/-- Answers of a command loop whose sessions have the given thread. -/
def sampleAnswers (thread : ThreadId) : RequestEnv where
  daemon :=
    { createSession := .ok (1, thread)
      attachSession := .ok thread
      listSessions := []
      ensureActiveSession := .ok thread
      accountExists := false
      unlock := .error .unbound
      bindKeystore := .ok ()
      lock := .ok ()
      saveCredential := .error "unlock the keystore first"
      removeCredential := .ok ()
      getCredential := none
      aclAdd := .ok 1
      listModels := .error "no accounts configured"
      refreshModels := .error "catalog maintenance thread is not running"
      mcpStatus := ⟨[], none, false, []⟩
      mcpReconnect := .ok ()
      mcpReload := .ok ⟨"", []⟩
      mcpTrustSet := ⟨none, false, "no project root for this session's working directory"⟩
      mcpTrustList := []
      deleteSession := .ok ()
      setSessionFlags := .ok ()
      addAccount := .ok ()
      removeAccount := .ok ()
      listAccounts := .ok [] }
  readAttachment := .ok none
  oauthProviderDescriptors := []

def sampleThread : Action :=
  .spawn sampleEnv (System.init sampleEnv (sampleConfig "chained") none)

/-- A client attaches, asks for the effort and undoes nothing, and the thread then
leaves with the last command still waiting. -/
def attachedRun : List Action :=
  [sampleThread,
    .request 0 1 (.attachSession 1) (sampleAnswers 0),
    .process 0 ⟨1, none, none⟩,
    .request 0 2 .getReasoningEffort (sampleAnswers 0),
    .process 0 ⟨2, none, none⟩,
    .request 0 3 .undo (sampleAnswers 0),
    .process 0 ⟨3, none, none⟩,
    .request 0 4 (.runInput "hello") (sampleAnswers 0),
    .threadExit 0,
    .request 0 5 .redo (sampleAnswers 0)]

theorem answeredOnce_iff_queriesKept_attached :
    ∃ s os, server.exec (Daemon.init fun _ => true) attachedRun = some (s, os) ∧
      requests os = ↑[(0, 1), (0, 2), (0, 3), (0, 4), (0, 5)] ∧ s.pending = 0 ∧
      AnsweredOnce s os := by
  have hCheck : server.check (Daemon.init fun _ => true) attachedRun
      (fun s os => decide (requests os = ↑[(0, 1), (0, 2), (0, 3), (0, 4), (0, 5)] ∧
        s.pending = 0)) = true := by
    decide +kernel
  obtain ⟨s, os, hExec, hTest⟩ := Machine.exists_of_check hCheck
  obtain ⟨hRequests, hPending⟩ := of_decide_eq_true hTest
  have hKept : server.EveryStep (fun s a _ _ => s.queriesKept a = true)
      (Daemon.init fun _ => true) attachedRun := by
    decide +kernel
  exact ⟨s, os, hExec, hRequests, hPending, (answeredOnce_iff_queriesKept hExec).mpr hKept⟩

/-- A client deletes the session it is attached to and asks for the effort when the
thread has left. Another one asks for the state of a session whose thread has left
and which the command loop still lists. -/
def deletedRun : List Action :=
  [sampleThread, sampleThread,
    .request 0 1 (.attachSession 1) (sampleAnswers 0),
    .process 0 ⟨1, none, none⟩,
    .request 0 2 (.deleteSession 1) (sampleAnswers 0),
    .threadExit 0,
    .request 0 3 .getReasoningEffort (sampleAnswers 0),
    .request 0 4 .ping (sampleAnswers 0),
    .threadExit 1,
    .request 1 1 (.getSessionState 2) (sampleAnswers 1),
    .request 1 2 .ping (sampleAnswers 1)]

/-- Both connections stay up and go on, and neither request is ever answered. -/
theorem not_answeredOnce_after_delete :
    ∃ s os, server.exec (Daemon.init fun _ => true) deletedRun = some (s, os) ∧
      (s.conns 0).up = true ∧ (s.conns 1).up = true ∧
      requests os = ↑[(0, 1), (0, 2), (0, 3), (0, 4), (1, 1), (1, 2)] ∧
      replies os = ↑[(0, 1), (0, 2), (0, 4), (1, 2)] ∧ s.pending = 0 ∧ ¬AnsweredOnce s os := by
  have hCheck : server.check (Daemon.init fun _ => true) deletedRun
      (fun s os => decide ((s.conns 0).up = true ∧ (s.conns 1).up = true ∧
        requests os = ↑[(0, 1), (0, 2), (0, 3), (0, 4), (1, 1), (1, 2)] ∧
        replies os = ↑[(0, 1), (0, 2), (0, 4), (1, 2)] ∧ s.pending = 0)) = true := by
    decide +kernel
  obtain ⟨s, os, hExec, hTest⟩ := Machine.exists_of_check hCheck
  obtain ⟨hUp, hUp', hRequests, hReplies, hPending⟩ := of_decide_eq_true hTest
  refine ⟨s, os, hExec, hUp, hUp', hRequests, hReplies, hPending, ?_⟩
  intro hAnswered
  have hOnce := hAnswered.once
  rw [hRequests, hReplies, hPending] at hOnce
  exact absurd hOnce (by decide)

end Choreographr.Server
