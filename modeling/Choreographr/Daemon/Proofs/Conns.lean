import Choreographr.Daemon.Proofs.Line

/-!
# What a connection thread is going to do

A connection thread sends the loop only commands of its own client, it says that the client
has left only after its connection is torn down, and it sends no copy of a broadcast.
-/

namespace Choreographr.Daemon

open Session Lib

/-- The effect concerns the thread's own client. -/
def ConnEffect.Own (client : ClientId) (up : Bool) : ConnEffect → Prop
  | .daemon command _ =>
      (∀ other, other ≠ client → command ≠ .clientDisconnected other ∧
        ∀ sid m, command.follow other sid m = m) ∧
      (command = .clientDisconnected client → up = false)
  | .reply message => message.isEvent = false
  | _ => True

def System.Own (s : System) : Prop := ∀ c, ∀ e ∈ (s.conns c).effects, e.Own c (s.conns c).up

namespace System

variable {s s' : System} {c : ClientId}

theorem Own.of_conns (h : s.Own) (hConns : s'.conns = s.conns) : s'.Own := by
  unfold Own
  rw [hConns]
  exact h

theorem conns_setConn_self (s : System) (c : ClientId) (conn : Conn) :
    (s.setConn c conn).conns c = conn := Function.update_self _ _ _

theorem conns_setConn_other (s : System) {c other : ClientId} (h : other ≠ c) (conn : Conn) :
    (s.setConn c conn).conns other = s.conns other := Function.update_of_ne h _ _

theorem Own.setConn (h : s.Own) (c : ClientId) {conn : Conn}
    (hConn : ∀ e ∈ conn.effects, e.Own c conn.up) : (s.setConn c conn).Own := by
  intro other e he
  by_cases hEq : other = c
  · subst hEq
    rw [conns_setConn_self] at he ⊢
    exact hConn e he
  · rw [conns_setConn_other s hEq] at he ⊢
    exact h other e he

/-- The commands of requests name their own client. -/
theorem own_request (client : ClientId) (attached : Option (Nat × ThreadId)) (up : Bool)
    (request : Request) : ∀ e ∈ (request.effects client attached).1, e.Own client up := by
  intro e he
  cases request with
  | subscribeSessionsSummary | subscribeAllActivity =>
    rw [List.mem_singleton.mp he]
    exact ⟨fun _ hNe => ⟨by simp, fun _ _ => if_neg fun hEq => hNe hEq.symm⟩, by simp⟩
  | runInput | edit =>
    obtain ⟨a, -, rfl⟩ := List.mem_map.mp he
    trivial
  | cancel streamId =>
    obtain ⟨a, -, rfl⟩ := List.mem_map.mp he
    exact ⟨fun _ _ => ⟨by simp, fun _ _ => rfl⟩, by simp⟩
  | _ =>
    rw [List.mem_singleton.mp he]
    exact ⟨fun _ _ => ⟨by simp, fun _ _ => rfl⟩, by simp⟩

/-! ## The loop -/

theorem own_resume (s : System) (client : ClientId) {effects : List ConnEffect}
    (h : ∀ e ∈ effects, ∃ message, e = .reply message ∧ message.isEvent = false) :
    ∀ e ∈ ((s.resume client effects).conns client).effects,
      e.Own client ((s.resume client effects).conns client).up := by
  intro e he
  have hSelf : ((s.resume client effects).conns client).effects = effects := by
    rw [resume, conns_setConn_self]
  rw [hSelf] at he
  obtain ⟨message, rfl, hMessage⟩ := h e he
  exact hMessage

theorem own_switchAttachedSession (s : System) (client : ClientId) (sid : Nat) (thread : ThreadId) :
    ∀ e ∈ ((s.switchAttachedSession client sid thread).conns client).effects,
      e.Own client ((s.switchAttachedSession client sid thread).conns client).up := by
  intro e he
  rw [switchAttachedSession, conns_setConn_self] at he
  rcases List.mem_cons.mp he with rfl | he
  · rfl
  · rcases List.mem_append.mp he with he | he
    · obtain ⟨old, rfl⟩ := leaveSession_eq he
      trivial
    · rw [List.mem_singleton.mp he]
      trivial

theorem own_desk {client : ClientId} (h : (s'.desk client).conn = (s.desk client).conn)
    (hOwn : ∀ e ∈ (s.conns client).effects, e.Own client (s.conns client).up) :
    ∀ e ∈ (s'.conns client).effects, e.Own client (s'.conns client).up := by
  have hEffects : (s'.desk client).conn.effects = (s.desk client).conn.effects := by rw [h]
  have hUp : (s'.desk client).conn.up = (s.desk client).conn.up := by rw [h]
  change (s'.conns client).effects = (s.conns client).effects at hEffects
  change (s'.conns client).up = (s.conns client).up at hUp
  rw [hEffects, hUp]
  exact hOwn

theorem own_handleCommand (h : s.Own) (env : LoopEnv) (command : DaemonCommand) :
    (s.handleCommand env command).Own := by
  intro client
  by_cases hWaiter : command.waiter = some client
  · cases command with
    | createSession c params =>
      obtain rfl : c = some client := hWaiter
      have hConn := congrArg Desk.conn (@desk_announce client
        ((s.createdSession env params).resume client
          [.reply (.sessionCreatedForRequester s.loop.nextSessionId)]) s.loop.nextSessionId)
      refine own_desk hConn (own_resume _ client fun e he => ?_)
      exact ⟨_, List.mem_singleton.mp he, rfl⟩
    | attachSession c id =>
      obtain rfl : c = client := Option.some.inj hWaiter
      show ∀ e ∈ ((s.handleAttachSession env c id).conns c).effects, _
      rw [handleCommand, handleAttachSession]
      split
      · exact own_switchAttachedSession _ c id _
      · exact own_resume s c fun e he => ⟨_, List.mem_singleton.mp he, rfl⟩
    | deleteSession c id =>
      obtain rfl : c = client := Option.some.inj hWaiter
      exact own_resume _ c fun e he => ⟨_, List.mem_singleton.mp he, rfl⟩
    | setSessionFlags c id pinned archived =>
      obtain rfl : c = client := Option.some.inj hWaiter
      rw [handleCommand, handleSetSessionFlags]
      split
      · exact own_resume s c fun e he => ⟨_, List.mem_singleton.mp he, rfl⟩
      · split
        · exact own_resume s c fun e he => ⟨_, List.mem_singleton.mp he, rfl⟩
        · exact own_resume _ c fun e he => absurd he List.not_mem_nil
    | _ => cases hWaiter
  · obtain ⟨more, hDesk⟩ := desk_handleCommand env s hWaiter
    have hConn : ((s.handleCommand env command).desk client).conn = (s.desk client).conn := by
      rw [hDesk]
      rfl
    exact own_desk hConn (h client)

theorem own_loopStep {env : LoopEnv} (h : s.Own) (hStep : s.loopStep env = some s') : s'.Own := by
  unfold loopStep at hStep
  split at hStep
  · cases hStep
  rename_i command rest hInbox
  split at hStep
  rotate_left
  · cases hStep
  cases hStep
  intro client
  refine own_desk (congrArg Desk.conn (desk_evictions env.overLag _)) ?_
  have hPopped : (s.popped rest).Own := h
  exact own_handleCommand hPopped env command client

/-! ## Steps -/

theorem conns_processStep {thread : ThreadId} {env : ProcessEnv}
    (hStep : s.processStep thread env = some s') : s'.conns = s.conns := by
  unfold processStep at hStep
  split at hStep
  · cases hStep
  · obtain ⟨t', -, rfl⟩ := Option.map_eq_some_iff.mp hStep
    rfl

theorem conns_workerStep {thread : ThreadId} {streamId : Nat} {move : WorkerMove}
    (hStep : s.workerStep thread streamId move = some s') : s'.conns = s.conns := by
  unfold workerStep at hStep
  split at hStep
  · cases hStep
  · split at hStep
    · cases hStep
      cases move <;> rfl
    · cases hStep

theorem conns_finalizeStep {index : Nat} (hStep : s.finalizeStep index = some s') :
    s'.conns = s.conns := by
  unfold finalizeStep at hStep
  split at hStep
  · cases hStep
  · split at hStep <;> cases hStep <;> rfl

theorem conns_send (s : System) (c : ClientId) (message : ClientMessage) :
    (s.send c message).conns = s.conns := by
  unfold send
  split <;> rfl

theorem conns_performEffect (s : System) (thread : ThreadId) (t : Thread) (e : ThreadEffect) :
    (s.performEffect thread t e).conns = s.conns := by
  cases e with
  | sendStarted c streamId => exact conns_send s c _
  | sendState c => exact conns_send s c _
  | _ => rfl

theorem conns_threadStep {thread : ThreadId} (hStep : s.threadStep thread = some s') :
    s'.conns = s.conns := by
  unfold threadStep at hStep
  split at hStep
  · cases hStep
  split at hStep
  · cases hStep
    exact conns_performEffect _ _ _ _
  · unfold exitStep at hStep
    split at hStep <;> cases hStep <;> rfl

theorem conns_performConnEffect (s : System) (client : ClientId) (e : ConnEffect) :
    (s.performConnEffect client e).conns = s.conns := by
  cases e with
  | reply message => exact conns_send s client message
  | _ => rfl

theorem own_connStep (h : s.Own) (hStep : s.connStep c = some s') : s'.Own := by
  unfold connStep at hStep
  split at hStep
  · cases hStep
  rename_i e rest hEffects
  cases hStep
  refine Own.of_conns (h.setConn c fun e' he' => ?_) (conns_performConnEffect _ c e)
  exact h c e' (by rw [hEffects]; exact List.mem_cons_of_mem e he')

theorem own_next {a : Action} (h : s.Own) (hStep : s.next a = some s') : s'.Own := by
  cases a with
  | connect client =>
    change s.connectStep client = some s' at hStep
    unfold connectStep at hStep
    split at hStep
    · cases hStep
    · cases hStep
      exact h.setConn client fun e he => absurd he List.not_mem_nil
  | request client request =>
    change s.requestStep client request = some s' at hStep
    unfold requestStep at hStep
    split at hStep
    · cases hStep
      exact h.setConn client (own_request client _ _ request)
    · cases hStep
  | conn client => exact own_connStep h hStep
  | disconnect client =>
    change s.disconnectStep client = some s' at hStep
    unfold disconnectStep at hStep
    split at hStep
    · cases hStep
      refine h.setConn client fun e he => ?_
      rcases List.mem_append.mp he with he | he
      · obtain ⟨a, -, rfl⟩ := List.mem_map.mp he
        trivial
      · rw [List.mem_singleton.mp he]
        exact ⟨fun other hNe => ⟨by simpa using hNe.symm, fun _ _ => rfl⟩, fun _ => rfl⟩
    · cases hStep
  | writerExit client =>
    cases hStep
    exact h.setConn client (h client)
  | loop env => exact own_loopStep h hStep
  | process thread env => exact h.of_conns (conns_processStep hStep)
  | thread thread => exact h.of_conns (conns_threadStep hStep)
  | worker thread streamId move => exact h.of_conns (conns_workerStep hStep)
  | runChild thread =>
    cases hStep
    exact h
  | finalize index => exact h.of_conns (conns_finalizeStep hStep)
  | overLag client =>
    cases hStep
    exact h
  | crash =>
    cases hStep
    exact fun client e he => absurd he List.not_mem_nil
  | crashDuring n =>
    change s.crashDuring n = some s' at hStep
    unfold crashDuring at hStep
    split at hStep
    · cases hStep
      exact fun client e he => absurd he List.not_mem_nil
    · cases hStep

end System

end Choreographr.Daemon
