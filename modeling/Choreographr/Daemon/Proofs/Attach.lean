import Choreographr.Daemon.Proofs.Desk

/-!
# No attach is lost

The desk of a client over the steps of the session threads and of the connections,
and over whole runs. Where the condition `attachKept` holds at every step, a client
that is told `SessionAttached` gets one snapshot of the session for each time it is
told. The loop hands out the thread of a session without asking whether it is still
in its loop, so the condition can fail.
-/

namespace Choreographr.Daemon

open Session Lib

namespace System

variable {s s' : System} {client : ClientId} {sid : Nat}

/-! ## Steps of a session thread -/

section Threads

variable {thread : ThreadId} {t t' : Thread} {env : ProcessEnv} {command : SessionCommand}
  {effect : ThreadEffect} {rest : List ThreadEffect}

/-- A thread that takes a command keeps what it owes, unless it leaves its loop with an
attach in its queue. -/
theorem attaching_processNext (client : ClientId) (sid : Nat)
    (hNext : t.processNext env = some t') :
    t'.sessionId = t.sessionId ∧ t'.attaching client sid ≤ t.attaching client sid ∧
      (t.keepsAttach client env = true → t'.attaching client sid = t.attaching client sid) := by
  unfold Thread.processNext at hNext
  split at hNext
  rotate_left
  · cases hNext
  rename_i command rest hPhase hEffects hQueue
  cases hNext
  have hSnapshots := Thread.snapshots_processCommand (t := { t with queue := rest }) client env
    command hEffects
  obtain ⟨hFrame, -⟩ := Thread.frame_processCommand { t with queue := rest } env command
  have hStays : ∀ c, command = .attach c →
      ({ t with queue := rest }.processCommand env command).2 = false := by
    rintro c rfl
    rfl
  have hKeeps : t.keepsAttach client env =
      (!({ t with queue := rest }.processCommand env command).2 ||
        !rest.contains (.attach client)) := by
    rw [Thread.keepsAttach, hQueue]
  generalize ({ t with queue := rest } : Thread).processCommand env command = done
    at hSnapshots hFrame hStays hKeeps ⊢
  have hBefore : t.attaching client sid =
      if t.sessionId = sid then (command :: rest).count (.attach client) else 0 := by
    unfold Thread.attaching Thread.inLoop
    rw [hPhase, hQueue, hEffects]
    rfl
  have hId : done.1.sessionId = t.sessionId := hFrame.sessionId
  have hRest : done.1.queue = rest := hFrame.queue
  have hRunning : done.1.phase = .running := hFrame.phase.trans hPhase
  cases hLeaves : done.2 with
  | false =>
    have hSame : done.1.attaching client sid = t.attaching client sid := by
      rw [hBefore]
      unfold Thread.attaching Thread.inLoop
      rw [hId, hRest, hRunning, hSnapshots, List.count_cons]
      simp
    exact ⟨hId, hSame.le, fun _ => hSame⟩
  | true =>
    have hOther : command ≠ .attach client := by
      intro hEq
      rw [hStays client hEq] at hLeaves
      cases hLeaves
    have hAfter : ({ done.1 with phase := .persisting (t.ownRecord env) } : Thread).attaching
        client sid = 0 := by
      rw [if_neg hOther] at hSnapshots
      unfold Thread.attaching Thread.inLoop
      simp [hSnapshots]
    refine ⟨hId, hAfter.trans_le (Nat.zero_le _), fun hKept => ?_⟩
    have hNone : rest.count (.attach client) = 0 := by
      rw [hKeeps, hLeaves] at hKept
      apply List.count_eq_zero_of_not_mem
      simpa using hKept
    rw [hBefore, List.count_cons_of_ne hOther, hNone]
    exact hAfter.trans (ite_self 0).symm

theorem moves_processStep (hStep : s.processStep thread env = some s')
    (hKept : s.attachKept client (.process thread env) = true) :
    Moves client (s.desk client) (s'.desk client) := by
  unfold processStep at hStep
  split at hStep
  · cases hStep
  rename_i t hGet
  obtain ⟨t', hNext, rfl⟩ := Option.map_eq_some_iff.mp hStep
  change (s.threads[thread]?).all (Thread.keepsAttach client env) = true at hKept
  rw [hGet, Option.all_some] at hKept
  apply moves_of_eq
  apply desk_modifyThread
  · intro t₀ hGet₀
    rw [hGet] at hGet₀
    cases hGet₀
    exact (attaching_processNext client 0 hNext).1
  · intro t₀ hGet₀ sid
    rw [hGet] at hGet₀
    cases hGet₀
    exact (attaching_processNext client sid hNext).2.2 hKept

theorem ok_processStep (hStep : s.processStep thread env = some s')
    (hOk : (s.desk client).Ok client) : (s'.desk client).Ok client := by
  unfold processStep at hStep
  split at hStep
  · cases hStep
  rename_i t hGet
  obtain ⟨t', hNext, rfl⟩ := Option.map_eq_some_iff.mp hStep
  have hIds : ((s.modifyThread thread fun _ => t').desk client).ids = (s.desk client).ids := by
    refine map_modify_of_eq fun t₀ hGet₀ => ?_
    rw [hGet] at hGet₀
    cases hGet₀
    exact (attaching_processNext client 0 hNext).1
  refine ⟨fun hUnused => ?_, hOk.waiting, hOk.free, hOk.first, ?_, hOk.noSnapshot⟩
  · obtain ⟨hUp, hFree, hNone, hZero⟩ := hOk.unused hUnused
    refine ⟨hUp, hFree, hNone, fun sid => ?_⟩
    have hModify := sum_map_modify s.threads (Thread.attaching client sid) (fun _ => t') hGet
    have hLe := (attaching_processNext client sid hNext).2.1
    have hBefore : (s.threads.map (Thread.attaching client sid)).sum = 0 := hZero sid
    show ((s.threads.modify thread fun _ => t').map (Thread.attaching client sid)).sum = 0
    omega
  · rw [hIds]
    exact hOk.targets

theorem desk_sendDaemon (s : System) {command : DaemonCommand} (h : command.waiter ≠ some client) :
    (s.sendDaemon command).desk client = s.desk client := by
  unfold desk sendDaemon
  simp [List.countP_append, h]

theorem desk_send_other (s : System) {c : ClientId} (h : c ≠ client) (message : ClientMessage) :
    (s.send c message).desk client = s.desk client := by
  unfold send
  split
  · rfl
  · have hNe : ∀ m, Event.sent c message ≠ Event.sent client m := by
      intro m hEq
      cases hEq
      exact h rfl
    unfold desk emit
    simp [List.count_append, hNe]

/-- An effect other than the snapshot for the client. -/
theorem desk_performEffect (s : System) (t : Thread) (h : effect.snapshots client = false) :
    (s.performEffect thread t effect).desk client = s.desk client := by
  cases effect with
  | write row => rfl
  | updateMetadata metadata => exact desk_sendDaemon s (by simp [DaemonCommand.waiter])
  | track c => exact desk_sendDaemon s (by simp [DaemonCommand.waiter])
  | untrack c => exact desk_sendDaemon s (by simp [DaemonCommand.waiter])
  | sendStarted c streamId => exact desk_send s c rfl
  | sendState c => exact desk_send_other s (by simpa [ThreadEffect.snapshots] using h) _
  | broadcastSessionStatus status number =>
    exact desk_sendDaemon s (by simp [DaemonCommand.waiter])
  | broadcast number =>
    rw [performEffect]
    refine Eq.trans (desk_modifyThread _ thread ?_ ?_) ?_
    · exact fun _ _ => rfl
    · exact fun _ _ _ => rfl
    rw [desk_emit, desk_sendDaemon s (by simp [DaemonCommand.waiter])]
    intro e he
    rcases List.mem_cons.mp he with rfl | he
    · rfl
    · obtain ⟨c, -, rfl⟩ := List.mem_map.mp he
      rfl

theorem attaching_taken (hEffects : t.effects = effect :: rest) :
    t.attaching client sid = ({ t with effects := rest } : Thread).attaching client sid +
      if t.sessionId = sid ∧ effect.snapshots client = true then 1 else 0 := by
  unfold Thread.attaching
  rw [hEffects, List.countP_cons]
  by_cases hSid : t.sessionId = sid
  · simp only [hSid, if_true, true_and]
    rw [Nat.add_assoc]
    rfl
  · simp only [hSid, if_false, false_and]

/-- The thread sends the snapshot to the client. -/
theorem moves_sendState (hGet : s.threads[thread]? = some t)
    (hEffects : t.effects = .sendState client :: rest) :
    Moves client (s.desk client)
      (((s.modifyThread thread fun t => { t with effects := rest }).send client
        (.sessionState t.sessionId)).desk client) := by
  set s₁ := s.modifyThread thread fun t => { t with effects := rest }
  have hIds : (s₁.desk client).ids = (s.desk client).ids := map_modify_of_eq fun _ _ => rfl
  have hSum : ∀ sid, (s₁.desk client).attaching sid + (if t.sessionId = sid then 1 else 0) =
      (s.desk client).attaching sid := by
    intro sid
    have hModify := sum_map_modify s.threads (Thread.attaching client sid)
      (fun t => { t with effects := rest }) hGet
    have hTaken : t.attaching client sid = _ := attaching_taken hEffects
    simp only [ThreadEffect.snapshots, decide_true, and_true] at hTaken
    change (s₁.desk client).attaching sid + _ = (s.desk client).attaching sid + _ at hModify
    omega
  have hOk : (s.desk client).Ok client → (s₁.desk client).Ok client := by
    intro hOk
    refine ⟨fun hUnused => ?_, hOk.waiting, hOk.free, hOk.first, ?_, hOk.noSnapshot⟩
    · obtain ⟨hUp, hWaiting, hNone, hZero⟩ := hOk.unused hUnused
      refine ⟨hUp, hWaiting, hNone, fun sid => ?_⟩
      have hLe := hSum sid
      rw [hZero sid] at hLe
      omega
    · rw [hIds]
      exact hOk.targets
  unfold send
  split
  · rename_i hGone
    refine ⟨hOk, id, fun hDesk hOpen => ?_⟩
    rcases hOpen with hUnused | hThere
    · have hZero := (hDesk.unused hUnused).2.2.2 t.sessionId
      have hPos := hSum t.sessionId
      rw [if_pos rfl] at hPos
      omega
    · change (s₁.conns client).writerGone = false at hThere
      rw [hThere] at hGone
      cases hGone
  · have hGot : ∀ sid, ((s₁.emit [.sent client (.sessionState t.sessionId)]).desk client).got sid =
        (s.desk client).got sid + if t.sessionId = sid then 1 else 0 := by
      intro sid
      show (s.events ++ [_]).count _ = s.events.count _ + _
      rw [List.count_append, List.count_singleton]
      simp
    have hTold : ∀ sid, ((s₁.emit [.sent client (.sessionState t.sessionId)]).desk client).told sid =
        (s.desk client).told sid := by
      intro sid
      show (s.events ++ [_]).count _ = s.events.count _
      rw [List.count_append, List.count_singleton]
      simp
    refine ⟨fun hDesk => ?_, id, fun _ _ sid => ?_⟩
    · have hAfter := hOk hDesk
      exact ⟨hAfter.unused, hAfter.waiting, hAfter.free, hAfter.first, hAfter.targets,
        hAfter.noSnapshot⟩
    · have hCount := hSum sid
      have hAttaching : ((s₁.emit [.sent client (.sessionState t.sessionId)]).desk
          client).attaching sid = (s₁.desk client).attaching sid := rfl
      have hPromised : ((s₁.emit [.sent client (.sessionState t.sessionId)]).desk
          client).promised sid = (s.desk client).promised sid := rfl
      have hToSend : ((s₁.emit [.sent client (.sessionState t.sessionId)]).desk
          client).toSend sid = (s.desk client).toSend sid := rfl
      unfold Desk.surplus
      rw [hGot, hTold, hAttaching, hPromised, hToSend]
      omega

theorem moves_takeEffect (hGet : s.threads[thread]? = some t)
    (hEffects : t.effects = effect :: rest) :
    Moves client (s.desk client)
      (((s.modifyThread thread fun t => { t with effects := rest }).performEffect thread t
        effect).desk client) := by
  cases hSnapshot : effect.snapshots client with
  | false =>
    apply moves_of_eq
    rw [desk_performEffect _ t hSnapshot]
    apply desk_modifyThread
    · exact fun _ _ => rfl
    · intro t₀ hGet₀ sid
      rw [hGet] at hGet₀
      cases hGet₀
      rw [attaching_taken hEffects, hSnapshot]
      simp
  | true =>
    obtain rfl : effect = .sendState client := by
      cases effect <;> simp [ThreadEffect.snapshots] at hSnapshot
      rw [hSnapshot]
    exact moves_sendState hGet hEffects

theorem attaching_eq_zero (hLoop : t.inLoop = false) (hEffects : t.effects = []) :
    t.attaching client sid = 0 := by
  unfold Thread.attaching
  rw [hLoop, hEffects]
  split <;> rfl

theorem moves_exitStep (hGet : s.threads[thread]? = some t) (hEffects : t.effects = [])
    (hStep : s.exitStep thread t = some s') : Moves client (s.desk client) (s'.desk client) := by
  -- a thread that has left its loop owes nothing
  have hSame : ∀ (s₁ : System) (f : Thread → Thread), s₁.threads[thread]? = some t →
      (f t).sessionId = t.sessionId → t.inLoop = false → (f t).inLoop = false →
      (f t).effects = [] → (s₁.modifyThread thread f).desk client = s₁.desk client := by
    intro s₁ f hGet₁ hId hBefore hAfter hNone
    apply desk_modifyThread
    · intro t₀ hGet₀
      rw [hGet₁] at hGet₀
      cases hGet₀
      exact hId
    · intro t₀ hGet₀ sid
      rw [hGet₁] at hGet₀
      cases hGet₀
      rw [attaching_eq_zero hAfter hNone, attaching_eq_zero hBefore hEffects]
  unfold exitStep at hStep
  apply moves_of_eq
  cases hPhase : t.phase with
  | persisting record =>
    rw [hPhase] at hStep
    cases hStep
    have hLoop : t.inLoop = false := by rw [Thread.inLoop, hPhase]
    exact (hSame _ _ (by exact hGet) rfl hLoop rfl hEffects).trans rfl
  | reporting =>
    rw [hPhase] at hStep
    cases hStep
    have hLoop : t.inLoop = false := by rw [Thread.inLoop, hPhase]
    exact (hSame _ _ (by exact hGet) rfl hLoop rfl hEffects).trans
      (desk_sendDaemon s (by simp [DaemonCommand.waiter]))
  | ending =>
    rw [hPhase] at hStep
    cases hStep
    have hLoop : t.inLoop = false := by rw [Thread.inLoop, hPhase]
    exact hSame s _ hGet rfl hLoop rfl rfl
  | running =>
    rw [hPhase] at hStep
    cases hStep
  | finished =>
    rw [hPhase] at hStep
    cases hStep

theorem moves_threadStep (hStep : s.threadStep thread = some s') :
    Moves client (s.desk client) (s'.desk client) := by
  unfold threadStep at hStep
  split at hStep
  · cases hStep
  rename_i t hGet
  split at hStep
  · rename_i effect rest hEffects
    cases hStep
    exact moves_takeEffect hGet hEffects
  · rename_i hEffects
    exact moves_exitStep hGet hEffects hStep

theorem moves_workerStep {streamId : Nat} {move : WorkerMove}
    (hStep : s.workerStep thread streamId move = some s') :
    Moves client (s.desk client) (s'.desk client) := by
  unfold workerStep at hStep
  split at hStep
  · cases hStep
  split at hStep
  rotate_left
  · cases hStep
  cases hStep
  apply moves_of_eq
  cases move with
  | writeTurn turnId turn => rfl
  | writeAttachment turnId slot data => rfl
  | broadcast => exact desk_sendSession s thread (by simp)
  | statusChanged status => exact desk_sendSession s thread (by simp)
  | createSession params => exact desk_sendDaemon s (by simp [DaemonCommand.waiter])
  | finish =>
    refine (desk_sendSession _ thread (by simp)).trans (desk_modifyThread _ thread ?_ ?_)
    · exact fun _ _ => rfl
    · exact fun _ _ _ => rfl

end Threads

/-! ## Steps of a connection thread -/

section Conn

variable {k : Desk} {e : ConnEffect} {rest : List ConnEffect} {command : DaemonCommand}
  {c : ClientId}

/-- The connection thread has done the first thing on its list. -/
def takeEffect (k : Desk) (rest : List ConnEffect) : Desk :=
  { k with conn := { k.conn with effects := rest } }

theorem desk_taken (s : System) (client : ClientId) (rest : List ConnEffect) :
    (s.setConn client { s.conns client with effects := rest }).desk client =
      takeEffect (s.desk client) rest := desk_setConn_self s _

theorem promised_take (sid : Nat) (hEffects : k.conn.effects = e :: rest) :
    k.promised sid = (takeEffect k rest).promised sid + (e.promises sid).toNat := by
  rw [Desk.promised, hEffects, List.countP_cons]
  cases e.promises sid <;> rfl

theorem toSend_take (sid : Nat) (hEffects : k.conn.effects = e :: rest) :
    k.toSend sid = (takeEffect k rest).toSend sid + (e.attaches sid).toNat := by
  rw [Desk.toSend, hEffects, List.countP_cons]
  cases e.attaches sid <;> rfl

theorem used_of_effect (hOk : k.Ok client) (hEffects : k.conn.effects = e :: rest) :
    k.conn.used ≠ false := by
  intro hUnused
  rw [(hOk.unused hUnused).2.2.1] at hEffects
  cases hEffects

theorem ok_take (hOk : k.Ok client) (hEffects : k.conn.effects = e :: rest)
    (hCommand : ∀ command h, e ≠ .daemon command h) : (takeEffect k rest).Ok client := by
  have hMem : ∀ x ∈ rest, x ∈ k.conn.effects := by
    rw [hEffects]
    exact fun x hx => List.mem_cons_of_mem _ hx
  have hUsed := used_of_effect hOk hEffects
  refine ⟨fun hUnused => absurd hUnused hUsed, fun hWaiting => ?_,
    fun hFree => ⟨(hOk.free hFree).1, fun command h hx => ?_⟩, fun x hx => ?_,
    fun sid thread hx => hOk.targets sid thread (hMem _ hx),
    fun sid hx => hOk.noSnapshot sid (hMem _ hx)⟩
  · rcases hOk.waiting hWaiting with ⟨hNone, -⟩ | ⟨-, command, h, hOne, -⟩
    · rw [hEffects] at hNone
      cases hNone
    · rw [hEffects] at hOne
      exact absurd (List.head_eq_of_cons_eq hOne) (hCommand command h)
  · exact (hOk.free hFree).2 command h (hMem _ hx)
  · apply hOk.first
    rw [hEffects]
    exact List.mem_of_mem_tail hx

theorem moves_take (hEffects : k.conn.effects = e :: rest)
    (hCommand : ∀ command h, e ≠ .daemon command h) (hPromises : ∀ sid, e.promises sid = false)
    (hAttaches : ∀ sid, e.attaches sid = false) : Moves client k (takeEffect k rest) where
  ok hOk := ok_take hOk hEffects hCommand
  opened := id
  surplus _ _ sid := by
    have hPromised : k.promised sid = (takeEffect k rest).promised sid := by
      rw [promised_take sid hEffects, hPromises sid]
      rfl
    have hToSend : k.toSend sid = (takeEffect k rest).toSend sid := by
      rw [toSend_take sid hEffects, hAttaches sid]
      rfl
    unfold Desk.surplus
    rw [hPromised, hToSend]
    rfl

/-- The connection thread sends a command to the loop. -/
theorem moves_command {h : command.fromClient = true}
    (hEffects : (s.conns client).effects = .daemon command h :: rest) :
    Moves client (s.desk client)
      (((s.setConn client { s.conns client with effects := rest }).sendDaemon command).desk
        client) := by
  set k := s.desk client
  have hDesk : ((s.setConn client { s.conns client with effects := rest }).sendDaemon command).desk
      client = { takeEffect k rest with
        waits := k.waits + if command.waiter = some client then 1 else 0 } := by
    have hWaits : (s.loop.inbox ++ [command]).countP (fun command => command.waiter = some client) =
        k.waits + if command.waiter = some client then 1 else 0 := by
      rw [List.countP_append, List.countP_singleton]
      simp only [decide_eq_true_eq]
      rfl
    rw [← desk_taken]
    exact congrArg (fun n => { (s.setConn client { s.conns client with effects := rest }).desk
      client with waits := n }) hWaits
  have hEffects' : k.conn.effects = .daemon command h :: rest := hEffects
  rw [hDesk]
  refine ⟨fun hOk => ?_, id, fun _ _ sid => ?_⟩
  · have hUsed := used_of_effect hOk hEffects'
    cases hWaiting : k.conn.waiting with
    | true =>
      rcases hOk.waiting hWaiting with ⟨hNone, -⟩ | ⟨hZero, command', h', hOne, hWaiter⟩
      · rw [hEffects'] at hNone
        cases hNone
      · rw [hEffects'] at hOne
        obtain ⟨hEq, rfl⟩ := List.cons.inj hOne
        cases hEq
        refine ⟨fun hUnused => absurd hUnused hUsed, fun _ => .inl ⟨rfl, ?_⟩, fun hFree => ?_,
          fun x hx => absurd hx List.not_mem_nil, fun _ _ hx => absurd hx List.not_mem_nil,
          fun _ hx => absurd hx List.not_mem_nil⟩
        · rw [if_pos hWaiter, hZero]
        · change k.conn.waiting = false at hFree
          rw [hWaiting] at hFree
          cases hFree
    | false =>
      obtain ⟨hZero, hNone⟩ := hOk.free hWaiting
      have hMem : ∀ x ∈ rest, x ∈ k.conn.effects := by
        rw [hEffects']
        exact fun x hx => List.mem_cons_of_mem _ hx
      have hWaiter : command.waiter = none := by
        apply hNone command h
        rw [hEffects']
        exact List.mem_cons_self
      refine ⟨fun hUnused => absurd hUnused hUsed, fun hTrue => ?_,
        fun _ => ⟨?_, fun command' h' hx => hNone command' h' (hMem _ hx)⟩, fun x hx => ?_,
        fun sid thread hx => hOk.targets sid thread (hMem _ hx),
        fun sid hx => hOk.noSnapshot sid (hMem _ hx)⟩
      · change k.conn.waiting = true at hTrue
        rw [hWaiting] at hTrue
        cases hTrue
      · rw [hWaiter, hZero]
        rfl
      · apply hOk.first
        rw [hEffects']
        exact List.mem_of_mem_tail hx
  · have hPromised := promised_take sid hEffects'
    have hToSend := toSend_take sid hEffects'
    unfold Desk.surplus
    rw [hPromised, hToSend]
    rfl

theorem desk_send_self (s : System) (client : ClientId) (message : ClientMessage) :
    (s.send client message).desk client = { s.desk client with
      told := ((s.send client message).desk client).told
      got := ((s.send client message).desk client).got } := by
  unfold send
  split <;> rfl

/-- The connection thread sends a message to its client. -/
theorem moves_reply {message : ClientMessage}
    (hEffects : (s.conns client).effects = .reply message :: rest) :
    Moves client (s.desk client)
      (((s.setConn client { s.conns client with effects := rest }).send client message).desk
        client) := by
  set s₁ := s.setConn client { s.conns client with effects := rest }
  have hTaken : s₁.desk client = takeEffect (s.desk client) rest := desk_taken s client rest
  have hEffects' : (s.desk client).conn.effects = .reply message :: rest := hEffects
  have hSent := desk_send_self s₁ client message
  refine ⟨fun hOk => ?_, fun hOpen => ?_, fun hOk hOpen sid => ?_⟩
  · have hAfter : (s₁.desk client).Ok client := by
      rw [hTaken]
      exact ok_take hOk hEffects' (by simp)
    rw [hSent]
    exact ⟨hAfter.unused, hAfter.waiting, hAfter.free, hAfter.first, hAfter.targets,
      hAfter.noSnapshot⟩
  · rw [hSent, hTaken] at hOpen
    exact hOpen
  · have hPromised := promised_take sid hEffects'
    have hToSend := toSend_take sid hEffects'
    have hUsed := used_of_effect hOk hEffects'
    have hThere : (s₁.conns client).writerGone = false := by
      rw [hSent, hTaken] at hOpen
      rcases hOpen with hUnused | hThere
      · exact absurd hUnused hUsed
      · have hConn : (s₁.conns client).writerGone = (s₁.desk client).conn.writerGone := rfl
        rw [hConn, hTaken]
        exact hThere
    have hEvents : (s₁.send client message).events = s.events ++ [Event.sent client message] := by
      rw [send, hThere]
      rfl
    have hNe : message ≠ .sessionState sid := by
      rintro rfl
      apply hOk.noSnapshot sid
      rw [hEffects']
      exact List.mem_cons_self
    have hTold : ((s₁.send client message).desk client).told sid =
        (s.desk client).told sid + ((ConnEffect.reply message).promises sid).toNat := by
      show (s₁.send client message).events.count _ = s.events.count _ + _
      rw [hEvents, List.count_append, List.count_singleton]
      by_cases hEq : message = .sessionAttached sid <;> simp [ConnEffect.promises, hEq]
    have hGot : ((s₁.send client message).desk client).got sid = (s.desk client).got sid := by
      show (s₁.send client message).events.count _ = s.events.count _
      rw [hEvents, List.count_append, List.count_singleton]
      simp [hNe]
    unfold Desk.surplus
    rw [hTold, hGot, hPromised, hToSend]
    rw [hSent, hTaken]
    simp only [Desk.promised, Desk.toSend, takeEffect, ConnEffect.attaches, Bool.toNat_false]
    omega

theorem conn_sendAttach (s : System) (client : ClientId) (rest : List ConnEffect)
    (thread : ThreadId) :
    (((s.setConn client { s.conns client with effects := rest }).sendSession thread
      (.attach client)).desk client).conn = (takeEffect (s.desk client) rest).conn := by
  rw [← desk_taken]
  rfl

theorem ok_sendAttach {id : Nat} {thread : ThreadId} (hOk : (s.desk client).Ok client)
    (hEffects : (s.conns client).effects = .attach id thread :: rest) :
    (((s.setConn client { s.conns client with effects := rest }).sendSession thread
      (.attach client)).desk client).Ok client := by
  have hEffects' : (s.desk client).conn.effects = .attach id thread :: rest := hEffects
  have hAfter := ok_take hOk hEffects' (by simp)
  have hUsed := used_of_effect hOk hEffects'
  have hConn := conn_sendAttach s client rest thread
  refine ⟨fun hUnused => ?_, ?_, ?_, ?_, ?_, ?_⟩
  · rw [hConn] at hUnused
    exact absurd hUnused hUsed
  · rw [hConn]
    exact hAfter.waiting
  · rw [hConn]
    exact hAfter.free
  · rw [hConn]
    exact hAfter.first
  · have hIds : (((s.setConn client { s.conns client with effects := rest }).sendSession thread
        (.attach client)).desk client).ids = (s.desk client).ids := by
      refine map_modify_of_eq fun t _ => ?_
      split <;> rfl
    rw [hConn, hIds]
    exact hAfter.targets
  · rw [hConn]
    exact hAfter.noSnapshot

/-- The connection thread sends an attach to a thread that is in its loop. -/
theorem moves_attach {id : Nat} {thread : ThreadId}
    (hEffects : (s.conns client).effects = .attach id thread :: rest)
    (hLoop : (s.threads[thread]?).all Thread.inLoop = true) :
    Moves client (s.desk client)
      (((s.setConn client { s.conns client with effects := rest }).sendSession thread
        (.attach client)).desk client) := by
  set s₁ := s.setConn client { s.conns client with effects := rest }
  have hEffects' : (s.desk client).conn.effects = .attach id thread :: rest := hEffects
  have hSum : (s.desk client).Ok client → ∀ sid,
      ((s₁.sendSession thread (.attach client)).desk client).attaching sid =
        (s.desk client).attaching sid + if id = sid then 1 else 0 := by
    intro hOk sid
    have hTarget := hOk.targets id thread (by rw [hEffects']; exact List.mem_cons_self)
    change (s.threads.map Thread.sessionId)[thread]? = some id at hTarget
    rw [List.getElem?_map] at hTarget
    obtain ⟨t, hGet, hId⟩ := Option.map_eq_some_iff.mp hTarget
    rw [hGet, Option.all_some] at hLoop
    have hOpen : t.finished = false := by
      unfold Thread.inLoop at hLoop
      unfold Thread.finished
      split at hLoop
      · rename_i hPhase
        rw [hPhase]
      · cases hLoop
    have hModify := sum_map_modify s.threads (Thread.attaching client sid)
      (fun t => if t.finished then t else { t with queue := t.queue ++ [.attach client] }) hGet
    have hPushed : ({ t with queue := t.queue ++ [.attach client] } : Thread).attaching client sid =
        t.attaching client sid + if id = sid then 1 else 0 := by
      have hAfter : ({ t with queue := t.queue ++ [.attach client] } : Thread).inLoop = true := hLoop
      unfold Thread.attaching
      rw [hAfter, hLoop, hId]
      simp only [if_true, List.count_append, List.count_singleton_self]
      split
      · omega
      · rfl
    rw [hOpen, if_neg (by simp), hPushed] at hModify
    change ((s₁.sendSession thread (.attach client)).desk client).attaching sid + _ =
      (s.desk client).attaching sid + _ at hModify
    omega
  have hConn : ((s₁.sendSession thread (.attach client)).desk client).conn =
      (takeEffect (s.desk client) rest).conn := conn_sendAttach s client rest thread
  refine ⟨fun hOk => ok_sendAttach hOk hEffects, fun hOpen => ?_, fun hOk _ sid => ?_⟩
  · rw [Desk.isOpen, hConn] at hOpen
    exact hOpen
  · have hPromised := promised_take sid hEffects'
    have hToSend := toSend_take sid hEffects'
    have hAttaching := hSum hOk sid
    have hPromised' : ((s₁.sendSession thread (.attach client)).desk client).promised sid =
        (takeEffect (s.desk client) rest).promised sid := by
      rw [Desk.promised, hConn]
      rfl
    have hToSend' : ((s₁.sendSession thread (.attach client)).desk client).toSend sid =
        (takeEffect (s.desk client) rest).toSend sid := by
      rw [Desk.toSend, hConn]
      rfl
    have hTold : ((s₁.sendSession thread (.attach client)).desk client).told sid =
        (s.desk client).told sid := rfl
    have hGot : ((s₁.sendSession thread (.attach client)).desk client).got sid =
        (s.desk client).got sid := rfl
    unfold Desk.surplus
    rw [hPromised', hToSend', hTold, hGot, hAttaching, hPromised, hToSend]
    by_cases hEq : id = sid
    · simp [ConnEffect.attaches, ConnEffect.promises, hEq]
      omega
    · simp [ConnEffect.attaches, ConnEffect.promises, hEq]

theorem moves_connStep (hOther : (s.desk c).Ok c) (hStep : s.connStep c = some s')
    (hKept : s.attachKept client (.conn c) = true) :
    Moves client (s.desk client) (s'.desk client) := by
  unfold connStep at hStep
  split at hStep
  · cases hStep
  rename_i e rest hEffects
  cases hStep
  by_cases hEq : c = client
  · subst hEq
    have hEffects' : (s.desk c).conn.effects = e :: rest := hEffects
    have hTaken := desk_taken s c rest
    cases e with
    | daemon command h => exact moves_command hEffects
    | attach id thread =>
      apply moves_attach hEffects
      simp only [attachKept] at hKept
      rw [hEffects] at hKept
      simpa using hKept
    | reply message => exact moves_reply hEffects
    | detach thread =>
      refine moves_trans (moves_take hEffects' (by simp) (fun _ => rfl) fun _ => rfl) ?_
      exact moves_of_eq ((desk_sendSession _ thread (by simp)).trans hTaken)
    | runInput thread =>
      refine moves_trans (moves_take hEffects' (by simp) (fun _ => rfl) fun _ => rfl) ?_
      exact moves_of_eq ((desk_sendSession _ thread (by simp)).trans hTaken)
    | edit thread =>
      refine moves_trans (moves_take hEffects' (by simp) (fun _ => rfl) fun _ => rfl) ?_
      exact moves_of_eq ((desk_sendSession _ thread (by simp)).trans hTaken)
  · have hDesk := desk_setConn_other s (Ne.symm hEq) { s.conns c with effects := rest }
    apply moves_of_eq
    cases e with
    | daemon command h =>
      refine (desk_sendDaemon _ ?_).trans hDesk
      intro hWaiter
      have hEffects' : (s.desk c).conn.effects = .daemon command h :: rest := hEffects
      cases hWaiting : (s.desk c).conn.waiting with
      | true =>
        rcases hOther.waiting hWaiting with ⟨hNone, -⟩ | ⟨-, command', h', hOne, hWaiter'⟩
        · rw [hEffects'] at hNone
          cases hNone
        · rw [hEffects'] at hOne
          cases List.head_eq_of_cons_eq hOne
          rw [hWaiter] at hWaiter'
          exact hEq (Option.some.inj hWaiter').symm
      | false =>
        have hNone := (hOther.free hWaiting).2 command h (by rw [hEffects']; exact List.mem_cons_self)
        rw [hWaiter] at hNone
        cases hNone
    | attach id thread => exact (desk_sendSession _ thread (by simpa using hEq)).trans hDesk
    | detach thread => exact (desk_sendSession _ thread (by simp)).trans hDesk
    | runInput thread => exact (desk_sendSession _ thread (by simp)).trans hDesk
    | edit thread => exact (desk_sendSession _ thread (by simp)).trans hDesk
    | reply message => exact (desk_send_other _ hEq message).trans hDesk

/-- The connection thread gets a list of things to do that has no answer and no attach
in it; it waits if one of them is a command with an answer. -/
structure Begins (client : ClientId) (effects : List ConnEffect) (waiting : Bool) : Prop where
  command : waiting = true → ∃ command h, effects = [.daemon command h] ∧
    command.waiter = some client
  free : waiting = false → ∀ command h, .daemon command h ∈ effects → command.waiter = none
  noReply : ∀ message, .reply message ∉ effects
  noAttach : ∀ sid thread, .attach sid thread ∉ effects

theorem begins_answered (h : command.fromClient = true) (hWaiter : command.waiter = some client) :
    Begins client [.daemon command h] true :=
  ⟨fun _ => ⟨command, h, rfl, hWaiter⟩, by simp, by simp, by simp⟩

theorem begins_free {effects : List ConnEffect}
    (h : ∀ e ∈ effects, (∃ thread, e = .detach thread ∨ e = .runInput thread ∨ e = .edit thread) ∨
      ∃ command h, e = .daemon command h ∧ command.waiter = none) :
    Begins client effects false := by
  refine ⟨by simp, fun _ command hFrom hMem => ?_, fun message hMem => ?_, fun sid thread hMem => ?_⟩
  · rcases h _ hMem with ⟨thread, hEq | hEq | hEq⟩ | ⟨command', h', hEq, hNone⟩ <;> cases hEq
    exact hNone
  · rcases h _ hMem with ⟨thread, hEq | hEq | hEq⟩ | ⟨command', h', hEq, hNone⟩ <;> cases hEq
  · rcases h _ hMem with ⟨thread, hEq | hEq | hEq⟩ | ⟨command', h', hEq, hNone⟩ <;> cases hEq

theorem begins_one (h : command.fromClient = true) (hWaiter : command.waiter = none) :
    Begins client [.daemon command h] false := by
  apply begins_free
  intro e he
  exact .inr ⟨command, h, List.mem_singleton.mp he, hWaiter⟩

theorem begins_request (client : ClientId) (attached : Option (Nat × ThreadId))
    (request : Request) :
    Begins client (request.effects client attached).1 (request.effects client attached).2 := by
  cases request with
  | createSession params => exact begins_answered rfl rfl
  | attachSession sessionId => exact begins_answered rfl rfl
  | deleteSession sessionId => exact begins_answered rfl rfl
  | setSessionFlags sessionId pinned archived => exact begins_answered rfl rfl
  | subscribeSessionsSummary => exact begins_one rfl rfl
  | unsubscribeSessionsSummary => exact begins_one rfl rfl
  | subscribeAllActivity => exact begins_one rfl rfl
  | unsubscribeAllActivity => exact begins_one rfl rfl
  | runInput =>
    apply begins_free
    intro e he
    obtain ⟨a, -, rfl⟩ := List.mem_map.mp he
    exact .inl ⟨a.2, .inr (.inl rfl)⟩
  | edit =>
    apply begins_free
    intro e he
    obtain ⟨a, -, rfl⟩ := List.mem_map.mp he
    exact .inl ⟨a.2, .inr (.inr rfl)⟩
  | cancel streamId =>
    apply begins_free
    intro e he
    obtain ⟨a, -, rfl⟩ := List.mem_map.mp he
    exact .inr ⟨_, rfl, rfl, rfl⟩

theorem moves_begins {conn : Conn} {effects : List ConnEffect} {waiting : Bool}
    (hReady : s.ready client = true) (hConn : conn.used = (s.conns client).used)
    (hWriter : conn.writerGone = (s.conns client).writerGone) (hEffects : conn.effects = effects)
    (hWaiting : conn.waiting = waiting) (h : Begins client effects waiting) :
    Moves client (s.desk client) ((s.setConn client conn).desk client) := by
  rw [desk_setConn_self]
  simp only [ready, Bool.and_eq_true, Bool.not_eq_true', List.isEmpty_iff] at hReady
  obtain ⟨⟨hUp, hFree⟩, hNone⟩ := hReady
  have hUsed : (s.desk client).Ok client → conn.used ≠ false := by
    intro hOk hUnused
    rw [hConn] at hUnused
    have hDown : (s.conns client).up = false := (hOk.unused hUnused).1
    rw [hUp] at hDown
    cases hDown
  refine ⟨fun hOk => ?_, fun hOpen => ?_, fun _ _ sid => ?_⟩
  · have hZero : (s.desk client).waits = 0 := (hOk.free hFree).1
    refine ⟨fun hUnused => absurd hUnused (hUsed hOk), fun hTrue => .inr ⟨hZero, ?_⟩,
      fun hFalse => ⟨hZero, ?_⟩, fun e he sid => ?_, fun sid thread hMem => ?_, fun sid hMem => ?_⟩
    · change conn.waiting = true at hTrue
      rw [hWaiting] at hTrue
      rw [← hEffects] at h
      exact h.command hTrue
    · change conn.waiting = false at hFalse
      rw [hWaiting] at hFalse
      rw [← hEffects] at h
      exact h.free hFalse
    · have hMem : e ∈ effects := hEffects ▸ List.mem_of_mem_tail he
      cases e with
      | reply message => exact absurd hMem (h.noReply message)
      | _ => rfl
    · change .attach sid thread ∈ conn.effects at hMem
      rw [hEffects] at hMem
      exact absurd hMem (h.noAttach sid thread)
    · change .reply (.sessionState sid) ∈ conn.effects at hMem
      rw [hEffects] at hMem
      exact absurd hMem (h.noReply _)
  · rw [Desk.isOpen] at hOpen ⊢
    change conn.used = false ∨ conn.writerGone = false at hOpen
    rw [hConn, hWriter] at hOpen
    exact hOpen
  · have hPromised : effects.countP (ConnEffect.promises sid) = 0 := by
      apply List.countP_eq_zero.mpr
      intro e he
      cases e with
      | reply message => exact absurd he (h.noReply message)
      | _ => simp [ConnEffect.promises]
    have hToSend : effects.countP (ConnEffect.attaches sid) = 0 := by
      apply List.countP_eq_zero.mpr
      intro e he
      cases e with
      | attach id thread => exact absurd he (h.noAttach id thread)
      | _ => simp [ConnEffect.attaches]
    have hBefore : (s.desk client).promised sid = 0 := by
      show (s.conns client).effects.countP _ = 0
      rw [hNone]
      rfl
    have hBefore' : (s.desk client).toSend sid = 0 := by
      show (s.conns client).effects.countP _ = 0
      rw [hNone]
      rfl
    unfold Desk.surplus
    rw [hBefore, hBefore']
    simp only [Desk.promised, Desk.toSend, hEffects, hPromised, hToSend]

theorem moves_requestStep {request : Request} (hStep : s.requestStep c request = some s') :
    Moves client (s.desk client) (s'.desk client) := by
  unfold requestStep at hStep
  split at hStep
  · rename_i hReady
    cases hStep
    by_cases hEq : c = client
    · subst hEq
      exact moves_begins hReady rfl rfl rfl rfl (begins_request c _ request)
    · exact moves_of_eq (desk_setConn_other s (Ne.symm hEq) _)
  · cases hStep

theorem moves_disconnectStep (hStep : s.disconnectStep c = some s') :
    Moves client (s.desk client) (s'.desk client) := by
  unfold disconnectStep at hStep
  split at hStep
  · rename_i hReady
    cases hStep
    by_cases hEq : c = client
    · subst hEq
      have hFree : (s.conns c).waiting = false := by
        simp only [ready, Bool.and_eq_true, Bool.not_eq_true'] at hReady
        exact hReady.1.2
      refine moves_begins hReady rfl rfl rfl hFree (begins_free fun e he => ?_)
      rcases List.mem_append.mp he with he | he
      · obtain ⟨a, -, rfl⟩ := List.mem_map.mp he
        exact .inl ⟨a.2, .inl rfl⟩
      · exact .inr ⟨_, rfl, List.mem_singleton.mp he, rfl⟩
    · exact moves_of_eq (desk_setConn_other s (Ne.symm hEq) _)
  · cases hStep

theorem moves_connectStep (hStep : s.connectStep c = some s') :
    Moves client (s.desk client) (s'.desk client) := by
  unfold connectStep at hStep
  split at hStep
  · cases hStep
  rename_i hUnused
  cases hStep
  have hPost : ((s.setConn c { up := true, used := true }).sendDaemon
      (.registerClientWriter c)).desk client =
      (s.setConn c { up := true, used := true }).desk client :=
    desk_sendDaemon _ (by simp [DaemonCommand.waiter])
  rw [hPost]
  by_cases hEq : c = client
  · subst hEq
    have hBefore : (s.desk c).conn.used = false := Bool.eq_false_iff.mpr hUnused
    rw [desk_setConn_self]
    refine ⟨fun hOk => ?_, fun _ => .inl hBefore, fun hOk _ sid => ?_⟩
    · obtain ⟨-, hFree, hNone, hZero⟩ := hOk.unused hBefore
      refine ⟨by simp, by simp, fun _ => ⟨(hOk.free hFree).1, by simp⟩, by simp, by simp, by simp⟩
    · obtain ⟨-, -, hNone, -⟩ := hOk.unused hBefore
      simp only [Desk.surplus, Desk.promised, Desk.toSend, hNone]
  · exact moves_of_eq (desk_setConn_other s (Ne.symm hEq) _)

theorem moves_writerExit (s : System) (c : ClientId) :
    Moves client (s.desk client)
      ((s.setConn c { s.conns c with writerGone := true }).desk client) := by
  by_cases hEq : c = client
  · subst hEq
    rw [desk_setConn_self]
    refine ⟨fun hOk => ?_, fun hOpen => ?_, fun _ _ _ => rfl⟩
    · exact ⟨hOk.unused, hOk.waiting, hOk.free, hOk.first, hOk.targets, hOk.noSnapshot⟩
    · rcases hOpen with hUnused | hThere
      · exact .inl hUnused
      · cases hThere
  · exact moves_of_eq (desk_setConn_other s (Ne.symm hEq) _)

/-! ## A restart -/

theorem moves_crash (s : System) : Moves client (s.desk client) (s.crash.desk client) := by
  have hAttaching : ∀ sid, (s.crash.desk client).attaching sid = 0 := by
    intro sid
    show ((s.threads.map Thread.kill).map (Thread.attaching client sid)).sum = 0
    apply List.sum_eq_zero
    intro n hn
    obtain ⟨t, ht, rfl⟩ := List.mem_map.mp hn
    obtain ⟨t₀, -, rfl⟩ := List.mem_map.mp ht
    exact attaching_eq_zero rfl rfl
  refine ⟨fun hOk => ?_, fun hOpen => ?_, fun hOk hOpen sid => ?_⟩
  · refine ⟨fun _ => ⟨rfl, rfl, rfl, hAttaching⟩, fun hWaiting => ?_, fun _ => ⟨rfl, ?_⟩, ?_, ?_, ?_⟩
    · cases hWaiting
    · exact fun _ _ hMem => absurd hMem List.not_mem_nil
    · exact fun _ hMem => absurd hMem List.not_mem_nil
    · exact fun _ _ hMem => absurd hMem List.not_mem_nil
    · exact fun _ hMem => absurd hMem List.not_mem_nil
  · rcases hOpen with hUnused | hThere
    · exact .inl hUnused
    · cases hThere
  · rcases hOpen with hUnused | hThere
    · obtain ⟨-, -, hNone, hZero⟩ := hOk.unused hUnused
      have hPromised : (s.desk client).promised sid = 0 := by
        rw [Desk.promised, hNone]
        rfl
      have hToSend : (s.desk client).toSend sid = 0 := by
        rw [Desk.toSend, hNone]
        rfl
      unfold Desk.surplus
      rw [hAttaching, hPromised, hToSend, hZero]
      rfl
    · cases hThere

theorem desk_finalizeStep {index : Nat} (hStep : s.finalizeStep index = some s') :
    s'.desk client = s.desk client := by
  unfold finalizeStep at hStep
  split at hStep
  · cases hStep
  · split at hStep
    · cases hStep
      rfl
    · cases hStep
      rfl
    · cases hStep
      exact desk_sendDaemon _ (by simp [DaemonCommand.waiter])

theorem moves_crashDuring {n : Nat} (hStep : s.crashDuring n = some s') :
    Moves client (s.desk client) (s'.desk client) := by
  unfold crashDuring at hStep
  split at hStep
  · rename_i c id rest hInbox
    cases hStep
    have hDesk : (((s.deleteTargets id).take n).foldl deleteAndForget (s.forgetChildren id)).desk
        client = s.desk client :=
      desk_foldl (fun s id => desk_deleteAndForget s id) _ _
    rw [← hDesk]
    exact moves_crash _
  · cases hStep

/-! ## Runs -/

section Runs

variable {a : Action}

/-- No step loses an attach, except one that `attachKept` excludes. -/
theorem moves_next (hInv : s.core.Inv) (hOk : ∀ c, (s.desk c).Ok c) (hStep : s.next a = some s')
    (hKept : s.attachKept client a = true) : Moves client (s.desk client) (s'.desk client) := by
  cases a with
  | connect c => exact moves_connectStep hStep
  | request c request => exact moves_requestStep hStep
  | conn c => exact moves_connStep (hOk c) hStep hKept
  | disconnect c => exact moves_disconnectStep hStep
  | writerExit c =>
    cases hStep
    exact moves_writerExit s c
  | loop env => exact moves_loopStep hInv hStep
  | process thread env => exact moves_processStep hStep hKept
  | thread thread => exact moves_threadStep hStep
  | worker thread streamId move => exact moves_workerStep hStep
  | runChild thread =>
    cases hStep
    exact moves_of_eq (desk_sendSession s thread (by simp))
  | finalize index => exact moves_of_eq (desk_finalizeStep hStep)
  | overLag c =>
    cases hStep
    exact moves_of_eq (desk_sendDaemon s (by simp [DaemonCommand.waiter]))
  | crash =>
    cases hStep
    exact moves_crash s
  | crashDuring n => exact moves_crashDuring hStep

/-- What is known of a client's connection holds after every step. -/
theorem ok_next (hInv : s.core.Inv) (hOk : ∀ c, (s.desk c).Ok c) (hStep : s.next a = some s')
    (client : ClientId) : (s'.desk client).Ok client := by
  by_cases hKept : s.attachKept client a = true
  · exact (moves_next hInv hOk hStep hKept).ok (hOk client)
  · cases a with
    | conn c =>
      change s.connStep c = some s' at hStep
      unfold connStep at hStep
      split at hStep
      · cases hStep
      rename_i e rest hEffects
      cases hStep
      simp only [attachKept, hEffects] at hKept
      cases e with
      | attach id thread =>
        simp only [Bool.or_eq_true, decide_eq_true_eq, not_or, not_not] at hKept
        obtain ⟨rfl, -⟩ := hKept
        exact ok_sendAttach (hOk c) hEffects
      | _ => exact absurd rfl hKept
    | process thread env => exact ok_processStep hStep (hOk client)
    | _ => exact absurd rfl hKept

/-- For each time the client was told or is about to be told that it is attached to the
session, it has got one snapshot of the session, or its connection thread is about to
send the attach, or a session thread in its loop has it. And a snapshot is about to
be sent only by a thread that is in its loop and has the client as a subscriber. -/
structure AttachedOnce (client : ClientId) (os : List Event) (s : System) : Prop where
  answered : (s.conns client).writerGone = false → ∀ sid,
    os.count (.sent client (.sessionAttached sid)) + (s.desk client).promised sid =
      os.count (.sent client (.sessionState sid)) + (s.desk client).toSend sid +
        (s.desk client).attaching sid
  subscribed : ∀ t ∈ s.threads, .sendState client ∈ t.effects →
    t.inLoop = true ∧ client ∈ t.subscribers

/-- What every run keeps, and what it keeps as long as no attach is lost. -/
structure DeskInv (client : ClientId) (os : List Event) (s : System) : Prop where
  core : s.core.Inv
  ok : ∀ c, (s.desk c).Ok c
  balance : (s.desk client).isOpen → ∀ sid,
    os.count (.sent client (.sessionAttached sid)) + (s.desk client).promised sid =
      os.count (.sent client (.sessionState sid)) + (s.desk client).toSend sid +
        (s.desk client).attaching sid

theorem deskInv_init (client : ClientId) : DeskInv client [] init where
  core := inv_init
  ok c := ⟨fun _ => ⟨rfl, rfl, rfl, fun _ => rfl⟩, by simp [desk, init],
    fun _ => ⟨rfl, by simp [desk, init]⟩, by simp [desk, init], by simp [desk, init],
    by simp [desk, init]⟩
  balance _ _ := rfl

theorem deskInv_step {os os' : List Event} (h : DeskInv client os s)
    (hStep : daemon.step s a = some (s', os')) (hKept : s.attachKept client a = true) :
    DeskInv client (os ++ os') s' := by
  have hCore := (advances_step h.core hStep).1
  obtain ⟨s', hNext, hEq⟩ := Option.map_eq_some_iff.mp hStep
  cases hEq
  set s₀ : System := { s with events := [] }
  have hInv₀ : s₀.core.Inv := h.core.mark []
  have hOk₀ : ∀ c, (s₀.desk c).Ok c := fun c =>
    ⟨(h.ok c).unused, (h.ok c).waiting, (h.ok c).free, (h.ok c).first, (h.ok c).targets,
      (h.ok c).noSnapshot⟩
  have hKept₀ : s₀.attachKept client a = true := by
    rw [← hKept]
    cases a <;> rfl
  have hMoves := moves_next hInv₀ hOk₀ hNext hKept₀
  refine ⟨hCore, ok_next hInv₀ hOk₀ hNext, fun hOpen sid => ?_⟩
  have hBefore := h.balance (hMoves.opened hOpen) sid
  have hSurplus := hMoves.surplus (hOk₀ client) hOpen sid
  have hTold : (s₀.desk client).told sid = 0 := rfl
  have hGot : (s₀.desk client).got sid = 0 := rfl
  have hTold' : (s'.desk client).told sid =
      s'.events.count (.sent client (.sessionAttached sid)) := rfl
  have hGot' : (s'.desk client).got sid =
      s'.events.count (.sent client (.sessionState sid)) := rfl
  have hPromised : (s₀.desk client).promised sid = (s.desk client).promised sid := rfl
  have hToSend : (s₀.desk client).toSend sid = (s.desk client).toSend sid := rfl
  have hAttaching : (s₀.desk client).attaching sid = (s.desk client).attaching sid := rfl
  unfold Desk.surplus at hSurplus
  rw [List.count_append, List.count_append]
  omega

/-- In every run that loses no attach of a client, the client gets one snapshot for each
time it is told that it is attached, as a subscriber of a thread in its loop. -/
theorem attached_once_of_attachKept {as : List Action} {os : List Event}
    (hRun : (daemon.guard fun s a => s.attachKept client a = true).exec init as = some (s, os)) :
    s.AttachedOnce client os := by
  have hDesk := Machine.exec_invariant (P := DeskInv client)
    (fun h hStep => by
      obtain ⟨hKept, hStep⟩ := Machine.guard_step_eq_some.mp hStep
      exact deskInv_step h hStep hKept)
    (deskInv_init client) hRun
  refine ⟨fun hWriter => hDesk.balance (.inr hWriter), fun t ht hMem => ?_⟩
  obtain ⟨hRunning, hSubscriber, -⟩ := (hDesk.core.threads t ht).snapshot client hMem
  refine ⟨?_, hSubscriber⟩
  unfold Thread.inLoop
  rw [hRunning]

/-- A client attaches to the session that it created. -/
def attachRun : List Action :=
  createRun ++ [Action.request 0 (.attachSession 1), Action.conn 0, Action.loop sampleLoopEnv, Action.conn 0, Action.conn 0,
    Action.thread 0, Action.process 0 sampleProcessEnv, Action.thread 0, Action.thread 0]

/-- A second client asks to attach to it and is answered by the loop. -/
def secondRun : List Action :=
  attachRun ++ [Action.connect 1, Action.request 1 (.attachSession 1), Action.conn 1, Action.loop sampleLoopEnv,
    Action.loop sampleLoopEnv, Action.loop sampleLoopEnv, Action.loop sampleLoopEnv]

/-- The second client is served, then the first leaves the session to it. -/
def stayRun : List Action :=
  secondRun ++ [Action.conn 1, Action.conn 1, Action.process 0 sampleProcessEnv, Action.thread 0,
    Action.thread 0, Action.disconnect 0, Action.conn 0, Action.process 0 sampleProcessEnv,
    Action.thread 0]

theorem sample_attached_once :
    ∃ s os, (daemon.guard fun s a => s.attachKept 1 a = true).exec init stayRun = some (s, os) ∧
      os.count (.sent 1 (.sessionAttached 1)) = 1 ∧ s.threads.map Thread.subscribers = [{1}] ∧
      s.AttachedOnce 1 os := by
  have hCheck : (daemon.guard fun s a => s.attachKept 1 a = true).check init stayRun
      (fun s os => decide (os.count (.sent 1 (.sessionAttached 1)) = 1 ∧
        s.threads.map Thread.subscribers = [{1}])) = true := by
    decide +kernel
  obtain ⟨s, os, hRun, hTold⟩ := Machine.exists_of_check hCheck
  obtain ⟨hTold, hSubscribers⟩ := of_decide_eq_true hTold
  exact ⟨s, os, hRun, hTold, hSubscribers, attached_once_of_attachKept hRun⟩

/-! When the thread has not yet looked at the second client's request and the first
leaves, the thread ends. -/

/-- The first client leaves, and the thread ends without a look at the second. -/
def lostRun : List Action :=
  secondRun ++ [Action.disconnect 0, Action.conn 0, Action.process 0 sampleProcessEnv, Action.conn 1, Action.conn 1, Action.thread 0,
    Action.thread 0, Action.thread 0, Action.thread 0]

theorem attach_is_lost : ¬∀ client as s os,
    daemon.exec init as = some (s, os) → s.AttachedOnce client os := by
  have hCheck : daemon.check init lostRun (fun s os =>
      !(s.conns 1).writerGone && decide (os.count (.sent 1 (.sessionAttached 1)) = 1) &&
        decide (os.count (.sent 1 (.sessionState 1)) = 0) &&
        (s.conns 1).effects.isEmpty && s.threads.all Thread.finished &&
        decide ((s.threads.map (Thread.attaching 1 1)).sum = 0)) = true := by
    decide +kernel
  intro h
  obtain ⟨s, os, hRun, hTest⟩ := Machine.exists_of_check hCheck
  simp only [Bool.and_eq_true, Bool.not_eq_true', decide_eq_true_eq, List.isEmpty_iff] at hTest
  obtain ⟨⟨⟨⟨⟨hWriter, hTold⟩, hGot⟩, hEffects⟩, -⟩, hAttaching⟩ := hTest
  have hBalance := (h 1 lostRun s os hRun).answered hWriter 1
  have hToSend : (s.desk 1).toSend 1 = 0 := by
    show (s.conns 1).effects.countP _ = 0
    rw [hEffects]
    rfl
  have hNone : (s.desk 1).attaching 1 = 0 := hAttaching
  omega

end Runs

end Conn

end System

end Choreographr.Daemon
