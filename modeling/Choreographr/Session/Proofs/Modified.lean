import Choreographr.Session.Proofs.Runs

/-!
# The modification time

A session's modification time is kept in memory, in the stored record, in the
daemon's index and in what subscribers are told. Commands that edit the
session raise it to the clock, never below its present value, and store it
before they announce it; every other step leaves it alone. So it never
decreases, whatever the clock does, and the stored value is always the one in
memory.

What subscribers are told agrees with it except at one place: the merge of a
finished run announces the clock itself and not the raised value
(`everyStep_modifiedConsistently_iff`). The two differ exactly when the clock reads less
than the session's modification time.
-/

namespace Choreographr.Session

open Lib

variable (env : Env)

/-- The modification time that an output shows. -/
def Output.modifiedAt : Output → Option Int
  | .broadcast (.sessionStatusChanged _ lastModified) => some lastModified
  | .updateMetadata metadata => some metadata.lastModified
  | _ => none

/-- The modification time in the stored record. -/
def Db.storedModified (env : Env) (db : Db) : Option Int :=
  (db.sessions.get? env.sessionId).map SessionRecord.lastModified

@[simp] theorem storedModified_writeSession (db : Db) (r : SessionRecord) :
    (db.writeSession env.sessionId r).storedModified env = some r.lastModified := by
  simp only [Db.storedModified, Db.writeSession, OrdMap.get?_insert, if_true, Option.map_some]
  split <;> rfl

theorem storedModified_of_sessions {env : Env} {db db' : Db} (h : db'.sessions = db.sessions) :
    db'.storedModified env = db.storedModified env := by
  rw [Db.storedModified, h, Db.storedModified]

/-- Outputs that show no modification time. -/
def Untimed (os : List Output) : Prop := ∀ o ∈ os, o.modifiedAt = none

theorem untimed_of_all {os : List Output} (h : os.all (fun o => o.modifiedAt.isNone) = true) :
    Untimed os := by
  intro o ho
  exact Option.isNone_iff_eq_none.mp (List.all_eq_true.mp h o ho)

theorem Untimed.append {os os' : List Output} (h : Untimed os) (h' : Untimed os') :
    Untimed (os ++ os') := by
  intro o ho
  rcases List.mem_append.mp ho with ho | ho
  · exact h o ho
  · exact h' o ho

theorem untimed_contextWindowEvent (window : Option Nat) : Untimed (contextWindowEvent window) := by
  apply untimed_of_all
  cases window <;> rfl

theorem untimed_cancelOutputs (targets : List Nat) : Untimed (cancelOutputs targets) := by
  apply untimed_of_all
  simp [cancelOutputs, Output.modifiedAt]

theorem untimed_attachOutputs (s : SessionState) : Untimed (attachOutputs env s) := by
  apply untimed_of_all
  simp [attachOutputs, Output.modifiedAt, SessionState.sessionStateMessage]

/-! ## Handlers -/

/-- The effect of a handler that never lowers the modification time, stores the
one it leaves in memory and shows no other. -/
structure Stamped (env : Env) (s : SessionState) (db : Db) (e : Effect) : Prop where
  le : s.config.lastModified ≤ e.state.config.lastModified
  stored : db.storedModified env = some s.config.lastModified →
    e.db.storedModified env = some e.state.config.lastModified
  shown : ∀ o ∈ e.outputs, ∀ t, o.modifiedAt = some t → t = e.state.config.lastModified

namespace Stamped

variable {env : Env} {s : SessionState} {db : Db}

theorem keep {e : Effect} (hTime : e.state.config.lastModified = s.config.lastModified)
    (hDb : e.db.sessions = db.sessions)
    (hShown : ∀ o ∈ e.outputs, ∀ t, o.modifiedAt = some t → t = s.config.lastModified) :
    Stamped env s db e where
  le := le_of_eq hTime.symm
  stored := by
    intro hStored
    rw [storedModified_of_sessions hDb, hStored, hTime]
  shown := by
    rw [hTime]
    exact hShown

theorem silent {e : Effect} (hTime : e.state.config.lastModified = s.config.lastModified)
    (hDb : e.db.sessions = db.sessions) (hShown : Untimed e.outputs) : Stamped env s db e := by
  refine keep hTime hDb ?_
  intro o ho t ht
  rw [hShown o ho] at ht
  cases ht

/-- A handler that edits the session and stores the record. -/
theorem persistAnd {s' : SessionState} (now : Int) {before after : List Output}
    (hTime : s'.config.lastModified = s.config.lastModified) (hBefore : Untimed before)
    (hAfter : Untimed after) : Stamped env s db (persistAnd env now s' db before after) where
  le := by
    rw [← hTime]
    exact le_max_left _ _
  stored := by
    intro _
    exact storedModified_writeSession env db _
  shown := by
    intro o ho t ht
    rcases List.mem_append.mp ho with ho | ho
    · rcases List.mem_append.mp ho with ho | ho
      · rw [hBefore o ho] at ht
        cases ht
      · rw [persistSessionMetadata, List.mem_singleton] at ho
        subst ho
        exact (Option.some.inj ht).symm
    · rw [hAfter o ho] at ht
      cases ht

end Stamped

theorem resolveProvider_lastModified (s : SessionState) (account : Option ResolvedAccount) :
    (resolveProvider s account).1.config.lastModified = s.config.lastModified := by
  unfold resolveProvider
  repeat' split
  all_goals rfl

theorem refreshContextWindow_lastModified (s : SessionState) :
    (s.refreshContextWindow env).1.config.lastModified = s.config.lastModified := by
  unfold SessionState.refreshContextWindow
  repeat' split
  all_goals rfl

theorem handleRunInput_stamped (shutdownRequested : Bool) (s : SessionState) (db : Db)
    (text : String) (account : Option ResolvedAccount) :
    Stamped env s db (handleRunInput env shutdownRequested s db text account).1 := by
  have hFail : ∀ streamId error, Untimed (failRequest streamId error) := by
    intro streamId error
    exact untimed_of_all rfl
  rw [handleRunInput]
  simp only
  split
  · exact .silent rfl rfl (hFail _ _)
  · have hResolve := resolveProvider_lastModified (takeStreamId s).1 account
    split
    · rename_i s₁ e hEq
      rw [hEq] at hResolve
      exact .silent hResolve rfl (hFail _ _)
    · rename_i s₁ provider hEq
      rw [hEq] at hResolve
      have hTime : (s₁.refreshContextWindow env).1.config.lastModified = s.config.lastModified :=
        (refreshContextWindow_lastModified env s₁).trans hResolve
      have hWindow := untimed_contextWindowEvent (s₁.refreshContextWindow env).2
      split
      · exact .silent hTime rfl (hWindow.append (hFail _ _))
      · split
        · exact .silent hTime rfl (hWindow.append (hFail _ _))
        · split
          · exact .silent hTime rfl (hWindow.append (hFail _ _))
          · exact .silent hTime rfl (hWindow.append (untimed_of_all rfl))

theorem handleRunChildInput_stamped (shutdownRequested : Bool) (s : SessionState) (db : Db)
    (userText : Option String) (account : Option ResolvedAccount) :
    Stamped env s db (handleRunChildInput shutdownRequested s db userText account).1 := by
  have hResolve := resolveProvider_lastModified (takeStreamId s).1 account
  rw [handleRunChildInput]
  simp only
  split
  · rename_i s₁ e hEq
    rw [hEq] at hResolve
    exact .silent hResolve rfl (untimed_of_all rfl)
  · rename_i s₁ provider hEq
    rw [hEq] at hResolve
    split
    · exact .silent hResolve rfl (untimed_of_all rfl)
    · split
      · exact .silent hResolve rfl (untimed_of_all rfl)
      · exact .silent hResolve rfl (untimed_of_all rfl)

theorem handleSetModel_stamped (now : Int) (s : SessionState) (db : Db) (model : String)
    (validation : Option String) :
    Stamped env s db (handleSetModel env now s db model validation) := by
  cases validation with
  | some error => exact .silent rfl rfl (untimed_of_all rfl)
  | none =>
    refine .persistAnd now rfl ?_ (untimed_of_all rfl)
    refine ((untimed_contextWindowEvent _).append ?_).append (untimed_of_all rfl)
    split <;> exact untimed_of_all rfl

theorem changeToolGroups_stamped (now : Int) (s : SessionState) (db : Db) (groups : List String)
    (known : Finset String) (change : Finset String → Finset String) :
    Stamped env s db (changeToolGroups env now s db groups known change) := by
  rw [changeToolGroups]
  simp only
  split
  · exact .silent rfl rfl (untimed_of_all rfl)
  · exact .persistAnd now rfl (untimed_of_all rfl) (untimed_of_all rfl)

theorem handleSetTitle_stamped (now : Int) (s : SessionState) (db : Db) (title : String) :
    Stamped env s db (handleSetTitle env now s db title) := by
  unfold handleSetTitle
  split
  · exact .silent rfl rfl (untimed_of_all rfl)
  · exact .persistAnd now rfl (untimed_of_all rfl) (untimed_of_all rfl)

theorem handleSetWorkingDir_stamped (now : Int) (s : SessionState) (db : Db) (path : String) :
    Stamped env s db (handleSetWorkingDir env now s db path) :=
  .persistAnd now rfl (untimed_of_all rfl) (untimed_of_all rfl)

theorem bindAccount_lastModified (s : SessionState) (name : String)
    (account : Option ResolvedAccount) :
    (bindAccount env s name account).1.config.lastModified = s.config.lastModified := by
  have hLeave : (leaveAccount s name).config.lastModified = s.config.lastModified := by
    unfold leaveAccount
    split <;> rfl
  unfold bindAccount
  simp only
  repeat' split
  all_goals exact hLeave

theorem bindAccount_untimed (s : SessionState) (name : String) (account : Option ResolvedAccount) :
    Untimed (bindAccount env s name account).2 := by
  unfold bindAccount
  simp only
  split
  · split
    · exact untimed_of_all rfl
    · exact untimed_contextWindowEvent _
  · exact untimed_of_all rfl

theorem handleSetAccount_stamped (now : Int) (s : SessionState) (db : Db) (name : String)
    (account : Option ResolvedAccount) :
    Stamped env s db (handleSetAccount env now s db name account) :=
  .persistAnd now (bindAccount_lastModified env s name account)
    ((bindAccount_untimed env s name account).append (untimed_of_all rfl)) (untimed_of_all rfl)

theorem handleSetReasoningEffort_stamped (s : SessionState) (db : Db) (effort : String) :
    Stamped env s db (handleSetReasoningEffort env s db effort) := by
  unfold handleSetReasoningEffort
  split
  · exact .silent rfl rfl (untimed_of_all rfl)
  · split
    · exact .silent rfl rfl (untimed_of_all rfl)
    · exact .silent rfl rfl (untimed_of_all rfl)

theorem sessions_writeTurns (db : Db) (turns : List (Nat × Turn)) :
    (writeTurns env db turns).sessions = db.sessions := by
  induction turns generalizing db with
  | nil => rfl
  | cons e rest ih => exact ih (db.writeTurn env.sessionId e.1 e.2)

theorem broadcastTokenState_shown (s : SessionState) {o : Output}
    (ho : o ∈ broadcastTokenState s) {t : Int} (ht : o.modifiedAt = some t) :
    t = s.config.lastModified := by
  rw [broadcastTokenState, List.mem_cons, List.mem_singleton] at ho
  rcases ho with rfl | rfl
  · cases ht
  · exact (Option.some.inj ht).symm

theorem historyOutputs_shown (s : SessionState) {event : SessionEvent}
    (hEvent : (Output.broadcast event).modifiedAt = none) {o : Output}
    (ho : o ∈ Output.broadcast event :: broadcastTokenState s ++ [Output.reply .accepted]) {t : Int}
    (ht : o.modifiedAt = some t) : t = s.config.lastModified := by
  rcases List.mem_append.mp ho with ho | ho
  · rcases List.mem_cons.mp ho with rfl | ho
    · rw [hEvent] at ht
      cases ht
    · exact broadcastTokenState_shown s ho ht
  · rw [List.mem_singleton] at ho
    subst ho
    cases ht

theorem undoTurns_lastModified {s s' : SessionState} {ids : List Nat}
    (h : s.undoTurns = some (s', ids)) : s'.config.lastModified = s.config.lastModified := by
  unfold SessionState.undoTurns at h
  split at h
  · cases h
  · cases h
    rfl

theorem redoTurns_lastModified {s s' : SessionState} {restored : Turns}
    (h : s.redoTurns = some (s', restored)) : s'.config.lastModified = s.config.lastModified := by
  unfold SessionState.redoTurns at h
  split at h
  · cases h
  · cases h
    rfl

/-- An undo stores the record without raising the time, if it stores it. -/
theorem handleUndo_stamped (s : SessionState) (db : Db) :
    Stamped env s db (handleUndo env s db) := by
  unfold handleUndo
  split
  · exact .silent rfl rfl (untimed_of_all rfl)
  · split
    · exact .silent rfl rfl (untimed_of_all rfl)
    · rename_i s₁ turnIds hUndo
      have hTime := undoTurns_lastModified hUndo
      simp only
      by_cases hChain : s₁.config.lastResponseId.isSome = true
      · rw [if_pos hChain, if_pos hChain]
        refine ⟨le_of_eq hTime.symm, ?_, fun o ho t ht => historyOutputs_shown _ rfl ho ht⟩
        intro _
        rw [storedModified_of_sessions (sessions_writeTurns env _ _), storedModified_writeSession]
        rfl
      · rw [if_neg hChain, if_neg hChain]
        refine .keep hTime (sessions_writeTurns env db _) ?_
        intro o ho t ht
        rw [← hTime]
        exact historyOutputs_shown s₁ rfl ho ht

theorem handleRedo_stamped (s : SessionState) (db : Db) :
    Stamped env s db (handleRedo env s db) := by
  unfold handleRedo
  split
  · exact .silent rfl rfl (untimed_of_all rfl)
  · split
    · exact .silent rfl rfl (untimed_of_all rfl)
    · rename_i s₁ restored hRedo
      have hTime := redoTurns_lastModified hRedo
      refine .keep hTime (sessions_writeTurns env db _) ?_
      intro o ho t ht
      rw [← hTime]
      exact historyOutputs_shown s₁ rfl ho ht

/-! ## Messages of the worker -/

/-- A message whose relayed event shows no modification time. -/
def WorkerMessage.Untimed : WorkerMessage → Prop
  | .broadcast event => (Output.broadcast event).modifiedAt = none
  | _ => True

theorem handleWorkerMessage_stamped (now : Int) (s : SessionState) (db : Db) {m : WorkerMessage}
    (hUntimed : m.Untimed) (hProgress : m.Progress) :
    Stamped env s db (handleWorkerMessage env now s db m) := by
  cases m with
  | broadcast event =>
    refine .silent ?_ rfl ?_
    · simp only [handleWorkerMessage, handleBroadcast]
      cases event <;> rfl
    · intro o ho
      rw [handleWorkerMessage, handleBroadcast, List.mem_singleton] at ho
      subst ho
      exact hUntimed
  | statusChanged status =>
    refine .keep rfl rfl ?_
    intro o ho t ht
    rw [handleWorkerMessage, handleStatusChanged, List.mem_cons, List.mem_singleton] at ho
    rcases ho with rfl | rfl
    · exact (Option.some.inj ht).symm
    · cases ht
  | syncAccumulatedUsage usage lastPromptTokens =>
    refine .keep rfl rfl ?_
    intro o ho t ht
    exact broadcastTokenState_shown _ ho ht
  | requestFinished streamId snapshot => exact absurd rfl (hProgress streamId snapshot)

theorem sessions_foldl_mergeTurn (persisted : Finset Nat) (entries : List (Nat × Turn))
    (acc : Turns × Db) :
    (entries.foldl (mergeTurn env persisted) acc).2.sessions = acc.2.sessions := by
  induction entries generalizing acc with
  | nil => rfl
  | cons e rest ih =>
    rw [List.foldl_cons, ih]
    simp only [mergeTurn]
    rw [apply_ite Db.sessions]
    exact ite_self _

theorem handleRequestFinished_stored (now : Int) (s : SessionState) (db : Db) (streamId : Nat)
    (snapshot : SessionSnapshot) :
    (handleRequestFinished env now s db streamId snapshot).db.storedModified env =
      some (max s.config.lastModified now) := by
  unfold handleRequestFinished
  rw [storedModified_of_sessions (sessions_foldl_mergeTurn env _ _ _), storedModified_writeSession]
  rfl

/-- The merge shows the raised time to the daemon and the clock to subscribers,
so they agree exactly when the clock is not behind. -/
theorem handleRequestFinished_shown_iff (now : Int) (s : SessionState) (db : Db) (streamId : Nat)
    (snapshot : SessionSnapshot) :
    (∀ o ∈ (handleRequestFinished env now s db streamId snapshot).outputs, ∀ t,
        o.modifiedAt = some t → t = max s.config.lastModified now) ↔
      s.config.lastModified ≤ now := by
  constructor
  · intro h
    have hClock : now = max s.config.lastModified now :=
      h (.broadcast (.sessionStatusChanged .inactive now))
        (List.mem_cons_of_mem _ List.mem_cons_self) now rfl
    rw [hClock]
    exact le_max_left _ _
  · intro hClock o ho t ht
    simp only [handleRequestFinished, List.mem_cons, List.not_mem_nil, or_false] at ho
    rcases ho with rfl | rfl | rfl
    · exact (Option.some.inj ht).symm
    · rw [max_eq_right hClock]
      exact (Option.some.inj ht).symm
    · cases ht

/-! ## The worker -/

theorem sessions_persistTurn (db : Db) (s : SessionState) (turnId : Nat) :
    (Worker.persistTurn env db s turnId).2.sessions = db.sessions := by
  unfold Worker.persistTurn
  simp only
  split <;> rfl

theorem sessions_writeAttachment (db : Db) (sid tid : Nat) (slot : String) (data : Bytes) :
    (db.writeAttachment sid tid slot data).sessions = db.sessions := by
  unfold Db.writeAttachment
  split <;> rfl

theorem sessions_recordCompletion (turnId : Nat) (acc : SessionState × Db) (c : Completion) :
    (Worker.recordCompletion env turnId acc c).2.sessions = acc.2.sessions := by
  simp only [Worker.recordCompletion, Db.recordToolCompletion]
  repeat' split
  all_goals simp only [sessions_writeAttachment]

theorem sessions_recordCompletions (turnId : Nat) (s : SessionState) (db : Db)
    (completions : List Completion) :
    (Worker.recordCompletions env turnId s db completions).2.sessions = db.sessions := by
  induction completions generalizing s db with
  | nil => rfl
  | cons c rest ih =>
    rw [Worker.recordCompletions, List.foldl_cons]
    exact (ih _ _).trans (sessions_recordCompletion env turnId (s, db) c)

/-- A worker writes turns and images, never the record. -/
theorem Worker.Move.sessions_eq {env : Env} {db : Db} {server : Server} {w : Worker}
    {e : WorkerEvent} {r : WorkerResult} (h : w.Move env db server e r) :
    r.db.sessions = db.sessions := by
  cases h with
  | finalized turnId next w' hPhase hBetween => exact sessions_persistTurn env db _ _
  | tool e turnId b b' completions cancels hPhase hStep =>
    exact sessions_recordCompletions env turnId _ db completions
  | toolsDone writeOk turnId b w' hPhase hDone written hWritten hBetween =>
    subst hWritten
    dsimp only
    split
    · exact sessions_persistTurn env db _ _
    · rfl
  | _ => rfl

theorem untimed_turnAppended (s : SessionState) (id : Nat) : ∀ m ∈ s.turnAppended id, m.Untimed := by
  intro m hm
  rw [SessionState.turnAppended] at hm
  split at hm
  · rw [List.mem_singleton] at hm
    subst hm
    rfl
  · cases hm

/-- No message of a worker relays a modification time. -/
theorem Worker.Move.sent_untimed {env : Env} {db : Db} {server : Server} {w : Worker}
    {e : WorkerEvent} {r : WorkerResult} (h : w.Move env db server e r) :
    ∀ m ∈ r.sent, m.Untimed := by
  intro m hm
  cases h with
  | beginTurn now systemPrompt estimate hStart hBound =>
    rcases List.mem_append.mp hm with hm | hm
    · exact untimed_turnAppended _ _ m hm
    · rw [List.mem_cons, List.mem_singleton] at hm
      rcases hm with rfl | rfl
      · trivial
      · rfl
  | status status =>
    rw [List.mem_singleton] at hm
    subst hm
    trivial
  | finalText turnId request r server' hPhase hServer =>
    rw [List.mem_singleton] at hm
    subst hm
    trivial
  | toolUse turnId request r server' hPhase hServer =>
    rcases List.mem_cons.mp hm with rfl | hm
    · trivial
    · exact untimed_turnAppended _ _ m hm
  | finalized turnId next w' hPhase hBetween => exact untimed_turnAppended _ _ m hm
  | toolsDone writeOk turnId b w' hPhase hDone written hWritten hBetween =>
    dsimp only at hm
    split at hm
    · exact untimed_turnAppended _ _ m hm
    · cases hm
  | finish outcome snapshot hPhase =>
    rcases List.mem_append.mp hm with hm | hm
    · cases outcome with
      | cancelled => cases hm
      | _ =>
        rw [Worker.outcomeMessages, List.mem_singleton] at hm
        subst hm
        rfl
    · rw [List.mem_singleton] at hm
      subst hm
      trivial
  | _ => cases hm

theorem Worker.Move.trace_untimed {env : Env} {db : Db} {server : Server} {w : Worker}
    {e : WorkerEvent} {r : WorkerResult} (h : w.Move env db server e r) : Untimed r.trace := by
  cases h with
  | finish outcome snapshot hPhase =>
    dsimp only
    split <;> exact untimed_of_all rfl
  | _ => exact untimed_of_all rfl

/-! ## Runs -/

/-- The step keeps the modification time from decreasing, leaves the same value
in memory and in the store, and shows no other value. -/
def ModifiedConsistently (env : Env) (s : System) (_ : Action) (s' : System)
    (os : List Output) : Prop :=
  s.main.config.lastModified ≤ s'.main.config.lastModified ∧
    s'.db.storedModified env = some s'.main.config.lastModified ∧
    ∀ o ∈ os, ∀ t ∈ o.modifiedAt, t = s'.main.config.lastModified

instance (env : Env) (s : System) (a : Action) (s' : System) (os : List Output) :
    Decidable (ModifiedConsistently env s a s' os) :=
  inferInstanceAs (Decidable (_ ∧ _ ∧ _))

/-- If the step merges a finished run, its clock is not behind the session's
modification time. -/
def System.mergesOnTime (s : System) : Action → Bool
  | .deliver now =>
      match s.inbox with
      | .requestFinished _ _ :: _ => s.main.config.lastModified ≤ now
      | _ => true
  | _ => true

/-- The stored time is the one in memory, and no relayed event shows one. -/
structure StoredInv (env : Env) (s : System) : Prop where
  stored : s.db.storedModified env = some s.main.config.lastModified
  inbox : ∀ m ∈ s.inbox, m.Untimed

theorem load_lastModified (record : SessionRecord) (slug : Option String) (turns : Turns) :
    (SessionState.load env record slug turns).config.lastModified = record.lastModified := by
  unfold SessionState.load
  exact refreshContextWindow_lastModified env _

theorem storedInv_init (config : SessionConfig) (slug : Option String) :
    StoredInv env (System.init env config slug) := by
  constructor
  · rw [System.init]
    simp only
    rw [storedModified_writeSession, load_lastModified]
  · intro m hm
    cases hm

theorem Stamped.step {env : Env} {s s' : System} {a : Action} {e : Effect}
    (h : Stamped env s.main s.db e) (hInv : StoredInv env s) (hMain : s'.main = e.state)
    (hDb : s'.db = e.db) : ModifiedConsistently env s a s' e.outputs := by
  rw [ModifiedConsistently, hMain, hDb]
  exact ⟨h.le, h.stored hInv.stored, h.shown⟩

theorem command_stamped (now : Int) (s : System) (c : Command) :
    ∃ e, Stamped env s.main s.db e ∧ (s.command env now c).1.main = e.state ∧
      (s.command env now c).1.db = e.db ∧ (s.command env now c).2 = e.outputs ∧
      (s.command env now c).1.inbox = s.inbox := by
  cases c with
  | runInput text account =>
    have hStamped := handleRunInput_stamped env s.shutdownRequested s.main s.db text account
    simp only [System.command]
    generalize handleRunInput env s.shutdownRequested s.main s.db text account = r at hStamped ⊢
    exact ⟨r.1, hStamped, rfl, rfl, rfl, rfl⟩
  | runChildInput userText account =>
    have hStamped :=
      handleRunChildInput_stamped env s.shutdownRequested s.main s.db userText account
    simp only [System.command]
    generalize handleRunChildInput s.shutdownRequested s.main s.db userText account = r
      at hStamped ⊢
    exact ⟨r.1, hStamped, rfl, rfl, rfl, rfl⟩
  | cancel streamId =>
    exact ⟨⟨s.main, s.db, cancelOutputs _⟩, .silent rfl rfl (untimed_cancelOutputs _), rfl, rfl,
      rfl, rfl⟩
  | setModel model validation =>
    exact ⟨_, handleSetModel_stamped env now _ _ model validation, rfl, rfl, rfl, rfl⟩
  | setTitle title => exact ⟨_, handleSetTitle_stamped env now _ _ title, rfl, rfl, rfl, rfl⟩
  | setWorkingDir path =>
    exact ⟨_, handleSetWorkingDir_stamped env now _ _ path, rfl, rfl, rfl, rfl⟩
  | loadTools groups known =>
    exact ⟨_, changeToolGroups_stamped env now _ _ groups known _, rfl, rfl, rfl, rfl⟩
  | unloadTools groups known =>
    exact ⟨_, changeToolGroups_stamped env now _ _ groups known _, rfl, rfl, rfl, rfl⟩
  | setAccount name account =>
    exact ⟨_, handleSetAccount_stamped env now _ _ name account, rfl, rfl, rfl, rfl⟩
  | dropProvider =>
    exact ⟨⟨{ s.main with provider := none }, s.db, []⟩, .silent rfl rfl (untimed_of_all rfl),
      rfl, rfl, rfl, rfl⟩
  | setProviderSlug slug =>
    exact ⟨⟨{ s.main with providerSlug := slug }, s.db, []⟩, .silent rfl rfl (untimed_of_all rfl),
      rfl, rfl, rfl, rfl⟩
  | setReasoningEffort effort =>
    exact ⟨_, handleSetReasoningEffort_stamped env _ _ effort, rfl, rfl, rfl, rfl⟩
  | attach =>
    exact ⟨⟨s.main, s.db, attachOutputs env s.main⟩,
      .silent rfl rfl (untimed_attachOutputs env s.main), rfl, rfl, rfl, rfl⟩
  | undo => exact ⟨_, handleUndo_stamped env _ _, rfl, rfl, rfl, rfl⟩
  | redo => exact ⟨_, handleRedo_stamped env _ _, rfl, rfl, rfl, rfl⟩
  | shutdown =>
    exact ⟨⟨s.main, s.db, cancelOutputs _⟩, .silent rfl rfl (untimed_cancelOutputs _), rfl, rfl,
      rfl, rfl⟩

/-- What a step does to the modification time: the stored value stays the one
in memory, and the step is consistent unless it is a merge with its clock
behind. -/
theorem storedInv_step {env : Env} {s s' : System} {a : Action} {os : List Output}
    (h : StoredInv env s) (hStep : (system env).step s a = some (s', os)) :
    StoredInv env s' ∧ (ModifiedConsistently env s a s' os ↔ s.mergesOnTime a = true) := by
  cases a with
  | command now c =>
    simp only [system, System.step, Option.some.injEq] at hStep
    obtain ⟨e, hStamped, hMain, hDb, hOutputs, hInbox⟩ := command_stamped env now s c
    rw [hStep] at hMain hDb hOutputs hInbox
    subst hOutputs
    have hConsistent := hStamped.step (a := .command now c) h hMain hDb
    refine ⟨⟨hConsistent.2.1, ?_⟩, iff_of_true hConsistent rfl⟩
    rw [hInbox]
    exact h.inbox
  | deliver now =>
    cases move_of_step hStep with
    | deliver _ m rest hInbox =>
      have hRest : ∀ m' ∈ rest, m'.Untimed := by
        intro m' hm'
        exact h.inbox m' (hInbox ▸ List.mem_cons_of_mem _ hm')
      by_cases hProgress : m.Progress
      · have hStamped := handleWorkerMessage_stamped env now s.main s.db
          (h.inbox m (hInbox ▸ List.mem_cons_self)) hProgress
        have hOnTime : s.mergesOnTime (.deliver now) = true := by
          simp only [System.mergesOnTime, hInbox]
          split
          · rename_i hEq
            cases hEq
            exact absurd rfl (hProgress _ _)
          · rfl
        have hConsistent : ModifiedConsistently env s (.deliver now)
            { s.applyEffect (handleWorkerMessage env now s.main s.db m) with inbox := rest }
            (handleWorkerMessage env now s.main s.db m).outputs := hStamped.step h rfl rfl
        exact ⟨⟨hConsistent.2.1, hRest⟩, iff_of_true hConsistent hOnTime⟩
      · obtain ⟨streamId, snapshot, rfl⟩ : ∃ streamId snapshot,
            m = .requestFinished streamId snapshot := by
          simpa [WorkerMessage.Progress] using hProgress
        have hStored := handleRequestFinished_stored env now s.main s.db streamId snapshot
        refine ⟨⟨hStored, hRest⟩, ?_⟩
        have hShown := handleRequestFinished_shown_iff env now s.main s.db streamId snapshot
        simp only [System.mergesOnTime, hInbox, decide_eq_true_eq]
        rw [← hShown]
        constructor
        · intro hConsistent
          exact hConsistent.2.2
        · intro hTimes
          exact ⟨le_max_left _ _, hStored, hTimes⟩
  | worker e =>
    cases move_of_step hStep with
    | worker _ w r hWorker hMove =>
      have hStored : r.db.storedModified env = some s.main.config.lastModified := by
        rw [storedModified_of_sessions hMove.sessions_eq]
        exact h.stored
      refine ⟨⟨hStored, ?_⟩, iff_of_true ⟨le_rfl, hStored, ?_⟩ rfl⟩
      · intro m hm
        rcases List.mem_append.mp hm with hm | hm
        · exact h.inbox m hm
        · exact hMove.sent_untimed m hm
      · intro o ho t ht
        rw [hMove.trace_untimed o ho] at ht
        cases ht
  | reload providerSlug =>
    cases move_of_step hStep with
    | reload _ record hIdle hRecord =>
      have hTime : record.lastModified = s.main.config.lastModified := by
        have hWritten := storedModified_writeSession env s.db s.main.toRecord
        rw [Db.storedModified, hRecord] at hWritten
        exact Option.some.inj hWritten
      have hLoad : (SessionState.load env record providerSlug
          (OrdMap.empty.insertAll (s.db.readTurns env.sessionId))).config.lastModified =
            s.main.config.lastModified := (load_lastModified env record _ _).trans hTime
      have hStored : (s.db.writeSession env.sessionId s.main.toRecord).storedModified env =
          some s.main.config.lastModified := storedModified_writeSession env s.db _
      refine ⟨⟨hStored.trans (congrArg some hLoad.symm), h.inbox⟩,
        iff_of_true ⟨le_of_eq hLoad.symm, hStored.trans (congrArg some hLoad.symm), ?_⟩ rfl⟩
      intro o ho t ht
      rw [List.mem_singleton] at ho
      subst ho
      exact (Option.some.inj ht).symm

/-- A run keeps one modification time everywhere, and never lowers it, exactly
when no merge of it reads a clock behind that time. -/
theorem everyStep_modifiedConsistently_iff (env : Env) (config : SessionConfig)
    (slug : Option String) (actions : List Action) :
    (system env).EveryStep (ModifiedConsistently env) (System.init env config slug) actions ↔
      (system env).EveryStep (fun s a _ _ => s.mergesOnTime a = true)
        (System.init env config slug) actions :=
  Machine.everyStep_congr (fun h hStep => (storedInv_step h hStep).1)
    (fun h hStep => (storedInv_step h hStep).2) (storedInv_init env config slug) actions

/-- The session is renamed at time 20; its run is merged when the clock reads
9, and that is what subscribers are told. -/
theorem not_everyStep_modifiedConsistently_after_clock_step :
    ¬(system sampleEnv).EveryStep (ModifiedConsistently sampleEnv)
      (System.init sampleEnv (sampleConfig "chained") (some "openai"))
      (.command 20 (.setTitle "notes") ::
        sampleRun "hello" [.enter [], .iterate 1 "" 0, .finalText { content := "hi" },
          .finalize none, .finish] 7) := by
  decide +kernel

end Choreographr.Session
