import Choreographr.Session.System

/-!
# What one step can do

Every law about runs of a session is proved from two inversion lemmas.
`Worker.move_of_step` lists the moves of a worker, and `move_of_step` those of
the system. Most commands fall into one case: they leave the conversation, its
counters and its response chain alone (`SameHistory`), write nothing but the
session record, and say nothing that the laws about outputs look at
(`Output.Quiet`).
-/

namespace Choreographr.Session

open Lib

variable {total : TokenUsage} {os : List Output} {s s' : System} {env : Env}

/-! ## Commands that leave the conversation alone -/

/-- The conversation and everything derived from it is the same; the cached
skills are too, unless they were dropped. -/
structure SameHistory (s s' : SessionState) : Prop where
  turns : s'.turns = s.turns
  nextTurnId : s'.nextTurnId = s.nextTurnId
  redoStack : s'.redoStack = s.redoStack
  persistedTurns : s'.persistedTurns = s.persistedTurns
  accumulatedUsage : s'.config.accumulatedUsage = s.config.accumulatedUsage
  lastPromptTokens : s'.config.lastPromptTokens = s.config.lastPromptTokens
  lastResponseId : s'.config.lastResponseId = s.config.lastResponseId
  lastResponseIdProducer : s'.config.lastResponseIdProducer = s.config.lastResponseIdProducer
  skills : s'.discoveredSkills = none ∨
    (s'.discoveredSkills = s.discoveredSkills ∧ s'.config.workingDir = s.config.workingDir)

namespace SameHistory

theorem refl (s : SessionState) : SameHistory s s :=
  ⟨rfl, rfl, rfl, rfl, rfl, rfl, rfl, rfl, Or.inr ⟨rfl, rfl⟩⟩

theorem trans {s₁ s₂ s₃ : SessionState} (h₁ : SameHistory s₁ s₂) (h₂ : SameHistory s₂ s₃) :
    SameHistory s₁ s₃ where
  turns := h₂.turns.trans h₁.turns
  nextTurnId := h₂.nextTurnId.trans h₁.nextTurnId
  redoStack := h₂.redoStack.trans h₁.redoStack
  persistedTurns := h₂.persistedTurns.trans h₁.persistedTurns
  accumulatedUsage := h₂.accumulatedUsage.trans h₁.accumulatedUsage
  lastPromptTokens := h₂.lastPromptTokens.trans h₁.lastPromptTokens
  lastResponseId := h₂.lastResponseId.trans h₁.lastResponseId
  lastResponseIdProducer := h₂.lastResponseIdProducer.trans h₁.lastResponseIdProducer
  skills := by
    rcases h₂.skills with hNone | ⟨hSkills, hDir⟩
    · exact Or.inl hNone
    · rcases h₁.skills with hNone | ⟨hSkills', hDir'⟩
      · exact Or.inl (hSkills.trans hNone)
      · exact Or.inr ⟨hSkills.trans hSkills', hDir.trans hDir'⟩

end SameHistory

/-- Only the session records differ. -/
def SameRows (db db' : Db) : Prop := db'.turns = db.turns ∧ db'.attachments = db.attachments

theorem SameRows.refl (db : Db) : SameRows db db := ⟨rfl, rfl⟩

theorem sameRows_writeSession (db : Db) (sid : Nat) (r : SessionRecord) :
    SameRows db (db.writeSession sid r) := ⟨rfl, rfl⟩

theorem SameRows.readTurn {db db' : Db} (h : SameRows db db') (sid tid : Nat) :
    db'.readTurn sid tid = db.readTurn sid tid := by
  obtain ⟨hTurns, hAttachments⟩ := h
  have hSlots : db'.slotData sid tid = db.slotData sid tid := by
    funext slot
    rw [Db.slotData, Db.slotData, hAttachments]
  rw [Db.readTurn, Db.readTurn, hTurns, hSlots]

/-- The accumulated total that an output shows to clients or to the daemon's
index. -/
def Output.published : Output → Option TokenUsage
  | .broadcast (.done _ usage _) => some usage
  | .broadcast (.tokenUsageUpdate usage _) => some usage
  | .broadcast (.sessionState view) => some view.tokenUsage
  | .updateMetadata metadata => some metadata.accumulatedUsage
  | _ => none

/-- An output that starts no turn, accepts no run, hides no turns and shows no
other total than `total`. -/
def Output.Quiet (total : TokenUsage) : Output → Prop
  | .startTurn _ _ => False
  | .reply (.started _ _) => False
  | .broadcast (.turnsUndone _) => False
  | o => ∀ usage, o.published = some usage → usage = total

/-- An output that none of the laws about outputs looks at. -/
def Output.silent : Output → Bool
  | .startTurn _ _ => false
  | .reply (.started _ _) => false
  | .broadcast (.turnsUndone _) => false
  | o => o.published.isNone

theorem Output.quiet_of_silent {o : Output} (h : o.silent = true) : o.Quiet total := by
  have hNone : ∀ usage, o.published = some usage → usage = total := by
    intro usage hUsage
    unfold silent at h
    split at h <;> simp_all
  unfold Quiet
  split <;> simp_all [silent]

theorem quiet_of_all_silent (h : os.all Output.silent = true) : ∀ o ∈ os, o.Quiet total := by
  intro o ho
  exact Output.quiet_of_silent (List.all_eq_true.mp h o ho)

/-- An output that neither accepts a run nor starts a turn. -/
def Output.Calm (o : Output) : Prop :=
  (∀ streamId turnId, o ≠ .reply (.started streamId turnId)) ∧ ∀ id text, o ≠ .startTurn id text

/-- The test for `Calm`. -/
def Output.isCalm : Output → Bool
  | .startTurn _ _ => false
  | .reply (.started _ _) => false
  | _ => true

theorem Output.calm_of_isCalm {o : Output} (h : o.isCalm = true) : o.Calm := by
  constructor
  · rintro streamId turnId rfl
    cases h
  · rintro id text rfl
    cases h

theorem Output.Quiet.calm {o : Output} (h : o.Quiet total) : o.Calm := by
  apply Output.calm_of_isCalm
  unfold Output.Quiet at h
  unfold Output.isCalm
  split at h <;> first | exact h.elim | (split <;> simp_all)

theorem calm_of_all_isCalm (h : os.all Output.isCalm = true) : ∀ o ∈ os, o.Calm := by
  intro o ho
  exact Output.calm_of_isCalm (List.all_eq_true.mp h o ho)

/-- The effect of a command that leaves the conversation alone. -/
structure QuietEffect (s : SessionState) (db : Db) (e : Effect) : Prop where
  history : SameHistory s e.state
  activeRequests : e.state.activeRequests = s.activeRequests
  rows : SameRows db e.db
  outputs : ∀ o ∈ e.outputs, o.Quiet e.state.config.accumulatedUsage

namespace QuietEffect

theorem unchanged (s : SessionState) (db : Db) {outputs : List Output}
    (h : outputs.all Output.silent = true) : QuietEffect s db { state := s, db, outputs } where
  history := SameHistory.refl s
  activeRequests := rfl
  rows := SameRows.refl db
  outputs := quiet_of_all_silent h

/-- A command that changes the state quietly and then stores the record. -/
theorem persistAnd (env : Env) (now : Int) {s s' : SessionState} (db : Db)
    {before after : List Output} (hHistory : SameHistory s s')
    (hActive : s'.activeRequests = s.activeRequests)
    (hBefore : ∀ o ∈ before, o.Quiet s'.config.accumulatedUsage)
    (hAfter : ∀ o ∈ after, o.Quiet s'.config.accumulatedUsage) :
    QuietEffect s db (persistAnd env now s' db before after) where
  history := hHistory.trans ⟨rfl, rfl, rfl, rfl, rfl, rfl, rfl, rfl, Or.inr ⟨rfl, rfl⟩⟩
  activeRequests := hActive
  rows := sameRows_writeSession _ _ _
  outputs := by
    intro o ho
    rcases List.mem_append.mp ho with ho | ho
    · rcases List.mem_append.mp ho with ho | ho
      · exact hBefore o ho
      · rw [persistSessionMetadata, List.mem_singleton] at ho
        subst ho
        intro usage hUsage
        exact (Option.some.inj hUsage).symm
    · exact hAfter o ho

end QuietEffect

theorem quiet_contextWindowEvent {window : Option Nat} :
    ∀ o ∈ contextWindowEvent window, o.Quiet total := by
  apply quiet_of_all_silent
  cases window <;> rfl

theorem quiet_sessionStateMessage (env : Env) (s : SessionState) :
    (Output.broadcast (s.sessionStateMessage env)).Quiet s.config.accumulatedUsage := by
  intro usage hUsage
  exact (Option.some.inj hUsage).symm

theorem quiet_attachOutputs (env : Env) (s : SessionState) :
    ∀ o ∈ attachOutputs env s, o.Quiet s.config.accumulatedUsage := by
  intro o ho
  rw [attachOutputs, List.mem_append, List.mem_singleton, List.mem_map] at ho
  rcases ho with ⟨e, _, rfl⟩ | rfl
  · exact Output.quiet_of_silent rfl
  · exact quiet_sessionStateMessage env s

theorem quiet_cancelOutputs (targets : List Nat) (total : TokenUsage) :
    ∀ o ∈ cancelOutputs targets, o.Quiet total := by
  apply quiet_of_all_silent
  simp [cancelOutputs, Output.silent, Output.published]

/-! ### The configuration commands -/

theorem selectModel_sameHistory (env : Env) (s : SessionState) (model : String) :
    SameHistory s (selectModel env s model).1 :=
  ⟨rfl, rfl, rfl, rfl, rfl, rfl, rfl, rfl, Or.inr ⟨rfl, rfl⟩⟩

theorem handleSetModel_quiet (env : Env) (now : Int) (s : SessionState) (db : Db)
    (model : String) (validation : Option String) :
    QuietEffect s db (handleSetModel env now s db model validation) := by
  cases validation with
  | some error => exact QuietEffect.unchanged s db rfl
  | none =>
    refine QuietEffect.persistAnd env now db (selectModel_sameHistory env s model) rfl ?_
      (quiet_of_all_silent rfl)
    intro o ho
    simp only [selectModel, List.mem_append] at ho
    rcases ho with (ho | ho) | ho
    · exact quiet_contextWindowEvent o ho
    · split at ho
      · exact quiet_of_all_silent rfl o ho
      · cases ho
    · exact quiet_of_all_silent rfl o ho

theorem handleSetTitle_quiet (env : Env) (now : Int) (s : SessionState) (db : Db)
    (title : String) : QuietEffect s db (handleSetTitle env now s db title) := by
  rw [handleSetTitle]
  split
  · exact QuietEffect.unchanged s db rfl
  · exact QuietEffect.persistAnd env now db
      ⟨rfl, rfl, rfl, rfl, rfl, rfl, rfl, rfl, Or.inr ⟨rfl, rfl⟩⟩ rfl
      (quiet_of_all_silent rfl) (quiet_of_all_silent rfl)

theorem handleSetWorkingDir_quiet (env : Env) (now : Int) (s : SessionState) (db : Db)
    (path : String) : QuietEffect s db (handleSetWorkingDir env now s db path) := by
  rw [handleSetWorkingDir]
  exact QuietEffect.persistAnd env now db
    ⟨rfl, rfl, rfl, rfl, rfl, rfl, rfl, rfl, Or.inl rfl⟩ rfl
    (quiet_of_all_silent rfl) (quiet_of_all_silent rfl)

theorem changeToolGroups_quiet (env : Env) (now : Int) (s : SessionState) (db : Db)
    (groups : List String) (known : Finset String) (change : Finset String → Finset String) :
    QuietEffect s db (changeToolGroups env now s db groups known change) := by
  simp only [changeToolGroups]
  split
  · exact QuietEffect.unchanged s db rfl
  · refine QuietEffect.persistAnd env now db
      ⟨rfl, rfl, rfl, rfl, rfl, rfl, rfl, rfl, Or.inr ⟨rfl, rfl⟩⟩ rfl ?_
      (quiet_of_all_silent rfl)
    intro o ho
    rw [List.mem_singleton] at ho
    exact ho ▸ quiet_sessionStateMessage env _

theorem leaveAccount_sameHistory (s : SessionState) (name : String) :
    SameHistory s (leaveAccount s name) := by
  rw [leaveAccount]
  split
  · exact SameHistory.refl s
  · exact ⟨rfl, rfl, rfl, rfl, rfl, rfl, rfl, rfl, Or.inr ⟨rfl, rfl⟩⟩

theorem leaveAccount_activeRequests (s : SessionState) (name : String) :
    (leaveAccount s name).activeRequests = s.activeRequests := by
  rw [leaveAccount]
  split <;> rfl

theorem bindProvider_sameHistory (s : SessionState) (account : Option ResolvedAccount) :
    SameHistory s (bindProvider s account) :=
  ⟨rfl, rfl, rfl, rfl, rfl, rfl, rfl, rfl, Or.inr ⟨rfl, rfl⟩⟩

theorem bindAccount_sameHistory (env : Env) (s : SessionState) (name : String)
    (account : Option ResolvedAccount) : SameHistory s (bindAccount env s name account).1 := by
  have hBound : SameHistory s (bindProvider (leaveAccount s name) account) :=
    (leaveAccount_sameHistory s name).trans (bindProvider_sameHistory _ account)
  refine hBound.trans ?_
  simp only [bindAccount]
  split
  · split <;> exact ⟨rfl, rfl, rfl, rfl, rfl, rfl, rfl, rfl, Or.inr ⟨rfl, rfl⟩⟩
  · exact ⟨rfl, rfl, rfl, rfl, rfl, rfl, rfl, rfl, Or.inr ⟨rfl, rfl⟩⟩

theorem handleSetAccount_quiet (env : Env) (now : Int) (s : SessionState) (db : Db)
    (name : String) (account : Option ResolvedAccount) :
    QuietEffect s db (handleSetAccount env now s db name account) := by
  rw [handleSetAccount]
  refine QuietEffect.persistAnd env now db (bindAccount_sameHistory env s name account) ?_ ?_
    (quiet_of_all_silent rfl)
  · rw [← leaveAccount_activeRequests s name]
    simp only [bindAccount]
    split
    · split <;> rfl
    · rfl
  · intro o ho
    rcases List.mem_append.mp ho with ho | ho
    · simp only [bindAccount] at ho
      split at ho
      · split at ho
        · cases ho
        · exact quiet_contextWindowEvent o ho
      · cases ho
    · exact quiet_of_all_silent rfl o ho

theorem handleSetReasoningEffort_quiet (env : Env) (s : SessionState) (db : Db)
    (effort : String) : QuietEffect s db (handleSetReasoningEffort env s db effort) := by
  simp only [handleSetReasoningEffort]
  split
  · exact QuietEffect.unchanged s db rfl
  · split
    · exact
        { history := ⟨rfl, rfl, rfl, rfl, rfl, rfl, rfl, rfl, Or.inr ⟨rfl, rfl⟩⟩
          activeRequests := rfl
          rows := SameRows.refl db
          outputs := quiet_of_all_silent rfl }
    · exact QuietEffect.unchanged s db rfl

/-! ### Runs -/

theorem resolveProvider_sameHistory (s : SessionState) (account : Option ResolvedAccount) :
    SameHistory s (resolveProvider s account).1 ∧
      (resolveProvider s account).1.activeRequests = s.activeRequests := by
  rw [resolveProvider]
  split
  · exact ⟨SameHistory.refl s, rfl⟩
  · split
    · exact ⟨SameHistory.refl s, rfl⟩
    · split
      · exact ⟨SameHistory.refl s, rfl⟩
      · simp only
        split <;> exact ⟨⟨rfl, rfl, rfl, rfl, rfl, rfl, rfl, rfl, Or.inr ⟨rfl, rfl⟩⟩, rfl⟩

theorem refreshContextWindow_sameHistory (env : Env) (s : SessionState) :
    SameHistory s (s.refreshContextWindow env).1 ∧
      (s.refreshContextWindow env).1.activeRequests = s.activeRequests := by
  rw [SessionState.refreshContextWindow]
  split
  · exact ⟨SameHistory.refl s, rfl⟩
  · split
    · exact ⟨SameHistory.refl s, rfl⟩
    · split
      · exact ⟨SameHistory.refl s, rfl⟩
      · exact ⟨⟨rfl, rfl, rfl, rfl, rfl, rfl, rfl, rfl, Or.inr ⟨rfl, rfl⟩⟩, rfl⟩

/-- The effect of an accepted run: the conversation is untouched, the run is
the only active request, and its worker starts from the session's state. -/
structure AcceptEffect (s : SessionState) (db : Db) (e : Effect) (w : Worker) : Prop where
  history : SameHistory s e.state
  idle : s.activeRequests.entries = []
  activeRequests : e.state.activeRequests.entries = [(w.streamId, ⟨s.nextTurnId, 0⟩)]
  db_eq : e.db = db
  spawned : w = Worker.spawn w.streamId e.state w.slug w.model w.userText w.isChild
  outputs : ∀ o ∈ e.outputs, o.Quiet e.state.config.accumulatedUsage ∨
    o = .reply (.started w.streamId s.nextTurnId)

theorem acceptRun_entries {s : SessionState} {streamId : Nat}
    (h : s.activeRequests.entries = []) :
    (acceptRun s streamId).1.activeRequests.entries = [(streamId, ⟨s.nextTurnId, 0⟩)] := by
  have hKeys : ∀ k ∈ s.activeRequests.keys, k < streamId := by simp [OrdMap.keys, h]
  rw [acceptRun, OrdMap.insert_entries_of_gt hKeys, h, List.nil_append]

/-- A user's input is either refused quietly or accepted. -/
theorem handleRunInput_cases (env : Env) (shutdownRequested : Bool) (s : SessionState) (db : Db)
    (text : String) (account : Option ResolvedAccount) :
    (QuietEffect s db (handleRunInput env shutdownRequested s db text account).1 ∧
        (handleRunInput env shutdownRequested s db text account).2 = none) ∨
      ∃ w, (handleRunInput env shutdownRequested s db text account).2 = some w ∧
        w.isChild = false ∧
        AcceptEffect s db (handleRunInput env shutdownRequested s db text account).1 w := by
  have hTake : SameHistory s (takeStreamId s).1 :=
    ⟨rfl, rfl, rfl, rfl, rfl, rfl, rfl, rfl, Or.inr ⟨rfl, rfl⟩⟩
  have hRefuse : ∀ {s' : SessionState} {error : String} {streamId : Nat} (window : Option Nat),
      SameHistory s s' → s'.activeRequests = s.activeRequests →
      QuietEffect s db
        { state := s', db, outputs := contextWindowEvent window ++ failRequest streamId error } := by
    intro s' error streamId window hHistory hActive
    refine ⟨hHistory, hActive, SameRows.refl db, ?_⟩
    intro o ho
    rcases List.mem_append.mp ho with ho | ho
    · exact quiet_contextWindowEvent o ho
    · exact quiet_of_all_silent rfl o ho
  rw [handleRunInput]
  simp only
  split
  · left
    exact ⟨hRefuse none hTake rfl, rfl⟩
  · obtain ⟨hResolve, hResolveActive⟩ := resolveProvider_sameHistory (takeStreamId s).1 account
    split
    · rename_i s₁ e hEq
      rw [hEq] at hResolve hResolveActive
      left
      exact ⟨hRefuse none (hTake.trans hResolve) hResolveActive, rfl⟩
    · rename_i s₁ provider hEq
      rw [hEq] at hResolve hResolveActive
      obtain ⟨hRefresh, hRefreshActive⟩ := refreshContextWindow_sameHistory env s₁
      have hHistory := (hTake.trans hResolve).trans hRefresh
      have hActive : (s₁.refreshContextWindow env).1.activeRequests = s.activeRequests :=
        hRefreshActive.trans hResolveActive
      split
      · left
        exact ⟨hRefuse _ hHistory hActive, rfl⟩
      · rename_i model hModel
        split
        · left
          exact ⟨hRefuse _ hHistory hActive, rfl⟩
        · split
          · left
            exact ⟨hRefuse _ hHistory hActive, rfl⟩
          · rename_i hIdle
            right
            have hEmpty : (s₁.refreshContextWindow env).1.activeRequests.entries = [] := by
              simpa using hIdle
            refine ⟨_, rfl, rfl, ?_⟩
            constructor
            · exact hHistory.trans ⟨rfl, rfl, rfl, rfl, rfl, rfl, rfl, rfl, Or.inr ⟨rfl, rfl⟩⟩
            · rw [← hActive]
              exact hEmpty
            · rw [← hHistory.nextTurnId]
              exact acceptRun_entries hEmpty
            · rfl
            · rfl
            · intro o ho
              rcases List.mem_append.mp ho with ho | ho
              · exact Or.inl (quiet_contextWindowEvent o ho)
              · rw [List.mem_cons, List.mem_singleton] at ho
                rcases ho with rfl | rfl
                · right
                  rw [hHistory.nextTurnId]
                  rfl
                · exact Or.inl (Output.quiet_of_silent rfl)

/-- So is a child run; it answers its parent instead of a client. -/
theorem handleRunChildInput_cases (shutdownRequested : Bool) (s : SessionState) (db : Db)
    (userText : Option String) (account : Option ResolvedAccount) :
    (QuietEffect s db (handleRunChildInput shutdownRequested s db userText account).1 ∧
        (handleRunChildInput shutdownRequested s db userText account).2 = none) ∨
      ∃ w, (handleRunChildInput shutdownRequested s db userText account).2 = some w ∧
        AcceptEffect s db (handleRunChildInput shutdownRequested s db userText account).1 w := by
  have hTake : SameHistory s (takeStreamId s).1 :=
    ⟨rfl, rfl, rfl, rfl, rfl, rfl, rfl, rfl, Or.inr ⟨rfl, rfl⟩⟩
  obtain ⟨hResolve, hResolveActive⟩ := resolveProvider_sameHistory (takeStreamId s).1 account
  rw [handleRunChildInput]
  simp only
  split
  · rename_i s₁ e hEq
    rw [hEq] at hResolve hResolveActive
    left
    exact ⟨⟨hTake.trans hResolve, hResolveActive, SameRows.refl db, quiet_of_all_silent rfl⟩, rfl⟩
  · rename_i s₁ provider hEq
    rw [hEq] at hResolve hResolveActive
    have hHistory := hTake.trans hResolve
    split
    · left
      exact ⟨⟨hHistory, hResolveActive, SameRows.refl db, quiet_of_all_silent rfl⟩, rfl⟩
    · split
      · left
        exact ⟨⟨hHistory, hResolveActive, SameRows.refl db, quiet_of_all_silent rfl⟩, rfl⟩
      · rename_i hIdle
        right
        have hEmpty : s₁.activeRequests.entries = [] := by simpa using hIdle
        refine ⟨_, rfl, ?_⟩
        constructor
        · exact hHistory.trans ⟨rfl, rfl, rfl, rfl, rfl, rfl, rfl, rfl, Or.inr ⟨rfl, rfl⟩⟩
        · rw [← hEmpty, hResolveActive]
          rfl
        · rw [← hHistory.nextTurnId]
          exact acceptRun_entries hEmpty
        · rfl
        · rfl
        · intro o ho
          exact Or.inl (quiet_of_all_silent rfl o ho)

/-! ### Undo and redo -/

/-- The turns after hiding every live turn from `target` on. -/
def hideFrom (turns : Turns) (target : Nat) : Turns :=
  turns.mapVal fun id t => if target ≤ id && !t.undone then { t with undone := true } else t

/-- The ids that `hideFrom` hides. -/
def batchFrom (turns : Turns) (target : Nat) : List Nat :=
  (turns.entries.filter fun e => target ≤ e.1 && !e.2.undone).map Prod.fst

/-- The turns after making the turns `ids` live. -/
def showTurns (turns : Turns) (ids : List Nat) : Turns :=
  turns.mapVal fun id t => if id ∈ ids then { t with undone := false } else t

/-- What neither undo nor redo touches. -/
structure FlagsOnly (s s' : SessionState) : Prop where
  nextTurnId : s'.nextTurnId = s.nextTurnId
  persistedTurns : s'.persistedTurns = s.persistedTurns
  activeRequests : s'.activeRequests = s.activeRequests
  discoveredSkills : s'.discoveredSkills = s.discoveredSkills
  workingDir : s'.config.workingDir = s.config.workingDir
  accumulatedUsage : s'.config.accumulatedUsage = s.config.accumulatedUsage

/-- The effect of an undo that found the user turn `target`. -/
structure UndoEffect (env : Env) (s : SessionState) (db : Db) (e : Effect) (target : Nat) :
    Prop where
  target_eq : SessionState.undoTarget s.turns = some target
  flagsOnly : FlagsOnly s e.state
  turns : e.state.turns = hideFrom s.turns target
  redoStack : e.state.redoStack = batchFrom s.turns target :: s.redoStack
  lastPromptTokens : e.state.config.lastPromptTokens = liveLastPromptTokens e.state.turns
  lastResponseId : e.state.config.lastResponseId = none
  db_eq : ∃ db', SameRows db db' ∧ e.db = writeTurns env db'
    (e.state.turns.filter fun id _ => id ∈ batchFrom s.turns target).entries
  outputs : e.outputs = .broadcast (.turnsUndone (batchFrom s.turns target)) ::
    broadcastTokenState e.state ++ [.reply .accepted]

/-- The effect of a redo that popped the batch `ids`. -/
structure RedoEffect (env : Env) (s : SessionState) (db : Db) (e : Effect) (ids : List Nat) :
    Prop where
  flagsOnly : FlagsOnly s e.state
  turns : e.state.turns = showTurns s.turns ids
  redoStack : s.redoStack = ids :: e.state.redoStack
  lastPromptTokens : e.state.config.lastPromptTokens = liveLastPromptTokens e.state.turns
  lastResponseId : e.state.config.lastResponseId = s.config.lastResponseId
  lastResponseIdProducer :
    e.state.config.lastResponseIdProducer = s.config.lastResponseIdProducer
  db_eq : e.db = writeTurns env db (e.state.turns.filter fun id _ => id ∈ ids).entries
  outputs : e.outputs = .broadcast (.turnsRedone
      ((e.state.turns.filter fun id _ => id ∈ ids).entries.map fun e => (e.1, e.2.forClient))) ::
    broadcastTokenState e.state ++ [.reply .accepted]

/-- An undo is refused quietly or hides a batch. -/
theorem handleUndo_cases (env : Env) (s : SessionState) (db : Db) :
    QuietEffect s db (handleUndo env s db) ∨
      s.activeRequests.entries = [] ∧ ∃ target, UndoEffect env s db (handleUndo env s db) target := by
  rw [handleUndo]
  split
  · exact Or.inl (QuietEffect.unchanged s db rfl)
  · rename_i hIdle
    cases hTarget : SessionState.undoTarget s.turns with
    | none =>
      left
      simp only [SessionState.undoTurns, hTarget]
      exact QuietEffect.unchanged s db rfl
    | some target =>
      right
      refine ⟨not_not.mp hIdle, target, ?_⟩
      simp only [SessionState.undoTurns, hTarget]
      cases hChain : s.config.lastResponseId with
      | none =>
        exact ⟨hTarget, ⟨rfl, rfl, rfl, rfl, rfl, rfl⟩, rfl, rfl, rfl, rfl,
          ⟨db, SameRows.refl db, rfl⟩, rfl⟩
      | some responseId =>
        exact ⟨hTarget, ⟨rfl, rfl, rfl, rfl, rfl, rfl⟩, rfl, rfl, rfl, rfl,
          ⟨_, sameRows_writeSession _ _ _, rfl⟩, rfl⟩

/-- A redo is refused quietly or restores the newest batch. -/
theorem handleRedo_cases (env : Env) (s : SessionState) (db : Db) :
    QuietEffect s db (handleRedo env s db) ∨
      s.activeRequests.entries = [] ∧ ∃ ids, RedoEffect env s db (handleRedo env s db) ids := by
  rw [handleRedo]
  split
  · exact Or.inl (QuietEffect.unchanged s db rfl)
  · rename_i hIdle
    cases hStack : s.redoStack with
    | nil =>
      left
      simp only [SessionState.redoTurns, hStack]
      exact QuietEffect.unchanged s db rfl
    | cons ids rest =>
      right
      refine ⟨not_not.mp hIdle, ids, ?_⟩
      simp only [SessionState.redoTurns, hStack]
      exact ⟨⟨rfl, rfl, rfl, rfl, rfl, rfl⟩, rfl, hStack, rfl, rfl, rfl, rfl, rfl⟩

/-! ## Moves of a worker -/

namespace Worker

/-- The head of the loop is about to start a turn: the limit of iterations is
not reached and no cancellation waits. -/
def startsTurn (env : Env) (w : Worker) : Bool :=
  w.phase = .top && !(0 < env.maxTurns && env.maxTurns ≤ w.turnIter) && w.cancels = 0

/-- The session after the final write of a turn; a truncated call ends the
response chain. -/
def finalizedSession (s : SessionState) : AfterFinalize → SessionState
  | .truncated =>
      { s with config := { s.config with lastResponseId := none, lastResponseIdProducer := none } }
  | _ => s

/-- `w'` goes on from `w` between two turns: at the head of the loop, or
returning its own state. -/
structure Between (w w' : Worker) (session : SessionState) (prevRespId : Option String) :
    Prop where
  session_eq : w'.session = session
  prevRespId_eq : w'.prevRespId = prevRespId
  start : w'.initialSnapshot = w.initialSnapshot
  streamId : w'.streamId = w.streamId
  slug : w'.slug = w.slug
  model : w'.model = w.model
  phase : w'.phase = .top ∨ ∃ outcome, w'.phase = .returning outcome session.snapshot

theorem between_returning (w : Worker) (outcome : RequestOutcome) (cancels : Nat) :
    w.Between ({ w with cancels := cancels }.returning outcome) w.session w.prevRespId :=
  ⟨rfl, rfl, rfl, rfl, rfl, rfl, Or.inr ⟨outcome, rfl⟩⟩

theorem returning_phase_ne_top (w : Worker) (outcome : RequestOutcome) :
    (w.returning outcome).phase ≠ .top := by
  intro hTop
  cases hTop

theorem between_afterFinalize (w : Worker) (session : SessionState) (next : AfterFinalize) :
    w.Between ({ w with session := session }.afterFinalize next) (finalizedSession session next)
      (if next = .truncated then none else w.prevRespId) := by
  cases next with
  | answered => exact ⟨rfl, rfl, rfl, rfl, rfl, rfl, Or.inr ⟨.done, rfl⟩⟩
  | failed error => exact ⟨rfl, rfl, rfl, rfl, rfl, rfl, Or.inr ⟨.failed error, rfl⟩⟩
  | truncated =>
    simp only [afterFinalize]
    split
    · exact ⟨rfl, rfl, rfl, rfl, rfl, rfl, Or.inr ⟨.done, rfl⟩⟩
    · exact ⟨rfl, rfl, rfl, rfl, rfl, rfl, Or.inl rfl⟩

/-- The moves of a worker. `stop` covers every early return of the loop that
leaves the session as it is, a failed final write among them; `annotate` records a truncated call or an error
on the current turn. -/
inductive Move (env : Env) (db : Db) (server : Server) (w : Worker) :
    WorkerEvent → WorkerResult → Prop
  | enter (skills : List SkillMeta) (hPhase : w.phase = .spawned) :
      Move env db server w (.enter skills) { worker := w.enter env skills, db, server }
  | stop {e : WorkerEvent} (w' : Worker) (hBetween : w.Between w' w.session w.prevRespId)
      (hStopped : w'.phase ≠ .top)
      (hPoint : w.phase = .top ∨ (∃ turnId request, w.phase = .awaiting turnId request) ∨
        ∃ turnId next error, w.phase = .finalizing turnId next ∧ e = .finalize (some error)) :
      Move env db server w e { worker := some w', db, server }
  | beginTurn (now : Int) (systemPrompt : String) (estimate : Nat)
      (hStart : w.startsTurn env = true) (hBound : w.session.nextTurnId + 1 < 2 ^ 32) :
      Move env db server w (.iterate now systemPrompt estimate)
        { worker := some (w.beginTurn env now systemPrompt).1, db, server
          sent :=
            (w.beginTurn env now systemPrompt).1.session.turnAppended w.session.nextTurnId ++
              [.statusChanged .sending,
                .broadcast (.started w.streamId w.session.nextTurnId estimate)]
          trace := [.startTurn w.session.nextTurnId w.turnUserText] }
  | status (status : SessionStatus) :
      Move env db server w (.status status)
        { worker := some w, db, server, sent := [.statusChanged status] }
  | finalText (turnId : Nat) (request : InferenceRequest) (r : FinalText) (server' : Server)
      (hPhase : w.phase = .awaiting turnId request)
      (hServer : remember env server w turnId request r.responseId
        (some (if r.truncated then r.content ++ truncationNotice else r.content)) [] =
          some server') :
      Move env db server w (.finalText r)
        { worker := some
            { w with session := w.answer env turnId r, phase := .finalizing turnId .answered }
          db, server := server', sent := [tokenUsageSync (w.answer env turnId r)] }
  | toolUse (turnId : Nat) (request : InferenceRequest) (r : ToolUse) (server' : Server)
      (hPhase : w.phase = .awaiting turnId request)
      (hServer : remember env server w turnId request r.responseId r.content
        (r.toolCalls.map ChatToolCall.toRecord) = some server') :
      Move env db server w (.toolUse r)
        { worker := some
            { w with
              session := w.callTools env turnId r
              prevRespId := r.responseId
              phase := .tools turnId (Batch.start (indexCalls env r.toolCalls)) }
          db, server := server'
          sent := tokenUsageSync (w.callTools env turnId r) ::
            (w.callTools env turnId r).turnAppended turnId }
  | annotate {e : WorkerEvent} (turnId : Nat) (request : InferenceRequest) (f : Turn → Turn)
      (recoveries : Nat) (next : AfterFinalize) (hPhase : w.phase = .awaiting turnId request)
      (hNote : (∃ text, f = fun t => t.setAssistantResponse { text := some text }) ∧
          next = .truncated ∨
        (∃ error, f = fun t => { t with error := some error }) ∧ next ≠ .truncated) :
      Move env db server w e
        { worker := some
            { w with
              session := w.session.modifyTurn turnId f
              truncationRecoveries := recoveries
              phase := .finalizing turnId next }
          db, server }
  | finalized (turnId : Nat) (next : AfterFinalize) (w' : Worker)
      (hPhase : w.phase = .finalizing turnId next)
      (hBetween : w.Between w'
        (finalizedSession (persistTurn env db w.session turnId).1 next)
        (if next = .truncated then none else w.prevRespId))
      (hRetry : w'.phase = .top → next = .truncated) :
      Move env db server w (.finalize none)
        { worker := some w'
          db := (persistTurn env db w.session turnId).2, server
          sent := (persistTurn env db w.session turnId).1.turnAppended turnId }
  | tool (e : BatchEvent) (turnId : Nat) (b b' : Batch) (completions : List Completion)
      (cancels : Nat) (hPhase : w.phase = .tools turnId b)
      (hStep : b.step e = some (b', completions)) :
      Move env db server w (.tool e)
        { worker := some
            { w with
              session := (recordCompletions env turnId w.session db completions).1
              cancels := cancels
              phase := .tools turnId b' }
          db := (recordCompletions env turnId w.session db completions).2, server }
  | toolsDone (writeOk : Bool) (turnId : Nat) (b : Batch) (w' : Worker)
      (hPhase : w.phase = .tools turnId b) (hDone : b.phase = .done)
      (written : SessionState × Db)
      (hWritten : written = if writeOk then persistTurn env db (w.endTools env turnId b) turnId
        else (w.endTools env turnId b, db))
      (hBetween : w.Between w' written.1 w.prevRespId) :
      Move env db server w (.toolsDone writeOk)
        { worker := some w'
          db := written.2, server
          sent := if b.cancelled then (w.endTools env turnId b).turnAppended turnId else [] }
  | panic (hPhase : ∀ outcome snapshot, w.phase ≠ .returning outcome snapshot) :
      Move env db server w .panic
        { worker := some
            { w with phase := .returning (.failed "request worker panicked") w.initialSnapshot }
          db, server }
  | finish (outcome : RequestOutcome) (snapshot : SessionSnapshot)
      (hPhase : w.phase = .returning outcome snapshot) :
      Move env db server w .finish
        { worker := none, db, server
          sent := w.outcomeMessages outcome ++ [.requestFinished w.streamId snapshot]
          trace := if w.isChild then [.childReply (.ok (w.childResult outcome))] else [] }

/-- Every worker step is one of the moves. -/
theorem move_of_step {db : Db} {server : Server} {w : Worker} {e : WorkerEvent} {r : WorkerResult}
    (h : w.step env db server e = some r) : w.Move env db server e r := by
  cases e with
  | enter skills =>
    simp only [step] at h
    split at h
    · rename_i hPhase
      cases h
      exact .enter skills hPhase
    · cases h
  | iterate now systemPrompt estimate =>
    simp only [step] at h
    split at h
    · rename_i hPhase
      split at h
      · cases h
        exact .stop _ (between_returning w _ w.cancels) (returning_phase_ne_top _ _) (Or.inl hPhase)
      · rename_i hLimit
        split at h
        · cases h
          exact .stop _ (between_returning w _ (w.cancels - 1)) (returning_phase_ne_top _ _) (Or.inl hPhase)
        · rename_i hCancels
          split at h
          · rename_i hBound
            cases h
            refine .beginTurn now systemPrompt estimate ?_ hBound
            simp only [startsTurn, hPhase, Bool.and_eq_true, decide_eq_true_eq, Bool.not_eq_true',
              Bool.and_eq_false_iff, decide_eq_false_iff_not]
            exact ⟨⟨trivial, by omega⟩, by omega⟩
          · cases h
    · cases h
  | status status =>
    simp only [step] at h
    split at h
    · cases h
      exact .status status
    · cases h
  | finalText r =>
    simp only [step] at h
    split at h
    · rename_i turnId request hPhase
      split at h
      · cases h
      · rename_i server' hServer
        cases h
        exact .finalText turnId request r server' hPhase hServer
    · cases h
  | toolUse r =>
    simp only [step] at h
    split at h
    · rename_i turnId request hPhase
      split at h
      · cases h
      · rename_i server' hServer
        cases h
        exact .toolUse turnId request r server' hPhase hServer
    · cases h
  | unhandledVariant =>
    simp only [step] at h
    split at h
    · rename_i turnId request hPhase
      cases h
      exact .stop _ (between_returning w _ w.cancels) (returning_phase_ne_top _ _) (Or.inr (Or.inl ⟨_, _, hPhase⟩))
    · cases h
  | providerCancelled =>
    simp only [step] at h
    split at h
    · rename_i turnId request hPhase
      split at h
      · cases h
        exact .stop _ (between_returning w _ (w.cancels - 1)) (returning_phase_ne_top _ _)
          (Or.inr (Or.inl ⟨_, _, hPhase⟩))
      · cases h
    · cases h
  | truncatedToolCall names =>
    simp only [step] at h
    split at h
    · rename_i turnId request hPhase
      cases h
      exact .annotate turnId request _ _ _ hPhase (Or.inl ⟨⟨_, rfl⟩, rfl⟩)
    · cases h
  | providerError error =>
    simp only [step] at h
    split at h
    · rename_i turnId request hPhase
      cases h
      exact .annotate turnId request _ w.truncationRecoveries _ hPhase
        (Or.inr ⟨⟨error, rfl⟩, by simp⟩)
    · cases h
  | finalize writeError =>
    simp only [step] at h
    split at h
    · rename_i turnId next hPhase
      cases writeError with
      | none =>
        cases h
        refine .finalized turnId next _ hPhase (between_afterFinalize w _ next) ?_
        cases next with
        | truncated => exact fun _ => rfl
        | _ =>
          intro hTop
          cases hTop
      | some error =>
        cases h
        cases next <;>
          exact .stop _ (between_returning w _ w.cancels) (returning_phase_ne_top _ _)
            (Or.inr (Or.inr ⟨turnId, _, error, hPhase, rfl⟩))
    · cases h
  | tool e =>
    simp only [step] at h
    split at h
    · rename_i turnId b hPhase
      split at h
      · cases h
      · split at h
        · cases h
        · rename_i b' completions hStep
          cases h
          exact .tool e turnId b b' completions _ hPhase hStep
    · cases h
  | toolsDone writeOk =>
    simp only [step] at h
    split at h
    · rename_i turnId b hPhase
      split at h
      · rename_i hDone
        cases h
        refine .toolsDone writeOk turnId b _ hPhase hDone _ rfl ?_
        split
        · exact ⟨rfl, rfl, rfl, rfl, rfl, rfl, Or.inr ⟨.cancelled, rfl⟩⟩
        · exact ⟨rfl, rfl, rfl, rfl, rfl, rfl, Or.inl rfl⟩
      · cases h
    · cases h
  | panic =>
    simp only [step] at h
    split at h
    · cases h
    · rename_i hPhase
      cases h
      exact .panic hPhase
  | finish =>
    simp only [step] at h
    split at h
    · rename_i outcome snapshot hPhase
      cases h
      exact .finish outcome snapshot hPhase
    · cases h

end Worker

/-! ## Moves of the system -/

/-- The moves of the system. -/
inductive Move (env : Env) (s : System) : Action → System → List Output → Prop
  | quiet {now : Int} {c : Command} (e : Effect) (targets : List Nat) (shutdown : Bool)
      (hQuiet : QuietEffect s.main s.db e) :
      Move env s (.command now c)
        { (s.applyEffect e).signalCancel targets with shutdownRequested := shutdown } e.outputs
  | accept {now : Int} {c : Command} (e : Effect) (w : Worker)
      (hAccept : AcceptEffect s.main s.db e w) :
      Move env s (.command now c) { s.applyEffect e with worker := some w } e.outputs
  | undo {now : Int} (e : Effect) (target : Nat) (hIdle : s.Idle)
      (hUndo : UndoEffect env s.main s.db e target) :
      Move env s (.command now .undo) (s.applyEffect e) e.outputs
  | redo {now : Int} (e : Effect) (ids : List Nat) (hIdle : s.Idle)
      (hRedo : RedoEffect env s.main s.db e ids) :
      Move env s (.command now .redo) (s.applyEffect e) e.outputs
  | deliver (now : Int) (m : WorkerMessage) (rest : List WorkerMessage)
      (hInbox : s.inbox = m :: rest) :
      Move env s (.deliver now)
        { s.applyEffect (handleWorkerMessage env now s.main s.db m) with inbox := rest }
        (handleWorkerMessage env now s.main s.db m).outputs
  | worker (e : WorkerEvent) (w : Worker) (r : WorkerResult) (hWorker : s.worker = some w)
      (hMove : w.Move env s.db s.server e r) :
      Move env s (.worker e)
        { s with worker := r.worker, db := r.db, server := r.server, inbox := s.inbox ++ r.sent }
        r.trace
  | reload (providerSlug : Option String) (record : SessionRecord) (hIdle : s.Idle)
      (hRecord : (s.db.writeSession env.sessionId s.main.toRecord).sessions.get? env.sessionId =
        some record) :
      Move env s (.reload providerSlug)
        { s with
          main := SessionState.load env record providerSlug
            (OrdMap.empty.insertAll (s.db.readTurns env.sessionId))
          db := s.db.writeSession env.sessionId s.main.toRecord
          shutdownRequested := false }
        [.updateMetadata (SessionState.load env record providerSlug
          (OrdMap.empty.insertAll (s.db.readTurns env.sessionId))).toMetadata]

theorem signalCancel_nil (s : System) : s.signalCancel [] = s := by
  rcases s with ⟨main, db, server, worker, inbox, shutdown⟩
  simp only [System.signalCancel, List.count_nil, Nat.add_zero]
  cases worker <;> rfl

theorem quiet_move {now : Int} {c : Command} {e : Effect} (h : QuietEffect s.main s.db e) :
    Move env s (.command now c) (s.applyEffect e) e.outputs := by
  have hMove : Move env s (.command now c)
      { (s.applyEffect e).signalCancel [] with shutdownRequested := s.shutdownRequested }
      e.outputs := .quiet e [] s.shutdownRequested h
  rwa [signalCancel_nil] at hMove

theorem runInput_move (env : Env) (s : System) (now : Int) (text : String)
    (account : Option ResolvedAccount) :
    Move env s (.command now (.runInput text account))
      (s.command env now (.runInput text account)).1
      (s.command env now (.runInput text account)).2 := by
  have hCases := handleRunInput_cases env s.shutdownRequested s.main s.db text account
  simp only [System.command]
  generalize handleRunInput env s.shutdownRequested s.main s.db text account = r at hCases ⊢
  rcases hCases with ⟨hQuiet, hNone⟩ | ⟨w, hSome, _, hAccept⟩
  · rw [hNone]
    exact quiet_move hQuiet
  · rw [hSome]
    exact .accept _ w hAccept

theorem runChildInput_move (env : Env) (s : System) (now : Int) (userText : Option String)
    (account : Option ResolvedAccount) :
    Move env s (.command now (.runChildInput userText account))
      (s.command env now (.runChildInput userText account)).1
      (s.command env now (.runChildInput userText account)).2 := by
  have hCases := handleRunChildInput_cases s.shutdownRequested s.main s.db userText account
  simp only [System.command]
  generalize handleRunChildInput s.shutdownRequested s.main s.db userText account = r
    at hCases ⊢
  rcases hCases with ⟨hQuiet, hNone⟩ | ⟨w, hSome, hAccept⟩
  · rw [hNone]
    exact quiet_move hQuiet
  · rw [hSome]
    exact .accept _ w hAccept

/-- Every command is one of the moves. -/
theorem move_of_command (env : Env) (s : System) (now : Int) (c : Command) :
    Move env s (.command now c) (s.command env now c).1 (s.command env now c).2 := by
  cases c with
  | runInput text account => exact runInput_move env s now text account
  | runChildInput userText account => exact runChildInput_move env s now userText account
  | cancel streamId =>
    exact .quiet { state := s.main, db := s.db, outputs := cancelOutputs _ } _
      s.shutdownRequested ⟨SameHistory.refl _, rfl, SameRows.refl _, quiet_cancelOutputs _ _⟩
  | setModel model validation =>
    exact quiet_move (handleSetModel_quiet env now s.main s.db model validation)
  | setTitle title => exact quiet_move (handleSetTitle_quiet env now s.main s.db title)
  | setWorkingDir path => exact quiet_move (handleSetWorkingDir_quiet env now s.main s.db path)
  | loadTools groups known =>
    exact quiet_move (changeToolGroups_quiet env now s.main s.db groups known _)
  | unloadTools groups known =>
    exact quiet_move (changeToolGroups_quiet env now s.main s.db groups known _)
  | setAccount name account =>
    exact quiet_move (handleSetAccount_quiet env now s.main s.db name account)
  | dropProvider =>
    exact quiet_move (e := { state := { s.main with provider := none }, db := s.db })
      ⟨⟨rfl, rfl, rfl, rfl, rfl, rfl, rfl, rfl, Or.inr ⟨rfl, rfl⟩⟩, rfl, SameRows.refl _,
        by simp⟩
  | setProviderSlug slug =>
    exact quiet_move (e := { state := { s.main with providerSlug := slug }, db := s.db })
      ⟨⟨rfl, rfl, rfl, rfl, rfl, rfl, rfl, rfl, Or.inr ⟨rfl, rfl⟩⟩, rfl, SameRows.refl _,
        by simp⟩
  | setReasoningEffort effort =>
    exact quiet_move (handleSetReasoningEffort_quiet env s.main s.db effort)
  | attach =>
    exact quiet_move (e := { state := s.main, db := s.db, outputs := attachOutputs env s.main })
      ⟨SameHistory.refl _, rfl, SameRows.refl _, quiet_attachOutputs env s.main⟩
  | undo =>
    rcases handleUndo_cases env s.main s.db with hQuiet | ⟨hIdle, target, hUndo⟩
    · exact quiet_move hQuiet
    · exact .undo _ target hIdle hUndo
  | redo =>
    rcases handleRedo_cases env s.main s.db with hQuiet | ⟨hIdle, ids, hRedo⟩
    · exact quiet_move hQuiet
    · exact .redo _ ids hIdle hRedo
  | shutdown =>
    exact .quiet { state := s.main, db := s.db, outputs := cancelOutputs _ } _
      true ⟨SameHistory.refl _, rfl, SameRows.refl _, quiet_cancelOutputs _ _⟩

theorem move_of_deliver {now : Int} (h : s.deliver env now = some (s', os)) :
    Move env s (.deliver now) s' os := by
  rw [System.deliver] at h
  split at h
  · cases h
  · rename_i m rest hInbox
    simp only [Option.some.injEq, Prod.mk.injEq] at h
    obtain ⟨rfl, rfl⟩ := h
    exact .deliver now m rest hInbox

theorem move_of_workerStep {e : WorkerEvent} (h : s.workerStep env e = some (s', os)) :
    Move env s (.worker e) s' os := by
  rw [System.workerStep] at h
  split at h
  · cases h
  · rename_i w hWorker
    split at h
    · cases h
    · rename_i r hStep
      simp only [Option.some.injEq, Prod.mk.injEq] at h
      obtain ⟨rfl, rfl⟩ := h
      exact .worker e w r hWorker (Worker.move_of_step hStep)

theorem move_of_reload {providerSlug : Option String}
    (h : s.reload env providerSlug = some (s', os)) : Move env s (.reload providerSlug) s' os := by
  simp only [System.reload] at h
  split at h
  · cases h
  · rename_i hIdle
    split at h
    · cases h
    · rename_i record hRecord
      simp only [Option.some.injEq, Prod.mk.injEq] at h
      obtain ⟨rfl, rfl⟩ := h
      exact .reload providerSlug record (not_not.mp hIdle) hRecord

theorem move_of_step {a : Action} (h : (system env).step s a = some (s', os)) :
    Move env s a s' os := by
  cases a with
  | command now c =>
    simp only [system, System.step, Option.some.injEq] at h
    have hMove := move_of_command env s now c
    rwa [h] at hMove
  | deliver now => exact move_of_deliver h
  | worker e => exact move_of_workerStep h
  | reload providerSlug => exact move_of_reload h

end Choreographr.Session
