import Choreographr.Session.Proofs.Moves
import Choreographr.Session.Proofs.Turns

/-!
# The worker's side of a run

What each step of a worker does to its private session, as one equation per
operation, and the invariant that follows (`WorkerInv`): the worker's turns
extend the turns it started from, the turn under way is the last of them, the
token readouts follow the turns, and what the worker hands back is its own
state or, after a panic, the snapshot it started from. Whatever a worker
writes is well formed (`RowsOk`).
-/

namespace Choreographr.Session

open Lib

/-! ## What the worker's steps do to its session -/

namespace Worker

/-- The turn that `answer` leaves behind. -/
def answered (w : Worker) (r : FinalText) (t : Turn) : Turn :=
  t.setAssistantResponse
    { text := some (if r.truncated then r.content ++ truncationNotice else r.content)
      reasoning := r.reasoning
      tokenUsage := r.usage
      reasoningArtifact := r.reasoningArtifact
      reasoningProducer := some ⟨w.slug, w.model⟩ }

/-- The turn that `callTools` leaves behind. -/
def called (env : Env) (w : Worker) (r : ToolUse) (t : Turn) : Turn :=
  (t.setAssistantResponse
    { text := r.content
      reasoning := r.reasoning
      toolCalls := r.toolCalls.map ChatToolCall.toRecord
      tokenUsage := r.usage
      reasoningArtifact := r.reasoningArtifact
      reasoningProducer := some ⟨w.slug, w.model⟩ }).seedToolResults
    (r.toolCalls.map ChatToolCall.toRecord) (invocationDescriptions env r.toolCalls)

/-- The configuration after a reply of either kind. -/
def repliedConfig (env : Env) (w : Worker) (usage : Option TokenUsage)
    (responseId : Option String) : SessionConfig :=
  (recordResponseId env w (accumulateTokenUsage w.session usage) responseId).config

theorem accumulateTokenUsage_eq (s : SessionState) (usage : Option TokenUsage) :
    accumulateTokenUsage s usage = { s with config := (accumulateTokenUsage s usage).config } := by
  cases usage <;> rfl

theorem recordResponseId_modifyTurn (env : Env) (w : Worker) (s : SessionState)
    (responseId : Option String) (id : Nat) (f : Turn → Turn) :
    recordResponseId env w (s.modifyTurn id f) responseId =
      { s with
        config := (recordResponseId env w s responseId).config
        turns := s.turns.modify id f } := by
  simp only [recordResponseId]
  split <;> rfl

theorem answer_eq (env : Env) (w : Worker) (turnId : Nat) (r : FinalText) :
    w.answer env turnId r =
      { w.session with
        config := w.repliedConfig env r.usage r.responseId
        turns := w.session.turns.modify turnId (w.answered r) } := by
  simp only [answer, SessionState.setAssistantResponse, recordResponseId_modifyTurn,
    repliedConfig]
  rw [accumulateTokenUsage_eq]
  rfl

theorem callTools_eq (env : Env) (w : Worker) (turnId : Nat) (r : ToolUse) :
    w.callTools env turnId r =
      { w.session with
        config := w.repliedConfig env r.usage r.responseId
        turns := w.session.turns.modify turnId (w.called env r) } := by
  have hModify : ((accumulateTokenUsage w.session r.usage).modifyTurn turnId fun t =>
      t.setAssistantResponse
        { text := r.content
          reasoning := r.reasoning
          toolCalls := r.toolCalls.map ChatToolCall.toRecord
          tokenUsage := r.usage
          reasoningArtifact := r.reasoningArtifact
          reasoningProducer := some ⟨w.slug, w.model⟩ }).modifyTurn turnId (fun t =>
        t.seedToolResults (r.toolCalls.map ChatToolCall.toRecord)
          (invocationDescriptions env r.toolCalls)) =
      (accumulateTokenUsage w.session r.usage).modifyTurn turnId (w.called env r) := by
    simp only [SessionState.modifyTurn, OrdMap.modify_modify]
    rfl
  simp only [callTools, SessionState.setAssistantResponse, SessionState.seedToolResults]
  rw [hModify, recordResponseId_modifyTurn, repliedConfig, accumulateTokenUsage_eq]

theorem recordCompletions_fst (env : Env) (turnId : Nat) (s : SessionState) (db : Db)
    (completions : List Completion) :
    (recordCompletions env turnId s db completions).1 =
      s.modifyTurn turnId fun t => t.recordToolCompletions env completions := by
  induction completions generalizing s db with
  | nil =>
    simp only [recordCompletions, Turn.recordToolCompletions, List.foldl_nil,
      SessionState.modifyTurn, OrdMap.modify_id]
  | cons c rest ih =>
    rw [recordCompletions, List.foldl_cons]
    refine (ih _ _).trans ?_
    simp only [SessionState.modifyTurn, OrdMap.modify_modify]
    rfl

/-- The configuration changes of a batch touch the tool groups, the working
directory and the cached skills, and they drop the skills with the directory. -/
theorem pending_eq (isProtected : Finset String) (changes : List PendingConfigChange)
    (s : SessionState) :
    ∃ groups dir skills,
      changes.foldl (fun s c => applyPendingConfigChange s isProtected c) s =
        { s with
          config := { s.config with activeToolGroups := groups, workingDir := dir }
          discoveredSkills := skills } ∧
      (skills = none ∨ skills = s.discoveredSkills ∧ dir = s.config.workingDir) := by
  induction changes generalizing s with
  | nil => exact ⟨s.config.activeToolGroups, s.config.workingDir, s.discoveredSkills, rfl,
      Or.inr ⟨rfl, rfl⟩⟩
  | cons change rest ih =>
    obtain ⟨groups, dir, skills, hEq, hSkills⟩ := ih (applyPendingConfigChange s isProtected change)
    refine ⟨groups, dir, skills, ?_, ?_⟩
    · rw [List.foldl_cons, hEq]
      cases change <;> rfl
    · rcases hSkills with hNone | ⟨hSkills, hDir⟩
      · exact Or.inl hNone
      · cases change with
        | loadTools groups => exact Or.inr ⟨hSkills, hDir⟩
        | unloadTools groups => exact Or.inr ⟨hSkills, hDir⟩
        | setWorkingDir path => exact Or.inl hSkills

/-- The turn that `endTools` leaves behind. -/
def ended (b : Batch) (t : Turn) : Turn :=
  if b.cancelled then t.markUnexecutedToolResults b.executed else t

theorem endTools_eq (env : Env) (w : Worker) (turnId : Nat) (b : Batch) :
    ∃ groups dir skills,
      w.endTools env turnId b =
        { w.session with
          config := { w.session.config with activeToolGroups := groups, workingDir := dir }
          discoveredSkills := skills
          turns := w.session.turns.modify turnId (ended b) } ∧
      (skills = none ∨ skills = w.session.discoveredSkills ∧ dir = w.session.config.workingDir) := by
  obtain ⟨groups, dir, skills, hEq, hSkills⟩ := pending_eq env.protectedGroups b.pending w.session
  refine ⟨groups, dir, skills, ?_, hSkills⟩
  rw [endTools, hEq]
  cases hCancelled : b.cancelled with
  | false =>
    have hEnded : ended b = fun t => t := by
      funext t
      simp [ended, hCancelled]
    rw [hEnded, OrdMap.modify_id]
    rfl
  | true =>
    have hEnded : ended b = fun t => t.markUnexecutedToolResults b.executed := by
      funext t
      simp [ended, hCancelled]
    rw [hEnded]
    rfl

/-- The session at the end of a tool-use iteration, written or not. -/
theorem toolsDone_eq {env : Env} {db : Db} {w : Worker} {turnId : Nat} {b : Batch}
    {writeOk : Bool} {written : SessionState × Db}
    (h : written = if writeOk then persistTurn env db (w.endTools env turnId b) turnId
      else (w.endTools env turnId b, db)) :
    ∃ groups dir skills persisted,
      written.1 =
        { w.session with
          config := { w.session.config with activeToolGroups := groups, workingDir := dir }
          discoveredSkills := skills
          turns := w.session.turns.modify turnId (ended b)
          persistedTurns := persisted } ∧
      (skills = none ∨ skills = w.session.discoveredSkills ∧ dir = w.session.config.workingDir) := by
  obtain ⟨groups, dir, skills, hEnd, hKept⟩ := endTools_eq env w turnId b
  refine ⟨groups, dir, skills, written.1.persistedTurns, ?_, hKept⟩
  subst h
  split
  · rw [persistTurn, hEnd]
  · rw [hEnd]

theorem finalizedSession_eq (s : SessionState) (next : AfterFinalize) :
    ∃ responseId producer,
      finalizedSession s next =
        { s with config :=
          { s.config with lastResponseId := responseId, lastResponseIdProducer := producer } } := by
  cases next with
  | truncated => exact ⟨none, none, rfl⟩
  | _ => exact ⟨s.config.lastResponseId, s.config.lastResponseIdProducer, rfl⟩

end Worker

/-! ## The worker's invariant -/

/-- What holds of a snapshot that a worker hands back. -/
structure SnapshotOk (base : Turns) (snapshot : SessionSnapshot) : Prop where
  turns : TurnsOk snapshot.turns
  extended : Extends base snapshot.turns
  readouts : Readouts snapshot.config snapshot.turns

/-- What each phase says about the worker's turns. -/
def PhaseInv (base : Turns) (w : Worker) : Phase → Prop
  | .spawned => w.session.turns = base
  | .top => True
  | .awaiting turnId _ => ∃ t, CurrentTurn base w.session.turns turnId t ∧ t.Blank
  | .finalizing turnId _ => ∃ t, CurrentTurn base w.session.turns turnId t
  | .tools turnId _ => ∃ t, CurrentTurn base w.session.turns turnId t
  | .returning _ snapshot => snapshot = w.session.snapshot ∨ snapshot = w.initialSnapshot

/-- The invariant of a worker whose session has the turns `base`. -/
structure WorkerInv (base : Turns) (w : Worker) : Prop where
  start_turns : w.initialSnapshot.turns = base
  start_persisted : w.initialSnapshot.persistedTurns = ∅
  start : SnapshotOk base w.initialSnapshot
  session : SnapshotOk base w.session.snapshot
  nextTurnId : w.session.nextTurnId = SessionState.nextTurnIdOf w.session.turns
  phase : PhaseInv base w w.phase

namespace WorkerInv

variable {env : Env} {base : Turns} {w w' : Worker} {turnId : Nat} {t : Turn}

theorem of_session (h : WorkerInv base w) (hStart : w'.initialSnapshot = w.initialSnapshot)
    (hSession : SnapshotOk base w'.session.snapshot)
    (hNext : w'.session.nextTurnId = SessionState.nextTurnIdOf w'.session.turns)
    (hPhase : PhaseInv base w' w'.phase) : WorkerInv base w' where
  start_turns := by rw [hStart, h.start_turns]
  start_persisted := by rw [hStart, h.start_persisted]
  start := by rw [hStart]; exact h.start
  session := hSession
  nextTurnId := hNext
  phase := hPhase

theorem modify (h : WorkerInv base w) (hTurn : CurrentTurn base w.session.turns turnId t)
    {f : Turn → Turn} (hLive : (f t).undone = false) (hUsage : (f t).tokenUsage = t.tokenUsage)
    (hOk : (f t).Ok) :
    TurnsOk (w.session.turns.modify turnId f) ∧
      Readouts w.session.config (w.session.turns.modify turnId f) ∧
      CurrentTurn base (w.session.turns.modify turnId f) turnId (f t) :=
  ⟨hTurn.turnsOk_modify h.session.turns hOk, h.session.readouts.modify hTurn hLive hUsage,
    hTurn.modify hLive⟩

theorem same_turns (h : WorkerInv base w) (hStart : w'.initialSnapshot = w.initialSnapshot)
    (hTurns : w'.session.turns = w.session.turns)
    (hNext : w'.session.nextTurnId = w.session.nextTurnId)
    (hReadouts : Readouts w'.session.config w.session.turns)
    (hPhase : PhaseInv base w' w'.phase) : WorkerInv base w' := by
  refine h.of_session hStart ⟨?_, ?_, ?_⟩ (by rw [hNext, hTurns, h.nextTurnId]) hPhase
  · rw [SessionState.snapshot, hTurns]
    exact h.session.turns
  · rw [SessionState.snapshot, hTurns]
    exact h.session.extended
  · rw [SessionState.snapshot, hTurns]
    exact hReadouts

theorem between {session : SessionState} {prevRespId : Option String} (h : WorkerInv base w)
    (hBetween : w.Between w' session prevRespId) (hSession : SnapshotOk base session.snapshot)
    (hNext : session.nextTurnId = SessionState.nextTurnIdOf session.turns) :
    WorkerInv base w' := by
  have hEq := hBetween.session_eq
  refine h.of_session hBetween.start (hEq ▸ hSession) (hEq ▸ hNext) ?_
  rcases hBetween.phase with hPhase | ⟨outcome, hPhase⟩
  · rw [hPhase]
    trivial
  · rw [hPhase]
    exact Or.inl (by rw [hEq])

theorem beginTurn (h : WorkerInv base w) (now : Int) (systemPrompt : String)
    (hBound : w.session.nextTurnId + 1 < 2 ^ 32) :
    WorkerInv base (w.beginTurn env now systemPrompt).1 := by
  have hBlank : Turn.Blank { createdAt := now, userText := w.turnUserText } := ⟨_, _, rfl⟩
  have hCurrent := h.session.extended.startTurn (t := { createdAt := now, userText := w.turnUserText })
    rfl
  rw [h.nextTurnId] at hBound
  have hTurns : (w.beginTurn env now systemPrompt).1.session.turns =
      w.session.turns.insert (SessionState.nextTurnIdOf w.session.turns)
        { createdAt := now, userText := w.turnUserText } := by
    rw [← h.nextTurnId]
    rfl
  refine h.of_session rfl ⟨?_, ?_, ?_⟩ ?_ ?_
  · rw [SessionState.snapshot, hTurns]
    exact turnsOk_insert_next h.session.turns hBlank.ok hBound
  · rw [SessionState.snapshot, hTurns]
    exact hCurrent.extends
  · rw [SessionState.snapshot, hTurns]
    exact h.session.readouts.startTurn hBlank
  · rw [hTurns, nextTurnIdOf_insert, ← h.nextTurnId]
    rfl
  · refine ⟨_, ?_, hBlank⟩
    rw [hTurns]
    exact h.nextTurnId ▸ hCurrent

theorem reply (env : Env) (h : WorkerInv base w) (hTurn : CurrentTurn base w.session.turns turnId t)
    (hBlank : t.Blank) (usage : Option TokenUsage) (responseId : Option String) {f : Turn → Turn}
    (hLive : (f t).undone = false) (hUsage : (f t).tokenUsage = usage) (hOk : (f t).Ok) :
    SnapshotOk base
        { w.session with
          config := w.repliedConfig env usage responseId
          turns := w.session.turns.modify turnId f }.snapshot ∧
      CurrentTurn base (w.session.turns.modify turnId f) turnId (f t) := by
  have hCurrent := hTurn.modify hLive
  refine ⟨⟨hTurn.turnsOk_modify h.session.turns hOk, hCurrent.extends, ?_⟩, hCurrent⟩
  have hReadouts := h.session.readouts.accumulate (s := w.session) hTurn hBlank.tokenUsage
    hLive hUsage
  simp only [SessionState.snapshot, Worker.repliedConfig, Worker.recordResponseId]
  split <;> exact hReadouts

/-- Every step keeps the worker's invariant. -/
theorem step {db : Db} {server : Server} {e : WorkerEvent} {r : WorkerResult}
    (h : WorkerInv base w) (hMove : w.Move env db server e r) (hw' : r.worker = some w') :
    WorkerInv base w' := by
  have hPhaseInv := h.phase
  cases hMove with
  | enter skills hPhase =>
    cases hw'
    exact h.same_turns rfl rfl rfl h.session.readouts trivial
  | stop w'' hBetween =>
    cases hw'
    exact h.between hBetween h.session h.nextTurnId
  | beginTurn now systemPrompt estimate hStart hBound =>
    cases hw'
    exact h.beginTurn now systemPrompt hBound
  | status status =>
    cases hw'
    exact h
  | finalText turnId request r server' hPhase hServer =>
    cases hw'
    rw [hPhase] at hPhaseInv
    obtain ⟨t, hTurn, hBlank⟩ := hPhaseInv
    obtain ⟨hOk, hCurrent⟩ := h.reply env hTurn hBlank r.usage r.responseId
      (f := w.answered r) hTurn.live rfl (hBlank.ok_answer rfl)
    refine h.of_session rfl ?_ ?_ ?_
    · rw [Worker.answer_eq]
      exact hOk
    · rw [Worker.answer_eq]
      simpa using h.nextTurnId
    · refine ⟨w.answered r t, ?_⟩
      rw [Worker.answer_eq]
      exact hCurrent
  | toolUse turnId request r server' hPhase hServer =>
    cases hw'
    rw [hPhase] at hPhaseInv
    obtain ⟨t, hTurn, hBlank⟩ := hPhaseInv
    have hSeed : (w.called env r t).Ok := by
      apply Turn.ok_seed
      simp [invocationDescriptions]
    obtain ⟨hOk, hCurrent⟩ := h.reply env hTurn hBlank r.usage r.responseId
      (f := w.called env r) hTurn.live rfl hSeed
    refine h.of_session rfl ?_ ?_ ?_
    · rw [Worker.callTools_eq]
      exact hOk
    · rw [Worker.callTools_eq]
      simpa using h.nextTurnId
    · refine ⟨w.called env r t, ?_⟩
      rw [Worker.callTools_eq]
      exact hCurrent
  | annotate turnId request f recoveries next hPhase hNote =>
    cases hw'
    rw [hPhase] at hPhaseInv
    obtain ⟨t, hTurn, hBlank⟩ := hPhaseInv
    have hf : (f t).undone = false ∧ (f t).tokenUsage = t.tokenUsage ∧ (f t).Ok := by
      rcases hNote with ⟨⟨text, rfl⟩, _⟩ | ⟨⟨error, rfl⟩, _⟩
      · exact ⟨hTurn.live, hBlank.tokenUsage.symm, hBlank.ok_answer rfl⟩
      · exact ⟨hTurn.live, rfl, hBlank.ok.of_shape rfl rfl⟩
    obtain ⟨hTurns, hReadouts, hCurrent⟩ := h.modify hTurn hf.1 hf.2.1 hf.2.2
    exact h.of_session rfl ⟨hTurns, hCurrent.extends, hReadouts⟩
      (by simpa [SessionState.modifyTurn] using h.nextTurnId) ⟨_, hCurrent⟩
  | finalized turnId next w'' hPhase hBetween =>
    cases hw'
    obtain ⟨responseId, producer, hEq⟩ :=
      Worker.finalizedSession_eq (Worker.persistTurn env db w.session turnId).1 next
    rw [hEq] at hBetween
    exact h.between hBetween
      ⟨h.session.turns, h.session.extended, h.session.readouts⟩ h.nextTurnId
  | tool e turnId b b' completions cancels hPhase hStep =>
    cases hw'
    rw [hPhase] at hPhaseInv
    obtain ⟨t, hTurn⟩ := hPhaseInv
    have hOk := (h.session.turns.get? hTurn.get?).1
    obtain ⟨hTurns, hReadouts, hCurrent⟩ :=
      h.modify hTurn (f := fun t => t.recordToolCompletions env completions)
        (Turn.recordToolCompletions_induction
          (fun t c ht => (Turn.recordToolCompletion_undone env t c).trans ht) hTurn.live _)
        (Turn.recordToolCompletions_induction (P := fun t' => t'.tokenUsage = t.tokenUsage)
          (fun t c ht => (Turn.recordToolCompletion_tokenUsage env t c).trans ht) rfl _)
        (Turn.recordToolCompletions_induction (fun t c ht => ht.recordToolCompletion env c) hOk _)
    refine h.of_session rfl ?_ ?_ ?_
    · rw [Worker.recordCompletions_fst]
      exact ⟨hTurns, hCurrent.extends, hReadouts⟩
    · rw [Worker.recordCompletions_fst]
      simpa [SessionState.modifyTurn] using h.nextTurnId
    · refine ⟨t.recordToolCompletions env completions, ?_⟩
      rw [Worker.recordCompletions_fst]
      exact hCurrent
  | toolsDone writeOk turnId b w'' hPhase hDone written hWritten hBetween =>
    cases hw'
    rw [hPhase] at hPhaseInv
    obtain ⟨t, hTurn⟩ := hPhaseInv
    have hOk := (h.session.turns.get? hTurn.get?).1
    have hf : (Worker.ended b t).undone = false ∧
        (Worker.ended b t).tokenUsage = t.tokenUsage ∧ (Worker.ended b t).Ok := by
      rw [Worker.ended]
      split
      · exact ⟨hTurn.live, rfl, hOk.markUnexecuted _⟩
      · exact ⟨hTurn.live, rfl, hOk⟩
    obtain ⟨hTurns, hReadouts, hCurrent⟩ := h.modify hTurn hf.1 hf.2.1 hf.2.2
    obtain ⟨groups, dir, skills, persisted, hEq, _⟩ := Worker.toolsDone_eq hWritten
    rw [hEq] at hBetween
    exact h.between hBetween ⟨hTurns, hCurrent.extends, hReadouts⟩
      (by simpa using h.nextTurnId)
  | panic hPhase =>
    cases hw'
    exact h.of_session rfl h.session h.nextTurnId (Or.inr rfl)
  | finish outcome snapshot hPhase => cases hw'

end WorkerInv

/-! ## Rows -/

/-- Every stored turn of the session is well formed. -/
def RowsOk (env : Env) (db : Db) : Prop :=
  ∀ tid row, db.turns.get? (turnKey env.sessionId tid) = some row → row.Ok ∧ tid + 1 < 2 ^ 32

namespace RowsOk

variable {env : Env} {db db' : Db}

theorem of_turns_eq (h : RowsOk env db) (hTurns : db'.turns = db.turns) : RowsOk env db' := by
  intro tid row hRow
  rw [hTurns] at hRow
  exact h tid row hRow

theorem writeTurn (h : RowsOk env db) {id : Nat} {t : Turn} (ht : t.Ok)
    (hBound : id + 1 < 2 ^ 32) : RowsOk env (db.writeTurn env.sessionId id t) := by
  intro tid row hRow
  simp only [Db.writeTurn, Db.writeTurnAttachments, OrdMap.get?_insert] at hRow
  split at hRow
  · rename_i hKey
    cases hRow
    rw [(turnKey_eq_iff.mp hKey).2]
    exact ⟨ht.strip, hBound⟩
  · exact h tid row hRow

theorem writeTurns (h : RowsOk env db) {entries : List (Nat × Turn)}
    (hEntries : ∀ e ∈ entries, e.2.Ok ∧ e.1 + 1 < 2 ^ 32) :
    RowsOk env (writeTurns env db entries) := by
  induction entries generalizing db with
  | nil => exact h
  | cons e rest ih =>
    obtain ⟨hOk, hBound⟩ := hEntries e List.mem_cons_self
    exact ih (h.writeTurn hOk hBound) fun e he => hEntries e (List.mem_cons_of_mem _ he)

theorem mergeTurns (h : RowsOk env db) {persisted : Finset Nat} {entries : List (Nat × Turn)}
    (hEntries : ∀ e ∈ entries, e.2.Ok ∧ e.1 + 1 < 2 ^ 32) (turns : Turns) :
    RowsOk env (entries.foldl (mergeTurn env persisted) (turns, db)).2 := by
  induction entries generalizing turns db with
  | nil => exact h
  | cons e rest ih =>
    obtain ⟨hOk, hBound⟩ := hEntries e List.mem_cons_self
    rw [List.foldl_cons, mergeTurn]
    refine ih ?_ (fun e he => hEntries e (List.mem_cons_of_mem _ he)) _
    dsimp only
    split
    · exact h
    · exact h.writeTurn hOk hBound

theorem load (h : RowsOk env db) :
    TurnsOk (OrdMap.empty.insertAll (db.readTurns env.sessionId)) := by
  rintro ⟨tid, t⟩ he
  have hGet := OrdMap.get?_eq_some_iff.mpr he
  rw [Db.get?_load env.sessionId_lt, Db.readTurn, Option.map_eq_some_iff] at hGet
  obtain ⟨row, hRow, rfl⟩ := hGet
  exact ⟨(h tid row hRow).1.reattach _, (h tid row hRow).2⟩

end RowsOk

theorem recordToolCompletion_turns (db : Db) (sid tid : Nat) (t : Turn) (c : Completion) :
    (db.recordToolCompletion sid tid t c).turns = db.turns := by
  have hWrite : ∀ (db : Db) (slot : String) (data : Bytes),
      (db.writeAttachment sid tid slot data).turns = db.turns := by
    intro db slot data
    rw [Db.writeAttachment]
    split <;> rfl
  simp only [Db.recordToolCompletion]
  split <;> split <;> simp [hWrite]

theorem recordCompletions_snd_turns (env : Env) (turnId : Nat) (s : SessionState) (db : Db)
    (completions : List Completion) :
    (Worker.recordCompletions env turnId s db completions).2.turns = db.turns := by
  induction completions generalizing s db with
  | nil => rfl
  | cons c rest ih =>
    rw [Worker.recordCompletions, List.foldl_cons]
    refine (ih _ _).trans ?_
    dsimp only
    split
    · exact recordToolCompletion_turns _ _ _ _ _
    · rfl

/-- A worker writes well-formed turns only. -/
theorem WorkerInv.rows {env : Env} {base : Turns} {w : Worker} {db : Db} {server : Server}
    {e : WorkerEvent} {r : WorkerResult} (h : WorkerInv base w) (hRows : RowsOk env db)
    (hMove : w.Move env db server e r) : RowsOk env r.db := by
  have hPersist : ∀ s : SessionState, ∀ turnId, TurnsOk s.turns →
      RowsOk env (Worker.persistTurn env db s turnId).2 := by
    intro s turnId hTurns
    simp only [Worker.persistTurn]
    split
    · rename_i t hGet
      obtain ⟨hOk, hBound⟩ := hTurns.get? hGet
      exact hRows.writeTurn hOk hBound
    · exact hRows
  have hNext : ∀ w', r.worker = some w' → WorkerInv base w' := fun w' => h.step hMove
  cases hMove with
  | finalized turnId next w'' hPhase hBetween => exact hPersist _ _ h.session.turns
  | tool e turnId b b' completions cancels hPhase hStep =>
    exact hRows.of_turns_eq (recordCompletions_snd_turns _ _ _ _ _)
  | toolsDone writeOk turnId b w'' hPhase hDone written hWritten hBetween =>
    cases writeOk with
    | false =>
      rw [hWritten]
      exact hRows
    | true =>
      have hTurns : TurnsOk written.1.turns := by
        have hInv := (hNext _ rfl).session.turns
        rw [hBetween.session_eq] at hInv
        exact hInv
      rw [hWritten, if_pos rfl] at hTurns ⊢
      exact hPersist _ _ hTurns
  | _ => exact hRows

/-! ## Turns started and snapshots handed back -/

theorem Worker.Between.returned {w w' : Worker} {session : SessionState}
    {prevRespId : Option String} (h : w.Between w' session prevRespId)
    {outcome : RequestOutcome} {snapshot : SessionSnapshot}
    (hPhase : w'.phase = .returning outcome snapshot) : snapshot = w'.session.snapshot := by
  rw [h.session_eq]
  rcases h.phase with hTop | ⟨outcome', hReturning⟩
  · rw [hTop] at hPhase
    cases hPhase
  · rw [hReturning] at hPhase
    cases hPhase
    rfl

namespace Worker.Move

variable {env : Env} {db : Db} {server : Server} {w w' : Worker} {e : WorkerEvent}
  {r : WorkerResult}

/-- A step starts the next turn and says so, or it starts none. -/
theorem trace_cases (h : w.Move env db server e r) (hNext : r.worker = some w') :
    (r.trace = [] ∧ w'.session.nextTurnId = w.session.nextTurnId) ∨
      (r.trace = [.startTurn w.session.nextTurnId w.turnUserText] ∧
        w'.session.nextTurnId = w.session.nextTurnId + 1) := by
  cases h with
  | beginTurn now systemPrompt estimate hStart hBound =>
    cases hNext
    exact Or.inr ⟨rfl, rfl⟩
  | finalText turnId request r server' hPhase hServer =>
    cases hNext
    exact Or.inl ⟨rfl, by rw [answer_eq]⟩
  | toolUse turnId request r server' hPhase hServer =>
    cases hNext
    exact Or.inl ⟨rfl, by rw [callTools_eq]⟩
  | stop w'' hBetween =>
    cases hNext
    exact Or.inl ⟨rfl, by rw [hBetween.session_eq]⟩
  | finalized turnId next w'' hPhase hBetween =>
    cases hNext
    obtain ⟨responseId, producer, hEq⟩ :=
      finalizedSession_eq (persistTurn env db w.session turnId).1 next
    exact Or.inl ⟨rfl, by rw [hBetween.session_eq, hEq]; rfl⟩
  | tool e turnId b b' completions cancels hPhase hStep =>
    cases hNext
    exact Or.inl ⟨rfl, by rw [recordCompletions_fst]; rfl⟩
  | toolsDone writeOk turnId b w'' hPhase hDone written hWritten hBetween =>
    cases hNext
    obtain ⟨groups, dir, skills, persisted, hEq, _⟩ := toolsDone_eq hWritten
    exact Or.inl ⟨rfl, by rw [hBetween.session_eq, hEq]⟩
  | finish outcome snapshot hPhase => cases hNext
  | _ =>
    cases hNext
    exact Or.inl ⟨rfl, rfl⟩

/-- Only a panic hands back something other than the worker's own state. -/
theorem returned (h : w.Move env db server e r) (hNext : r.worker = some w')
    {outcome : RequestOutcome} {snapshot : SessionSnapshot}
    (hPhase' : w'.phase = .returning outcome snapshot) :
    w' = w ∨ snapshot = w'.session.snapshot ∨
      e = .panic ∧ w'.session = w.session ∧ snapshot = w.initialSnapshot := by
  cases h with
  | status status =>
    cases hNext
    exact Or.inl rfl
  | stop w'' hBetween =>
    cases hNext
    exact Or.inr (Or.inl (hBetween.returned hPhase'))
  | finalized turnId next w'' hPhase hBetween =>
    cases hNext
    exact Or.inr (Or.inl (hBetween.returned hPhase'))
  | toolsDone writeOk turnId b w'' hPhase hDone written hWritten hBetween =>
    cases hNext
    exact Or.inr (Or.inl (hBetween.returned hPhase'))
  | panic hPhase =>
    cases hNext
    cases hPhase'
    exact Or.inr (Or.inr ⟨rfl, rfl, rfl⟩)
  | finish outcome snapshot hPhase => cases hNext
  | _ =>
    cases hNext
    cases hPhase'

end Worker.Move

end Choreographr.Session
