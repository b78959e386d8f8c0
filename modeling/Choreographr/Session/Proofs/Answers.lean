import Choreographr.Session.Proofs.Runs

/-!
# Where the answer of a turn comes from

A turn has the text, the calls and the artifact of the reply it recorded, and nothing
changes them later: not the results, an undo, the merge into the session or the way
through the database. So a property of every reply, and of the texts that the session
writes itself, holds of the answer of every turn (`systemAnswers_exec`).
-/

namespace Choreographr.Session

open Lib

/-- What a turn records of a reply. -/
structure TurnAnswer where
  text : Option String := none
  toolCalls : List AssistantToolCallRecord := []
  artifact : Option ReasoningArtifact := none

def Turn.recorded (t : Turn) : TurnAnswer := ⟨t.assistantText, t.toolCalls, t.reasoningArtifact⟩

def FinalText.recorded (r : FinalText) : TurnAnswer where
  text := some (if r.truncated then r.content ++ truncationNotice else r.content)
  artifact := r.reasoningArtifact

def ToolUse.recorded (r : ToolUse) : TurnAnswer where
  text := r.content
  toolCalls := r.toolCalls.map ChatToolCall.toRecord
  artifact := r.reasoningArtifact

/-- The answer of every turn satisfies `P`. -/
def AnswersFrom (P : TurnAnswer → Prop) (turns : Turns) : Prop :=
  ∀ id t, turns.get? id = some t → P t.recorded

section AnswersFrom

variable {P : TurnAnswer → Prop} {turns : Turns}

theorem AnswersFrom.mapVal (h : AnswersFrom P turns) {f : Nat → Turn → Turn}
    (hf : ∀ id t, (f id t).recorded = t.recorded) : AnswersFrom P (turns.mapVal f) := by
  intro id t hGet
  rw [OrdMap.get?_mapVal, Option.map_eq_some_iff] at hGet
  obtain ⟨t', hGet', rfl⟩ := hGet
  rw [hf]
  exact h id t' hGet'

theorem AnswersFrom.modify (h : AnswersFrom P turns) (turnId : Nat) {f : Turn → Turn}
    (hf : ∀ t, P t.recorded → P (f t).recorded) : AnswersFrom P (turns.modify turnId f) := by
  intro id t hGet
  rw [OrdMap.get?_modify] at hGet
  split at hGet
  · obtain ⟨t', hGet', rfl⟩ := Option.map_eq_some_iff.mp hGet
    exact hf t' (h _ t' hGet')
  · exact h id t hGet

theorem AnswersFrom.insert (h : AnswersFrom P turns) (turnId : Nat) {t : Turn} (ht : P t.recorded) :
    AnswersFrom P (turns.insert turnId t) := by
  intro id t' hGet
  rw [OrdMap.get?_insert] at hGet
  split at hGet
  · cases hGet
    exact ht
  · exact h id t' hGet

theorem AnswersFrom.filter (h : AnswersFrom P turns) (p : Nat → Turn → Bool) :
    AnswersFrom P (turns.filter p) := by
  intro id t hGet
  exact h id t (OrdMap.get?_filter_eq_some.mp hGet).1

end AnswersFrom

theorem recordToolCompletion_recorded (env : Env) (t : Turn) (c : Completion) :
    (t.recordToolCompletion env c).recorded = t.recorded := by
  simp only [Turn.recordToolCompletion]
  split <;> rfl

/-! ## Rows -/

/-- The answer of every stored turn of the session satisfies `P`. -/
def RowAnswers (env : Env) (P : TurnAnswer → Prop) (db : Db) : Prop :=
  ∀ tid row, db.turns.get? (turnKey env.sessionId tid) = some row → P row.recorded

namespace RowAnswers

variable {env : Env} {P : TurnAnswer → Prop} {db db' : Db}

theorem of_turns_eq (h : RowAnswers env P db) (hTurns : db'.turns = db.turns) :
    RowAnswers env P db' := by
  intro tid row hRow
  rw [hTurns] at hRow
  exact h tid row hRow

theorem writeTurn (h : RowAnswers env P db) {id : Nat} {t : Turn} (ht : P t.recorded) :
    RowAnswers env P (db.writeTurn env.sessionId id t) := by
  intro tid row hRow
  simp only [Db.writeTurn, Db.writeTurnAttachments, OrdMap.get?_insert] at hRow
  split at hRow
  · cases hRow
    exact ht
  · exact h tid row hRow

theorem writeTurns (h : RowAnswers env P db) {entries : List (Nat × Turn)}
    (hEntries : ∀ e ∈ entries, P e.2.recorded) : RowAnswers env P (writeTurns env db entries) := by
  induction entries generalizing db with
  | nil => exact h
  | cons e rest ih =>
    exact ih (h.writeTurn (hEntries e List.mem_cons_self))
      fun e he => hEntries e (List.mem_cons_of_mem _ he)

theorem mergeTurns (h : RowAnswers env P db) {persisted : Finset Nat} {entries : List (Nat × Turn)}
    (hEntries : ∀ e ∈ entries, P e.2.recorded) (turns : Turns) :
    RowAnswers env P (entries.foldl (mergeTurn env persisted) (turns, db)).2 := by
  induction entries generalizing turns db with
  | nil => exact h
  | cons e rest ih =>
    rw [List.foldl_cons, mergeTurn]
    refine ih ?_ (fun e he => hEntries e (List.mem_cons_of_mem _ he)) _
    dsimp only
    split
    · exact h
    · exact h.writeTurn (hEntries e List.mem_cons_self)

theorem load (h : RowAnswers env P db) :
    AnswersFrom P (OrdMap.empty.insertAll (db.readTurns env.sessionId)) := by
  intro tid t hGet
  rw [Db.get?_load env.sessionId_lt, Db.readTurn, Option.map_eq_some_iff] at hGet
  obtain ⟨row, hRow, rfl⟩ := hGet
  exact h tid row hRow

end RowAnswers

/-! ## A worker -/

section Worker

variable {env : Env} {P : TurnAnswer → Prop} {db : Db} {server : Server}
  {w w' : Worker} {e : WorkerEvent} {r : WorkerResult}

/-- The reply of an event satisfies `P`. -/
structure WorkerEvent.AnswersWith (P : TurnAnswer → Prop) (e : WorkerEvent) : Prop where
  finalText : ∀ r, e = .finalText r → P r.recorded
  toolUse : ∀ r, e = .toolUse r → P r.recorded

/-- A worker step keeps the property of its turns. -/
theorem Worker.Move.answersFrom (h : w.Move env db server e r) (hNext : r.worker = some w')
    (hOwn : ∀ text, P { text := text }) (hReply : e.AnswersWith P) (hTurns : AnswersFrom P w.session.turns) :
    AnswersFrom P w'.session.turns := by
  cases h with
  | enter skills hPhase =>
    cases hNext
    exact hTurns
  | stop w'' hBetween =>
    cases hNext
    rw [hBetween.session_eq]
    exact hTurns
  | beginTurn now systemPrompt estimate hStart hBound =>
    cases hNext
    exact hTurns.insert _ (hOwn none)
  | status status =>
    cases hNext
    exact hTurns
  | finalText turnId request r server' hPhase hServer =>
    cases hNext
    rw [Worker.answer_eq]
    exact hTurns.modify turnId fun _ _ => hReply.finalText r rfl
  | toolUse turnId request r server' hPhase hServer =>
    cases hNext
    rw [Worker.callTools_eq]
    exact hTurns.modify turnId fun _ _ => hReply.toolUse r rfl
  | annotate turnId request f recoveries next hPhase hNote =>
    cases hNext
    refine hTurns.modify turnId fun t ht => ?_
    rcases hNote with ⟨⟨text, rfl⟩, _⟩ | ⟨⟨error, rfl⟩, _⟩
    · exact hOwn (some text)
    · exact ht
  | finalized turnId next w'' hPhase hBetween =>
    cases hNext
    obtain ⟨responseId, producer, hEq⟩ :=
      Worker.finalizedSession_eq (Worker.persistTurn env db w.session turnId).1 next
    rw [hBetween.session_eq, hEq]
    exact hTurns
  | tool e turnId b b' completions cancels hPhase hStep =>
    cases hNext
    rw [Worker.recordCompletions_fst]
    refine hTurns.modify turnId fun t ht => ?_
    refine Turn.recordToolCompletions_induction (P := fun t => P t.recorded) ?_ ht completions
    intro t c hAnswers
    rw [recordToolCompletion_recorded]
    exact hAnswers
  | toolsDone writeOk turnId b w'' hPhase hDone written hWritten hBetween =>
    cases hNext
    obtain ⟨groups, dir, skills, persisted, hEq, _⟩ := Worker.toolsDone_eq hWritten
    rw [hBetween.session_eq, hEq]
    refine hTurns.modify turnId fun t ht => ?_
    rw [Worker.ended]
    split <;> exact ht
  | panic hPhase =>
    cases hNext
    exact hTurns
  | finish outcome snapshot hPhase => cases hNext

/-- What a worker writes has the property too. -/
theorem Worker.Move.rowAnswers (h : w.Move env db server e r) (hOwn : ∀ text, P { text := text })
    (hReply : e.AnswersWith P) (hTurns : AnswersFrom P w.session.turns) (hRows : RowAnswers env P db) :
    RowAnswers env P r.db := by
  have hPersist : ∀ s : SessionState, ∀ turnId, AnswersFrom P s.turns →
      RowAnswers env P (Worker.persistTurn env db s turnId).2 := by
    intro s turnId hSession
    simp only [Worker.persistTurn]
    split
    · rename_i t hGet
      exact hRows.writeTurn (hSession turnId t hGet)
    · exact hRows
  have hNext : ∀ w', r.worker = some w' → AnswersFrom P w'.session.turns :=
    fun w' hw' => h.answersFrom hw' hOwn hReply hTurns
  cases h with
  | finalized turnId next w'' hPhase hBetween => exact hPersist _ _ hTurns
  | tool e turnId b b' completions cancels hPhase hStep =>
    exact hRows.of_turns_eq (recordCompletions_snd_turns _ _ _ _ _)
  | toolsDone writeOk turnId b w'' hPhase hDone written hWritten hBetween =>
    cases writeOk with
    | false =>
      rw [hWritten]
      exact hRows
    | true =>
      have hWrittenTurns : AnswersFrom P written.1.turns := by
        have hSession := hNext _ rfl
        rw [hBetween.session_eq] at hSession
        exact hSession
      rw [hWritten, if_pos rfl] at hWrittenTurns ⊢
      exact hPersist _ _ hWrittenTurns
  | _ => exact hRows

end Worker

/-! ## The system -/

/-- The answer of every turn the system holds satisfies `P`. -/
structure SystemAnswers (env : Env) (P : TurnAnswer → Prop) (s : System) :
    Prop where
  main : AnswersFrom P s.main.turns
  rows : RowAnswers env P s.db
  worker : ∀ w, s.worker = some w →
    AnswersFrom P w.session.turns ∧ AnswersFrom P w.initialSnapshot.turns
  inbox : ∀ streamId snapshot, .requestFinished streamId snapshot ∈ s.inbox →
    AnswersFrom P snapshot.turns

/-- The reply of an action satisfies `P`. -/
def Action.AnswersWith (P : TurnAnswer → Prop) (a : Action) : Prop :=
  ∀ e, a = .worker e → e.AnswersWith P

section System

variable {env : Env} {P : TurnAnswer → Prop}

theorem systemAnswers_step (hOwn : ∀ text, P { text := text }) {s s' : System} {a : Action} {os : List Output}
    (hInv : Inv env s) (h : SystemAnswers env P s) (hReply : a.AnswersWith P)
    (hStep : (system env).step s a = some (s', os)) : SystemAnswers env P s' := by
  cases transition_of_step hInv hStep with
  | quiet e targets shutdown hQuiet =>
    refine ⟨?_, h.rows.of_turns_eq hQuiet.rows.1, ?_, h.inbox⟩
    · exact (show e.state.turns = _ from hQuiet.history.turns) ▸ h.main
    · intro w hw
      obtain ⟨w', hw', rfl⟩ := Option.map_eq_some_iff.mp hw
      exact h.worker w' hw'
  | accept e w hWorker hInbox hReadouts hAccept =>
    have hMain : AnswersFrom P e.state.turns := hAccept.history.turns ▸ h.main
    refine ⟨hMain, ?_, ?_, ?_⟩
    · simp only [System.applyEffect, hAccept.db_eq]
      exact h.rows
    · intro w' hw'
      cases hw'
      rw [hAccept.spawned]
      exact ⟨hMain, hMain⟩
    · exact h.inbox
  | undo e target hIdle hWorker hInbox hReadouts hUndo =>
    have hMain : AnswersFrom P e.state.turns := by
      rw [hUndo.turns]
      apply h.main.mapVal
      intro id t
      split <;> rfl
    obtain ⟨db', hRows, hDb⟩ := hUndo.db_eq
    refine ⟨hMain, ?_, fun w hw => h.worker w hw, h.inbox⟩
    simp only [System.applyEffect, hDb]
    refine (h.rows.of_turns_eq hRows.1).writeTurns ?_
    intro entry hEntry
    exact hMain.filter _ _ _ (OrdMap.get?_eq_some_iff.mpr hEntry)
  | redo e ids hIdle hWorker hInbox hReadouts hRedo =>
    have hMain : AnswersFrom P e.state.turns := by
      rw [hRedo.turns]
      apply h.main.mapVal
      intro id t
      split <;> rfl
    refine ⟨hMain, ?_, fun w hw => h.worker w hw, h.inbox⟩
    simp only [System.applyEffect, hRedo.db_eq]
    refine h.rows.writeTurns ?_
    intro entry hEntry
    exact hMain.filter _ _ _ (OrdMap.get?_eq_some_iff.mpr hEntry)
  | progress now m rest hInbox hProgress =>
    obtain ⟨status, usage, prompt, requests, hKeys, hState, hDb⟩ :=
      handleWorkerMessage_progress env now s.main s.db hProgress
    refine ⟨?_, ?_, fun w hw => h.worker w hw, ?_⟩
    · simp only [System.applyEffect, hState]
      exact h.main
    · simp only [System.applyEffect, hDb]
      exact h.rows
    · intro streamId snapshot hMem
      exact h.inbox streamId snapshot (hInbox ▸ List.mem_cons_of_mem m hMem)
  | merge now streamId snapshot hInbox hWorker hActive hSnapshot =>
    have hTurns : (handleRequestFinished env now s.main s.db streamId snapshot).state.turns =
        snapshot.turns := handleRequestFinished_turns hSnapshot.extended
    have hAnswers := h.inbox streamId snapshot (hInbox ▸ List.mem_cons_self)
    refine ⟨?_, ?_, fun w hw => h.worker w hw, by simp⟩
    · simp only [System.applyEffect, hTurns]
      exact hAnswers
    · simp only [System.applyEffect, handleRequestFinished]
      refine RowAnswers.mergeTurns ?_ ?_ _
      · exact h.rows.of_turns_eq rfl
      · intro entry hEntry
        exact hAnswers _ _ (OrdMap.get?_eq_some_iff.mpr hEntry)
  | worker e w w' r hWorker hRun hMove hNext =>
    obtain ⟨hTurns, hStart⟩ := h.worker w hWorker
    have hEvent := hReply e rfl
    refine ⟨h.main, hMove.rowAnswers hOwn hEvent hTurns h.rows, ?_, ?_⟩
    · intro w'' hw''
      cases hw''
      refine ⟨hMove.answersFrom hNext hOwn hEvent hTurns, ?_⟩
      have hSame : w'.initialSnapshot.turns = w.initialSnapshot.turns :=
        (hRun.step hMove hNext).start_turns.trans hRun.start_turns.symm
      rw [hSame]
      exact hStart
    · intro streamId snapshot hMem
      rcases List.mem_append.mp hMem with hMem | hMem
      · exact h.inbox streamId snapshot hMem
      · exact absurd rfl (hMove.sent_progress hNext _ hMem streamId snapshot)
  | finish w outcome snapshot hWorker hRun hPhase =>
    obtain ⟨hTurns, hStart⟩ := h.worker w hWorker
    refine ⟨h.main, h.rows, by simp, ?_⟩
    intro streamId snapshot' hMem
    rcases List.mem_append.mp hMem with hMem | hMem
    · exact h.inbox streamId snapshot' hMem
    · rcases List.mem_append.mp hMem with hMem | hMem
      · exact absurd rfl (outcomeMessages_progress w outcome _ hMem streamId snapshot')
      · cases List.mem_singleton.mp hMem
        have hPhaseInv := hRun.phase
        rw [hPhase] at hPhaseInv
        rcases hPhaseInv with rfl | rfl
        · exact hTurns
        · exact hStart
  | reload providerSlug record hIdle hWorker hInbox hRecord =>
    refine ⟨h.rows.load, h.rows.of_turns_eq rfl, fun w hw => h.worker w hw, h.inbox⟩

/-- In a run whose replies all satisfy `P`, so do the answers of all turns. -/
theorem systemAnswers_exec (hOwn : ∀ text, P { text := text }) {config : SessionConfig} {slug : Option String}
    {actions : List Action} {s : System} {os : List Output}
    (h : (system env).exec (System.init env config slug) actions = some (s, os))
    (hReplies : ∀ a ∈ actions, a.AnswersWith P) : SystemAnswers env P s := by
  have hInit : SystemAnswers env P (System.init env config slug) := by
    refine ⟨?_, ?_, by simp [System.init], by simp [System.init]⟩
    · intro id t hGet
      cases hGet
    · intro tid row hRow
      cases hRow
  have hBoth := Machine.exec_invariant_on (M := system env)
    (P := fun s => Inv env s ∧ SystemAnswers env P s) (Q := Action.AnswersWith P)
    (fun hState hReply hStep => ⟨inv_step hState.1 hStep,
      systemAnswers_step hOwn hState.1 hState.2 hReply hStep⟩)
    ⟨inv_init env config slug, hInit⟩ hReplies h
  exact hBoth.2

end System

end Choreographr.Session
