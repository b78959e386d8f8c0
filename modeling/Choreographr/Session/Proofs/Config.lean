import Choreographr.Session.Proofs.Runs

/-!
# Configuration changes during a run

Commands change the configuration of the session while a worker runs on a
clone of it. `replay` handles the same commands one after the other with no
worker beside them; the session keeps the same configuration as that replay
until the worker's snapshot is merged. The merge copies the context window from
the snapshot, and a worker never changes its own: so the window goes back to
what it was when the run was accepted, and every other field survives.
-/

namespace Choreographr.Session

open Lib

/-! ## The configuration that clients set -/

structure ConfigFields where
  selectedModel : Option String
  accountName : Option String
  contextWindow : Option Nat
  title : Option String
  workingDir : Option String
  reasoningEffort : Option String
  activeToolGroups : Finset String
deriving DecidableEq

def SessionConfig.fields (c : SessionConfig) : ConfigFields where
  selectedModel := c.selectedModel
  accountName := c.accountName
  contextWindow := c.contextWindow
  title := c.title
  workingDir := c.workingDir
  reasoningEffort := c.reasoningEffort
  activeToolGroups := c.activeToolGroups

/-- Two session threads with the same configuration, as far as commands can
tell. -/
structure SameConfig (s r : SessionState) : Prop where
  selectedModel : s.config.selectedModel = r.config.selectedModel
  accountName : s.config.accountName = r.config.accountName
  contextWindow : s.config.contextWindow = r.config.contextWindow
  title : s.config.title = r.config.title
  workingDir : s.config.workingDir = r.config.workingDir
  reasoningEffort : s.config.reasoningEffort = r.config.reasoningEffort
  activeToolGroups : s.config.activeToolGroups = r.config.activeToolGroups
  provider : s.provider = r.provider
  providerSlug : s.providerSlug = r.providerSlug
  idle_iff : s.activeRequests.entries = [] ↔ r.activeRequests.entries = []

namespace SameConfig

variable {env : Env} {now : Int} {s r : SessionState} {db db' : Db}

theorem refl (s : SessionState) : SameConfig s s :=
  ⟨rfl, rfl, rfl, rfl, rfl, rfl, rfl, rfl, rfl, Iff.rfl⟩

theorem symm (h : SameConfig s r) : SameConfig r s :=
  ⟨h.selectedModel.symm, h.accountName.symm, h.contextWindow.symm, h.title.symm,
    h.workingDir.symm, h.reasoningEffort.symm, h.activeToolGroups.symm, h.provider.symm,
    h.providerSlug.symm, h.idle_iff.symm⟩

theorem trans {q : SessionState} (h : SameConfig s r) (h' : SameConfig r q) : SameConfig s q :=
  ⟨h.selectedModel.trans h'.selectedModel, h.accountName.trans h'.accountName,
    h.contextWindow.trans h'.contextWindow, h.title.trans h'.title,
    h.workingDir.trans h'.workingDir, h.reasoningEffort.trans h'.reasoningEffort,
    h.activeToolGroups.trans h'.activeToolGroups, h.provider.trans h'.provider,
    h.providerSlug.trans h'.providerSlug, h.idle_iff.trans h'.idle_iff⟩

theorem fields (h : SameConfig s r) : s.config.fields = r.config.fields := by
  simp only [SessionConfig.fields, h.selectedModel, h.accountName, h.contextWindow, h.title,
    h.workingDir, h.reasoningEffort, h.activeToolGroups]

theorem resolveContextWindow (h : SameConfig s r) (model : String) :
    s.resolveContextWindowForModel env model = r.resolveContextWindowForModel env model := by
  simp only [SessionState.resolveContextWindowForModel, h.provider, h.providerSlug]

theorem effectiveProviderSlug (h : SameConfig s r) :
    s.effectiveProviderSlug = r.effectiveProviderSlug := by
  simp only [SessionState.effectiveProviderSlug, h.provider, h.providerSlug]

/-! ### Handlers -/

theorem persistAnd (h : SameConfig s r) {before before' after after' : List Output} :
    SameConfig (persistAnd env now s db before after).state
      (persistAnd env now r db' before' after').state :=
  ⟨h.selectedModel, h.accountName, h.contextWindow, h.title, h.workingDir, h.reasoningEffort,
    h.activeToolGroups, h.provider, h.providerSlug, h.idle_iff⟩

theorem takeStreamId (h : SameConfig s r) :
    SameConfig (takeStreamId s).1 (takeStreamId r).1 :=
  ⟨h.selectedModel, h.accountName, h.contextWindow, h.title, h.workingDir, h.reasoningEffort,
    h.activeToolGroups, h.provider, h.providerSlug, h.idle_iff⟩

theorem acceptRun (h : SameConfig s r) {streamId streamId' : Nat}
    (hs : s.activeRequests.entries = []) (hr : r.activeRequests.entries = []) :
    SameConfig (acceptRun s streamId).1 (acceptRun r streamId').1 :=
  ⟨h.selectedModel, h.accountName, h.contextWindow, h.title, h.workingDir, h.reasoningEffort,
    h.activeToolGroups, h.provider, h.providerSlug, by
      rw [acceptRun_entries hs, acceptRun_entries hr]
      simp⟩

theorem resolveProvider (h : SameConfig s r) (account : Option ResolvedAccount) :
    SameConfig (resolveProvider s account).1 (resolveProvider r account).1 ∧
      (Session.resolveProvider s account).2 = (Session.resolveProvider r account).2 := by
  simp only [Session.resolveProvider, h.provider, h.accountName]
  split
  · exact ⟨h, rfl⟩
  · split
    · exact ⟨h, rfl⟩
    · split
      · exact ⟨h, rfl⟩
      · split
        · exact ⟨{ h with providerSlug := rfl, provider := rfl }, rfl⟩
        · exact ⟨{ h with providerSlug := rfl, provider := rfl }, rfl⟩

theorem refreshContextWindow (env : Env) (h : SameConfig s r) :
    SameConfig (s.refreshContextWindow env).1 (r.refreshContextWindow env).1 := by
  simp only [SessionState.refreshContextWindow, h.selectedModel]
  split
  · exact h
  · rename_i model _
    rw [h.resolveContextWindow model]
    split
    · exact h
    · rw [h.contextWindow]
      split
      · exact h
      · exact { h with contextWindow := rfl, selectedModel := rfl }

theorem handleRunInput (h : SameConfig s r) (shutdown : Bool) (text : String)
    (account : Option ResolvedAccount) :
    SameConfig (handleRunInput env shutdown s db text account).1.state
      (handleRunInput env shutdown r db' text account).1.state := by
  obtain ⟨hResolved, hClient⟩ := h.takeStreamId.resolveProvider account
  have hRefreshed := hResolved.refreshContextWindow env
  have hModel := hRefreshed.selectedModel
  have hIdle := hRefreshed.idle_iff
  simp only [Session.handleRunInput]
  split
  · exact h.takeStreamId
  · generalize Session.resolveProvider (Session.takeStreamId s).1 account = resolved at *
    generalize Session.resolveProvider (Session.takeStreamId r).1 account = resolved' at *
    obtain ⟨s', client⟩ := resolved
    obtain ⟨r', client'⟩ := resolved'
    obtain rfl : client = client' := hClient
    cases client with
    | error e => exact hResolved
    | ok provider =>
      dsimp only at hModel hIdle hRefreshed ⊢
      rw [hModel]
      cases (r'.refreshContextWindow env).1.config.selectedModel with
      | none => exact hRefreshed
      | some model =>
        dsimp only
        split
        · exact hRefreshed
        · by_cases hBusy : (r'.refreshContextWindow env).1.activeRequests.entries = []
          · rw [if_neg (not_not.mpr (hIdle.mpr hBusy)), if_neg (not_not.mpr hBusy)]
            exact hRefreshed.acceptRun (hIdle.mpr hBusy) hBusy
          · rw [if_pos (fun hs => hBusy (hIdle.mp hs)), if_pos hBusy]
            exact hRefreshed

theorem handleRunChildInput (h : SameConfig s r) (shutdown : Bool) (userText : Option String)
    (account : Option ResolvedAccount) :
    SameConfig (handleRunChildInput shutdown s db userText account).1.state
      (handleRunChildInput shutdown r db' userText account).1.state := by
  obtain ⟨hResolved, hClient⟩ := h.takeStreamId.resolveProvider account
  have hIdle := hResolved.idle_iff
  simp only [Session.handleRunChildInput]
  generalize Session.resolveProvider (Session.takeStreamId s).1 account = resolved at *
  generalize Session.resolveProvider (Session.takeStreamId r).1 account = resolved' at *
  obtain ⟨s', client⟩ := resolved
  obtain ⟨r', client'⟩ := resolved'
  obtain rfl : client = client' := hClient
  cases client with
  | error e => exact hResolved
  | ok provider =>
    dsimp only at hIdle hResolved ⊢
    split
    · exact hResolved
    · by_cases hBusy : r'.activeRequests.entries = []
      · rw [if_neg (not_not.mpr (hIdle.mpr hBusy)), if_neg (not_not.mpr hBusy)]
        exact hResolved.acceptRun (hIdle.mpr hBusy) hBusy
      · rw [if_pos (fun hs => hBusy (hIdle.mp hs)), if_pos hBusy]
        exact hResolved

theorem handleSetModel (h : SameConfig s r) (model : String) (validation : Option String) :
    SameConfig (handleSetModel env now s db model validation).state
      (handleSetModel env now r db' model validation).state := by
  cases validation with
  | some error => exact h
  | none =>
    refine SameConfig.persistAnd ?_
    refine { h with
      selectedModel := rfl, contextWindow := h.resolveContextWindow model, reasoningEffort := ?_ }
    simp only [selectModel, SessionState.effectiveProviderSlug, h.provider, h.providerSlug,
      h.reasoningEffort]
    exact if_congr Iff.rfl rfl rfl

theorem handleSetTitle (h : SameConfig s r) (title : String) :
    SameConfig (handleSetTitle env now s db title).state
      (handleSetTitle env now r db' title).state := by
  simp only [Session.handleSetTitle]
  split
  · exact h
  · refine SameConfig.persistAnd ?_
    exact { h with title := rfl }

theorem handleSetWorkingDir (env : Env) (db db' : Db) (h : SameConfig s r) (path : String) :
    SameConfig (handleSetWorkingDir env now s db path).state
      (handleSetWorkingDir env now r db' path).state := by
  refine SameConfig.persistAnd ?_
  exact { h with workingDir := rfl }

theorem changeToolGroups (h : SameConfig s r) (groups : List String) (known : Finset String)
    (change : Finset String → Finset String) :
    SameConfig (changeToolGroups env now s db groups known change).state
      (changeToolGroups env now r db' groups known change).state := by
  simp only [Session.changeToolGroups]
  split
  · exact h
  · refine SameConfig.persistAnd ?_
    exact { h with activeToolGroups := congrArg change h.activeToolGroups }

theorem leaveAccount (h : SameConfig s r) (name : String) :
    SameConfig (leaveAccount s name) (leaveAccount r name) := by
  simp only [Session.leaveAccount, h.accountName]
  split
  · exact h
  · exact { h with
      provider := rfl, selectedModel := rfl, reasoningEffort := rfl, contextWindow := rfl,
      accountName := rfl }

theorem bindProvider (h : SameConfig s r) (account : Option ResolvedAccount) :
    SameConfig (bindProvider s account) (bindProvider r account) := by
  refine { h with providerSlug := rfl, provider := ?_ }
  simp only [Session.bindProvider, h.provider]

theorem bindAccount (h : SameConfig s r) (name : String) (account : Option ResolvedAccount) :
    SameConfig (bindAccount env s name account).1 (bindAccount env r name account).1 := by
  have hBound := (h.leaveAccount name).bindProvider account
  have hModel := hBound.selectedModel
  simp only [Session.bindAccount, h.accountName]
  rw [hModel]
  split
  · rename_i model _
    split
    · exact { hBound with selectedModel := rfl, accountName := rfl }
    · exact { hBound with
        selectedModel := rfl, contextWindow := hBound.resolveContextWindow model
        accountName := rfl }
  · exact { hBound with selectedModel := rfl, accountName := rfl }

theorem handleSetAccount (env : Env) (db db' : Db) (h : SameConfig s r) (name : String)
    (account : Option ResolvedAccount) :
    SameConfig (handleSetAccount env now s db name account).state
      (handleSetAccount env now r db' name account).state := by
  refine SameConfig.persistAnd ?_
  exact h.bindAccount name account

theorem handleSetReasoningEffort (h : SameConfig s r) (effort : String) :
    SameConfig (handleSetReasoningEffort env s db effort).state
      (handleSetReasoningEffort env r db' effort).state := by
  have hCapability : currentCapability env s = currentCapability env r := by
    simp only [currentCapability, h.selectedModel, h.effectiveProviderSlug]
  simp only [Session.handleSetReasoningEffort, hCapability]
  split
  · exact h
  · split
    · exact { h with reasoningEffort := rfl }
    · exact h

theorem handleUndo (env : Env) (s : SessionState) (db : Db) :
    SameConfig (handleUndo env s db).state s := by
  simp only [Session.handleUndo]
  split
  · exact .refl s
  · cases hTarget : SessionState.undoTarget s.turns with
    | none =>
      simp only [SessionState.undoTurns, hTarget]
      exact .refl s
    | some target =>
      simp only [SessionState.undoTurns, hTarget]
      split <;> exact ⟨rfl, rfl, rfl, rfl, rfl, rfl, rfl, rfl, rfl, Iff.rfl⟩

theorem handleRedo (env : Env) (s : SessionState) (db : Db) :
    SameConfig (handleRedo env s db).state s := by
  simp only [Session.handleRedo]
  split
  · exact .refl s
  · cases hStack : s.redoStack with
    | nil =>
      simp only [SessionState.redoTurns, hStack]
      exact .refl s
    | cons ids rest =>
      simp only [SessionState.redoTurns, hStack]
      exact ⟨rfl, rfl, rfl, rfl, rfl, rfl, rfl, rfl, rfl, Iff.rfl⟩

end SameConfig

/-! ## Replaying the commands -/

/-- Handle the commands of a run, in order, and leave out every other step. -/
def replay (env : Env) : System → List Action → System
  | s, [] => s
  | s, .command now c :: rest => replay env (s.command env now c).1 rest
  | s, _ :: rest => replay env s rest

/-- Two systems whose session threads answer commands alike. -/
structure SameThread (s r : System) : Prop where
  main : SameConfig s.main r.main
  shutdown : s.shutdownRequested = r.shutdownRequested

/-- A command does the same to the same configuration. -/
theorem SameThread.command {env : Env} {s r : System} (h : SameThread s r) (now : Int)
    (c : Command) : SameThread (s.command env now c).1 (r.command env now c).1 := by
  cases c with
  | runInput text account =>
    have hMain := @SameConfig.handleRunInput env s.main r.main s.db r.db h.main
      r.shutdownRequested text account
    simp only [System.command, System.applyEffect, h.shutdown]
    refine ⟨?_, rfl⟩
    dsimp only
    exact hMain
  | runChildInput userText account =>
    simp only [System.command, System.applyEffect, h.shutdown]
    exact ⟨h.main.handleRunChildInput _ _ _, rfl⟩
  | cancel streamId => exact ⟨h.main, h.shutdown⟩
  | setModel model validation => exact ⟨h.main.handleSetModel _ _, h.shutdown⟩
  | setTitle title => exact ⟨h.main.handleSetTitle _, h.shutdown⟩
  | setWorkingDir path =>
    exact ⟨h.main.handleSetWorkingDir env s.db r.db path, h.shutdown⟩
  | loadTools groups known => exact ⟨h.main.changeToolGroups _ _ _, h.shutdown⟩
  | unloadTools groups known => exact ⟨h.main.changeToolGroups _ _ _, h.shutdown⟩
  | setAccount name account =>
    exact ⟨h.main.handleSetAccount env s.db r.db name account, h.shutdown⟩
  | dropProvider => exact ⟨{ h.main with provider := rfl }, h.shutdown⟩
  | setProviderSlug slug => exact ⟨{ h.main with providerSlug := rfl }, h.shutdown⟩
  | setReasoningEffort effort => exact ⟨h.main.handleSetReasoningEffort _, h.shutdown⟩
  | attach => exact h
  | undo =>
    refine ⟨?_, h.shutdown⟩
    exact ((SameConfig.handleUndo env s.main s.db).trans h.main).trans
      (SameConfig.handleUndo env r.main r.db).symm
  | redo =>
    refine ⟨?_, h.shutdown⟩
    exact ((SameConfig.handleRedo env s.main s.db).trans h.main).trans
      (SameConfig.handleRedo env r.main r.db).symm
  | shutdown => exact ⟨h.main, rfl⟩

/-- The step takes the snapshot of the finished run. -/
def mergesRun (s : System) : Action → Bool
  | .deliver _ =>
      match s.inbox with
      | .requestFinished _ _ :: _ => true
      | _ => false
  | _ => false

theorem sameConfig_progress (env : Env) (now : Int) (s : SessionState) (db : Db)
    {m : WorkerMessage} (h : m.Progress) :
    SameConfig (handleWorkerMessage env now s db m).state s := by
  obtain ⟨status, usage, prompt, requests, hKeys, hState, _⟩ :=
    handleWorkerMessage_progress env now s db h
  rw [hState]
  refine ⟨rfl, rfl, rfl, rfl, rfl, rfl, rfl, rfl, rfl, ?_⟩
  have hNil : ∀ m : OrdMap Nat ActiveRequest, m.entries = [] ↔ m.keys = [] := by
    intro m
    simp [OrdMap.keys]
  rw [hNil, hNil, hKeys]

/-! ## The window of a run -/

/-- A worker keeps the window it was started with. -/
theorem Worker.Move.window {env : Env} {db : Db} {server : Server} {w w' : Worker}
    {e : WorkerEvent} {r : WorkerResult} (h : w.Move env db server e r)
    (hNext : r.worker = some w') :
    w'.session.config.contextWindow = w.session.config.contextWindow ∧
      w'.initialSnapshot = w.initialSnapshot := by
  have hReplied : ∀ usage responseId,
      (w.repliedConfig env usage responseId).contextWindow = w.session.config.contextWindow := by
    intro usage responseId
    rw [Worker.repliedConfig, Worker.recordResponseId]
    split <;> cases usage <;> rfl
  cases h with
  | finalText turnId request f server' hPhase hServer =>
    cases hNext
    refine ⟨?_, rfl⟩
    simp only [Worker.answer_eq]
    exact hReplied _ _
  | toolUse turnId request f server' hPhase hServer =>
    cases hNext
    refine ⟨?_, rfl⟩
    simp only [Worker.callTools_eq]
    exact hReplied _ _
  | stop w'' hBetween =>
    cases hNext
    exact ⟨by rw [hBetween.session_eq], hBetween.start⟩
  | finalized turnId next w'' hPhase hBetween =>
    cases hNext
    obtain ⟨responseId, producer, hEq⟩ :=
      Worker.finalizedSession_eq (Worker.persistTurn env db w.session turnId).1 next
    refine ⟨?_, hBetween.start⟩
    rw [hBetween.session_eq, hEq]
    rfl
  | tool e turnId b b' completions cancels hPhase hStep =>
    cases hNext
    refine ⟨?_, rfl⟩
    simp only [Worker.recordCompletions_fst]
    rfl
  | toolsDone writeOk turnId b w'' hPhase hDone written hWritten hBetween =>
    cases hNext
    obtain ⟨groups, dir, skills, persisted, hEq, _⟩ := Worker.toolsDone_eq hWritten
    refine ⟨?_, hBetween.start⟩
    rw [hBetween.session_eq, hEq]
  | finish outcome snapshot hPhase => cases hNext
  | _ =>
    cases hNext
    exact ⟨rfl, rfl⟩

/-- A run is on its way, and it was started with this window. -/
def RunsWith (window : Option Nat) : System → Prop :=
  Stage False
    (fun w => w.session.config.contextWindow = window ∧
      w.initialSnapshot.config.contextWindow = window)
    (fun snapshot => snapshot.config.contextWindow = window)

theorem RunsWith.accepted {s : System} {e : Effect} {w : Worker}
    (h : AcceptEffect s.main s.db e w) :
    RunsWith e.state.config.contextWindow { s.applyEffect e with worker := some w } := by
  refine (Stage.running_iff rfl).mpr ?_
  rw [h.spawned]
  exact ⟨rfl, rfl⟩

/-- A step before the merge: the run goes on, and the configuration changes
only if the step is a command. -/
theorem RunsWith.step {env : Env} {window : Option Nat} {s s' : System} {a : Action}
    {os : List Output} (hInv : Inv env s) (h : RunsWith window s)
    (hOk : mergesRun s a = false) (hStep : (system env).step s a = some (s', os)) :
    RunsWith window s' ∧ ((∃ now c, a = .command now c) ∨ SameThread s' s) := by
  cases transition_of_step hInv hStep with
  | quiet e targets shutdown hQuiet =>
    exact ⟨Stage.quiet h id (fun _ _ hw => hw) fun _ hSnapshot => hSnapshot,
      Or.inl ⟨_, _, rfl⟩⟩
  | accept e w hWorker hInbox => exact ((Stage.rest_iff hWorker hInbox).mp h).elim
  | undo e target hIdle hWorker hInbox => exact ((Stage.rest_iff hWorker hInbox).mp h).elim
  | redo e ids hIdle hWorker hInbox => exact ((Stage.rest_iff hWorker hInbox).mp h).elim
  | progress now m rest hInbox hProgress =>
    refine ⟨Stage.progress hInbox hProgress h id (fun _ hw => hw) fun _ hSnapshot => hSnapshot, ?_⟩
    exact Or.inr ⟨sameConfig_progress env now s.main s.db hProgress, rfl⟩
  | merge now streamId snapshot hInbox =>
    simp only [mergesRun, hInbox] at hOk
    cases hOk
  | worker e w w' r hWorker hRun hMove hNext =>
    obtain ⟨hSession, hStart⟩ := (Stage.running_iff hWorker).mp h
    obtain ⟨hKept, hSame⟩ := hMove.window hNext
    refine ⟨(Stage.running_iff rfl).mpr ⟨hKept.trans hSession, ?_⟩, Or.inr ⟨.refl _, rfl⟩⟩
    rw [hSame]
    exact hStart
  | finish w outcome snapshot hWorker hRun hPhase =>
    obtain ⟨hSession, hStart⟩ := (Stage.running_iff hWorker).mp h
    refine ⟨Stage.handed ?_, Or.inr ⟨.refl _, rfl⟩⟩
    have hReturned := hRun.phase
    rw [hPhase] at hReturned
    rcases hReturned with rfl | rfl
    · exact hSession
    · exact hStart
  | reload providerSlug record hIdle hWorker hInbox =>
    exact ((Stage.rest_iff hWorker hInbox).mp h).elim

/-- Up to the merge the session has the configuration of the replay. -/
theorem RunsWith.exec {env : Env} {window : Option Nat} {s r s' : System}
    {during : List Action} {os : List Output} (hInv : Inv env s) (h : RunsWith window s)
    (hThread : SameThread s r)
    (hExec : ((system env).guard fun s a => mergesRun s a = false).exec s during = some (s', os)) :
    Inv env s' ∧ RunsWith window s' ∧ SameThread s' (replay env r during) := by
  induction during generalizing s r os with
  | nil =>
    cases hExec
    exact ⟨hInv, h, hThread⟩
  | cons a rest ih =>
    obtain ⟨s₁, os₁, os₂, hStep, hRest, rfl⟩ := Machine.exec_cons_eq_some.mp hExec
    obtain ⟨hOk, hStep⟩ := Machine.guard_step_eq_some.mp hStep
    obtain ⟨hNext, hFrame⟩ := h.step hInv hOk hStep
    have hInv₁ := inv_step hInv hStep
    cases a with
    | command now c =>
      obtain rfl : (s.command env now c).1 = s₁ := congrArg Prod.fst (Option.some.inj hStep)
      exact ih hInv₁ hNext (hThread.command now c) hRest
    | _ =>
      obtain ⟨_, _, hCommand⟩ | hSame := hFrame
      · cases hCommand
      · exact ih hInv₁ hNext
          ⟨hSame.main.trans hThread.main, hSame.shutdown.trans hThread.shutdown⟩ hRest

/-! ## The merge -/

theorem ConfigFields.with_window_eq_iff {f : ConfigFields} {window : Option Nat} :
    { f with contextWindow := window } = f ↔ f.contextWindow = window := by
  constructor
  · intro h
    rw [← h]
  · rintro rfl
    rfl

theorem runsWith_of_spawn {env : Env} {s s₀ : System} {now : Int} {c : Command}
    {os : List Output} (hInv : Inv env s) (hNew : s.worker = none)
    (hSpawned : s₀.worker.isSome = true)
    (hStep : (system env).step s (.command now c) = some (s₀, os)) :
    RunsWith s₀.main.config.contextWindow s₀ := by
  cases transition_of_step hInv hStep with
  | quiet e targets shutdown hQuiet => simp [System.signalCancel, System.applyEffect, hNew] at hSpawned
  | accept e w hWorker hInbox hReadouts hAccept => exact RunsWith.accepted hAccept
  | undo e target hIdle hWorker => simp [System.applyEffect, hNew] at hSpawned
  | redo e ids hIdle hWorker => simp [System.applyEffect, hNew] at hSpawned

/-- After the merge of a run the configuration is the one that the commands
alone would have produced, exactly if the context window is still the one the
run was accepted with. -/
theorem fields_after_merge_iff {env : Env} {config : SessionConfig} {slug : Option String}
    {before during : List Action} {s s₀ s₁ s₂ : System} {os os₀ os₁ os₂ : List Output}
    {now now' : Int} {c : Command}
    (hReach : (system env).exec (System.init env config slug) before = some (s, os))
    (hNew : s.worker = none) (hSpawned : s₀.worker.isSome = true)
    (hAccept : (system env).step s (.command now c) = some (s₀, os₀))
    (hDuring : ((system env).guard fun s a => mergesRun s a = false).exec s₀ during =
      some (s₁, os₁))
    (hMerges : mergesRun s₁ (.deliver now') = true)
    (hMerge : (system env).step s₁ (.deliver now') = some (s₂, os₂)) :
    s₂.main.config.fields = (replay env s (.command now c :: during)).main.config.fields ↔
      s₁.main.config.contextWindow = s₀.main.config.contextWindow := by
  have hInv := inv_exec hReach
  have hRuns := runsWith_of_spawn hInv hNew hSpawned hAccept
  obtain ⟨hInv₁, hRuns₁, hThread⟩ :=
    RunsWith.exec (inv_step hInv hAccept) hRuns ⟨.refl _, rfl⟩ hDuring
  have hReplay : (replay env s (.command now c :: during)).main.config.fields =
      s₁.main.config.fields := by
    have hFirst : (s.command env now c).1 = s₀ := congrArg Prod.fst (Option.some.inj hAccept)
    rw [replay, hFirst]
    exact hThread.main.fields.symm
  cases transition_of_step hInv₁ hMerge with
  | progress _ m rest hInbox hProgress =>
    rw [mergesRun, hInbox] at hMerges
    split at hMerges
    · rename_i hHead
      cases hHead
      exact absurd rfl (hProgress _ _)
    · cases hMerges
  | merge _ streamId snapshot hInbox hWorker =>
    have hWindow := (Stage.merging_iff hWorker hInbox).mp hRuns₁
    rw [hReplay]
    refine Iff.trans ?_ (ConfigFields.with_window_eq_iff (f := s₁.main.config.fields))
    rw [← hWindow]
    exact Iff.rfl

/-- The steps of a run up to its merge, with one command while it waits for the
provider. -/
def interruptedRun (c : Command) : List Action :=
  [Action.worker (.enter []), Action.worker (.iterate 1 "" 0), Action.command 2 c,
    Action.worker (.finalText { content := "done" }), Action.worker (.finalize none),
    Action.worker .finish] ++ List.replicate 6 (Action.deliver 3)

/-- A title that is set during a run is there after it. -/
theorem fields_after_merge_with_title :
    ∃ s₀ os₀ s₁ os₁ s₂ os₂,
      (system sampleEnv).step (System.init sampleEnv (sampleConfig "chained") none)
          (.command 0 (.runInput "hello" sampleAccount)) = some (s₀, os₀) ∧
        ((system sampleEnv).guard fun s a => mergesRun s a = false).exec s₀
          (interruptedRun (.setTitle "greeting")) = some (s₁, os₁) ∧
        (system sampleEnv).step s₁ (.deliver 4) = some (s₂, os₂) ∧
        s₂.main.config.title = some "greeting" ∧
        s₂.main.config.fields =
          (replay sampleEnv (System.init sampleEnv (sampleConfig "chained") none)
            (.command 0 (.runInput "hello" sampleAccount) ::
              interruptedRun (.setTitle "greeting"))).main.config.fields := by
  have hCheck : (system sampleEnv).check (System.init sampleEnv (sampleConfig "chained") none)
      [.command 0 (.runInput "hello" sampleAccount)]
      (fun s₀ _ => s₀.worker.isSome &&
        ((system sampleEnv).guard fun s a => mergesRun s a = false).check s₀
          (interruptedRun (.setTitle "greeting"))
          (fun s₁ _ => mergesRun s₁ (.deliver 4) &&
            decide (s₁.main.config.contextWindow = s₀.main.config.contextWindow) &&
            (system sampleEnv).check s₁ [.deliver 4]
              (fun s₂ _ => decide (s₂.main.config.title = some "greeting")))) = true := by
    decide +kernel
  obtain ⟨s₀, os₀, hAccept, hTest⟩ := Machine.exists_of_check hCheck
  obtain ⟨hSpawned, hTest⟩ := Bool.and_eq_true_iff.mp hTest
  obtain ⟨s₁, os₁, hDuring, hTest⟩ := Machine.exists_of_check hTest
  obtain ⟨hTest, hTest'⟩ := Bool.and_eq_true_iff.mp hTest
  obtain ⟨hMerges, hWindow⟩ := Bool.and_eq_true_iff.mp hTest
  obtain ⟨s₂, os₂, hMerge, hTitle⟩ := Machine.exists_of_check hTest'
  rw [Machine.exec_singleton] at hAccept hMerge
  exact ⟨s₀, os₀, s₁, os₁, s₂, os₂, hAccept, hDuring, hMerge, of_decide_eq_true hTitle,
    (fields_after_merge_iff (Machine.exec_nil ..) rfl hSpawned hAccept hDuring hMerges hMerge).mpr
      (of_decide_eq_true hWindow)⟩

/-- A model that is selected during a run gets the window of the old model. -/
theorem contextWindow_stale_after_merge :
    ∃ s os,
      (system sampleEnv).exec (System.init sampleEnv (sampleConfig "chained") none)
          (.command 0 (.runInput "hello" sampleAccount) ::
            (interruptedRun (.setModel "plain" none) ++ [.deliver 4])) = some (s, os) ∧
        s.Idle ∧ s.main.config.selectedModel = some "plain" ∧
        s.main.config.contextWindow = some 400 ∧
        (replay sampleEnv (System.init sampleEnv (sampleConfig "chained") none)
          (.command 0 (.runInput "hello" sampleAccount) ::
            interruptedRun (.setModel "plain" none))).main.config.contextWindow = some 200 := by
  have hCheck : (system sampleEnv).check (System.init sampleEnv (sampleConfig "chained") none)
      (.command 0 (.runInput "hello" sampleAccount) ::
        (interruptedRun (.setModel "plain" none) ++ [.deliver 4]))
      (fun s _ => decide (s.Idle ∧ s.main.config.selectedModel = some "plain" ∧
        s.main.config.contextWindow = some 400)) = true := by
    decide +kernel
  obtain ⟨s, os, hExec, hTest⟩ := Machine.exists_of_check hCheck
  obtain ⟨hIdle, hModel, hWindow⟩ := of_decide_eq_true hTest
  exact ⟨s, os, hExec, hIdle, hModel, hWindow, by decide +kernel⟩

end Choreographr.Session
