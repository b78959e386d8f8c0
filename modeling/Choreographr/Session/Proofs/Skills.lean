import Choreographr.Session.Proofs.Runs

/-!
# Cached skills across a run

A session caches the skills that a worker discovered in its working directory,
and every change of the directory drops the cache. A worker's own list always
belongs to the worker's own directory. The merge takes over the list but not
the directory, so a list that was discovered before a client moved the session
comes back. Without such a merge the cache of the session belongs to its
directory in every reachable state.
-/

namespace Choreographr.Session

open Lib

/-- A cached list, if there is one, was discovered from the given directory. -/
def SkillsFrom (skills : Option DiscoveredSkills) (dir : Option String) : Prop :=
  ∀ d, skills = some d → d.workingDir = dir

instance (skills : Option DiscoveredSkills) (dir : Option String) :
    Decidable (SkillsFrom skills dir) :=
  match skills with
  | none => isTrue fun _ h => nomatch h
  | some d => decidable_of_iff (d.workingDir = dir)
      ⟨fun h _ hd => Option.some.inj hd ▸ h, fun h => h d rfl⟩

theorem skillsFrom_none (dir : Option String) : SkillsFrom none dir := by
  intro d hd
  cases hd

theorem SkillsFrom.of_kept {skills skills' : Option DiscoveredSkills} {dir dir' : Option String}
    (h : SkillsFrom skills dir) (hKept : skills' = none ∨ skills' = skills ∧ dir' = dir) :
    SkillsFrom skills' dir' := by
  rcases hKept with rfl | ⟨rfl, rfl⟩
  · exact skillsFrom_none dir'
  · exact h

/-- The worker's two lists belong to their own directories. -/
structure WorkerSkills (w : Worker) : Prop where
  session : SkillsFrom w.session.discoveredSkills w.session.config.workingDir
  start : SkillsFrom w.initialSnapshot.discoveredSkills w.initialSnapshot.config.workingDir

theorem WorkerSkills.of_kept {w w' : Worker} (h : WorkerSkills w)
    (hStart : w'.initialSnapshot = w.initialSnapshot)
    (hKept : w'.session.discoveredSkills = none ∨
      w'.session.discoveredSkills = w.session.discoveredSkills ∧
        w'.session.config.workingDir = w.session.config.workingDir) : WorkerSkills w' where
  session := h.session.of_kept hKept
  start := by rw [hStart]; exact h.start

theorem repliedConfig_workingDir (env : Env) (w : Worker) (usage : Option TokenUsage)
    (responseId : Option String) :
    (w.repliedConfig env usage responseId).workingDir = w.session.config.workingDir := by
  rw [Worker.repliedConfig, Worker.recordResponseId]
  split <;> cases usage <;> rfl

theorem WorkerSkills.step {env : Env} {db : Db} {server : Server} {w w' : Worker}
    {e : WorkerEvent} {r : WorkerResult} (h : WorkerSkills w)
    (hMove : w.Move env db server e r) (hNext : r.worker = some w') : WorkerSkills w' := by
  cases hMove with
  | enter skills hPhase =>
    cases hNext
    refine ⟨?_, h.start⟩
    intro d hd
    simp only [Worker.enter] at hd ⊢
    cases hSkills : w.session.discoveredSkills with
    | none =>
      rw [hSkills] at hd
      cases hd
      rfl
    | some d' =>
      rw [hSkills] at hd
      cases hd
      exact h.session d hSkills
  | finalText turnId request r server' hPhase hServer =>
    cases hNext
    refine h.of_kept rfl (Or.inr ?_)
    rw [Worker.answer_eq]
    exact ⟨rfl, repliedConfig_workingDir env w _ _⟩
  | toolUse turnId request r server' hPhase hServer =>
    cases hNext
    refine h.of_kept rfl (Or.inr ?_)
    rw [Worker.callTools_eq]
    exact ⟨rfl, repliedConfig_workingDir env w _ _⟩
  | stop w'' hBetween =>
    cases hNext
    refine h.of_kept hBetween.start (Or.inr ?_)
    rw [hBetween.session_eq]
    exact ⟨rfl, rfl⟩
  | finalized turnId next w'' hPhase hBetween =>
    cases hNext
    obtain ⟨responseId, producer, hEq⟩ :=
      Worker.finalizedSession_eq (Worker.persistTurn env db w.session turnId).1 next
    refine h.of_kept hBetween.start (Or.inr ?_)
    rw [hBetween.session_eq, hEq]
    exact ⟨rfl, rfl⟩
  | tool e turnId b b' completions cancels hPhase hStep =>
    cases hNext
    refine h.of_kept rfl (Or.inr ?_)
    rw [Worker.recordCompletions_fst]
    exact ⟨rfl, rfl⟩
  | toolsDone writeOk turnId b w'' hPhase hDone written hWritten hBetween =>
    cases hNext
    obtain ⟨groups, dir, skills, persisted, hEq, hKept⟩ := Worker.toolsDone_eq hWritten
    refine h.of_kept hBetween.start ?_
    rw [hBetween.session_eq, hEq]
    exact hKept
  | finish outcome snapshot hPhase => cases hNext
  | _ =>
    cases hNext
    exact h.of_kept rfl (Or.inr ⟨rfl, rfl⟩)

theorem WorkerSkills.snapshot {base : Turns} {w : Worker} {outcome : RequestOutcome}
    {snapshot : SessionSnapshot} (h : WorkerSkills w) (hRun : WorkerInv base w)
    (hPhase : w.phase = .returning outcome snapshot) :
    SkillsFrom snapshot.discoveredSkills snapshot.config.workingDir := by
  have hPhaseInv := hRun.phase
  rw [hPhase] at hPhaseInv
  rcases hPhaseInv with rfl | rfl
  · exact h.session
  · exact h.start

/-- The cache of the session, of its worker and of a waiting snapshot each
belong to their own directory. -/
def SkillsInv (s : System) : Prop :=
  SkillsFrom s.main.discoveredSkills s.main.config.workingDir ∧
    Stage True WorkerSkills
      (fun snapshot => SkillsFrom snapshot.discoveredSkills snapshot.config.workingDir) s

/-- A snapshot that is merged now brings no skills, or it comes from the
directory the session is in. -/
def mergesOwnSkills (s : System) : Action → Bool
  | .deliver _ =>
      match s.inbox with
      | .requestFinished _ snapshot :: _ =>
          snapshot.discoveredSkills = none ||
            snapshot.config.workingDir = s.main.config.workingDir
      | _ => true
  | _ => true

theorem refreshContextWindow_discoveredSkills (env : Env) (s : SessionState) :
    (s.refreshContextWindow env).1.discoveredSkills = s.discoveredSkills := by
  rw [SessionState.refreshContextWindow]
  split
  · rfl
  · split
    · rfl
    · split <;> rfl

theorem skillsInv_step {env : Env} {s s' : System} {a : Action} {os : List Output}
    (h : SkillsInv s) (hOk : mergesOwnSkills s a = true) (hStep : Transition env s a s' os) :
    SkillsInv s' := by
  obtain ⟨hMain, hStage⟩ := h
  cases hStep with
  | quiet e targets shutdown hQuiet =>
    exact ⟨hMain.of_kept hQuiet.history.skills,
      hStage.quiet id (fun w cancels hw => ⟨hw.session, hw.start⟩) (fun _ h => h)⟩
  | accept e w hWorker hInbox hReadouts hAccept =>
    have hState := hMain.of_kept hAccept.history.skills
    refine ⟨hState, (Stage.running_iff rfl).mpr ?_⟩
    rw [hAccept.spawned]
    exact ⟨hState, hState⟩
  | undo e target hIdle hWorker hInbox hReadouts hUndo =>
    refine ⟨?_, (Stage.rest_iff hWorker hInbox).mpr trivial⟩
    exact hMain.of_kept
      (Or.inr ⟨hUndo.flagsOnly.discoveredSkills, hUndo.flagsOnly.workingDir⟩)
  | redo e ids hIdle hWorker hInbox hReadouts hRedo =>
    refine ⟨?_, (Stage.rest_iff hWorker hInbox).mpr trivial⟩
    exact hMain.of_kept
      (Or.inr ⟨hRedo.flagsOnly.discoveredSkills, hRedo.flagsOnly.workingDir⟩)
  | progress now m rest hInbox hProgress =>
    obtain ⟨status, usage, prompt, requests, hKeys, hState, _⟩ :=
      handleWorkerMessage_progress env now s.main s.db hProgress
    refine ⟨?_, hStage.progress hInbox hProgress id (fun _ h => h) (fun _ h => h)⟩
    simp only [System.applyEffect, hState]
    exact hMain
  | merge now streamId snapshot hInbox hWorker hActive hSnapshot =>
    rw [Stage.merging_iff hWorker hInbox] at hStage
    refine ⟨?_, Stage.merged hWorker trivial⟩
    simp only [mergesOwnSkills, hInbox, Bool.or_eq_true, decide_eq_true_eq] at hOk
    rcases hOk with hNone | hDir
    · exact hStage.of_kept (Or.inl hNone)
    · exact hStage.of_kept (Or.inr ⟨rfl, hDir.symm⟩)
  | worker e w w' r hWorker hRun hMove hNext =>
    rw [Stage.running_iff hWorker] at hStage
    exact ⟨hMain, (Stage.running_iff rfl).mpr (hStage.step hMove hNext)⟩
  | finish w outcome snapshot hWorker hRun hPhase =>
    rw [Stage.running_iff hWorker] at hStage
    exact ⟨hMain, Stage.handed (hStage.snapshot hRun hPhase)⟩
  | reload providerSlug record hIdle hWorker hInbox hRecord =>
    refine ⟨?_, (Stage.rest_iff hWorker hInbox).mpr trivial⟩
    intro d hd
    simp only [SessionState.load] at hd
    rw [refreshContextWindow_discoveredSkills] at hd
    cases hd

theorem skillsInv_init (env : Env) (config : SessionConfig) (slug : Option String) :
    SkillsInv (System.init env config slug) := by
  refine ⟨?_, (Stage.rest_iff rfl rfl).mpr trivial⟩
  intro d hd
  simp only [System.init, SessionState.load] at hd
  rw [refreshContextWindow_discoveredSkills] at hd
  cases hd

/-- While no run is merged that discovered its skills in another directory, the
cached skills of the session were discovered from its current directory. -/
theorem discoveredSkills_from_workingDir {env : Env} {config : SessionConfig}
    {slug : Option String} {actions : List Action} {s : System} {os : List Output}
    (h : ((system env).guard fun s a => mergesOwnSkills s a = true).exec
      (System.init env config slug) actions = some (s, os)) :
    ∀ d, s.main.discoveredSkills = some d → d.workingDir = s.main.config.workingDir := by
  have hInv := guarded_invariant_of_transition (P := fun _ s => SkillsInv s)
    (fun _ hInv hOk hStep => skillsInv_step hInv hOk hStep) (skillsInv_init env config slug) h
  exact hInv.1

/-- A run that discovers skills and is cancelled, with `mid` in between. -/
def discoveringRun (mid : List Action) : List Action :=
  [Action.command 0 (.runInput "hello" sampleAccount),
    Action.worker (.enter [⟨"deploy", "how to deploy", "/repo/.agents/skills/deploy"⟩])] ++ mid ++
  [Action.command 2 (.cancel 0),
    Action.worker (.iterate 3 "" 0),
    Action.worker .finish,
    Action.deliver 4]

/-- A run in the session's own directory leaves its skills in the cache. -/
theorem discoveredSkills_from_workingDir_after_run :
    ∃ s os d,
      ((system sampleEnv).guard fun s a => mergesOwnSkills s a = true).exec
          (System.init sampleEnv (sampleConfig "chained") none) (discoveringRun []) =
        some (s, os) ∧ s.main.discoveredSkills = some d ∧
        d.workingDir = s.main.config.workingDir := by
  have hCheck : ((system sampleEnv).guard fun s a => mergesOwnSkills s a = true).check
      (System.init sampleEnv (sampleConfig "chained") none) (discoveringRun [])
      (fun s _ => s.main.discoveredSkills.isSome) = true := by
    decide +kernel
  obtain ⟨s, os, hExec, hSome⟩ := Machine.exists_of_check hCheck
  obtain ⟨d, hd⟩ := Option.isSome_iff_exists.mp hSome
  exact ⟨s, os, d, hExec, hd, discoveredSkills_from_workingDir hExec d hd⟩

/-- The merge puts back the skills of the directory that the session left. -/
theorem discoveredSkills_stale_after_merge :
    ∃ s os,
      (system sampleEnv).exec (System.init sampleEnv (sampleConfig "chained") none)
          (discoveringRun [.command 1 (.setWorkingDir "/other")]) = some (s, os) ∧
        ¬∀ d, s.main.discoveredSkills = some d → d.workingDir = s.main.config.workingDir := by
  have hCheck : (system sampleEnv).check
      (System.init sampleEnv (sampleConfig "chained") none)
      (discoveringRun [.command 1 (.setWorkingDir "/other")])
      (fun s _ => !decide (SkillsFrom s.main.discoveredSkills s.main.config.workingDir)) =
        true := by
    decide +kernel
  obtain ⟨s, os, hExec, hTest⟩ := Machine.exists_of_check hCheck
  have hStale : ¬SkillsFrom s.main.discoveredSkills s.main.config.workingDir := by
    simpa using hTest
  exact ⟨s, os, hExec, hStale⟩

end Choreographr.Session
