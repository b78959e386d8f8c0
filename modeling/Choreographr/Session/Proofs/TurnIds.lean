import Choreographr.Session.Proofs.Disk

/-!
# Turn ids

The session announces the next turn id when it accepts a run, the worker
assigns it on its clone, and the merge moves the counter on. A run that panics
after its first turn hands back the counter it started from, and the ids it has
assigned are assigned again. In every run without such a panic the announced
id is the next one assigned, and no id is assigned twice.
-/

namespace Choreographr.Session

open Lib

/-! ## Announcements and assignments in the outputs -/

/-- The ids of the turns that were started, oldest first. -/
def startedIds (os : List Output) : List Nat :=
  os.filterMap fun
    | .startTurn id _ => some id
    | _ => none

/-- The announcement that an output leaves open: a reply to an accepted run
opens one, the start of a turn closes it. -/
def openAnnouncement (pending : Option Nat) : Output → Option Nat
  | .reply (.started _ turnId) => some turnId
  | .startTurn _ _ => none
  | _ => pending

/-- The start of a turn meets the open announcement. -/
def meetsAnnouncement (pending : Option Nat) : Output → Prop
  | .startTurn id _ => ∀ turnId, pending = some turnId → id = turnId
  | _ => True

/-- Every turn that is started while an announcement is open has the announced
id. -/
def Announced : Option Nat → List Output → Prop
  | _, [] => True
  | pending, o :: rest =>
      meetsAnnouncement pending o ∧ Announced (openAnnouncement pending o) rest

theorem announced_append {pending : Option Nat} {os os' : List Output} :
    Announced pending (os ++ os') ↔
      Announced pending os ∧ Announced (os.foldl openAnnouncement pending) os' := by
  induction os generalizing pending with
  | nil => simp [Announced]
  | cons o rest ih => simp [Announced, ih, and_assoc]

theorem openAnnouncement_of_calm {o : Output} (h : o.Calm) (pending : Option Nat) :
    openAnnouncement pending o = pending := by
  unfold openAnnouncement
  split
  · exact absurd rfl (h.1 _ _)
  · exact absurd rfl (h.2 _ _)
  · rfl

/-! ## The invariant on the outputs -/

/-- The outputs so far, when `next` is the next id to be assigned. -/
structure Assigned (os : List Output) (next : Nat) : Prop where
  distinct : (startedIds os).Nodup
  below : ∀ id ∈ startedIds os, id < next
  announced : Announced none os
  pending : ∀ turnId, os.foldl openAnnouncement none = some turnId → turnId = next

namespace Assigned

variable {os os' : List Output} {next : Nat}

theorem nil (next : Nat) : Assigned [] next :=
  ⟨List.nodup_nil, by simp [startedIds], trivial, by simp⟩

/-- Outputs that start no turn, each calm or an announcement of `next`. -/
theorem append (h : Assigned os next)
    (hOutputs : ∀ o ∈ os', o.Calm ∨ ∃ streamId, o = .reply (.started streamId next)) :
    Assigned (os ++ os') next := by
  have hIds : startedIds os' = [] := by
    rw [startedIds, List.filterMap_eq_nil_iff]
    intro o ho
    rcases hOutputs o ho with hCalm | ⟨streamId, rfl⟩
    · split
      · exact absurd rfl (hCalm.2 _ _)
      · rfl
    · rfl
  have hScan : ∀ pending : Option Nat, (∀ turnId, pending = some turnId → turnId = next) →
      Announced pending os' ∧
        ∀ turnId, os'.foldl openAnnouncement pending = some turnId → turnId = next := by
    clear hIds
    induction os' with
    | nil =>
      intro pending hPending
      exact ⟨trivial, hPending⟩
    | cons o rest ih =>
      intro pending hPending
      have hRest := ih fun o ho => hOutputs o (List.mem_cons_of_mem _ ho)
      rcases hOutputs o List.mem_cons_self with hCalm | ⟨streamId, rfl⟩
      · have hMeets : meetsAnnouncement pending o := by
          cases o with
          | startTurn id text => exact absurd rfl (hCalm.2 id text)
          | _ => trivial
        rw [Announced, List.foldl_cons, openAnnouncement_of_calm hCalm pending]
        exact ⟨⟨hMeets, (hRest pending hPending).1⟩, (hRest pending hPending).2⟩
      · have hNext := hRest (some next) fun turnId hEq => (Option.some.inj hEq).symm
        exact ⟨⟨trivial, hNext.1⟩, hNext.2⟩
  refine ⟨?_, ?_, ?_, ?_⟩
  · rw [startedIds, List.filterMap_append]
    change (startedIds os ++ startedIds os').Nodup
    rw [hIds, List.append_nil]
    exact h.distinct
  · intro id hId
    rw [startedIds, List.filterMap_append] at hId
    change id ∈ startedIds os ++ startedIds os' at hId
    rw [hIds, List.append_nil] at hId
    exact h.below id hId
  · exact announced_append.mpr ⟨h.announced, (hScan _ h.pending).1⟩
  · rw [List.foldl_append]
    exact (hScan _ h.pending).2

theorem append_calm (h : Assigned os next) (hOutputs : ∀ o ∈ os', o.Calm) :
    Assigned (os ++ os') next := h.append fun o ho => Or.inl (hOutputs o ho)

/-- The start of the next turn. -/
theorem startTurn (h : Assigned os next) (text : Option String) :
    Assigned (os ++ [.startTurn next text]) (next + 1) := by
  have hIds : startedIds (os ++ [.startTurn next text]) = startedIds os ++ [next] := by
    simp [startedIds, List.filterMap_append]
  refine ⟨?_, ?_, ?_, ?_⟩
  · rw [hIds, List.nodup_append]
    refine ⟨h.distinct, List.nodup_singleton next, ?_⟩
    intro id hId id' hId'
    rw [List.mem_singleton.mp hId']
    exact ne_of_lt (h.below id hId)
  · intro id hId
    rw [hIds, List.mem_append, List.mem_singleton] at hId
    rcases hId with hId | rfl
    · exact Nat.lt_succ_of_lt (h.below id hId)
    · exact Nat.lt_succ_self id
  · exact announced_append.mpr
      ⟨h.announced, fun turnId hEq => (h.pending turnId hEq).symm, trivial⟩
  · intro turnId hEq
    rw [List.foldl_append] at hEq
    cases hEq

end Assigned

/-! ## The invariant on the system -/

/-- `next` is the worker's counter and the counter of what it hands back. -/
structure WorkerNext (next : Nat) (w : Worker) : Prop where
  session : w.session.nextTurnId = next
  returned : ∀ outcome snapshot, w.phase = .returning outcome snapshot →
    SessionState.nextTurnIdOf snapshot.turns = next

/-- `next` is the next id that will be assigned. -/
def NextId (next : Nat) (s : System) : Prop :=
  Stage (s.main.nextTurnId = next) (WorkerNext next)
    (fun snapshot => SessionState.nextTurnIdOf snapshot.turns = next) s

def TurnIdsInv (env : Env) (os : List Output) (s : System) : Prop :=
  DiskInv env s ∧ ∃ next, NextId next s ∧ Assigned os next

/-- A worker panics only before it has started a turn. -/
def panicsUnstarted (s : System) : Action → Bool
  | .worker .panic =>
      match s.worker with
      | some w => w.session.nextTurnId = s.main.nextTurnId
      | none => true
  | _ => true

/-- A worker that has started no turn has written none. -/
theorem panicsUnwritten_of_unstarted {env : Env} {s : System} {a : Action} (hInv : Inv env s)
    (hDisk : DiskInv env s) (h : panicsUnstarted s a = true) : panicsUnwritten s a = true := by
  unfold panicsUnstarted at h
  split at h
  · cases hWorker : s.worker with
    | none => simp [panicsUnwritten, hWorker]
    | some w =>
      rw [hWorker] at h
      have hNext : w.session.nextTurnId = s.main.nextTurnId := by simpa using h
      obtain ⟨_, _, hRun⟩ := hInv.of_worker hWorker
      rw [DiskInv, Stage.running_iff hWorker] at hDisk
      have hSame : w.session.turns = s.main.turns := by
        refine hRun.session.extended.eq_of_next ?_
        rw [← hInv.nextTurnId, ← hNext, hRun.nextTurnId]
        rfl
      have hEmpty : w.session.persistedTurns = ∅ := by
        rw [Finset.eq_empty_iff_forall_notMem]
        intro id hId
        obtain ⟨hKey, hNew⟩ := hDisk.listed id hId
        exact hNew (hSame ▸ hKey)
      simp [panicsUnwritten, hWorker, hEmpty]
  · rename_i hNotPanic
    unfold panicsUnwritten
    split
    · exact absurd rfl hNotPanic
    · rfl

theorem WorkerNext.step {env : Env} {db : Db} {server : Server} {base : Turns} {w w' : Worker}
    {e : WorkerEvent} {r : WorkerResult} {next : Nat} (h : WorkerNext next w)
    (hRun : WorkerInv base w) (hMove : w.Move env db server e r) (hNext : r.worker = some w')
    (hPanic : e = .panic → w.session.nextTurnId = SessionState.nextTurnIdOf base) :
    WorkerNext w'.session.nextTurnId w' := by
  refine ⟨rfl, ?_⟩
  intro outcome snapshot hPhase'
  rcases hMove.returned hNext hPhase' with rfl | rfl | ⟨rfl, hSession, rfl⟩
  · rw [h.returned outcome snapshot hPhase', h.session]
  · exact (hRun.step hMove hNext).nextTurnId.symm
  · rw [hSession, hRun.start_turns, hPanic rfl]

theorem turnIdsInv_step {env : Env} {s s' : System} {a : Action} {os os' : List Output}
    (hInv : Inv env s) (h : TurnIdsInv env os s) (hOk : panicsUnstarted s a = true)
    (hStep : Transition env s a s' os') : TurnIdsInv env (os ++ os') s' := by
  obtain ⟨hDisk, next, hNext, hAssigned⟩ := h
  refine ⟨diskInv_step hInv hDisk (panicsUnwritten_of_unstarted hInv hDisk hOk) hStep, ?_⟩
  cases hStep with
  | quiet e targets shutdown hQuiet =>
    refine ⟨next, hNext.quiet ?_ (fun w cancels hw => ⟨hw.session, hw.returned⟩) (fun _ h => h),
      hAssigned.append_calm fun o ho => (hQuiet.outputs o ho).calm⟩
    intro hRest
    exact hQuiet.history.nextTurnId.trans hRest
  | accept e w hWorker hInbox hReadouts hAccept =>
    rw [NextId, Stage.rest_iff hWorker hInbox] at hNext
    refine ⟨next, (Stage.running_iff rfl).mpr ?_, hAssigned.append ?_⟩
    · rw [hAccept.spawned]
      refine ⟨?_, ?_⟩
      · rw [← hNext, hInv.nextTurnId, ← hAccept.history.turns]
        rfl
      · intro outcome snapshot hReturning
        cases hReturning
    · intro o ho
      rcases hAccept.outputs o ho with hQuiet | rfl
      · exact Or.inl hQuiet.calm
      · exact Or.inr ⟨w.streamId, by rw [hNext]⟩
  | undo e target hIdle hWorker hInbox hReadouts hUndo =>
    rw [NextId, Stage.rest_iff hWorker hInbox] at hNext
    refine ⟨next, (Stage.rest_iff (s := s.applyEffect e) hWorker hInbox).mpr
      (hUndo.flagsOnly.nextTurnId.trans hNext), hAssigned.append_calm ?_⟩
    rw [hUndo.outputs]
    exact calm_of_all_isCalm rfl
  | redo e ids hIdle hWorker hInbox hReadouts hRedo =>
    rw [NextId, Stage.rest_iff hWorker hInbox] at hNext
    refine ⟨next, (Stage.rest_iff (s := s.applyEffect e) hWorker hInbox).mpr
      (hRedo.flagsOnly.nextTurnId.trans hNext), hAssigned.append_calm ?_⟩
    rw [hRedo.outputs]
    exact calm_of_all_isCalm rfl
  | progress now m rest hInbox hProgress =>
    obtain ⟨status, usage, prompt, requests, hKeys, hState, _⟩ :=
      handleWorkerMessage_progress env now s.main s.db hProgress
    refine ⟨next, ?_, hAssigned.append_calm (message_outputs_calm env now s.main s.db m)⟩
    refine hNext.progress hInbox hProgress ?_ (fun _ h => h) (fun _ h => h)
    intro hRest
    simp only [System.applyEffect, hState]
    exact hRest
  | merge now streamId snapshot hInbox hWorker hActive hSnapshot =>
    rw [NextId, Stage.merging_iff hWorker hInbox] at hNext
    refine ⟨next, Stage.merged hWorker ?_, hAssigned.append_calm
      (message_outputs_calm env now s.main s.db (.requestFinished streamId snapshot))⟩
    exact (handleRequestFinished_nextTurnId hInv.nextTurnId hSnapshot.extended).trans hNext
  | worker e w w' r hWorker hRun hMove hNextWorker =>
    rw [NextId, Stage.running_iff hWorker] at hNext
    have hWorkerNext := hNext.step hRun hMove hNextWorker (by
      intro he
      subst he
      rw [← hInv.nextTurnId]
      simpa [panicsUnstarted, hWorker] using hOk)
    refine ⟨w'.session.nextTurnId, (Stage.running_iff rfl).mpr hWorkerNext, ?_⟩
    rcases hMove.trace_cases hNextWorker with ⟨hTrace, hSame⟩ | ⟨hTrace, hSucc⟩
    · rw [hTrace, List.append_nil, hSame, hNext.session]
      exact hAssigned
    · rw [hTrace, hSucc, hNext.session]
      exact hAssigned.startTurn _
  | finish w outcome snapshot hWorker hRun hPhase =>
    rw [NextId, Stage.running_iff hWorker] at hNext
    refine ⟨next, Stage.handed (hNext.returned outcome snapshot hPhase), ?_⟩
    refine hAssigned.append_calm ?_
    intro o ho
    split at ho
    · rw [List.mem_singleton] at ho
      subst ho
      exact Output.calm_of_isCalm rfl
    · cases ho
  | reload providerSlug record hIdle hWorker hInbox hRecord =>
    rw [NextId, Stage.rest_iff hWorker hInbox] at hNext
    rw [DiskInv, Stage.rest_iff hWorker hInbox] at hDisk
    have hTurns : OrdMap.empty.insertAll (s.db.readTurns env.sessionId) = s.main.turns := by
      apply OrdMap.ext_get?
      intro tid
      rw [Db.get?_load env.sessionId_lt, hDisk tid]
    refine ⟨next, (Stage.rest_iff hWorker hInbox).mpr ?_, hAssigned.append_calm ?_⟩
    · rw [hTurns, ← hNext, hInv.nextTurnId]
      rfl
    · intro o ho
      rw [List.mem_singleton] at ho
      subst ho
      exact Output.calm_of_isCalm rfl

theorem turnIdsInv_init (env : Env) (config : SessionConfig) (slug : Option String) :
    TurnIdsInv env [] (System.init env config slug) :=
  ⟨diskInv_init env config slug, _, (Stage.rest_iff rfl rfl).mpr rfl, Assigned.nil _⟩

/-- While no worker panics after it has started a turn: the turn counter of an
idle session is one past its largest turn id, every announced turn id is the
one that is assigned next, and no turn id is assigned twice. -/
theorem turn_ids_disciplined {env : Env} {config : SessionConfig} {slug : Option String}
    {actions : List Action} {s : System} {os : List Output}
    (h : ((system env).guard fun s a => panicsUnstarted s a = true).exec
      (System.init env config slug) actions = some (s, os)) :
    (s.Idle → (s.main.turns.keys = [] → s.main.nextTurnId = 0) ∧
      ∀ id ∈ s.main.turns.keys, (∀ id' ∈ s.main.turns.keys, id' ≤ id) →
        s.main.nextTurnId = id + 1) ∧
      Announced none os ∧ (startedIds os).Nodup := by
  have hInv := inv_exec (Machine.exec_of_guard h)
  obtain ⟨_, next, _, hAssigned⟩ := guarded_invariant_of_transition (P := TurnIdsInv env)
    turnIdsInv_step (turnIdsInv_init env config slug) h
  refine ⟨?_, hAssigned.announced, hAssigned.distinct⟩
  intro _
  rw [hInv.nextTurnId, SessionState.nextTurnIdOf]
  constructor
  · intro hEmpty
    rw [OrdMap.lastKey?_eq_none_iff.mpr hEmpty]
  · intro id hId hMax
    cases hLast : s.main.turns.lastKey? with
    | none =>
      rw [OrdMap.lastKey?_eq_none_iff.mp hLast] at hId
      cases hId
    | some last =>
      have hLe := hMax last (OrdMap.mem_keys_of_lastKey? hLast)
      have hGe := OrdMap.le_lastKey? hLast hId
      rw [Nat.le_antisymm hLe hGe]

/-- Two runs of one turn each; the first ends with `ending`. -/
def twoRuns (ending : List WorkerEvent) (messages : Nat) : List Action :=
  sampleRun "first" ([WorkerEvent.enter [], WorkerEvent.iterate 1 "" 0] ++ ending) messages ++
    sampleRun "second" [.enter [], .iterate 2 "" 0] 0

/-- Two runs that both answer. -/
theorem turn_ids_disciplined_after_answer :
    ∃ s os,
      ((system sampleEnv).guard fun s a => panicsUnstarted s a = true).exec
          (System.init sampleEnv (sampleConfig "chained") none)
          (twoRuns [.finalText { content := "done" }, .finalize none, .finish] 7) =
        some (s, os) ∧ startedIds os = [0, 1] ∧ Announced none os := by
  have hCheck : ((system sampleEnv).guard fun s a => panicsUnstarted s a = true).check
      (System.init sampleEnv (sampleConfig "chained") none)
      (twoRuns [.finalText { content := "done" }, .finalize none, .finish] 7)
      (fun _ os => startedIds os = [0, 1]) = true := by
    decide +kernel
  obtain ⟨s, os, hExec, hIds⟩ := Machine.exists_of_check hCheck
  exact ⟨s, os, hExec, of_decide_eq_true hIds, (turn_ids_disciplined hExec).2.1⟩

/-- A worker that panics after its first turn makes the next run assign the
same id to another turn. -/
theorem turn_id_assigned_twice_after_panic :
    ∃ s os,
      (system sampleEnv).exec (System.init sampleEnv (sampleConfig "chained") none)
          (twoRuns [.panic, .finish] 5) = some (s, os) ∧
        startedIds os = [0, 0] ∧ ¬(startedIds os).Nodup := by
  have hCheck : (system sampleEnv).check
      (System.init sampleEnv (sampleConfig "chained") none) (twoRuns [.panic, .finish] 5)
      (fun _ os => startedIds os = [0, 0]) = true := by
    decide +kernel
  obtain ⟨s, os, hExec, hIds⟩ := Machine.exists_of_check hCheck
  have hIds := of_decide_eq_true hIds
  exact ⟨s, os, hExec, hIds, by simp [hIds]⟩

end Choreographr.Session
