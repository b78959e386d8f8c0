import Choreographr.Session.Proofs.Runs

/-!
# Token accounting

A worker adds the usage of each reply to its own counters, pushes the new
total to the session thread, and hands its counters back at the end; the
session thread publishes what it has. `TotalsChain` follows the totals that
wait in the inbox: each is at least the one before it, and the last one is the
worker's. So the published totals never decrease, as long as no counter
overflows and no run that has recorded usage panics: the panic hands back the
counters from before the run, after later ones have been published.

At rest the total is the one that a restart computes from the turns, whatever
happened before.
-/

namespace Choreographr.Session

open Lib

/-- The totals shown by a list of outputs, oldest first. -/
def publishedTotals (os : List Output) : List TokenUsage := os.filterMap Output.published

/-! ## Totals in the outputs -/

/-- The totals so far never decreased and stay below `total`. -/
structure TotalsBelow (os : List Output) (total : TokenUsage) : Prop where
  sorted : (publishedTotals os).Pairwise (· ≤ ·)
  below : ∀ usage ∈ publishedTotals os, usage ≤ total

theorem TotalsBelow.append {os os' : List Output} {total total' : TokenUsage}
    (h : TotalsBelow os total) (hLe : total ≤ total')
    (hNew : ∀ o ∈ os', ∀ usage, o.published = some usage → usage = total') :
    TotalsBelow (os ++ os') total' := by
  have hTotals : ∀ usage ∈ publishedTotals os', usage = total' := by
    intro usage hUsage
    obtain ⟨o, ho, hPublished⟩ := List.mem_filterMap.mp hUsage
    exact hNew o ho usage hPublished
  have hAppend : publishedTotals (os ++ os') = publishedTotals os ++ publishedTotals os' :=
    List.filterMap_append
  constructor
  · rw [hAppend, List.pairwise_append]
    refine ⟨h.sorted, ?_, ?_⟩
    · refine List.pairwise_of_forall_mem_list ?_
      intro usage hUsage usage' hUsage'
      rw [hTotals usage hUsage, hTotals usage' hUsage']
      exact TokenUsage.le_rfl total'
    · intro usage hUsage usage' hUsage'
      rw [hTotals usage' hUsage']
      exact TokenUsage.le_trans (h.below usage hUsage) hLe
  · intro usage hUsage
    rw [hAppend, List.mem_append] at hUsage
    rcases hUsage with hUsage | hUsage
    · exact TokenUsage.le_trans (h.below usage hUsage) hLe
    · rw [hTotals usage hUsage]
      exact TokenUsage.le_rfl total'

theorem published_of_quiet {total : TokenUsage} {o : Output} (h : o.Quiet total) :
    ∀ usage, o.published = some usage → usage = total := by
  intro usage hUsage
  unfold Output.Quiet at h
  split at h
  · cases hUsage
  · cases hUsage
  · cases hUsage
  · exact h usage hUsage

theorem published_broadcastTokenState {s : SessionState} {event : SessionEvent}
    (hEvent : (Output.broadcast event).published = none) :
    ∀ o ∈ Output.broadcast event :: broadcastTokenState s ++ [Output.reply .accepted],
      ∀ usage, o.published = some usage → usage = s.config.accumulatedUsage := by
  intro o ho usage hUsage
  simp only [broadcastTokenState, List.cons_append, List.nil_append, List.mem_cons,
    List.not_mem_nil, or_false] at ho
  rcases ho with rfl | rfl | rfl | rfl
  · rw [hEvent] at hUsage
    cases hUsage
  · exact (Option.some.inj hUsage).symm
  · exact (Option.some.inj hUsage).symm
  · cases hUsage

/-! ## Totals in the inbox -/

/-- The session's total after it has taken a message. -/
def totalAfter (total : TokenUsage) : WorkerMessage → TokenUsage
  | .syncAccumulatedUsage usage _ => usage
  | _ => total

/-- A message that does not take the session's total back. -/
def KeepsTotal (total : TokenUsage) : WorkerMessage → Prop
  | .syncAccumulatedUsage usage _ => total ≤ usage
  | .broadcast event => ∀ usage, (Output.broadcast event).published = some usage → usage = total
  | .requestFinished _ snapshot => snapshot.config.accumulatedUsage = total
  | .statusChanged _ => True

/-- Taking all the messages leads from the first total to the last one and
never back. -/
def TotalsChain : TokenUsage → List WorkerMessage → TokenUsage → Prop
  | total, [], last => total = last
  | total, m :: rest, last => KeepsTotal total m ∧ TotalsChain (totalAfter total m) rest last

theorem TotalsChain.append {total mid last : TokenUsage} {messages sent : List WorkerMessage}
    (h : TotalsChain total messages mid) (hSent : TotalsChain mid sent last) :
    TotalsChain total (messages ++ sent) last := by
  induction messages generalizing total with
  | nil =>
    have hMid : total = mid := h
    rw [hMid]
    exact hSent
  | cons m rest ih => exact ⟨h.1, ih h.2⟩

theorem totalsChain_of_silent {total : TokenUsage} {messages : List WorkerMessage}
    (h : ∀ m ∈ messages, KeepsTotal total m ∧ totalAfter total m = total) :
    TotalsChain total messages total := by
  induction messages with
  | nil => rfl
  | cons m rest ih =>
    obtain ⟨hKeeps, hAfter⟩ := h m List.mem_cons_self
    refine ⟨hKeeps, ?_⟩
    rw [hAfter]
    exact ih fun m hm => h m (List.mem_cons_of_mem _ hm)

theorem totalsChain_turnAppended (s : SessionState) (id : Nat) (total : TokenUsage) :
    TotalsChain total (s.turnAppended id) total := by
  apply totalsChain_of_silent
  intro m hm
  rw [SessionState.turnAppended] at hm
  split at hm
  · rw [List.mem_singleton] at hm
    subst hm
    refine ⟨?_, rfl⟩
    intro usage hUsage
    cases hUsage
  · cases hm

/-! ## Totals of the worker -/

/-- No counter overflows when a reply's usage is added to the worker's total. -/
def usageFits (s : System) (usage : Option TokenUsage) : Bool :=
  match s.worker, usage with
  | some w, some u => decide (TokenUsage.Fits w.session.config.accumulatedUsage u)
  | _, _ => true

/-- No usage overflows a counter, no worker panics once it has recorded usage,
and the session restarts only from rows that are its turns. -/
def keepsTotals (env : Env) (s : System) : Action → Bool
  | .worker .panic =>
      match s.worker with
      | some w =>
          w.session.config.accumulatedUsage = w.initialSnapshot.config.accumulatedUsage
      | none => true
  | .worker (.finalText r) => usageFits s r.usage
  | .worker (.toolUse r) => usageFits s r.usage
  | .reload _ => s.db.readTurns env.sessionId = s.main.turns.entries
  | _ => true

/-- The total that a returning worker hands back is its own. -/
def ReturnsTotal (w : Worker) : Prop :=
  ∀ outcome snapshot, w.phase = .returning outcome snapshot →
    snapshot.config.accumulatedUsage = w.session.config.accumulatedUsage

theorem repliedConfig_accumulatedUsage (env : Env) (w : Worker) (usage : Option TokenUsage)
    (responseId : Option String) :
    (w.repliedConfig env usage responseId).accumulatedUsage =
      addUsage w.session.config.accumulatedUsage usage := by
  rw [Worker.repliedConfig, Worker.recordResponseId]
  split <;> cases usage <;> rfl

theorem le_addUsage {total : TokenUsage} {usage : Option TokenUsage}
    (h : ∀ u, usage = some u → TokenUsage.Fits total u) : total ≤ addUsage total usage := by
  cases usage with
  | none => exact TokenUsage.le_rfl total
  | some u => exact TokenUsage.le_accumulate (h u rfl)

/-- The messages of a step lead from the worker's old total to its new one. -/
theorem Worker.Move.totals {env : Env} {db : Db} {server : Server} {w w' : Worker}
    {e : WorkerEvent} {r : WorkerResult} (h : w.Move env db server e r)
    (hNext : r.worker = some w')
    (hFinal : ∀ f, e = .finalText f → ∀ u, f.usage = some u →
      TokenUsage.Fits w.session.config.accumulatedUsage u)
    (hTools : ∀ f, e = .toolUse f → ∀ u, f.usage = some u →
      TokenUsage.Fits w.session.config.accumulatedUsage u) :
    TotalsChain w.session.config.accumulatedUsage r.sent w'.session.config.accumulatedUsage := by
  cases h with
  | beginTurn now systemPrompt estimate hStart hBound =>
    cases hNext
    refine (totalsChain_turnAppended _ _ _).append ⟨trivial, ?_, rfl⟩
    intro usage hUsage
    cases hUsage
  | status status =>
    cases hNext
    exact ⟨trivial, rfl⟩
  | finalText turnId request f server' hPhase hServer =>
    cases hNext
    simp only [Worker.answer_eq, Worker.tokenUsageSync, repliedConfig_accumulatedUsage]
    exact ⟨le_addUsage (hFinal f rfl), rfl⟩
  | toolUse turnId request f server' hPhase hServer =>
    cases hNext
    have hTotal : (w.callTools env turnId f).config.accumulatedUsage =
        addUsage w.session.config.accumulatedUsage f.usage := by
      rw [Worker.callTools_eq]
      exact repliedConfig_accumulatedUsage env w _ _
    refine ⟨?_, totalsChain_turnAppended _ _ _⟩
    change w.session.config.accumulatedUsage ≤ (w.callTools env turnId f).config.accumulatedUsage
    rw [hTotal]
    exact le_addUsage (hTools f rfl)
  | stop w'' hBetween =>
    cases hNext
    rw [hBetween.session_eq]
    rfl
  | finalized turnId next w'' hPhase hBetween =>
    cases hNext
    obtain ⟨responseId, producer, hEq⟩ :=
      Worker.finalizedSession_eq (Worker.persistTurn env db w.session turnId).1 next
    rw [hBetween.session_eq, hEq]
    exact totalsChain_turnAppended _ _ _
  | tool e turnId b b' completions cancels hPhase hStep =>
    cases hNext
    simp only [Worker.recordCompletions_fst]
    rfl
  | toolsDone writeOk turnId b w'' hPhase hDone written hWritten hBetween =>
    cases hNext
    obtain ⟨groups, dir, skills, persisted, hEq, _⟩ := Worker.toolsDone_eq hWritten
    rw [hBetween.session_eq, hEq]
    dsimp only
    split
    · exact totalsChain_turnAppended _ _ _
    · rfl
  | finish outcome snapshot hPhase => cases hNext
  | _ =>
    cases hNext
    rfl

/-- The total that a worker hands back after a step is its own, unless it
panics with a later one. -/
theorem ReturnsTotal.step {env : Env} {db : Db} {server : Server} {w w' : Worker}
    {e : WorkerEvent} {r : WorkerResult} (h : ReturnsTotal w) (hMove : w.Move env db server e r)
    (hNext : r.worker = some w')
    (hPanic : e = .panic → w.session.config.accumulatedUsage =
      w.initialSnapshot.config.accumulatedUsage) : ReturnsTotal w' := by
  intro outcome snapshot hPhase'
  rcases hMove.returned hNext hPhase' with rfl | rfl | ⟨rfl, hSession, rfl⟩
  · exact h outcome snapshot hPhase'
  · rfl
  · rw [hSession, hPanic rfl]

theorem totalsChain_outcome {w : Worker} {outcome : RequestOutcome} {snapshot : SessionSnapshot}
    (h : snapshot.config.accumulatedUsage = w.session.config.accumulatedUsage) :
    TotalsChain w.session.config.accumulatedUsage
      (w.outcomeMessages outcome ++ [.requestFinished w.streamId snapshot])
      snapshot.config.accumulatedUsage := by
  have hFinished : TotalsChain w.session.config.accumulatedUsage
      [.requestFinished w.streamId snapshot] snapshot.config.accumulatedUsage := ⟨h, h.symm⟩
  refine TotalsChain.append ?_ hFinished
  cases outcome with
  | done =>
    refine ⟨?_, rfl⟩
    intro usage hUsage
    exact (Option.some.inj hUsage).symm
  | failed error =>
    refine ⟨?_, rfl⟩
    intro usage hUsage
    cases hUsage
  | cancelled => rfl

/-! ## Totals of the system -/

def TotalsInv (os : List Output) (s : System) : Prop :=
  TotalsBelow os s.main.config.accumulatedUsage ∧
    Stage True
      (fun w => ReturnsTotal w ∧ TotalsChain s.main.config.accumulatedUsage s.inbox
        w.session.config.accumulatedUsage)
      (fun snapshot => TotalsChain s.main.config.accumulatedUsage s.inbox
        snapshot.config.accumulatedUsage) s

/-- The first message of a chain, when the session takes it. -/
theorem message_totals (env : Env) (now : Int) {s : SessionState} (db : Db) {m : WorkerMessage}
    (h : KeepsTotal s.config.accumulatedUsage m) :
    (handleWorkerMessage env now s db m).state.config.accumulatedUsage =
        totalAfter s.config.accumulatedUsage m ∧
      s.config.accumulatedUsage ≤ totalAfter s.config.accumulatedUsage m ∧
      ∀ o ∈ (handleWorkerMessage env now s db m).outputs, ∀ usage,
        o.published = some usage → usage = totalAfter s.config.accumulatedUsage m := by
  cases m with
  | broadcast event =>
    refine ⟨?_, TokenUsage.le_rfl _, ?_⟩
    · simp only [handleWorkerMessage, handleBroadcast, totalAfter]
      cases event <;> rfl
    · intro o ho usage hUsage
      rw [handleWorkerMessage, handleBroadcast, List.mem_singleton] at ho
      subst ho
      exact h usage hUsage
  | statusChanged status =>
    refine ⟨rfl, TokenUsage.le_rfl _, ?_⟩
    intro o ho usage hUsage
    simp only [handleWorkerMessage, handleStatusChanged, List.mem_cons, List.not_mem_nil,
      or_false] at ho
    rcases ho with rfl | rfl <;> cases hUsage
  | syncAccumulatedUsage usage prompt =>
    have hMerge : s.config.accumulatedUsage.mergeMax usage = usage :=
      TokenUsage.mergeMax_of_le h
    refine ⟨hMerge, h, ?_⟩
    intro o ho usage' hUsage
    simp only [handleWorkerMessage, handleSyncAccumulatedUsage, broadcastTokenState, List.mem_cons,
      List.not_mem_nil, or_false] at ho
    rcases ho with rfl | rfl
    · exact (Option.some.inj hUsage).symm.trans hMerge
    · exact (Option.some.inj hUsage).symm.trans hMerge
  | requestFinished streamId snapshot =>
    have hTotal : snapshot.config.accumulatedUsage = s.config.accumulatedUsage := h
    refine ⟨hTotal, TokenUsage.le_rfl _, ?_⟩
    intro o ho usage hUsage
    simp only [handleWorkerMessage, handleRequestFinished, List.mem_cons, List.not_mem_nil,
      or_false] at ho
    rcases ho with rfl | rfl | rfl
    · exact (Option.some.inj hUsage).symm.trans hTotal
    · cases hUsage
    · cases hUsage

theorem totalsInv_step {env : Env} {s s' : System} {a : Action} {os os' : List Output}
    (hInv : Inv env s) (h : TotalsInv os s) (hOk : keepsTotals env s a = true)
    (hStep : Transition env s a s' os') : TotalsInv (os ++ os') s' := by
  obtain ⟨hBelow, hStage⟩ := h
  cases hStep with
  | quiet e targets shutdown hQuiet =>
    have hTotal : e.state.config.accumulatedUsage = s.main.config.accumulatedUsage :=
      hQuiet.history.accumulatedUsage
    refine ⟨?_, hStage.quiet id ?_ ?_⟩
    · refine hBelow.append ?_ fun o ho => published_of_quiet (hQuiet.outputs o ho)
      simp only [System.signalCancel, System.applyEffect, hTotal]
      exact TokenUsage.le_rfl _
    · intro w cancels hw
      simp only [System.signalCancel, System.applyEffect, hTotal]
      exact hw
    · intro snapshot hSnapshot
      simp only [System.signalCancel, System.applyEffect, hTotal]
      exact hSnapshot
  | accept e w hWorker hInbox hReadouts hAccept =>
    have hTotal : e.state.config.accumulatedUsage = s.main.config.accumulatedUsage :=
      hAccept.history.accumulatedUsage
    refine ⟨?_, (Stage.running_iff rfl).mpr ⟨?_, ?_⟩⟩
    · refine hBelow.append ?_ ?_
      · simp only [System.applyEffect, hTotal]
        exact TokenUsage.le_rfl _
      · intro o ho
        rcases hAccept.outputs o ho with hQuiet | rfl
        · exact published_of_quiet hQuiet
        · intro usage hUsage
          cases hUsage
    · intro outcome snapshot hPhase
      rw [hAccept.spawned] at hPhase
      cases hPhase
    · simp only [System.applyEffect, hInbox]
      rw [hAccept.spawned]
      rfl
  | undo e target hIdle hWorker hInbox hReadouts hUndo =>
    refine ⟨?_, (Stage.rest_iff (s := s.applyEffect e) hWorker hInbox).mpr trivial⟩
    refine hBelow.append ?_ ?_
    · simp only [System.applyEffect, hUndo.flagsOnly.accumulatedUsage]
      exact TokenUsage.le_rfl _
    · rw [hUndo.outputs]
      exact published_broadcastTokenState rfl
  | redo e ids hIdle hWorker hInbox hReadouts hRedo =>
    refine ⟨?_, (Stage.rest_iff (s := s.applyEffect e) hWorker hInbox).mpr trivial⟩
    refine hBelow.append ?_ ?_
    · simp only [System.applyEffect, hRedo.flagsOnly.accumulatedUsage]
      exact TokenUsage.le_rfl _
    · rw [hRedo.outputs]
      exact published_broadcastTokenState rfl
  | progress now m rest hInbox hProgress =>
    -- whichever stage it is, the message is the first of the chain
    have hChain : ∀ last, TotalsChain s.main.config.accumulatedUsage s.inbox last →
        KeepsTotal s.main.config.accumulatedUsage m ∧
          TotalsChain (totalAfter s.main.config.accumulatedUsage m) rest last := by
      intro last hChain
      rw [hInbox] at hChain
      exact hChain
    have hKeeps : KeepsTotal s.main.config.accumulatedUsage m := by
      cases hInv.activity with
      | idle _ _ hNil =>
        rw [hNil] at hInbox
        cases hInbox
      | running w _ hWorker =>
        rw [Stage.running_iff hWorker] at hStage
        exact (hChain _ hStage.2).1
      | finished streamId snapshot progress _ hWorker hFinished =>
        rw [Stage.finished_iff hWorker hFinished] at hStage
        exact (hChain _ hStage).1
    obtain ⟨hTotal, hLe, hPublished⟩ :=
      message_totals env now s.db hKeeps
    refine ⟨?_, hStage.progress hInbox hProgress id ?_ ?_⟩
    · simp only [System.applyEffect, hTotal]
      exact hBelow.append hLe hPublished
    · intro w hw
      simp only [System.applyEffect, hTotal]
      exact ⟨hw.1, (hChain _ hw.2).2⟩
    · intro snapshot hSnapshot
      simp only [System.applyEffect, hTotal]
      exact (hChain _ hSnapshot).2
  | merge now streamId snapshot hInbox hWorker hActive hSnapshot =>
    rw [Stage.merging_iff hWorker hInbox, hInbox] at hStage
    obtain ⟨hTotal, hLe, hPublished⟩ :=
      message_totals env now s.db hStage.1
    refine ⟨?_, Stage.merged hWorker trivial⟩
    change (handleRequestFinished env now s.main s.db streamId snapshot).state.config.accumulatedUsage
      = _ at hTotal
    simp only [System.applyEffect, hTotal]
    exact hBelow.append hLe hPublished
  | worker e w w' r hWorker hRun hMove hNext =>
    rw [Stage.running_iff hWorker] at hStage
    obtain ⟨hReturns, hChain⟩ := hStage
    have hSent := hMove.totals hNext
      (by
        rintro f rfl u hu
        simpa [keepsTotals, usageFits, hWorker, hu] using hOk)
      (by
        rintro f rfl u hu
        simpa [keepsTotals, usageFits, hWorker, hu] using hOk)
    have hReturns' := hReturns.step hMove hNext (by
      rintro rfl
      simpa [keepsTotals, hWorker] using hOk)
    refine ⟨?_, (Stage.running_iff rfl).mpr ⟨hReturns', hChain.append hSent⟩⟩
    refine hBelow.append (TokenUsage.le_rfl _) ?_
    intro o ho usage hUsage
    rcases hMove.trace_cases hNext with ⟨hTrace, _⟩ | ⟨hTrace, _⟩
    · rw [hTrace] at ho
      cases ho
    · rw [hTrace, List.mem_singleton] at ho
      subst ho
      cases hUsage
  | finish w outcome snapshot hWorker hRun hPhase =>
    rw [Stage.running_iff hWorker] at hStage
    obtain ⟨hReturns, hChain⟩ := hStage
    refine ⟨?_, Stage.handed (hChain.append (totalsChain_outcome (hReturns outcome snapshot hPhase)))⟩
    refine hBelow.append (TokenUsage.le_rfl _) ?_
    intro o ho usage hUsage
    split at ho
    · rw [List.mem_singleton] at ho
      subst ho
      cases hUsage
    · cases ho
  | reload providerSlug record hIdle hWorker hInbox hRecord =>
    obtain ⟨_, _, hReadouts⟩ := hInv.of_idle hIdle
    have hRows : s.db.readTurns env.sessionId = s.main.turns.entries := by
      simpa [keepsTotals] using hOk
    have hTurns : OrdMap.empty.insertAll (s.db.readTurns env.sessionId) = s.main.turns := by
      rw [hRows, OrdMap.empty_insertAll_entries]
    have hTotal : (SessionState.load env record providerSlug
        (OrdMap.empty.insertAll (s.db.readTurns env.sessionId))).config.accumulatedUsage =
          s.main.config.accumulatedUsage := by
      rw [hTurns, hReadouts.1]
      rfl
    refine ⟨?_, (Stage.rest_iff hWorker hInbox).mpr trivial⟩
    refine hBelow.append ?_ ?_
    · simp only [hTotal]
      exact TokenUsage.le_rfl _
    · intro o ho usage hUsage
      rw [List.mem_singleton] at ho
      subst ho
      exact (Option.some.inj hUsage).symm

theorem totalsInv_init (env : Env) (config : SessionConfig) (slug : Option String) :
    TotalsInv [] (System.init env config slug) :=
  ⟨⟨List.Pairwise.nil, by simp [publishedTotals]⟩, (Stage.rest_iff rfl rfl).mpr trivial⟩

/-- The total of an idle session is the one that a restart computes. While no
counter overflows, no worker panics once it has recorded usage and the session
restarts only from its own turns, the published totals never decrease. -/
theorem token_accounting {env : Env} {config : SessionConfig} {slug : Option String}
    {actions : List Action} {s : System} {os : List Output}
    (h : ((system env).guard fun s a => keepsTotals env s a = true).exec
      (System.init env config slug) actions = some (s, os)) :
    (s.Idle → s.main.config.accumulatedUsage = reconstructAccumulatedUsage s.main.turns) ∧
      (publishedTotals os).Pairwise (· ≤ ·) := by
  have hInv := inv_exec (Machine.exec_of_guard h)
  obtain ⟨hBelow, _⟩ := guarded_invariant_of_transition (P := TotalsInv)
    totalsInv_step (totalsInv_init env config slug) h
  exact ⟨fun hIdle => (hInv.of_idle hIdle).2.2.1, hBelow.sorted⟩

/-- The steps of a run up to its first tool call, whose reply reports usage. -/
def meteredCall : List WorkerEvent :=
  [.enter [], .iterate 1 "" 0,
    .toolUse (sampleToolUse (some { inputTokens := 10, totalTokens := 10 }))]

/-- A run whose two replies report usage publishes two growing totals. -/
theorem token_accounting_after_answer :
    ∃ s os,
      ((system sampleEnv).guard fun s a => keepsTotals sampleEnv s a = true).exec
          (System.init sampleEnv (sampleConfig "chained") none)
          (sampleRun "list the files"
            (meteredCall ++ [.tool .dispatch,
              .tool (.handle 0 (.finished { content := "README.md" }) none), .toolsDone true,
              .iterate 2 "" 0,
              .finalText
                { content := "README.md", usage := some { outputTokens := 5, totalTokens := 5 } },
              .finalize none, .finish]) 12) = some (s, os) ∧
        s.Idle ∧ s.main.config.accumulatedUsage.totalTokens = 15 ∧
        (s.Idle → s.main.config.accumulatedUsage = reconstructAccumulatedUsage s.main.turns) ∧
        (publishedTotals os).Pairwise (· ≤ ·) := by
  have hCheck : ((system sampleEnv).guard fun s a => keepsTotals sampleEnv s a = true).check
      (System.init sampleEnv (sampleConfig "chained") none)
      (sampleRun "list the files"
        (meteredCall ++ [WorkerEvent.tool .dispatch,
          WorkerEvent.tool (.handle 0 (.finished { content := "README.md" }) none),
          WorkerEvent.toolsDone true, WorkerEvent.iterate 2 "" 0,
          WorkerEvent.finalText
            { content := "README.md", usage := some { outputTokens := 5, totalTokens := 5 } },
          WorkerEvent.finalize none, WorkerEvent.finish]) 12)
      (fun s _ => decide (s.Idle ∧ s.main.config.accumulatedUsage.totalTokens = 15)) = true := by
    decide +kernel
  obtain ⟨s, os, hExec, hTest⟩ := Machine.exists_of_check hCheck
  obtain ⟨hIdle, hTotal⟩ := of_decide_eq_true hTest
  exact ⟨s, os, hExec, hIdle, hTotal, token_accounting hExec⟩

/-- A panic takes back a total that clients have been shown: the first reply's
usage is published before the worker panics, and the merge returns to zero. -/
theorem publishedTotals_decrease_after_panic :
    ∃ s os,
      (system sampleEnv).exec (System.init sampleEnv (sampleConfig "chained") none)
          (sampleRun "list the files" (meteredCall ++ [.panic, .finish]) 7) = some (s, os) ∧
        s.Idle ∧ ¬ (publishedTotals os).Pairwise (· ≤ ·) := by
  have hCheck : (system sampleEnv).check
      (System.init sampleEnv (sampleConfig "chained") none)
      (sampleRun "list the files" (meteredCall ++ [WorkerEvent.panic, WorkerEvent.finish]) 7)
      (fun s os => decide (s.Idle ∧ ¬ (publishedTotals os).Pairwise (· ≤ ·))) = true := by
    decide +kernel
  obtain ⟨s, os, hExec, hTest⟩ := Machine.exists_of_check hCheck
  exact ⟨s, os, hExec, of_decide_eq_true hTest⟩

end Choreographr.Session
