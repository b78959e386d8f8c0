import Choreographr.Session.Proofs.Runs

/-!
# Tool-use iterations keep what they recorded

An iteration seeds one placeholder per call and fills the placeholders as the
calls complete. Recording finds the placeholder by call id, and so do the
sweeps that come when a call times out, a thread dies or the request is
cancelled. While the ids of a response differ, every call is recorded at most
once and no sweep reaches a result that was recorded before it. When two calls
share an id, the second one fills the placeholder of the first: a timeout of
the second then takes the place of the first one's result.

`iteration` is the batch together with its turn, and `Worker.Iterating` ties it
to the worker.
-/

namespace Choreographr.Session

open Lib

variable {env : Env} {t : Turn} {c : IndexedCall} {i : Iteration} {os : List Completion}

/-! ## Looking up a result -/

namespace Turn

theorem find?_updateFirst_of_ne {α : Type} {p q : α → Bool} {f : α → α}
    (h : ∀ x, p x = true → q x = false ∧ q (f x) = false) (xs : List α) :
    (updateFirst p f xs).find? q = xs.find? q := by
  induction xs with
  | nil => rfl
  | cons x rest ih =>
    rw [updateFirst]
    split
    · rename_i hp
      obtain ⟨hx, hfx⟩ := h x hp
      simp [hx, hfx]
    · simp only [List.find?_cons, ih]

theorem find?_updateFirst_self {α : Type} {p : α → Bool} {f : α → α}
    (h : ∀ x, p (f x) = p x) (xs : List α) :
    (updateFirst p f xs).find? p = (xs.find? p).map f := by
  induction xs with
  | nil => rfl
  | cons x rest ih =>
    rw [updateFirst]
    split
    · rename_i hp
      simp [h, hp]
    · rename_i hp
      simp [hp, ih]

theorem toolResults_recordToolCompletion (env : Env) (t : Turn) (c : Completion) :
    (t.recordToolCompletion env c).toolResults =
      (t.updateToolResult c.call.call.id c.call.call.name (c.recordedOutput env)).toolResults := by
  rw [recordToolCompletion]
  cases c.displayedImage <;> rfl

/-- The result that recording would fill for this id. -/
def resultFor (t : Turn) (id : String) : Option ToolResultRecord :=
  t.toolResults.find? fun r => r.callId == id

def resultIds (t : Turn) : List String := t.toolResults.map ToolResultRecord.callId

theorem resultIds_recordToolCompletion (env : Env) (t : Turn) (c : Completion) :
    (t.recordToolCompletion env c).resultIds = t.resultIds := by
  rw [resultIds, toolResults_recordToolCompletion]
  apply map_updateFirst
  intro r
  rfl

theorem resultIds_recordToolCompletions (env : Env) (t : Turn) (completions : List Completion) :
    (t.recordToolCompletions env completions).resultIds = t.resultIds :=
  recordToolCompletions_induction (P := fun t' => t'.resultIds = t.resultIds)
    (fun t' c h => (resultIds_recordToolCompletion env t' c).trans h) rfl completions

theorem resultFor_recordToolCompletion_of_ne {c : Completion} {id : String}
    (h : c.call.call.id ≠ id) : (t.recordToolCompletion env c).resultFor id = t.resultFor id := by
  rw [resultFor, toolResults_recordToolCompletion]
  apply find?_updateFirst_of_ne
  intro r hr
  have hId : r.callId = c.call.call.id := by simpa using hr
  simpa [hId] using h

theorem resultFor_recordToolCompletions {completions : List Completion} {id : String}
    (h : ∀ c ∈ completions, c.call.call.id ≠ id) :
    (t.recordToolCompletions env completions).resultFor id = t.resultFor id := by
  induction completions generalizing t with
  | nil => rfl
  | cons c rest ih =>
    refine (ih fun c hc => h c (List.mem_cons_of_mem _ hc)).trans ?_
    exact resultFor_recordToolCompletion_of_ne (h c List.mem_cons_self)

theorem resultFor_recordToolCompletion_self (env : Env) (t : Turn) (c : Completion) :
    ((t.recordToolCompletion env c).resultFor c.call.call.id).map ToolResultRecord.isError =
      (t.resultFor c.call.call.id).map fun _ => c.output.isError := by
  rw [resultFor, toolResults_recordToolCompletion]
  simp only [updateToolResult]
  rw [find?_updateFirst_self, Option.map_map]
  · rfl
  · intro r
    rfl

theorem resultFor_markUnexecuted {executed : Finset String} {id : String} (h : id ∈ executed) :
    (t.markUnexecutedToolResults executed).resultFor id = t.resultFor id := by
  simp only [resultFor, markUnexecutedToolResults]
  induction t.toolResults with
  | nil => rfl
  | cons r rest ih =>
    by_cases hId : r.callId = id
    · simp [hId, h]
    · have hHead : ((if r.callId ∈ executed then r
          else { r with content := "[cancelled — result not recorded]", isError := true }).callId ==
            id) = false := by
        split <;> simpa using hId
      simp [hHead, hId, ih]

theorem isSome_resultFor_iff {id : String} : (t.resultFor id).isSome ↔ id ∈ t.resultIds := by
  simp [resultFor, resultIds]

end Turn

/-! ## Iterations -/

/-- A batch and the turn it fills. -/
structure Iteration where
  batch : Batch
  turn : Turn
deriving DecidableEq

def iteration (env : Env) : Machine Iteration BatchEvent Completion :=
  ⟨fun i e =>
    match i.batch.step e with
    | none => none
    | some (b, completions) =>
        some (⟨b, i.turn.recordToolCompletions env completions⟩, completions)⟩

namespace Iteration

/-- The placeholders are seeded and nothing has run. -/
def start (env : Env) (t : Turn) (calls : List ChatToolCall) : Iteration where
  batch := Batch.start (indexCalls env calls)
  turn := t.seedToolResults (calls.map ChatToolCall.toRecord) (invocationDescriptions env calls)

/-- The turn once the iteration has ended, with the sweep of a cancelled one. -/
def ended (i : Iteration) : Turn := Worker.ended i.batch i.turn

end Iteration

theorem iteration_step_eq_some {i' : Iteration} {e : BatchEvent} {completions : List Completion} :
    (iteration env).step i e = some (i', completions) ↔
      i.batch.step e = some (i'.batch, completions) ∧
        i'.turn = i.turn.recordToolCompletions env completions := by
  obtain ⟨b', t'⟩ := i'
  simp only [iteration]
  split
  · rename_i hStep
    simp [hStep]
  · rename_i b completions' hStep
    rw [hStep]
    constructor
    · intro h
      cases h
      exact ⟨rfl, rfl⟩
    · rintro ⟨h, rfl⟩
      cases h
      rfl

/-! ### The worker's iterations -/

/-- The worker is in this iteration. -/
def Worker.Iterating (w : Worker) (turnId : Nat) (i : Iteration) : Prop :=
  w.phase = .tools turnId i.batch ∧ w.session.turns.get? turnId = some i.turn

/-- A tool-use reply starts an iteration. -/
theorem Worker.Iterating.toolUse {db : Db} {server : Server} {w w' : Worker} {r : ToolUse}
    {result : WorkerResult} {turnId : Nat} {request : InferenceRequest}
    (hPhase : w.phase = .awaiting turnId request) (hTurn : w.session.turns.get? turnId = some t)
    (h : w.step env db server (.toolUse r) = some result) (hNext : result.worker = some w') :
    ∃ t', w'.Iterating turnId (Iteration.start env t' r.toolCalls) := by
  have hStart : ∃ t', w.called env r t = (Iteration.start env t' r.toolCalls).turn := ⟨_, rfl⟩
  obtain ⟨t', hStart⟩ := hStart
  simp only [Worker.step, hPhase] at h
  split at h
  · cases h
  · cases h
    cases hNext
    refine ⟨t', rfl, ?_⟩
    rw [Worker.callTools_eq]
    simp only [OrdMap.get?_modify, hTurn, Option.map_some, if_true, hStart]

/-- A batch event of the worker is a step of its iteration. -/
theorem Worker.Iterating.tool {db : Db} {server : Server} {w w' : Worker} {e : BatchEvent}
    {result : WorkerResult} {turnId : Nat} (hIterating : w.Iterating turnId i)
    (h : w.step env db server (.tool e) = some result) (hNext : result.worker = some w') :
    ∃ i' completions, (iteration env).step i e = some (i', completions) ∧
      w'.Iterating turnId i' := by
  obtain ⟨hPhase, hTurn⟩ := hIterating
  simp only [Worker.step, hPhase] at h
  split at h
  · cases h
  · split at h
    · cases h
    · rename_i b completions hStep
      cases h
      cases hNext
      refine ⟨⟨b, i.turn.recordToolCompletions env completions⟩, completions, ?_, rfl, ?_⟩
      · exact iteration_step_eq_some.mpr ⟨hStep, rfl⟩
      · simp only [Worker.recordCompletions_fst, SessionState.modifyTurn, OrdMap.get?_modify, hTurn,
          Option.map_some, if_true]

/-- The worker leaves an iteration with the turn swept. -/
theorem Worker.Iterating.toolsDone {db : Db} {server : Server} {w w' : Worker} {writeOk : Bool}
    {result : WorkerResult} {turnId : Nat} (hIterating : w.Iterating turnId i)
    (h : w.step env db server (.toolsDone writeOk) = some result) (hNext : result.worker = some w') :
    i.batch.phase = .done ∧ w'.session.turns.get? turnId = some i.ended := by
  obtain ⟨hPhase, hTurn⟩ := hIterating
  simp only [Worker.step, hPhase] at h
  split at h
  · rename_i hDone
    cases h
    cases hNext
    refine ⟨hDone, ?_⟩
    have hTurns : (if writeOk = true then
        Worker.persistTurn env db (w.endTools env turnId i.batch) turnId
        else (w.endTools env turnId i.batch, db)).1.turns.get? turnId = some i.ended := by
      generalize hWritten : (if writeOk = true then
        Worker.persistTurn env db (w.endTools env turnId i.batch) turnId
        else (w.endTools env turnId i.batch, db)) = written
      obtain ⟨groups, dir, skills, persisted, hEq, _⟩ := Worker.toolsDone_eq hWritten.symm
      rw [hEq]
      simp only [OrdMap.get?_modify, hTurn, Option.map_some, if_true]
      rfl
    split
    · exact hTurns
    · exact hTurns
  · cases h

/-! ## What a sweep may touch -/

/-- The outcome of a call that did not come to its own end. -/
def ToolOutcome.isSweep : ToolOutcome → Bool
  | .panicked | .timedOut _ | .cancelled => true
  | .finished _ | .failed _ => false

def BatchEvent.isSweep : BatchEvent → Bool
  | .serialResult outcome _ _ _ => outcome.isSweep
  | .handle _ outcome _ => outcome.isSweep
  | .disconnect => true
  | _ => false

/-- Every iteration over these calls ends with one result per call, in order,
and no panic, timeout or cancellation changes a result recorded before it. -/
structure KeepsResults (env : Env) (t : Turn) (calls : List ChatToolCall) : Prop where
  complete : ∀ {events i os},
    (iteration env).exec (Iteration.start env t calls) events = some (i, os) →
      i.batch.phase = .done → i.ended.resultIds = calls.map ChatToolCall.id
  kept : ∀ {events i os},
    (iteration env).exec (Iteration.start env t calls) events = some (i, os) → ∀ c ∈ os,
      (∀ e i' os', e.isSweep = true → (iteration env).step i e = some (i', os') →
        i'.turn.resultFor c.call.call.id = i.turn.resultFor c.call.call.id) ∧
      (i.batch.phase = .done → i.ended.resultFor c.call.call.id = i.turn.resultFor c.call.call.id)

/-! ### Complete for all calls -/

theorem Iteration.resultIds_start (env : Env) (t : Turn) (calls : List ChatToolCall) :
    (Iteration.start env t calls).turn.resultIds = calls.map ChatToolCall.id := by
  apply List.ext_getElem
  · simp [Iteration.start, Turn.resultIds, Turn.seedToolResults, invocationDescriptions]
  · intro k _ _
    simp [Iteration.start, Turn.resultIds, Turn.seedToolResults, ChatToolCall.toRecord]

theorem resultIds_exec {calls : List ChatToolCall} {events : List BatchEvent}
    (h : (iteration env).exec (Iteration.start env t calls) events = some (i, os)) :
    i.turn.resultIds = calls.map ChatToolCall.id := by
  refine Machine.exec_state_invariant
    (P := fun i => i.turn.resultIds = calls.map ChatToolCall.id) ?_
    (Iteration.resultIds_start env t calls) h
  intro i e i' os hIds hStep
  obtain ⟨_, hTurn⟩ := iteration_step_eq_some.mp hStep
  rw [hTurn, Turn.resultIds_recordToolCompletions, hIds]

theorem Iteration.resultIds_ended (i : Iteration) : i.ended.resultIds = i.turn.resultIds := by
  rw [Iteration.ended, Worker.ended]
  split
  · simp only [Turn.resultIds, Turn.markUnexecutedToolResults, List.map_map]
    apply List.map_congr_left
    intro r _
    simp only [Function.comp_apply]
    split <;> rfl
  · rfl

/-! ### Calls with distinct ids -/

def IndexedCall.id (c : IndexedCall) : String := c.call.id

/-- The ids of the calls that have been recorded. -/
def recordedIds (completions : List Completion) : List String :=
  completions.map fun c => c.call.id

/-- No call that may still be recorded has the id of a recorded one. -/
structure BatchInv (recorded : List Completion) (b : Batch) : Prop where
  executed : ∀ id ∈ recordedIds recorded, id ∈ b.executed
  fresh :
    match b.phase with
    | .serial rest =>
        ((rest ++ b.concurrent).map IndexedCall.id).Nodup ∧
          ∀ c ∈ rest ++ b.concurrent, c.id ∉ recordedIds recorded
    | .collecting threads =>
        (b.concurrent.map IndexedCall.id).Nodup ∧
          (∀ c ∈ b.concurrent, c.id ∈ recordedIds recorded → c.id ∈ b.delivered) ∧
          ∀ (k : Nat) (c : IndexedCall), threads[k]? = some ThreadStatus.running →
            b.concurrent[k]? = some c → c.id ∉ recordedIds recorded
    | .done => True

namespace BatchInv

variable {recorded completions : List Completion} {b b' : Batch} {e : BatchEvent}

theorem of_done (hExecuted : ∀ id ∈ recordedIds recorded, id ∈ b.executed)
    (hDone : b.phase = .done) : BatchInv recorded b :=
  ⟨hExecuted, by rw [hDone]; trivial⟩

theorem settle (h : BatchInv recorded b) : BatchInv recorded b.settle := by
  rw [Batch.settle]
  split
  · exact h
  · exact .of_done h.executed rfl

theorem mem_executed_foldl {calls : List IndexedCall} {executed : Finset String} {id : String} :
    id ∈ calls.foldl (fun e c => insert c.call.id e) executed ↔
      id ∈ executed ∨ id ∈ calls.map IndexedCall.id := by
  induction calls generalizing executed with
  | nil => simp
  | cons c rest ih =>
    rw [List.foldl_cons, ih]
    simp only [Finset.mem_insert, List.map_cons, List.mem_cons, IndexedCall.id]
    tauto

theorem mem_recordedIds_concat {output : ToolOutput} {image : Option PreparedImage} {id : String} :
    id ∈ recordedIds (recorded ++ [⟨c, output, image⟩]) ↔ id ∈ recordedIds recorded ∨ id = c.id := by
  simp [recordedIds]

theorem notMem_of_serial {rest : List IndexedCall} (h : BatchInv recorded b)
    (hPhase : b.phase = .serial (c :: rest)) : c.id ∉ recordedIds recorded := by
  have hFresh := h.fresh
  rw [hPhase] at hFresh
  exact hFresh.2 c List.mem_cons_self

/-- A session-config call was recorded. -/
theorem serialResult {rest : List IndexedCall} {output : ToolOutput} {image : Option PreparedImage}
    (h : BatchInv recorded b) (hPhase : b.phase = .serial (c :: rest))
    (hConcurrent : b'.concurrent = b.concurrent) (hExecuted : b'.executed = insert c.id b.executed)
    (hNext : b'.phase = .serial rest ∨ b'.phase = .done) :
    BatchInv (recorded ++ [⟨c, output, image⟩]) b' := by
  have hFresh := h.fresh
  rw [hPhase] at hFresh
  obtain ⟨hNodup, hNew⟩ := hFresh
  rw [List.cons_append, List.map_cons, List.nodup_cons] at hNodup
  have hRecorded : ∀ id ∈ recordedIds (recorded ++ [⟨c, output, image⟩]), id ∈ b'.executed := by
    intro id hId
    rw [hExecuted, Finset.mem_insert]
    rcases mem_recordedIds_concat.mp hId with hId | hId
    · exact Or.inr (h.executed id hId)
    · exact Or.inl hId
  rcases hNext with hNext | hNext
  · refine ⟨hRecorded, ?_⟩
    rw [hNext, hConcurrent]
    refine ⟨hNodup.2, ?_⟩
    intro c' hc'
    rw [mem_recordedIds_concat, not_or]
    refine ⟨hNew c' (List.mem_cons_of_mem _ hc'), ?_⟩
    intro hSame
    rw [← hSame] at hNodup
    exact hNodup.1 (List.mem_map_of_mem hc')
  · exact .of_done hRecorded hNext

/-- The collector received the handle of a thread that was running. -/
theorem handle {threads : List ThreadStatus} {k : Nat} (output : ToolOutput)
    (image : Option PreparedImage) (h : BatchInv recorded b)
    (hPhase : b.phase = .collecting threads) (hThread : threads[k]? = some .running)
    (hCall : b.concurrent[k]? = some c) :
    BatchInv (recorded ++ [⟨c, output, image⟩])
        { b with
          phase := .collecting (threads.set k .delivered)
          delivered := insert c.call.id b.delivered
          executed := insert c.call.id b.executed } ∧
      c.id ∉ recordedIds recorded := by
  have hFresh := h.fresh
  rw [hPhase] at hFresh
  obtain ⟨hNodup, hDelivered, hRunning⟩ := hFresh
  refine ⟨⟨?_, hNodup, ?_, ?_⟩, hRunning k c hThread hCall⟩
  · intro id hId
    rw [Finset.mem_insert]
    rcases mem_recordedIds_concat.mp hId with hId | hId
    · exact Or.inr (h.executed id hId)
    · exact Or.inl hId
  · intro c' hc' hId
    rw [Finset.mem_insert]
    rcases mem_recordedIds_concat.mp hId with hId | hId
    · exact Or.inr (hDelivered c' hc' hId)
    · exact Or.inl hId
  · intro k' c' hThread' hCall'
    have hNe : k' ≠ k := by
      rintro rfl
      rw [List.getElem?_set_self (List.getElem?_eq_some_iff.mp hThread).1] at hThread'
      cases hThread'
    rw [List.getElem?_set_ne hNe.symm] at hThread'
    rw [mem_recordedIds_concat, not_or]
    refine ⟨hRunning k' c' hThread' hCall', ?_⟩
    -- two positions of the batch never share an id
    intro hSame
    have hIds : (b.concurrent.map IndexedCall.id)[k']? = (b.concurrent.map IndexedCall.id)[k]? := by
      rw [List.getElem?_map, List.getElem?_map, hCall, hCall', Option.map_some, Option.map_some,
        hSame]
    have hLt : k' < (b.concurrent.map IndexedCall.id).length := by
      rw [List.length_map]
      exact (List.getElem?_eq_some_iff.mp hCall').1
    exact hNe ((List.getElem?_inj hLt hNodup).mp hIds)

theorem die {threads : List ThreadStatus} {k : Nat} (h : BatchInv recorded b)
    (hPhase : b.phase = .collecting threads) :
    BatchInv recorded { b with phase := .collecting (threads.set k .dead) } := by
  have hFresh := h.fresh
  rw [hPhase] at hFresh
  obtain ⟨hNodup, hDelivered, hRunning⟩ := hFresh
  refine ⟨h.executed, hNodup, hDelivered, ?_⟩
  intro k' c' hThread hCall
  rw [List.getElem?_set] at hThread
  split at hThread
  · split at hThread <;> cases hThread
  · exact hRunning k' c' hThread hCall

/-- The results of the dead threads were synthesized. -/
theorem disconnect {threads : List ThreadStatus} (h : BatchInv recorded b)
    (hPhase : b.phase = .collecting threads) :
    BatchInv (recorded ++ b.missingCalls.map fun c => ⟨c, panicOutput c, none⟩)
        { b with
          phase := .done
          executed := b.missingCalls.foldl (fun e c => insert c.call.id e) b.executed } ∧
      ∀ c ∈ b.missingCalls, c.id ∉ recordedIds recorded := by
  have hFresh := h.fresh
  rw [hPhase] at hFresh
  obtain ⟨_, hDelivered, _⟩ := hFresh
  refine ⟨.of_done ?_ rfl, ?_⟩
  · intro id hId
    rw [recordedIds, List.map_append, List.map_map, List.mem_append] at hId
    exact mem_executed_foldl.mpr (hId.imp_left (h.executed id))
  · intro c hc hId
    obtain ⟨hMem, hMissing⟩ := List.mem_filter.mp hc
    exact of_decide_eq_true hMissing (hDelivered c hMem hId)

/-- A step keeps the invariant and records only calls whose id was free. -/
theorem step (h : BatchInv recorded b) (hStep : b.step e = some (b', completions)) :
    BatchInv (recorded ++ completions) b' ∧
      ∀ id ∈ recordedIds completions, id ∉ recordedIds recorded := by
  cases e with
  | serialCancel =>
    simp only [Batch.step] at hStep
    split at hStep
    · cases hStep
      rw [List.append_nil]
      exact ⟨.of_done h.executed rfl, by simp [recordedIds]⟩
    · cases hStep
  | serialResult outcome image observedCancel change =>
    simp only [Batch.step] at hStep
    split at hStep
    · rename_i c rest hPhase
      split at hStep
      · cases hStep
      · cases hStep
        refine ⟨h.serialResult hPhase rfl rfl ?_, ?_⟩
        · cases observedCancel with
          | true => exact Or.inr rfl
          | false => exact Or.inl rfl
        · simpa [recordedIds] using h.notMem_of_serial hPhase
    · cases hStep
  | dispatch =>
    simp only [Batch.step] at hStep
    split at hStep
    · rename_i hPhase
      cases hStep
      rw [List.append_nil]
      refine ⟨BatchInv.settle ⟨h.executed, ?_⟩, by simp [recordedIds]⟩
      have hFresh := h.fresh
      rw [hPhase] at hFresh
      obtain ⟨hNodup, hNew⟩ := hFresh
      refine ⟨hNodup, ?_, ?_⟩
      · intro c hc hId
        exact absurd hId (hNew c hc)
      · intro k c _ hCall
        exact hNew c (List.mem_of_getElem? hCall)
    · cases hStep
  | handle k outcome image =>
    simp only [Batch.step] at hStep
    split at hStep
    · rename_i threads hPhase
      split at hStep
      · rename_i c hThread hCall
        split at hStep
        · cases hStep
        · cases hStep
          obtain ⟨hInv, hNew⟩ := h.handle (outcome.output c) image hPhase hThread hCall
          exact ⟨hInv.settle, by simpa [recordedIds] using hNew⟩
      · cases hStep
    · cases hStep
  | die k =>
    simp only [Batch.step] at hStep
    split at hStep
    · rename_i threads hPhase
      split at hStep
      · cases hStep
        rw [List.append_nil]
        exact ⟨h.die hPhase, by simp [recordedIds]⟩
      · cases hStep
    · cases hStep
  | cancel =>
    simp only [Batch.step] at hStep
    split at hStep
    · rename_i threads hPhase
      split at hStep
      · cases hStep
      · cases hStep
        rw [List.append_nil]
        refine ⟨⟨h.executed, ?_⟩, by simp [recordedIds]⟩
        exact h.fresh
    · cases hStep
  | disconnect =>
    simp only [Batch.step] at hStep
    split at hStep
    · rename_i threads hPhase
      split at hStep
      · cases hStep
        obtain ⟨hInv, hNew⟩ := h.disconnect hPhase
        exact ⟨hInv, by simpa [recordedIds] using hNew⟩
      · cases hStep
    · cases hStep

end BatchInv

theorem indexCalls_id (env : Env) (calls : List ChatToolCall) :
    (indexCalls env calls).map IndexedCall.id = calls.map ChatToolCall.id := by
  simp only [indexCalls, List.map_map]
  exact (List.zipIdx_map_fst 0 calls ▸ List.map_map).symm

theorem ids_perm (env : Env) (calls : List ChatToolCall) :
    (((indexCalls env calls).filter (fun c => isSessionConfigTool c.call.name) ++
      (indexCalls env calls).filter (fun c => !isSessionConfigTool c.call.name)).map
        IndexedCall.id).Perm (calls.map ChatToolCall.id) := by
  rw [← indexCalls_id env]
  exact (List.filter_append_perm _ _).map _

theorem batchInv_exec {calls : List ChatToolCall} {events : List BatchEvent}
    (hNodup : (calls.map ChatToolCall.id).Nodup)
    (h : (iteration env).exec (Iteration.start env t calls) events = some (i, os)) :
    BatchInv os i.batch := by
  refine Machine.exec_invariant (P := fun os i => BatchInv os i.batch) ?_ ?_ h
  · intro os i e i' os' hInv hStep
    exact (hInv.step (iteration_step_eq_some.mp hStep).1).1
  · refine ⟨by simp [recordedIds], ?_, by simp [recordedIds]⟩
    exact (ids_perm env calls).nodup_iff.mpr hNodup

/-- With distinct ids nothing that was recorded is touched again. -/
theorem keepsResults_of_nodup {calls : List ChatToolCall}
    (hNodup : (calls.map ChatToolCall.id).Nodup) : KeepsResults env t calls where
  complete h _ := (Iteration.resultIds_ended _).trans (resultIds_exec h)
  kept := by
    intro events i os h c hc
    have hInv := batchInv_exec hNodup h
    have hId : c.call.call.id ∈ recordedIds os := List.mem_map_of_mem hc
    constructor
    · intro e i' os' _ hStep
      obtain ⟨hBatch, hTurn⟩ := iteration_step_eq_some.mp hStep
      rw [hTurn]
      apply Turn.resultFor_recordToolCompletions
      intro c' hc' hSame
      have hRecorded : c'.call.call.id ∈ recordedIds os := hSame ▸ hId
      exact (hInv.step hBatch).2 _ (List.mem_map_of_mem hc') hRecorded
    · intro _
      rw [Iteration.ended, Worker.ended]
      split
      · exact Turn.resultFor_markUnexecuted (hInv.executed _ hId)
      · rfl

/-! ### Calls that share an id

Every call before the repeated one ends well, then that one times out. -/

theorem exists_repeat {calls : List IndexedCall} (h : ¬ (calls.map IndexedCall.id).Nodup) :
    ∃ (before : List IndexedCall) (c : IndexedCall) (after : List IndexedCall),
      calls = before ++ c :: after ∧ c.id ∈ before.map IndexedCall.id := by
  induction calls with
  | nil => exact absurd List.nodup_nil h
  | cons x rest ih =>
    by_cases hMem : x.id ∈ rest.map IndexedCall.id
    · obtain ⟨c, hc, hId⟩ := List.mem_map.mp hMem
      obtain ⟨before, after, rfl⟩ := List.append_of_mem hc
      exact ⟨x :: before, c, after, rfl, by simp [hId]⟩
    · have hRest : ¬ (rest.map IndexedCall.id).Nodup := by
        intro hNodup
        exact h (List.nodup_cons.mpr ⟨hMem, hNodup⟩)
      obtain ⟨before, c, after, rfl, hId⟩ := ih hRest
      exact ⟨x :: before, c, after, rfl, List.mem_cons_of_mem _ hId⟩

/-- The recorded results are no errors. -/
def NoErrors (os : List Completion) (t : Turn) : Prop :=
  ∀ id ∈ recordedIds os, (t.resultFor id).map ToolResultRecord.isError = some false

/-- The outcome of a call that ends well. -/
def endsWell : ToolOutcome := .finished { content := "" }

theorem endsWell_ne_cancelled : endsWell ≠ .cancelled := by
  simp [endsWell]

theorem NoErrors.record (h : NoErrors os t) (hId : c.id ∈ t.resultIds) :
    NoErrors (os ++ [⟨c, endsWell.output c, none⟩])
      (t.recordToolCompletions env [⟨c, endsWell.output c, none⟩]) := by
  intro id hMem
  by_cases hSame : c.id = id
  · subst hSame
    refine (Turn.resultFor_recordToolCompletion_self env t ⟨c, endsWell.output c, none⟩).trans ?_
    obtain ⟨r, hr⟩ := Option.isSome_iff_exists.mp (Turn.isSome_resultFor_iff.mpr hId)
    exact congrArg (Option.map _) hr
  · rcases BatchInv.mem_recordedIds_concat.mp hMem with hMem | hMem
    · refine Eq.trans ?_ (h id hMem)
      exact congrArg _ (Turn.resultFor_recordToolCompletion_of_ne hSame)
    · exact absurd hMem.symm hSame

/-- A recorded result that a timeout of the same id then replaces. -/
theorem not_kept_of_timeout {i' : Iteration} (h : NoErrors os i.turn) (hId : c.id ∈ recordedIds os)
    (hTurn : i'.turn = i.turn.recordToolCompletions env
      [⟨c, (ToolOutcome.timedOut 0).output c, none⟩]) :
    i'.turn.resultFor c.id ≠ i.turn.resultFor c.id := by
  intro hKept
  have hAfter : (i'.turn.resultFor c.id).map ToolResultRecord.isError =
      (i.turn.resultFor c.id).map fun _ => true := by
    rw [hTurn]
    exact Turn.resultFor_recordToolCompletion_self env i.turn
      ⟨c, (ToolOutcome.timedOut 0).output c, none⟩
  rw [hKept, h c.id hId] at hAfter
  cases hSome : i.turn.resultFor c.id <;>
  · rw [hSome] at hAfter
    cases hAfter

/-- The session-config calls of `before` end well, one after the other. -/
theorem exec_serial (env : Env) {before rest : List IndexedCall}
    (hPhase : i.batch.phase = .serial (before ++ rest))
    (hIds : ∀ c ∈ before, c.id ∈ i.turn.resultIds) (h : NoErrors os i.turn) :
    ∃ i' os',
      (iteration env).exec i (before.map fun _ => .serialResult endsWell none false none) =
          some (i', os') ∧
        i'.batch.phase = .serial rest ∧ i'.batch.concurrent = i.batch.concurrent ∧
        i'.batch.delivered = i.batch.delivered ∧
        recordedIds os' = before.map IndexedCall.id ∧ NoErrors (os ++ os') i'.turn := by
  induction before generalizing i os with
  | nil => exact ⟨i, [], rfl, hPhase, rfl, rfl, rfl, by simpa using h⟩
  | cons c before ih =>
    have hStep : (iteration env).step i (.serialResult endsWell none false none) =
        some (⟨{ i.batch with
            phase := .serial (before ++ rest)
            executed := insert c.call.id i.batch.executed
            cancelled := false },
          i.turn.recordToolCompletions env [⟨c, endsWell.output c, none⟩]⟩,
          [⟨c, endsWell.output c, none⟩]) := by
      rw [iteration_step_eq_some]
      simp [Batch.step, hPhase, endsWell]
    obtain ⟨i', os', hExec, hRest, hConcurrent, hDelivered, hRecorded, hNoErrors⟩ :=
      ih (i := ⟨{ i.batch with
          phase := .serial (before ++ rest)
          executed := insert c.call.id i.batch.executed
          cancelled := false },
        i.turn.recordToolCompletions env [⟨c, endsWell.output c, none⟩]⟩) rfl
        (by
          intro c' hc'
          rw [Turn.resultIds_recordToolCompletions]
          exact hIds c' (List.mem_cons_of_mem _ hc'))
        (h.record (hIds c List.mem_cons_self))
    refine ⟨i', _, Machine.exec_cons_eq_some.mpr ⟨_, _, os', hStep, hExec, rfl⟩, hRest,
      hConcurrent, hDelivered, ?_, ?_⟩
    · rw [List.map_cons, ← hRecorded]
      rfl
    · rwa [← List.append_assoc]

/-- The threads up to `n` have delivered and the later ones still run. -/
structure Collected (n : Nat) (b : Batch) : Prop where
  running : ∃ threads, b.phase = .collecting threads ∧
    ∀ k, n ≤ k → k < b.concurrent.length → threads[k]? = some .running
  delivered : b.delivered.card ≤ n

/-- A handle that is not the last one leaves the collector waiting. -/
theorem Collected.step (env : Env) {n : Nat} {outcome : ToolOutcome} (h : Collected n i.batch)
    (hCall : i.batch.concurrent[n]? = some c) (hOutcome : outcome ≠ .cancelled) :
    ∃ i', (iteration env).step i (.handle n outcome none) =
        some (i', [⟨c, outcome.output c, none⟩]) ∧
      i'.batch.concurrent = i.batch.concurrent ∧
      (n + 1 < i.batch.concurrent.length → Collected (n + 1) i'.batch) ∧
      i'.turn = i.turn.recordToolCompletions env [⟨c, outcome.output c, none⟩] := by
  obtain ⟨threads, hPhase, hRunning⟩ := h.running
  have hLt := (List.getElem?_eq_some_iff.mp hCall).1
  have hThread := hRunning n le_rfl hLt
  let next : Batch :=
    { i.batch with
      phase := .collecting (threads.set n .delivered)
      delivered := insert c.call.id i.batch.delivered
      executed := insert c.call.id i.batch.executed }
  refine ⟨⟨next.settle, _⟩, iteration_step_eq_some.mpr ⟨?_, rfl⟩, ?_, ?_, rfl⟩
  · simp [Batch.step, hPhase, hThread, hCall, hOutcome, next]
  · rw [Batch.settle]
    split <;> rfl
  · intro hMore
    have hCard : next.delivered.card ≤ n + 1 :=
      (Finset.card_insert_le _ _).trans (Nat.succ_le_succ h.delivered)
    have hSettle : next.settle = next := by
      rw [Batch.settle, if_pos]
      exact lt_of_le_of_lt hCard hMore
    rw [hSettle]
    refine ⟨⟨_, rfl, ?_⟩, hCard⟩
    intro k hk hLength
    rw [List.getElem?_set_ne (by omega)]
    exact hRunning k (by omega) hLength

/-- The first `n` parallel calls end well, in call order. -/
theorem exec_handles (env : Env) {n : Nat} (hCollected : Collected 0 i.batch)
    (hMore : n < i.batch.concurrent.length)
    (hIds : ∀ c ∈ i.batch.concurrent, c.id ∈ i.turn.resultIds) (h : NoErrors os i.turn) :
    ∃ i' os',
      (iteration env).exec i ((List.range n).map fun k => .handle k endsWell none) =
          some (i', os') ∧
        Collected n i'.batch ∧ i'.batch.concurrent = i.batch.concurrent ∧
        recordedIds os' = (i.batch.concurrent.take n).map IndexedCall.id ∧
        i'.turn.resultIds = i.turn.resultIds ∧ NoErrors (os ++ os') i'.turn := by
  induction n with
  | zero => exact ⟨i, [], rfl, hCollected, rfl, rfl, rfl, by simpa using h⟩
  | succ n ih =>
    obtain ⟨i₁, os₁, hExec, hCollected₁, hConcurrent, hRecorded, hTurnIds, hNoErrors⟩ :=
      ih (by omega)
    obtain ⟨c, hCall⟩ : ∃ c, i.batch.concurrent[n]? = some c :=
      ⟨_, List.getElem?_eq_getElem (by omega)⟩
    obtain ⟨i₂, hStep, hConcurrent₂, hNext, hTurn⟩ :=
      hCollected₁.step env (by rw [hConcurrent, hCall]) endsWell_ne_cancelled
    have hId : c.id ∈ i₁.turn.resultIds := by
      rw [hTurnIds]
      exact hIds c (List.mem_of_getElem? hCall)
    refine ⟨i₂, os₁ ++ [⟨c, endsWell.output c, none⟩], ?_, hNext (by rw [hConcurrent]; exact hMore),
      hConcurrent₂.trans hConcurrent, ?_, ?_, ?_⟩
    · rw [List.range_succ, List.map_append]
      exact Machine.exec_append_eq_some.mpr
        ⟨i₁, os₁, _, hExec, (Machine.exec_singleton ..).trans hStep, rfl⟩
    · rw [List.take_add_one, hCall, List.map_append, ← hRecorded, recordedIds, List.map_append]
      rfl
    · rw [hTurn, Turn.resultIds_recordToolCompletions, hTurnIds]
    · rw [hTurn, ← List.append_assoc]
      exact hNoErrors.record hId

section

variable {calls : List ChatToolCall}

theorem id_mem_start (hc : c ∈ indexCalls env calls) :
    c.id ∈ (Iteration.start env t calls).turn.resultIds := by
  rw [Iteration.resultIds_start, ← indexCalls_id env]
  exact List.mem_map_of_mem hc

theorem noErrors_start (i : Iteration) : NoErrors [] i.turn := by
  simp [NoErrors, recordedIds]

/-- The repeated id belongs to a session-config call. -/
theorem not_keepsResults_of_serial {before after : List IndexedCall}
    (hSerial : (indexCalls env calls).filter (fun c => isSessionConfigTool c.call.name) =
      before ++ c :: after) (hId : c.id ∈ before.map IndexedCall.id) :
    ¬ KeepsResults env t calls := by
  intro h
  obtain ⟨i, os, hExec, hPhase, _, _, hRecorded, hNoErrors⟩ :=
    exec_serial env (i := Iteration.start env t calls) (congrArg BatchPhase.serial hSerial)
      (by
        intro c' hc'
        have hMem : c' ∈ before ++ c :: after := List.mem_append_left _ hc'
        rw [← hSerial] at hMem
        exact id_mem_start (List.mem_filter.mp hMem).1)
      (noErrors_start _)
  rw [← hRecorded] at hId
  obtain ⟨completion, hCompletion, hSame⟩ := List.mem_map.mp hId
  have hStep : (iteration env).step i (.serialResult (.timedOut 0) none false none) =
      some (⟨{ i.batch with
          phase := .serial after
          executed := insert c.call.id i.batch.executed
          cancelled := false },
        i.turn.recordToolCompletions env [⟨c, (ToolOutcome.timedOut 0).output c, none⟩]⟩,
        [⟨c, (ToolOutcome.timedOut 0).output c, none⟩]) := by
    rw [iteration_step_eq_some]
    simp [Batch.step, hPhase]
  have hKept := (h.kept hExec completion hCompletion).1 _ _ _ rfl hStep
  have hSame : completion.call.call.id = c.id := hSame
  rw [hSame] at hKept
  exact not_kept_of_timeout hNoErrors hId rfl hKept

/-- The repeated id belongs to a parallel call. -/
theorem not_keepsResults_of_parallel {before after : List IndexedCall}
    (hParallel : (indexCalls env calls).filter (fun c => !isSessionConfigTool c.call.name) =
      before ++ c :: after)
    (hId : c.id ∈ ((indexCalls env calls).filter (fun c => isSessionConfigTool c.call.name) ++
      before).map IndexedCall.id) : ¬ KeepsResults env t calls := by
  intro h
  obtain ⟨i, os, hExec, hPhase, hConcurrent, hDelivered, hRecorded, hNoErrors⟩ :=
    exec_serial env (i := Iteration.start env t calls)
      (congrArg BatchPhase.serial (List.append_nil _).symm)
      (fun c' hc' => id_mem_start (List.mem_filter.mp hc').1) (noErrors_start _)
  have hIds := resultIds_exec hExec
  have hCalls : i.batch.concurrent = before ++ c :: after := hConcurrent.trans hParallel
  have hLength : before.length < i.batch.concurrent.length := by
    rw [hCalls]
    simp
  -- the dispatch leaves the collector waiting, since a call is dispatched
  let dispatched : Batch :=
    { i.batch with phase := .collecting (i.batch.concurrent.map fun _ => .running) }
  have hSettle : dispatched.settle = dispatched := by
    rw [Batch.settle, if_pos]
    have hNone : i.batch.delivered = ∅ := hDelivered
    simp only [dispatched, hNone, Finset.card_empty]
    omega
  have hDispatch : (iteration env).step i .dispatch = some (⟨dispatched, i.turn⟩, []) := by
    refine iteration_step_eq_some.mpr ⟨?_, rfl⟩
    simp only [Batch.step, hPhase]
    exact congrArg (fun b => some (b, [])) hSettle
  have hCollected : Collected 0 dispatched := by
    refine ⟨⟨_, rfl, ?_⟩, ?_⟩
    · intro k _ hk
      have hk : k < i.batch.concurrent.length := hk
      simp [hk]
    · have hNone : i.batch.delivered = ∅ := hDelivered
      simp [dispatched, hNone]
  obtain ⟨i', os', hExec', hCollected', hConcurrent', hRecorded', _, hNoErrors'⟩ :=
    exec_handles env (n := before.length) (i := ⟨dispatched, i.turn⟩) hCollected hLength
      (by
        intro c' hc'
        have hc' : c' ∈ i.batch.concurrent := hc'
        rw [hConcurrent] at hc'
        rw [hIds, ← Iteration.resultIds_start env t]
        exact id_mem_start (List.mem_filter.mp hc').1)
      hNoErrors
  have hConcurrent' : i'.batch.concurrent = before ++ c :: after := hConcurrent'.trans hCalls
  have hCall' : i'.batch.concurrent[before.length]? = some c := by simp [hConcurrent']
  obtain ⟨i'', hStep, _, _, hTurn⟩ :=
    hCollected'.step env hCall' (show ToolOutcome.timedOut 0 ≠ .cancelled by simp)
  have hRun := Machine.exec_append_eq_some.mpr
    ⟨i, os, _, hExec, Machine.exec_cons_eq_some.mpr ⟨_, _, _, hDispatch, hExec', rfl⟩, rfl⟩
  have hRecorded' : recordedIds os' = before.map IndexedCall.id := by
    rw [hRecorded']
    change (i.batch.concurrent.take before.length).map IndexedCall.id = _
    rw [hCalls, List.take_left]
  have hMem : c.id ∈ recordedIds (os ++ os') := by
    rw [recordedIds, List.map_append]
    change c.id ∈ recordedIds os ++ recordedIds os'
    rw [hRecorded, hRecorded', ← List.map_append]
    exact hId
  obtain ⟨completion, hCompletion, hSame⟩ := List.mem_map.mp hMem
  have hKept := (h.kept hRun completion hCompletion).1 _ _ _ rfl hStep
  have hSame : completion.call.call.id = c.id := hSame
  rw [hSame] at hKept
  exact not_kept_of_timeout hNoErrors' hMem hTurn hKept

/-- A batch of calls keeps its results exactly if no two calls share an id. -/
theorem keepsResults_iff_nodup (env : Env) (t : Turn) (calls : List ChatToolCall) :
    KeepsResults env t calls ↔ (calls.map ChatToolCall.id).Nodup := by
  refine ⟨?_, keepsResults_of_nodup⟩
  intro h
  by_contra hRepeat
  rw [← (ids_perm env calls).nodup_iff] at hRepeat
  obtain ⟨before, c, after, hOrder, hId⟩ := exists_repeat hRepeat
  rcases List.append_eq_append_iff.mp hOrder with ⟨rest, rfl, hParallel⟩ | ⟨rest, hSerial, hAfter⟩
  · exact not_keepsResults_of_parallel hParallel hId h
  · cases rest with
    | nil =>
      rw [List.append_nil] at hSerial
      refine not_keepsResults_of_parallel (hAfter.symm.trans (List.nil_append _).symm) ?_ h
      rwa [List.append_nil, hSerial]
    | cons c' rest =>
      cases hAfter
      exact not_keepsResults_of_serial hSerial hId h

end

/-- Two calls of one response with the same id. -/
def repeatedCalls : List ChatToolCall :=
  [⟨"call_1", "shell", "\x7b\x7d", none⟩, ⟨"call_1", "shell", "\x7b\x7d", none⟩]

/-- The first call is recorded, the second one times out, and the result of the
first is gone. -/
theorem timeout_replaces_recorded_result :
    ∃ i os i' os',
      (iteration sampleEnv).exec (Iteration.start sampleEnv { createdAt := 0 } repeatedCalls)
          [.dispatch, .handle 0 (.finished { content := "README.md" }) none] = some (i, os) ∧
        (BatchEvent.handle 1 (.timedOut 60) none).isSweep = true ∧
        (iteration sampleEnv).step i (.handle 1 (.timedOut 60) none) = some (i', os') ∧
        (∃ c ∈ os, i'.turn.resultFor c.call.call.id ≠ i.turn.resultFor c.call.call.id) ∧
        ¬ KeepsResults sampleEnv { createdAt := 0 } repeatedCalls := by
  have hCheck : (iteration sampleEnv).check
      (Iteration.start sampleEnv { createdAt := 0 } repeatedCalls)
      [.dispatch, .handle 0 (.finished { content := "README.md" }) none]
      (fun i os => (iteration sampleEnv).check i [.handle 1 (.timedOut 60) none]
        fun i' _ => decide (∃ c ∈ os,
          i'.turn.resultFor c.call.call.id ≠ i.turn.resultFor c.call.call.id)) = true := by
    decide +kernel
  obtain ⟨i, os, hExec, hTest⟩ := Machine.exists_of_check hCheck
  obtain ⟨i', os', hNext, hTest⟩ := Machine.exists_of_check hTest
  rw [Machine.exec_singleton] at hNext
  obtain ⟨c, hc, hChanged⟩ := of_decide_eq_true hTest
  refine ⟨i, os, i', os', hExec, rfl, hNext, ⟨c, hc, hChanged⟩, ?_⟩
  intro hKeeps
  exact hChanged ((hKeeps.kept hExec c hc).1 _ _ _ rfl hNext)

end Choreographr.Session
