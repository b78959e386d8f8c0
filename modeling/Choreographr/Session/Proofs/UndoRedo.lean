import Choreographr.Session.Proofs.Runs

/-!
# Undo and redo

An undo hides the newest live user turn with every live turn after it and
pushes their ids; a redo pops the newest batch and shows exactly its turns.
So redo inverts undo on every state, for any number of steps, and the batches
on the stack of a reachable session are disjoint and hidden (`StackOk`).

The stack lives on the session thread, while new turns start on a worker's
clone. Clearing the clone's stack does not reach the session's, so a redo after
new input brings back turns from before it. Runs that start their turns only
while the session's stack is empty keep every hidden id above every live one
(`StackAbove`) and leave nothing to redo.
-/

namespace Choreographr.Session

open Lib

variable {os : List Output} {env : Env} {s s' : System} {db : Db} {e : Effect}

/-! ## One step -/

theorem showTurns_hideFrom (turns : Turns) (target : Nat) :
    showTurns (hideFrom turns target) (batchFrom turns target) = turns := by
  apply OrdMap.ext_get?
  intro tid
  by_cases hMem : tid ∈ batchFrom turns target
  · obtain ⟨t, hGet, hLe, hLive⟩ := mem_batchFrom_iff.mp hMem
    rw [showTurns, OrdMap.get?_mapVal, hideFrom, OrdMap.get?_mapVal, hGet]
    simp only [Option.map_some, hMem, if_true, hLe, hLive, decide_true, Bool.not_false,
      Bool.and_self]
    rw [← hLive]
  · rw [get?_showTurns_of_notMem hMem, get?_hideFrom_of_notMem hMem]

theorem keys_filter_batchFrom (turns : Turns) (target : Nat) :
    (turns.filter fun id _ => id ∈ batchFrom turns target).keys = batchFrom turns target := by
  have hFilter : (turns.entries.filter fun e => decide (e.1 ∈ batchFrom turns target)) =
      turns.entries.filter fun e => target ≤ e.1 && !e.2.undone := by
    apply List.filter_congr
    intro e he
    have hGet := OrdMap.get?_eq_some_iff.mpr (show (e.1, e.2) ∈ turns.entries from he)
    rw [Bool.eq_iff_iff, decide_eq_true_eq, mem_batchFrom_iff]
    simp [hGet]
  exact congrArg (List.map Prod.fst) hFilter

/-! ## Many steps -/

/-- The batches that were hidden, oldest first. -/
def hiddenBatches (os : List Output) : List (List Nat) :=
  os.filterMap fun
    | .broadcast (.turnsUndone ids) => some ids
    | _ => none

/-- The batches that were shown again, oldest first. -/
def shownBatches (os : List Output) : List (List Nat) :=
  os.filterMap fun
    | .broadcast (.turnsRedone turns) => some (turns.map Prod.fst)
    | _ => none

theorem hiddenBatches_append (os os' : List Output) :
    hiddenBatches (os ++ os') = hiddenBatches os ++ hiddenBatches os' := List.filterMap_append

theorem shownBatches_append (os os' : List Output) :
    shownBatches (os ++ os') = shownBatches os ++ shownBatches os' := List.filterMap_append

def undoAction (now : Int) : Action := .command now .undo

def redoAction (now : Int) : Action := .command now .redo

theorem hiddenBatches_quiet {total : TokenUsage} (h : ∀ o ∈ os, o.Quiet total) :
    hiddenBatches os = [] := by
  rw [hiddenBatches, List.filterMap_eq_nil_iff]
  intro o ho
  split
  · exact (h _ ho).elim
  · rfl

/-- An undo hides at most one batch, and if it does so it is an `UndoEffect`. -/
theorem undo_step {now : Int} (h : (system env).step s (undoAction now) = some (s', os)) :
    hiddenBatches os = [] ∨
      ∃ e target, s.Idle ∧ UndoEffect env s.main s.db e target ∧ s' = s.applyEffect e ∧
        hiddenBatches os = [batchFrom s.main.turns target] := by
  simp only [system, undoAction, System.step, System.command, Option.some.injEq,
    Prod.mk.injEq] at h
  obtain ⟨rfl, rfl⟩ := h
  rcases handleUndo_cases env s.main s.db with hQuiet | ⟨hIdle, target, hUndo⟩
  · exact Or.inl (hiddenBatches_quiet hQuiet.outputs)
  · refine Or.inr ⟨_, target, hIdle, hUndo, rfl, ?_⟩
    rw [hUndo.outputs]
    rfl

theorem redo_step (env : Env) (now : Int) {ids : List Nat} {rest : List (List Nat)} (hIdle : s.Idle)
    (hStack : s.main.redoStack = ids :: rest) :
    ∃ e, RedoEffect env s.main s.db e ids ∧
      (system env).step s (redoAction now) = some (s.applyEffect e, e.outputs) := by
  refine ⟨handleRedo env s.main s.db, ?_, rfl⟩
  have hRedo : s.main.redoTurns.isSome = true := by
    simp [SessionState.redoTurns, hStack]
  rw [handleRedo, if_neg (not_not.mpr (show s.main.activeRequests.entries = [] from hIdle))]
  simp only [SessionState.redoTurns, hStack]
  exact ⟨⟨rfl, rfl, rfl, rfl, rfl, rfl⟩, rfl, hStack, rfl, rfl, rfl, rfl, rfl⟩

theorem hiddenBatches_length_le {times : List Int}
    (h : (system env).exec s (times.map undoAction) = some (s', os)) :
    (hiddenBatches os).length ≤ times.length := by
  induction times generalizing s os with
  | nil =>
    cases h
    exact Nat.le_refl 0
  | cons now rest ih =>
    obtain ⟨s₁, os₁, os₂, hStep, hRest, rfl⟩ := Machine.exec_cons_eq_some.mp h
    have hTail := ih hRest
    rw [hiddenBatches_append, List.length_append, List.length_cons]
    rcases undo_step hStep with hNone | ⟨_, _, _, _, _, hOne⟩
    · rw [hNone, List.length_nil]
      omega
    · rw [hOne, List.length_singleton]
      omega

/-- As many redos as there were undos, from any state in which each of the
undos hid a batch. -/
theorem redos_after_undos {undoTimes redoTimes : List Int} {s₁ : System} {os₁ : List Output}
    (hUndos : (system env).exec s (undoTimes.map undoAction) = some (s₁, os₁))
    (hHidden : (hiddenBatches os₁).length = undoTimes.length)
    (hLength : redoTimes.length = undoTimes.length) :
    ∃ s₂ os₂, (system env).exec s₁ (redoTimes.map redoAction) = some (s₂, os₂) ∧
      s₂.main.turns = s.main.turns ∧ s₂.main.redoStack = s.main.redoStack ∧
      s₂.main.activeRequests = s.main.activeRequests ∧
      (undoTimes ≠ [] → s₂.main.config.lastPromptTokens = liveLastPromptTokens s.main.turns) ∧
      shownBatches os₂ = (hiddenBatches os₁).reverse := by
  induction undoTimes generalizing s os₁ redoTimes with
  | nil =>
    cases hUndos
    rw [List.length_eq_zero_iff.mp hLength]
    exact ⟨s₁, [], rfl, rfl, rfl, rfl, fun h => absurd rfl h, rfl⟩
  | cons now rest ih =>
    obtain ⟨s', os', os'', hStep, hRest, rfl⟩ := Machine.exec_cons_eq_some.mp hUndos
    have hTail := hiddenBatches_length_le hRest
    rw [hiddenBatches_append, List.length_append, List.length_cons] at hHidden
    rcases undo_step hStep with hNone | ⟨e, target, hIdle, hUndo, rfl, hOne⟩
    · rw [hNone, List.length_nil] at hHidden
      omega
    rw [hOne, List.length_singleton] at hHidden
    -- the last redo answers the first undo
    rcases List.eq_nil_or_concat redoTimes with rfl | ⟨init, last, rfl⟩
    · cases hLength
    have hInit : init.length = rest.length := by simpa using hLength
    obtain ⟨s₂, os₂, hRedos, hTurns, hStack, hActive, _, hShown⟩ :=
      ih hRest (by omega) hInit
    have hTurns : s₂.main.turns = hideFrom s.main.turns target := hTurns.trans hUndo.turns
    have hStack : s₂.main.redoStack = batchFrom s.main.turns target :: s.main.redoStack :=
      hStack.trans hUndo.redoStack
    have hActive : s₂.main.activeRequests = s.main.activeRequests :=
      hActive.trans hUndo.flagsOnly.activeRequests
    have hIdle₂ : s₂.Idle := (congrArg OrdMap.entries hActive).trans hIdle
    obtain ⟨e', hRedo, hLast⟩ := redo_step env last hIdle₂ hStack
    have hRestored : e'.state.turns = s.main.turns := by
      rw [hRedo.turns, hTurns, showTurns_hideFrom]
    have hRest' : e'.state.redoStack = s.main.redoStack := by
      have hPop := hRedo.redoStack
      rw [hStack] at hPop
      exact (List.cons.inj hPop).2.symm
    refine ⟨s₂.applyEffect e', os₂ ++ e'.outputs, ?_, hRestored, hRest', ?_, ?_, ?_⟩
    · rw [List.concat_eq_append, List.map_append]
      refine Machine.exec_append_eq_some.mpr ⟨s₂, os₂, e'.outputs, hRedos, ?_, rfl⟩
      exact Machine.exec_cons_eq_some.mpr ⟨_, _, [], hLast, rfl, by simp⟩
    · exact hRedo.flagsOnly.activeRequests.trans hActive
    · intro _
      rw [← hRestored]
      exact hRedo.lastPromptTokens
    · rw [shownBatches_append, hShown, hiddenBatches_append, hOne, List.singleton_append,
        List.reverse_cons, hRedo.outputs, hRestored]
      congr 1
      simp only [shownBatches, broadcastTokenState, List.cons_append, List.nil_append,
        List.filterMap_cons, List.filterMap_nil, List.map_map]
      exact congrArg (fun ids => [ids]) (keys_filter_batchFrom s.main.turns target)

/-! ## The stack of a reachable session -/

/-- The batches on the redo stack are disjoint and every one of their turns is
undone. -/
structure StackOk (s : SessionState) : Prop where
  disjoint : s.redoStack.Pairwise List.Disjoint
  hidden : ∀ ids ∈ s.redoStack, ∀ id ∈ ids, ∃ t, s.turns.get? id = some t ∧ t.undone = true

theorem get?_hideFrom_undone {turns : Turns} {target id : Nat} {t : Turn}
    (h : turns.get? id = some t) (hHidden : t.undone = true ∨ id ∈ batchFrom turns target) :
    ∃ t', (hideFrom turns target).get? id = some t' ∧ t'.undone = true := by
  rw [hideFrom, OrdMap.get?_mapVal, h]
  refine ⟨_, rfl, ?_⟩
  rcases hHidden with hUndone | hMem
  · simp [hUndone]
  · obtain ⟨t', hGet, hLe, hLive⟩ := mem_batchFrom_iff.mp hMem
    rw [h] at hGet
    cases hGet
    simp [hLe, hLive]

theorem StackOk.undo {s : SessionState} {target : Nat} (h : StackOk s)
    (hUndo : UndoEffect env s db e target) : StackOk e.state := by
  constructor
  · rw [hUndo.redoStack, List.pairwise_cons]
    refine ⟨?_, h.disjoint⟩
    -- the new batch was live, the older ones were not
    intro ids hIds id hNew hOld
    obtain ⟨t, hGet, hUndone⟩ := h.hidden ids hIds id hOld
    obtain ⟨t', hGet', _, hLive⟩ := mem_batchFrom_iff.mp hNew
    rw [hGet] at hGet'
    cases hGet'
    rw [hUndone] at hLive
    cases hLive
  · intro ids hIds id hId
    rw [hUndo.redoStack, List.mem_cons] at hIds
    rw [hUndo.turns]
    rcases hIds with rfl | hIds
    · obtain ⟨t, hGet, _⟩ := mem_batchFrom_iff.mp hId
      exact get?_hideFrom_undone hGet (Or.inr hId)
    · obtain ⟨t, hGet, hUndone⟩ := h.hidden ids hIds id hId
      exact get?_hideFrom_undone hGet (Or.inl hUndone)

theorem StackOk.redo {s : SessionState} {ids : List Nat} (h : StackOk s)
    (hRedo : RedoEffect env s db e ids) : StackOk e.state := by
  have hDisjoint := h.disjoint
  rw [hRedo.redoStack, List.pairwise_cons] at hDisjoint
  refine ⟨hDisjoint.2, ?_⟩
  intro ids' hIds' id hId
  have hNotMem : id ∉ ids := fun hMem => hDisjoint.1 ids' hIds' hMem hId
  rw [hRedo.turns, get?_showTurns_of_notMem hNotMem]
  exact h.hidden ids' (hRedo.redoStack ▸ List.mem_cons_of_mem ids hIds') id hId

theorem StackOk.of_extends {s s' : SessionState} (h : StackOk s)
    (hStack : s'.redoStack = s.redoStack) (hTurns : Extends s.turns s'.turns) : StackOk s' := by
  refine ⟨hStack ▸ h.disjoint, ?_⟩
  intro ids hIds id hId
  obtain ⟨t, hGet, hUndone⟩ := h.hidden ids (hStack ▸ hIds) id hId
  refine ⟨t, ?_, hUndone⟩
  rw [hTurns.get?_of_mem (OrdMap.mem_keys_iff.mpr ⟨t, hGet⟩), hGet]

theorem load_redoStack (env : Env) (record : SessionRecord) (slug : Option String)
    (turns : Turns) : (SessionState.load env record slug turns).redoStack = [] := by
  rw [SessionState.load]
  exact (refreshContextWindow_sameHistory env _).1.redoStack

theorem stackOk_load (env : Env) (record : SessionRecord) (slug : Option String) (turns : Turns) :
    StackOk (SessionState.load env record slug turns) := by
  have hStack := load_redoStack env record slug turns
  refine ⟨hStack ▸ List.Pairwise.nil, ?_⟩
  intro ids hIds
  rw [hStack] at hIds
  cases hIds

theorem stackOk_step {a : Action} (h : StackOk s.main) (hStep : Transition env s a s' os) :
    StackOk s'.main := by
  cases hStep with
  | quiet e targets shutdown hQuiet =>
    refine h.of_extends hQuiet.history.redoStack ?_
    exact (show e.state.turns = _ from hQuiet.history.turns) ▸ Extends.refl _
  | accept e w hWorker hInbox hReadouts hAccept =>
    refine h.of_extends hAccept.history.redoStack ?_
    exact (show e.state.turns = _ from hAccept.history.turns) ▸ Extends.refl _
  | undo e target hIdle hWorker hInbox hReadouts hUndo => exact h.undo hUndo
  | redo e ids hIdle hWorker hInbox hReadouts hRedo => exact h.redo hRedo
  | progress now m rest hInbox hProgress =>
    obtain ⟨status, usage, prompt, requests, hKeys, hState, _⟩ :=
      handleWorkerMessage_progress env now s.main s.db hProgress
    simp only [System.applyEffect, hState]
    exact ⟨h.disjoint, h.hidden⟩
  | merge now streamId snapshot hInbox hWorker hActive hSnapshot =>
    refine h.of_extends rfl ?_
    simp only [System.applyEffect, handleRequestFinished_turns hSnapshot.extended]
    exact hSnapshot.extended
  | worker e w w' r hWorker hRun hMove hNext => exact h
  | finish w outcome snapshot hWorker hRun hPhase => exact h
  | reload providerSlug record hIdle hWorker hInbox hRecord => exact stackOk_load _ _ _ _

theorem stackOk_exec {config : SessionConfig} {slug : Option String} {actions : List Action}
    (h : (system env).exec (System.init env config slug) actions = some (s, os)) :
    StackOk s.main :=
  exec_invariant_of_transition (P := fun _ s => StackOk s.main)
    (fun _ hStack hStep => stackOk_step hStack hStep) (stackOk_load env _ slug _) h

/-- The states that a session can be in. -/
def Reachable (env : Env) (s : System) : Prop :=
  ∃ config slug actions os,
    (system env).exec (System.init env config slug) actions = some (s, os)

/-- Redo inverts undo. On any state, `n` undos that each hide a batch followed
by `n` redos restore every turn and the redo stack, and the batches come back
in the reverse order. On a reachable state they also restore the prompt
readout, and at every point in between the batches on the stack are disjoint
and hidden. -/
theorem redo_inverts_undo {env : Env} {undoTimes redoTimes : List Int} {s s₁ : System}
    {os₁ : List Output} (hUndos : (system env).exec s (undoTimes.map undoAction) = some (s₁, os₁))
    (hHidden : (hiddenBatches os₁).length = undoTimes.length)
    (hLength : redoTimes.length = undoTimes.length) :
    ∃ s₂ os₂, (system env).exec s₁ (redoTimes.map redoAction) = some (s₂, os₂) ∧
      s₂.main.turns = s.main.turns ∧ s₂.main.redoStack = s.main.redoStack ∧
      shownBatches os₂ = (hiddenBatches os₁).reverse ∧
      (Reachable env s →
        s₂.main.config.lastPromptTokens = s.main.config.lastPromptTokens ∧
        ∀ before after, undoTimes.map undoAction ++ redoTimes.map redoAction = before ++ after →
          ∃ s' os', (system env).exec s before = some (s', os') ∧
            s'.main.redoStack.Pairwise List.Disjoint ∧
            ∀ ids ∈ s'.main.redoStack, ∀ id ∈ ids,
              ∃ t, s'.main.turns.get? id = some t ∧ t.undone = true) := by
  obtain ⟨s₂, os₂, hRedos, hTurns, hStack, _, hPrompt, hShown⟩ :=
    redos_after_undos hUndos hHidden hLength
  refine ⟨s₂, os₂, hRedos, hTurns, hStack, hShown, ?_⟩
  rintro ⟨config, slug, actions, os, hReach⟩
  constructor
  · cases undoTimes with
    | nil =>
      cases hUndos
      rw [List.length_eq_zero_iff.mp hLength] at hRedos
      cases hRedos
      rfl
    | cons now rest =>
      obtain ⟨s', os', os'', hStep, hRest, rfl⟩ := Machine.exec_cons_eq_some.mp hUndos
      have hTail := hiddenBatches_length_le hRest
      rcases undo_step hStep with hNone | ⟨_, _, hIdle, _, _, _⟩
      · rw [hiddenBatches_append, hNone, List.nil_append, List.length_cons] at hHidden
        omega
      · obtain ⟨_, _, hReadouts⟩ := (inv_exec hReach).of_idle hIdle
        rw [hPrompt (List.cons_ne_nil now rest), hReadouts.2]
  · intro before after hSplit
    have hBoth := Machine.exec_append_eq_some.mpr ⟨s₁, os₁, os₂, hUndos, hRedos, rfl⟩
    rw [hSplit] at hBoth
    obtain ⟨s', os', _, hBefore, _, _⟩ := Machine.exec_append_eq_some.mp hBoth
    have hOk := stackOk_exec (Machine.exec_append_eq_some.mpr
      ⟨s, os, os', hReach, hBefore, rfl⟩)
    exact ⟨s', os', hBefore, hOk.disjoint, hOk.hidden⟩

/-- Two runs that each answer with one turn. -/
def twoAnswers : List Action :=
  sampleRun "first" [.enter [], .iterate 1 "" 0, .finalText { content := "one" },
    .finalize none, .finish] 7 ++
  sampleRun "second" [.enter [], .iterate 2 "" 0, .finalText { content := "two" },
    .finalize none, .finish] 7

/-- Undoing both answers and redoing them. -/
theorem redo_inverts_undo_twice :
    ∃ s s₁ s₂ os₁ os₂, Reachable sampleEnv s ∧
      (system sampleEnv).exec s ([1, 2].map undoAction) = some (s₁, os₁) ∧
      hiddenBatches os₁ = [[1], [0]] ∧
      (system sampleEnv).exec s₁ ([3, 4].map redoAction) = some (s₂, os₂) ∧
      shownBatches os₂ = [[0], [1]] ∧ s₂.main.turns = s.main.turns := by
  have hCheck : (system sampleEnv).check (System.init sampleEnv (sampleConfig "plain") none)
      twoAnswers (fun s _ => (system sampleEnv).check s ([1, 2].map undoAction)
        fun _ os => hiddenBatches os = [[1], [0]]) = true := by
    decide +kernel
  obtain ⟨s, os, hReach, hUndoCheck⟩ := Machine.exists_of_check hCheck
  obtain ⟨s₁, os₁, hUndos, hBatches⟩ := Machine.exists_of_check hUndoCheck
  have hBatches := of_decide_eq_true hBatches
  obtain ⟨s₂, os₂, hRedos, hTurns, _, hShown, _⟩ :=
    redo_inverts_undo hUndos (by rw [hBatches]; rfl)
      (show ([3, 4] : List Int).length = ([1, 2] : List Int).length from rfl)
  exact ⟨s, s₁, s₂, os₁, os₂, ⟨_, _, _, _, hReach⟩, hUndos, hBatches, hRedos,
    by rw [hShown, hBatches]; rfl, hTurns⟩

/-! ## New input and the stack -/

/-- Every hidden batch is above every live turn, and older batches are above
newer ones. -/
structure StackAbove (s : SessionState) : Prop where
  above : ∀ ids ∈ s.redoStack, ∀ id ∈ ids, ∀ id' t,
    s.turns.get? id' = some t → t.undone = false → id' < id
  ordered : s.redoStack.Pairwise fun newer older => ∀ id ∈ newer, ∀ id' ∈ older, id < id'

theorem StackAbove.of_empty {s : SessionState} (h : s.redoStack = []) : StackAbove s where
  above ids hIds := by
    rw [h] at hIds
    cases hIds
  ordered := h ▸ List.Pairwise.nil

theorem StackAbove.of_same {s s' : SessionState} (h : StackAbove s)
    (hStack : s'.redoStack = s.redoStack) (hTurns : s'.turns = s.turns) : StackAbove s' := by
  constructor
  · rw [hStack, hTurns]
    exact h.above
  · rw [hStack]
    exact h.ordered

theorem StackAbove.undo {s : SessionState} {target : Nat} (h : StackAbove s)
    (hUndo : UndoEffect env s db e target) : StackAbove e.state := by
  constructor
  · intro ids hIds id hId id' t hGet hLive
    rw [hUndo.turns, hideFrom, OrdMap.get?_mapVal, Option.map_eq_some_iff] at hGet
    obtain ⟨t', hGet', rfl⟩ := hGet
    have hShown : ¬(target ≤ id' && !t'.undone) = true := by
      intro hHidden
      rw [if_pos hHidden] at hLive
      cases hLive
    rw [if_neg hShown] at hLive
    simp only [hLive, Bool.not_false, Bool.and_true, decide_eq_true_eq, Nat.not_le] at hShown
    rw [hUndo.redoStack, List.mem_cons] at hIds
    rcases hIds with rfl | hIds
    · obtain ⟨_, _, hLe, _⟩ := mem_batchFrom_iff.mp hId
      omega
    · exact h.above ids hIds id hId id' t' hGet' hLive
  · rw [hUndo.redoStack, List.pairwise_cons]
    refine ⟨?_, h.ordered⟩
    intro ids hIds id hId id' hId'
    obtain ⟨t, hGet, _, hLive⟩ := mem_batchFrom_iff.mp hId
    exact h.above ids hIds id' hId' id t hGet hLive

theorem StackAbove.redo {s : SessionState} {ids : List Nat} (h : StackAbove s)
    (hRedo : RedoEffect env s db e ids) : StackAbove e.state := by
  have hOrdered := h.ordered
  rw [hRedo.redoStack, List.pairwise_cons] at hOrdered
  refine ⟨?_, hOrdered.2⟩
  intro ids' hIds' id hId id' t hGet hLive
  by_cases hMem : id' ∈ ids
  · exact hOrdered.1 ids' hIds' id' hMem id hId
  · rw [hRedo.turns, get?_showTurns_of_notMem hMem] at hGet
    exact h.above ids' (hRedo.redoStack ▸ List.mem_cons_of_mem ids hIds') id hId id' t hGet hLive

/-- A user turn raises the flag, hiding a batch lowers it. -/
def inputFlag (flag : Bool) : Output → Bool
  | .startTurn _ (some _) => true
  | .broadcast (.turnsUndone _) => false
  | _ => flag

/-- A user turn was started after the last undo that hid something. -/
def newInputSinceUndo (os : List Output) : Bool := os.foldl inputFlag false

theorem newInput_of_append {os' : List Output}
    (hNone : ∀ o ∈ os', ∀ id text, o ≠ .startTurn id text)
    (h : newInputSinceUndo (os ++ os') = true) : newInputSinceUndo os = true := by
  rw [newInputSinceUndo, List.foldl_append] at h
  change os'.foldl inputFlag (newInputSinceUndo os) = true at h
  generalize newInputSinceUndo os = flag at h
  induction os' generalizing flag with
  | nil => exact h
  | cons o rest ih =>
    have hRest := ih (fun o ho => hNone o (List.mem_cons_of_mem _ ho)) _ h
    unfold inputFlag at hRest
    split at hRest
    · exact absurd rfl (hNone _ List.mem_cons_self _ _)
    · cases hRest
    · exact hRest

/-- A worker starts a turn only while the redo stack of its session is empty. -/
def startsOnEmptyStack (env : Env) (s : System) : Action → Bool
  | .worker (.iterate _ _ _) =>
      match s.worker with
      | some w => !w.startsTurn env || s.main.redoStack = []
      | none => true
  | _ => true

/-- While there is something to redo, the run under way has started no turn. -/
def RedoInv (os : List Output) (s : System) : Prop :=
  StackAbove s.main ∧ (newInputSinceUndo os = true → s.main.redoStack = []) ∧
    Stage True
      (fun w => s.main.redoStack ≠ [] → w.session.nextTurnId = s.main.nextTurnId)
      (fun snapshot => s.main.redoStack ≠ [] → snapshot.turns = s.main.turns) s

theorem redoInv_step {a : Action} {os' : List Output} (hInv : Inv env s) (h : RedoInv os s)
    (hOk : startsOnEmptyStack env s a = true) (hStep : Transition env s a s' os') :
    RedoInv (os ++ os') s' := by
  obtain ⟨hAbove, hInput, hStage⟩ := h
  cases hStep with
  | quiet e targets shutdown hQuiet =>
    have hStack : e.state.redoStack = s.main.redoStack := hQuiet.history.redoStack
    have hTurns : e.state.turns = s.main.turns := hQuiet.history.turns
    have hNext : e.state.nextTurnId = s.main.nextTurnId := hQuiet.history.nextTurnId
    refine ⟨hAbove.of_same hStack hTurns, ?_, hStage.quiet id ?_ ?_⟩
    · intro hNew
      exact hStack.trans (hInput (newInput_of_append
        (fun o ho => (hQuiet.outputs o ho).calm.2) hNew))
    · intro w cancels hw hNe
      exact (hw (hStack ▸ hNe)).trans hNext.symm
    · intro snapshot hSnapshot hNe
      exact (hSnapshot (hStack ▸ hNe)).trans hTurns.symm
  | accept e w hWorker hInbox hReadouts hAccept =>
    have hStack : e.state.redoStack = s.main.redoStack := hAccept.history.redoStack
    have hTurns : e.state.turns = s.main.turns := hAccept.history.turns
    refine ⟨hAbove.of_same hStack hTurns, ?_, (Stage.running_iff rfl).mpr ?_⟩
    · intro hNew
      refine hStack.trans (hInput (newInput_of_append ?_ hNew))
      intro o ho
      rcases hAccept.outputs o ho with hQuiet | rfl
      · exact hQuiet.calm.2
      · intro _ _ hEq
        cases hEq
    · intro _
      have hSpawned : w.session.nextTurnId = SessionState.nextTurnIdOf e.state.turns := by
        rw [hAccept.spawned]
        rfl
      rw [hSpawned, hTurns, ← hInv.nextTurnId]
      exact hAccept.history.nextTurnId.symm
  | undo e target hIdle hWorker hInbox hReadouts hUndo =>
    refine ⟨hAbove.undo hUndo, ?_, (Stage.rest_iff (s := s.applyEffect e) hWorker hInbox).mpr
      trivial⟩
    intro hNew
    rw [newInputSinceUndo, hUndo.outputs, List.foldl_append] at hNew
    cases hNew
  | redo e ids hIdle hWorker hInbox hReadouts hRedo =>
    refine ⟨hAbove.redo hRedo, ?_, (Stage.rest_iff (s := s.applyEffect e) hWorker hInbox).mpr
      trivial⟩
    intro hNew
    have hCalm : ∀ o ∈ e.outputs, o.Calm := by
      rw [hRedo.outputs]
      exact calm_of_all_isCalm rfl
    have hEmpty := hInput (newInput_of_append (fun o ho => (hCalm o ho).2) hNew)
    rw [hRedo.redoStack] at hEmpty
    cases hEmpty
  | progress now m rest hInbox hProgress =>
    obtain ⟨status, usage, prompt, requests, hKeys, hState, hDb⟩ :=
      handleWorkerMessage_progress env now s.main s.db hProgress
    refine ⟨?_, ?_, hStage.progress hInbox hProgress id ?_ ?_⟩
    · simp only [System.applyEffect, hState]
      exact ⟨hAbove.above, hAbove.ordered⟩
    · intro hNew
      simp only [System.applyEffect, hState]
      exact hInput (newInput_of_append
        (fun o ho => (message_outputs_calm env now s.main s.db m o ho).2) hNew)
    · simp only [System.applyEffect, hState]
      exact fun _ h => h
    · simp only [System.applyEffect, hState]
      exact fun _ h => h
  | merge now streamId snapshot hInbox hWorker hActive hSnapshot =>
    rw [Stage.merging_iff hWorker hInbox] at hStage
    refine ⟨?_, ?_, Stage.merged hWorker trivial⟩
    · by_cases hEmpty : s.main.redoStack = []
      · exact StackAbove.of_empty hEmpty
      · refine hAbove.of_same rfl ?_
        exact (handleRequestFinished_turns hSnapshot.extended).trans (hStage hEmpty)
    · intro hNew
      exact hInput (newInput_of_append (fun o ho => (message_outputs_calm env now s.main s.db
        (.requestFinished streamId snapshot) o ho).2) hNew)
  | worker e w w' r hWorker hRun hMove hNext =>
    rw [Stage.running_iff hWorker] at hStage
    have hEmpty : r.trace ≠ [] → s.main.redoStack = [] := by
      intro hTrace
      cases hMove with
      | beginTurn now systemPrompt estimate hStart hBound =>
        simpa [startsOnEmptyStack, hWorker, hStart] using hOk
      | finish outcome snapshot hPhase => cases hNext
      | _ => exact absurd rfl hTrace
    rcases hMove.trace_cases hNext with ⟨hTrace, hSame⟩ | ⟨hTrace, _⟩
    · refine ⟨hAbove, ?_, (Stage.running_iff rfl).mpr fun hNe => hSame.trans (hStage hNe)⟩
      rw [hTrace, List.append_nil]
      exact hInput
    · have hEmpty := hEmpty (by rw [hTrace]; exact List.cons_ne_nil _ _)
      exact ⟨hAbove, fun _ => hEmpty,
        (Stage.running_iff rfl).mpr fun hNe => absurd hEmpty hNe⟩
  | finish w outcome snapshot hWorker hRun hPhase =>
    rw [Stage.running_iff hWorker] at hStage
    refine ⟨hAbove, ?_, Stage.handed ?_⟩
    · intro hNew
      refine hInput (newInput_of_append ?_ hNew)
      intro o ho
      split at ho
      · rw [List.mem_singleton] at ho
        subst ho
        intro _ _ hEq
        cases hEq
      · cases ho
    · intro hNe
      have hNext := hStage hNe
      have hPhaseInv := hRun.phase
      rw [hPhase] at hPhaseInv
      rcases hPhaseInv with rfl | rfl
      · refine hRun.session.extended.eq_of_next ?_
        rw [← hInv.nextTurnId, ← hNext, hRun.nextTurnId]
        rfl
      · exact hRun.start_turns
  | reload providerSlug record hIdle hWorker hInbox hRecord =>
    have hStack := load_redoStack env record providerSlug
      (OrdMap.empty.insertAll (s.db.readTurns env.sessionId))
    exact ⟨StackAbove.of_empty hStack, fun _ => hStack,
      (Stage.rest_iff hWorker hInbox).mpr trivial⟩

theorem redoInv_init (env : Env) (config : SessionConfig) (slug : Option String) :
    RedoInv [] (System.init env config slug) :=
  ⟨StackAbove.of_empty (load_redoStack env _ slug _), fun _ => load_redoStack env _ slug _,
    (Stage.rest_iff rfl rfl).mpr trivial⟩

/-- While turns are started only on an empty redo stack: once a run with new
user input has been merged, a redo without an undo in between is refused and
changes nothing, and every id on the redo stack of an idle session is above
every live id. -/
theorem new_input_invalidates_redo {env : Env} {config : SessionConfig} {slug : Option String}
    {actions : List Action} {s : System} {os : List Output}
    (h : ((system env).guard fun s a => startsOnEmptyStack env s a = true).exec
      (System.init env config slug) actions = some (s, os)) (hIdle : s.Idle) :
    (newInputSinceUndo os = true → ∀ now,
      (system env).step s (redoAction now) = some (s, [.reply (.failed "nothing to redo")])) ∧
    ∀ ids ∈ s.main.redoStack, ∀ id ∈ ids, ∀ id' t,
      s.main.turns.get? id' = some t → t.undone = false → id' < id := by
  obtain ⟨hAbove, hInput, _⟩ := guarded_invariant_of_transition (P := RedoInv)
    redoInv_step (redoInv_init env config slug) h
  refine ⟨?_, hAbove.above⟩
  intro hNew now
  have hRedo : s.main.redoTurns = none := by
    rw [SessionState.redoTurns, hInput hNew]
  have hHandled : handleRedo env s.main s.db =
      { state := s.main, db := s.db, outputs := [.reply (.failed "nothing to redo")] } := by
    rw [handleRedo, if_neg (not_not.mpr (show s.main.activeRequests.entries = [] from hIdle)),
      hRedo]
  simp only [system, redoAction, System.step, System.command, hHandled]
  rfl

/-- New input after everything was redone. -/
theorem new_input_invalidates_redo_after_redo :
    ∃ s os,
      ((system sampleEnv).guard fun s a => startsOnEmptyStack sampleEnv s a = true).exec
          (System.init sampleEnv (sampleConfig "plain") none)
          (twoAnswers ++ [undoAction 3, redoAction 4] ++
            sampleRun "third" [.enter [], .iterate 5 "" 0, .finalText { content := "three" },
              .finalize none, .finish] 7) = some (s, os) ∧
        s.Idle ∧ newInputSinceUndo os = true ∧
        (system sampleEnv).step s (redoAction 6) =
          some (s, [.reply (.failed "nothing to redo")]) := by
  have hCheck : ((system sampleEnv).guard fun s a =>
        startsOnEmptyStack sampleEnv s a = true).check
      (System.init sampleEnv (sampleConfig "plain") none)
      (twoAnswers ++ [undoAction 3, redoAction 4] ++
        sampleRun "third" [.enter [], .iterate 5 "" 0, .finalText { content := "three" },
          .finalize none, .finish] 7)
      (fun s os => decide s.Idle && newInputSinceUndo os) = true := by
    decide +kernel
  obtain ⟨s, os, hExec, hTest⟩ := Machine.exists_of_check hCheck
  obtain ⟨hIdle, hNew⟩ := Bool.and_eq_true_iff.mp hTest
  have hIdle := of_decide_eq_true hIdle
  exact ⟨s, os, hExec, hIdle, hNew, (new_input_invalidates_redo hExec hIdle).1 hNew 6⟩

/-- The session undoes its second answer and takes a third input. After that
run has been merged, a redo brings the second answer back into the
conversation, below the new turn. -/
theorem redo_after_new_input_shows_old_turns :
    ∃ s os s' os',
      (system sampleEnv).exec (System.init sampleEnv (sampleConfig "plain") none)
          (twoAnswers ++ [undoAction 3] ++
            sampleRun "third" [.enter [], .iterate 5 "" 0, .finalText { content := "three" },
              .finalize none, .finish] 7) = some (s, os) ∧
        s.Idle ∧ newInputSinceUndo os = true ∧ s.main.redoStack = [[1]] ∧
        (s.main.turns.entries.filter fun e => !e.2.undone).map Prod.fst = [0, 2] ∧
        (system sampleEnv).step s (redoAction 6) = some (s', os') ∧
        (s'.main.turns.entries.filter fun e => !e.2.undone).map Prod.fst = [0, 1, 2] := by
  have hCheck : (system sampleEnv).check
      (System.init sampleEnv (sampleConfig "plain") none)
      (twoAnswers ++ [undoAction 3] ++
        sampleRun "third" [.enter [], .iterate 5 "" 0, .finalText { content := "three" },
          .finalize none, .finish] 7)
      (fun s os => decide (s.Idle ∧ newInputSinceUndo os = true ∧ s.main.redoStack = [[1]] ∧
          (s.main.turns.entries.filter fun e => !e.2.undone).map Prod.fst = [0, 2]) &&
        (system sampleEnv).check s [redoAction 6] fun s' _ =>
          (s'.main.turns.entries.filter fun e => !e.2.undone).map Prod.fst = [0, 1, 2]) =
      true := by
    decide +kernel
  obtain ⟨s, os, hExec, hTest⟩ := Machine.exists_of_check hCheck
  obtain ⟨hBefore, hRedo⟩ := Bool.and_eq_true_iff.mp hTest
  obtain ⟨hIdle, hNew, hStack, hLive⟩ := of_decide_eq_true hBefore
  obtain ⟨s', os', hRedo, hAfter⟩ := Machine.exists_of_check hRedo
  obtain ⟨s'', os'', _, hStep, hNil, _⟩ := Machine.exec_cons_eq_some.mp hRedo
  cases hNil
  exact ⟨s, os, s', os'', hExec, hIdle, hNew, hStack, hLive, hStep, of_decide_eq_true hAfter⟩

end Choreographr.Session
