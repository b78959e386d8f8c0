import Choreographr.Session.AgentLoop

/-!
# Turn histories along a run

A worker starts from the turns of its session (the base), appends live turns
and fills the last of them. `Extends` and `CurrentTurn` say so. Every turn that
a session ever holds is well formed (`Turn.Ok`): its results answer its calls
one by one, and a call id has at most one image. The token readouts of a
configuration follow the history (`Readouts`).
-/

namespace Choreographr.Session

open Lib

variable {t : Turn} {f : Turn → Turn} {base turns : Turns}

/-! ## Well-formed turns -/

namespace Turn

/-- The results answer the calls, one by one and in order. -/
def Paired (t : Turn) : Prop :=
  t.toolResults.map ToolResultRecord.callId = t.toolCalls.map AssistantToolCallRecord.callId

structure Ok (t : Turn) : Prop where
  paired : t.Paired
  oneImage : t.OneImagePerCall

/-- A turn as `startTurn` creates it. -/
def Blank (t : Turn) : Prop := ∃ now text, t = { createdAt := now, userText := text }

theorem Blank.ok (h : t.Blank) : t.Ok := by
  obtain ⟨now, text, rfl⟩ := h
  exact ⟨rfl, List.Pairwise.nil⟩

theorem Blank.live (h : t.Blank) : t.undone = false := by
  obtain ⟨now, text, rfl⟩ := h
  rfl

theorem Blank.tokenUsage (h : t.Blank) : t.tokenUsage = none := by
  obtain ⟨now, text, rfl⟩ := h
  rfl

/-- What `Ok` looks at in a result. -/
def resultShape (r : ToolResultRecord) : String × Bool := (r.callId, r.image.isSome)

theorem oneImagePerCall_iff :
    t.OneImagePerCall ↔
      (t.toolResults.map resultShape).Pairwise fun a b => a.1 = b.1 → b.2 = false := by
  simp only [OneImagePerCall, List.pairwise_map, resultShape, Option.isSome_eq_false_iff,
    Option.isNone_iff_eq_none]

/-- `Ok` depends on the calls and on the shape of the results only. -/
theorem Ok.of_shape {t' : Turn} (h : t.Ok) (hCalls : t'.toolCalls = t.toolCalls)
    (hShape : t'.toolResults.map resultShape = t.toolResults.map resultShape) : t'.Ok where
  paired := by
    have hIds : t'.toolResults.map ToolResultRecord.callId =
        t.toolResults.map ToolResultRecord.callId := by
      have hFst := congrArg (List.map Prod.fst) hShape
      simpa only [List.map_map, Function.comp_def, resultShape] using hFst
    rw [Paired, hIds, hCalls]
    exact h.paired
  oneImage := by
    rw [oneImagePerCall_iff, hShape]
    exact oneImagePerCall_iff.mp h.oneImage

theorem Ok.strip (h : t.Ok) : t.strip.Ok := by
  refine h.of_shape rfl ?_
  simp [Turn.strip, resultShape, Function.comp_def]

theorem Ok.reattach (h : t.Ok) (slot : String → Option Bytes) : (t.reattach slot).Ok := by
  refine h.of_shape rfl ?_
  simp [Turn.reattach, resultShape, Function.comp_def]

theorem Ok.markUnexecuted (h : t.Ok) (executed : Finset String) :
    (t.markUnexecutedToolResults executed).Ok := by
  refine h.of_shape rfl ?_
  simp only [markUnexecutedToolResults, List.map_map]
  apply List.map_congr_left
  intro r _
  simp only [Function.comp_apply, resultShape]
  split <;> rfl

theorem Blank.ok_answer (h : t.Blank) {r : AssistantResponse} (hCalls : r.toolCalls = []) :
    (t.setAssistantResponse r).Ok := by
  obtain ⟨now, text, rfl⟩ := h
  exact ⟨by simp [Paired, setAssistantResponse, hCalls], List.Pairwise.nil⟩

theorem ok_seed (t : Turn) (r : AssistantResponse) {descriptions : List String}
    (hLength : descriptions.length = r.toolCalls.length) :
    ((t.setAssistantResponse r).seedToolResults r.toolCalls descriptions).Ok where
  paired := by
    apply List.ext_getElem
    · simp [seedToolResults, setAssistantResponse, hLength]
    · intro i _ _
      simp [seedToolResults, setAssistantResponse]
  oneImage := by
    refine List.pairwise_iff_getElem.mpr ?_
    intro i j hi hj _ _
    simp [seedToolResults]

theorem mem_updateFirst {α : Type} {p : α → Bool} {f : α → α} {xs : List α} {y : α}
    (h : y ∈ updateFirst p f xs) : y ∈ xs ∨ ∃ x ∈ xs, p x = true ∧ y = f x := by
  induction xs with
  | nil => cases h
  | cons x rest ih =>
    simp only [updateFirst] at h
    split at h
    · rename_i hp
      rcases List.mem_cons.mp h with rfl | hRest
      · exact Or.inr ⟨x, List.mem_cons_self, hp, rfl⟩
      · exact Or.inl (List.mem_cons_of_mem x hRest)
    · rcases List.mem_cons.mp h with rfl | hRest
      · exact Or.inl List.mem_cons_self
      · rcases ih hRest with hIn | ⟨z, hz, hp, rfl⟩
        · exact Or.inl (List.mem_cons_of_mem x hIn)
        · exact Or.inr ⟨z, List.mem_cons_of_mem x hz, hp, rfl⟩

theorem map_updateFirst {α β : Type} {p : α → Bool} {f : α → α} {g : α → β}
    (h : ∀ x, g (f x) = g x) (xs : List α) : (updateFirst p f xs).map g = xs.map g := by
  induction xs with
  | nil => rfl
  | cons x rest ih =>
    simp only [updateFirst]
    split <;> simp [h, ih]

/-- Filling the first result with an id keeps the turn well formed: the later
results with that id still have no image. -/
theorem Ok.updateToolResult (h : t.Ok) (callId name : String) (output : ToolOutput) :
    (t.updateToolResult callId name output).Ok where
  paired := by
    have hIds : (t.updateToolResult callId name output).toolResults.map ToolResultRecord.callId =
        t.toolResults.map ToolResultRecord.callId := by
      apply map_updateFirst
      intro r
      rfl
    rw [Paired, hIds]
    exact h.paired
  oneImage := by
    have hImages := h.oneImage
    simp only [OneImagePerCall, Turn.updateToolResult] at hImages ⊢
    generalize t.toolResults = results at hImages
    induction results with
    | nil => exact List.Pairwise.nil
    | cons r rest ih =>
      obtain ⟨hHead, hTail⟩ := List.pairwise_cons.mp hImages
      simp only [updateFirst]
      split
      · exact List.pairwise_cons.mpr ⟨hHead, hTail⟩
      · rename_i hNe
        refine List.pairwise_cons.mpr ⟨?_, ih hTail⟩
        intro r' hr' hId
        rcases mem_updateFirst hr' with hIn | ⟨x, _, hx, rfl⟩
        · exact hHead r' hIn hId
        · exact absurd (by simpa using hId.trans (by simpa using hx)) (by simpa using hNe)

theorem Ok.addDisplayedImage (h : t.Ok) (image : DisplayedImageRecord) :
    (t.addDisplayedImage image).Ok := h.of_shape rfl rfl

theorem Ok.recordToolCompletion (h : t.Ok) (env : Env) (c : Completion) :
    (t.recordToolCompletion env c).Ok := by
  rw [Turn.recordToolCompletion]
  cases c.displayedImage with
  | none => exact h.updateToolResult _ _ _
  | some image => exact (h.addDisplayedImage image).updateToolResult _ _ _

/-! ### What recording leaves alone -/

/-- The completions of a batch, recorded one after the other. -/
def recordToolCompletions (env : Env) (t : Turn) (completions : List Completion) : Turn :=
  completions.foldl (Turn.recordToolCompletion env) t

theorem recordToolCompletions_induction {P : Turn → Prop} {env : Env}
    (hStep : ∀ t c, P t → P (t.recordToolCompletion env c)) (h : P t)
    (completions : List Completion) : P (t.recordToolCompletions env completions) := by
  induction completions generalizing t with
  | nil => exact h
  | cons c rest ih => exact ih (hStep t c h)

theorem recordToolCompletion_undone (env : Env) (t : Turn) (c : Completion) :
    (t.recordToolCompletion env c).undone = t.undone := by
  rw [Turn.recordToolCompletion]
  cases c.displayedImage <;> rfl

theorem recordToolCompletion_tokenUsage (env : Env) (t : Turn) (c : Completion) :
    (t.recordToolCompletion env c).tokenUsage = t.tokenUsage := by
  rw [Turn.recordToolCompletion]
  cases c.displayedImage <;> rfl

end Turn

/-! ## Histories -/

/-- Every turn is well formed and its id leaves room for a successor. -/
def TurnsOk (turns : Turns) : Prop := ∀ e ∈ turns.entries, e.2.Ok ∧ e.1 + 1 < 2 ^ 32

/-- `turns` is `base` followed by live turns. -/
def Extends (base turns : Turns) : Prop :=
  ∃ new, turns.entries = base.entries ++ new ∧ ∀ e ∈ new, e.2.undone = false

/-- `turns` is `base` followed by live turns, the last of which is `t`. -/
structure CurrentTurn (base turns : Turns) (id : Nat) (t : Turn) : Prop where
  split : ∃ earlier, turns.entries = base.entries ++ earlier ++ [(id, t)] ∧
    ∀ e ∈ earlier, e.2.undone = false
  live : t.undone = false

theorem Extends.refl (turns : Turns) : Extends turns turns := ⟨[], by simp, by simp⟩

theorem Extends.keys_subset (h : Extends base turns) : ∀ k ∈ base.keys, k ∈ turns.keys := by
  obtain ⟨new, hNew, _⟩ := h
  intro k hk
  rw [OrdMap.keys, hNew, List.map_append]
  exact List.mem_append_left _ hk

theorem Extends.get?_of_mem (h : Extends base turns) {k : Nat} (hk : k ∈ base.keys) :
    turns.get? k = base.get? k := by
  obtain ⟨new, hNew, _⟩ := h
  obtain ⟨t, ht⟩ := OrdMap.mem_keys_iff.mp hk
  rw [ht, OrdMap.get?_eq_some_iff, hNew]
  exact List.mem_append_left _ (OrdMap.get?_eq_some_iff.mp ht)

theorem CurrentTurn.extends {id : Nat} (h : CurrentTurn base turns id t) : Extends base turns := by
  obtain ⟨earlier, hSplit, hLive⟩ := h.split
  refine ⟨earlier ++ [(id, t)], by rw [hSplit, List.append_assoc], ?_⟩
  intro e he
  rcases List.mem_append.mp he with he | he
  · exact hLive e he
  · rw [List.mem_singleton] at he
    rw [he]
    exact h.live

theorem CurrentTurn.get? {id : Nat} (h : CurrentTurn base turns id t) : turns.get? id = some t := by
  obtain ⟨earlier, hSplit, _⟩ := h.split
  rw [OrdMap.get?_eq_some_iff, hSplit]
  simp

theorem CurrentTurn.notMem_base {id : Nat} (h : CurrentTurn base turns id t) : id ∉ base.keys := by
  obtain ⟨earlier, hSplit, _⟩ := h.split
  have hSorted := hSplit ▸ turns.sorted
  intro hk
  obtain ⟨e, he, rfl⟩ := List.mem_map.mp hk
  have hLt := (List.pairwise_append.mp hSorted).2.2 e (List.mem_append_left _ he)
    (e.1, t) List.mem_cons_self
  exact lt_irrefl _ hLt

theorem CurrentTurn.modify {id : Nat} (h : CurrentTurn base turns id t)
    (hLive : (f t).undone = false) : CurrentTurn base (turns.modify id f) id (f t) := by
  obtain ⟨earlier, hSplit, hEarlier⟩ := h.split
  exact ⟨⟨earlier, OrdMap.modify_entries_of_last hSplit f, hEarlier⟩, hLive⟩

/-! ### Turn ids -/

theorem lt_nextTurnIdOf {k : Nat} (hk : k ∈ turns.keys) : k < SessionState.nextTurnIdOf turns := by
  rw [SessionState.nextTurnIdOf]
  cases hLast : turns.lastKey? with
  | none =>
    rw [OrdMap.lastKey?_eq_none_iff.mp hLast] at hk
    cases hk
  | some last =>
    have hLe := OrdMap.le_lastKey? hLast hk
    exact Nat.lt_succ_of_le hLe

@[simp] theorem nextTurnIdOf_modify (turns : Turns) (id : Nat) (f : Turn → Turn) :
    SessionState.nextTurnIdOf (turns.modify id f) = SessionState.nextTurnIdOf turns := by
  rw [SessionState.nextTurnIdOf, OrdMap.lastKey?_modify]
  rfl

@[simp] theorem nextTurnIdOf_mapVal (turns : Turns) (f : Nat → Turn → Turn) :
    SessionState.nextTurnIdOf (turns.mapVal f) = SessionState.nextTurnIdOf turns := by
  rw [SessionState.nextTurnIdOf, OrdMap.lastKey?_mapVal]
  rfl

theorem nextTurnIdOf_insert (turns : Turns) (t : Turn) :
    SessionState.nextTurnIdOf (turns.insert (SessionState.nextTurnIdOf turns) t) =
      SessionState.nextTurnIdOf turns + 1 := by
  rw [SessionState.nextTurnIdOf, OrdMap.lastKey?_insert_of_gt fun k hk => lt_nextTurnIdOf hk]

theorem insert_next_entries (turns : Turns) (t : Turn) :
    (turns.insert (SessionState.nextTurnIdOf turns) t).entries =
      turns.entries ++ [(SessionState.nextTurnIdOf turns, t)] :=
  OrdMap.insert_entries_of_gt fun _ hk => lt_nextTurnIdOf hk

theorem Extends.nextTurnIdOf_le (h : Extends base turns) :
    SessionState.nextTurnIdOf base ≤ SessionState.nextTurnIdOf turns := by
  nth_rewrite 1 [SessionState.nextTurnIdOf]
  cases hLast : base.lastKey? with
  | none => exact Nat.zero_le _
  | some last => exact lt_nextTurnIdOf (h.keys_subset last (OrdMap.mem_keys_of_lastKey? hLast))

/-- An extension with the same next turn id adds nothing. -/
theorem Extends.eq_of_next (h : Extends base turns)
    (hNext : SessionState.nextTurnIdOf turns = SessionState.nextTurnIdOf base) : turns = base := by
  obtain ⟨new, hNew, _⟩ := h
  cases new with
  | nil => exact OrdMap.eq_of_entries (by simpa using hNew)
  | cons e rest =>
    exfalso
    have hMem : e.1 ∈ turns.keys := by simp [OrdMap.keys, hNew]
    have hLt := lt_nextTurnIdOf hMem
    rw [hNext, SessionState.nextTurnIdOf] at hLt
    cases hLast : base.lastKey? with
    | none =>
      rw [hLast] at hLt
      exact absurd hLt (Nat.not_lt_zero _)
    | some last =>
      rw [hLast] at hLt
      obtain ⟨e', he', hKey⟩ := List.mem_map.mp (OrdMap.mem_keys_of_lastKey? hLast)
      have hSorted := hNew ▸ turns.sorted
      have hBefore := (List.pairwise_append.mp hSorted).2.2 e' he' e List.mem_cons_self
      rw [hKey] at hBefore
      exact absurd hBefore (Nat.not_lt_of_le (Nat.le_of_lt_succ hLt))

theorem Extends.startTurn (h : Extends base turns) (hLive : t.undone = false) :
    CurrentTurn base (turns.insert (SessionState.nextTurnIdOf turns) t)
      (SessionState.nextTurnIdOf turns) t := by
  obtain ⟨new, hNew, hNewLive⟩ := h
  exact ⟨⟨new, by rw [insert_next_entries, hNew], hNewLive⟩, hLive⟩

/-! ### Well-formed histories -/

theorem turnsOk_insert_next (h : TurnsOk turns) (ht : t.Ok)
    (hBound : SessionState.nextTurnIdOf turns + 1 < 2 ^ 32) :
    TurnsOk (turns.insert (SessionState.nextTurnIdOf turns) t) := by
  intro e he
  rw [insert_next_entries, List.mem_append, List.mem_singleton] at he
  rcases he with he | rfl
  · exact h e he
  · exact ⟨ht, hBound⟩

theorem turnsOk_mapVal {f : Nat → Turn → Turn} (h : TurnsOk turns) (hf : ∀ id t, t.Ok → (f id t).Ok) :
    TurnsOk (turns.mapVal f) := by
  intro e he
  obtain ⟨e', he', rfl⟩ := List.mem_map.mp he
  exact ⟨hf e'.1 e'.2 (h e' he').1, (h e' he').2⟩

theorem CurrentTurn.turnsOk_modify {id : Nat} (hTurn : CurrentTurn base turns id t)
    (h : TurnsOk turns) (hf : (f t).Ok) : TurnsOk (turns.modify id f) := by
  obtain ⟨earlier, hSplit, _⟩ := hTurn.split
  intro e he
  rw [OrdMap.modify_entries_of_last hSplit f, List.mem_append, List.mem_singleton] at he
  rcases he with he | rfl
  · exact h e (by rw [hSplit]; exact List.mem_append_left _ he)
  · exact ⟨hf, (h (id, t) (by rw [hSplit]; simp)).2⟩

theorem TurnsOk.get? (h : TurnsOk turns) {id : Nat} (hGet : turns.get? id = some t) :
    t.Ok ∧ id + 1 < 2 ^ 32 :=
  h (id, t) (OrdMap.get?_eq_some_iff.mp hGet)

/-! ### Token readouts -/

/-- The token readouts of a configuration are those of the history. -/
def Readouts (config : SessionConfig) (turns : Turns) : Prop :=
  config.accumulatedUsage = reconstructAccumulatedUsage turns ∧
    config.lastPromptTokens = liveLastPromptTokens turns

theorem reconstruct_of_last {init : Turns} {id : Nat}
    (h : turns.entries = init.entries ++ [(id, t)]) :
    reconstructAccumulatedUsage turns =
      addUsage (reconstructAccumulatedUsage init) t.tokenUsage := by
  simp [reconstructAccumulatedUsage, OrdMap.values, h]

theorem live_of_last {init : Turns} {id : Nat} (h : turns.entries = init.entries ++ [(id, t)])
    (hLive : t.undone = false) :
    liveLastPromptTokens turns =
      (t.tokenUsage.map TokenUsage.inputTokens).or (liveLastPromptTokens init) := by
  simp [liveLastPromptTokens, OrdMap.values, h, hLive, List.findSome?_cons]
  cases t.tokenUsage <;> simp

theorem CurrentTurn.init {id : Nat} (h : CurrentTurn base turns id t) :
    ∃ init : Turns, turns.entries = init.entries ++ [(id, t)] := by
  obtain ⟨earlier, hSplit, _⟩ := h.split
  have hSorted := hSplit ▸ turns.sorted
  exact ⟨⟨base.entries ++ earlier, (List.pairwise_append.mp hSorted).1⟩, hSplit⟩

/-- A blank turn has no usage, so starting it changes no readout. -/
theorem Readouts.startTurn {config : SessionConfig} (h : Readouts config turns) (hBlank : t.Blank) :
    Readouts config (turns.insert (SessionState.nextTurnIdOf turns) t) := by
  have hEntries := insert_next_entries turns t
  rw [Readouts, reconstruct_of_last hEntries, live_of_last hEntries hBlank.live,
    hBlank.tokenUsage]
  exact h

theorem Readouts.modify {config : SessionConfig} {id : Nat} (h : Readouts config turns)
    (hTurn : CurrentTurn base turns id t) (hLive : (f t).undone = false)
    (hUsage : (f t).tokenUsage = t.tokenUsage) : Readouts config (turns.modify id f) := by
  obtain ⟨init, hInit⟩ := hTurn.init
  have hEntries := OrdMap.modify_entries_of_last hInit f
  obtain ⟨hTotal, hPrompt⟩ := h
  rw [reconstruct_of_last hInit] at hTotal
  rw [live_of_last hInit hTurn.live] at hPrompt
  rw [Readouts, reconstruct_of_last hEntries, live_of_last hEntries hLive, hUsage]
  exact ⟨hTotal, hPrompt⟩

/-- Adding a reply's usage to the counters and recording it on the current turn
agree. -/
theorem Readouts.accumulate {s : SessionState} {id : Nat} {usage : Option TokenUsage}
    (h : Readouts s.config s.turns) (hTurn : CurrentTurn base s.turns id t)
    (hNone : t.tokenUsage = none) (hLive : (f t).undone = false) (hUsage : (f t).tokenUsage = usage) :
    Readouts (Worker.accumulateTokenUsage s usage).config (s.turns.modify id f) := by
  obtain ⟨init, hInit⟩ := hTurn.init
  have hEntries := OrdMap.modify_entries_of_last hInit f
  obtain ⟨hTotal, hPrompt⟩ := h
  rw [reconstruct_of_last hInit, hNone] at hTotal
  rw [live_of_last hInit hTurn.live, hNone] at hPrompt
  rw [Readouts, reconstruct_of_last hEntries, live_of_last hEntries hLive, hUsage]
  cases usage with
  | none => exact ⟨hTotal, hPrompt⟩
  | some u => exact ⟨by rw [Worker.accumulateTokenUsage, hTotal]; rfl, rfl⟩

end Choreographr.Session
