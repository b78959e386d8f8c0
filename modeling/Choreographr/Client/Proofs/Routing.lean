import Choreographr.Client.SessionView

/-!
# Routes, records and descriptions

A route only moves forward, a chunk stays in the turn of its stream, and an event adds a record
for a call only where there was none. A description is stashed with its call in the turn that
the stream is on. The stream takes it away when it ends, if it is still on a turn with that call;
a call that is in no such turn any more keeps its description.
-/

namespace Choreographr.Client

open Lib Session

namespace SessionView

/-! ## What the properties speak about -/

/-- The turn is there and lists the call. -/
def hasCallAt (v : SessionView) (turnId : Nat) (callId : String) : Bool :=
  match v.turns.get? turnId with
  | some turn => hasCall callId turn
  | none => false

/-- How many calls and how many results of a turn have the id. -/
def recordCounts (v : SessionView) (turnId : Nat) (callId : String) : Nat × Nat :=
  match v.turns.get? turnId with
  | some turn =>
      (turn.toolCalls.countP fun call => call.callId == callId,
        turn.toolResults.countP fun result => result.callId == callId)
  | none => (0, 0)

/-- Another stream is on a turn that lists the call. -/
def heldByOther (v : SessionView) (streamId : Nat) (callId : String) : Bool :=
  v.requestToTurn.entries.any fun route => route.1 != streamId && v.hasCallAt route.2 callId

/-- A stream is on another turn that lists the call. -/
def heldElsewhere (v : SessionView) (turnId : Nat) (callId : String) : Bool :=
  v.requestToTurn.entries.any fun route => route.2 != turnId && v.hasCallAt route.2 callId

/-- No stashed description is left behind: neither by a stream that moves on to another turn, nor
by a turn that is replaced without its call. -/
def stepClean (v : SessionView) : SessionOp → Bool
  | .startRequest streamId turnId =>
      match v.requestTurnId streamId with
      | none => true
      | some current =>
          turnId ≤ current || v.toolCallDescriptions.keys.all fun callId =>
            !v.hasCallAt current callId || v.hasCallAt turnId callId ||
              v.heldByOther streamId callId
  | .insertOrReplace turnId turn =>
      v.toolCallDescriptions.keys.all fun callId =>
        !v.hasCallAt turnId callId || hasCall callId turn || v.heldElsewhere turnId callId
  | _ => true

/-- Every step of a run is clean. -/
def runClean : SessionView → List SessionOp → Bool
  | _, [] => true
  | v, op :: rest => v.stepClean op && (v.apply op).runClean rest

end SessionView

/-- The stream of a chunk. -/
def SessionOp.chunkStream? : SessionOp → Option Nat
  | .streamChunk streamId _ _ => some streamId
  | .toolResultChunk streamId _ _ => some streamId
  | _ => none

/-- The operation ends the stream. -/
def SessionOp.ends (streamId : Nat) : SessionOp → Bool
  | .finishRequest s => s == streamId
  | _ => false

/-- The operation sets the turn from outside. -/
def SessionOp.replaces (turnId : Nat) : SessionOp → Bool
  | .insertOrReplace t _ => t == turnId
  | _ => false

/-- A number that stays as it is or goes from none to one. -/
def GrowsToOne (before after : Nat) : Prop := after = before ∨ (before = 0 ∧ after = 1)

/-- Between two moments of a run a route moves only forward while its stream is in flight, and
the number of records for a call only goes from none to one. -/
structure Forward (v w : SessionView) (between : List SessionOp) : Prop where
  routes : ∀ streamId turnId, v.requestTurnId streamId = some turnId →
    (between.all fun op => !op.ends streamId) = true →
    ∃ turnId', w.requestTurnId streamId = some turnId' ∧ turnId ≤ turnId'
  calls : ∀ turnId callId, (between.all fun op => !op.replaces turnId) = true →
    GrowsToOne (v.recordCounts turnId callId).1 (w.recordCounts turnId callId).1
  results : ∀ turnId callId, (between.all fun op => !op.replaces turnId) = true →
    GrowsToOne (v.recordCounts turnId callId).2 (w.recordCounts turnId callId).2

/-- A chunk of a stream leaves every other turn alone, the routes, and the descriptions. -/
structure ChunkFrame (v w : SessionView) (streamId : Nat) : Prop where
  turns : ∀ turnId, v.requestTurnId streamId ≠ some turnId →
    w.turns.get? turnId = v.turns.get? turnId
  routes : w.requestToTurn = v.requestToTurn
  descriptions : w.toolCallDescriptions = v.toolCallDescriptions

/-- The routing of a run. -/
structure Routed (ops : List SessionOp) : Prop where
  forward : ∀ before between later, ops = before ++ between ++ later →
    Forward (({} : SessionView).after before) (({} : SessionView).after (before ++ between)) between
  chunks : ∀ before op later streamId, ops = before ++ op :: later →
    op.chunkStream? = some streamId →
    ChunkFrame (({} : SessionView).after before) (({} : SessionView).after (before ++ [op]))
      streamId
  clean : ∀ before later, ops = before ++ later →
    (({} : SessionView).after before).requestToTurn.entries = [] →
    (({} : SessionView).after before).toolCallDescriptions.entries = []

/-! ## One operation -/

theorem GrowsToOne.refl (n : Nat) : GrowsToOne n n := .inl rfl

theorem GrowsToOne.trans {a b c : Nat} (hab : GrowsToOne a b) (hbc : GrowsToOne b c) :
    GrowsToOne a c := by
  unfold GrowsToOne at *
  omega

namespace SessionView

variable {v : SessionView}

theorem routed_eq_some {streamId turnId : Nat} {turn : Turn} :
    v.routed streamId = some (turnId, turn) ↔
      v.requestTurnId streamId = some turnId ∧ v.turns.get? turnId = some turn := by
  simp only [routed, Option.bind_eq_bind, Option.bind_eq_some_iff, Option.some.injEq,
    Prod.mk.injEq]
  constructor
  · rintro ⟨t, hRoute, turn', hTurn, rfl, rfl⟩
    exact ⟨hRoute, hTurn⟩
  · rintro ⟨hRoute, hTurn⟩
    exact ⟨turnId, hRoute, turn, hTurn, rfl, rfl⟩

theorem get?_forgetCalls (descriptions : OrdMap String String)
    (calls : List AssistantToolCallRecord) (callId : String) :
    (forgetCalls descriptions calls).get? callId =
      if calls.any fun call => call.callId == callId then none else descriptions.get? callId := by
  induction calls generalizing descriptions with
  | nil => rfl
  | cons call rest ih =>
    rw [forgetCalls, List.foldl_cons, ← forgetCalls, ih, OrdMap.get?_erase, List.any_cons]
    by_cases hHead : call.callId = callId
    · simp [hHead]
    · simp [hHead, Ne.symm hHead]

end SessionView

/-! ## Events -/

/-- What an event may do to the turn of its stream. -/
structure TurnGrows (turn turn' : Turn) : Prop where
  calls : ∀ callId, GrowsToOne (turn.toolCalls.countP fun call => call.callId == callId)
    (turn'.toolCalls.countP fun call => call.callId == callId)
  results : ∀ callId, GrowsToOne (turn.toolResults.countP fun result => result.callId == callId)
    (turn'.toolResults.countP fun result => result.callId == callId)
  keepsCalls : ∀ callId, hasCall callId turn = true → hasCall callId turn' = true

theorem growsToOne_append {α : Type} (key : α → String) {xs : List α} {x : α}
    (hNew : (xs.any fun y => key y == key x) = false) (callId : String) :
    GrowsToOne (xs.countP fun y => key y == callId)
      ((xs ++ [x]).countP fun y => key y == callId) := by
  rw [List.countP_append, List.countP_singleton]
  by_cases hSame : key x = callId
  · right
    have hNone : (xs.countP fun y => key y == callId) = 0 := by
      rw [List.countP_eq_zero]
      intro y hMem hKey
      exact absurd (hSame ▸ hKey) (by simpa using List.any_eq_false.mp hNew y hMem)
    exact ⟨hNone, by rw [hNone, if_pos (by simpa using hSame)]⟩
  · left
    rw [if_neg (by simpa using hSame), Nat.add_zero]

theorem countP_modifyFirst {f : ToolResultRecord → ToolResultRecord}
    (hKey : ∀ result, (f result).callId = result.callId) (target callId : String)
    (results : List ToolResultRecord) :
    ((modifyFirst ToolResultRecord.callId target f results).countP
        fun result => result.callId == callId) =
      results.countP fun result => result.callId == callId := by
  have hMap := congrArg (fun ids => ids.countP fun id => id == callId)
    (map_modifyFirst (k := target) hKey results)
  rw [List.countP_map, List.countP_map] at hMap
  exact hMap

theorem chunkTurn_grows (turn : Turn) (stream : OutputStream) (data : String) :
    TurnGrows turn (SessionView.chunkTurn turn stream data) := by
  cases stream with
  | answer => exact ⟨fun _ => .refl _, fun _ => .refl _, fun _ h => h⟩
  | reasoning => exact ⟨fun _ => .refl _, fun _ => .refl _, fun _ h => h⟩

theorem startedTurn_grows (turn : Turn) (callId name args description : String) :
    TurnGrows turn (SessionView.startedTurn turn callId name args description) := by
  have hResults : ∀ c, GrowsToOne (turn.toolResults.countP fun result => result.callId == c)
      ((SessionView.startedTurn turn callId name args description).toolResults.countP
        fun result => result.callId == c) :=
    fun c => .inl (countP_modifyFirst (f := SessionView.backfill name description)
      (fun _ => rfl) callId c turn.toolResults)
  have hCalls : (SessionView.startedTurn turn callId name args description).toolCalls =
      if hasCall callId turn then turn.toolCalls
      else turn.toolCalls ++ [{ callId, name, argumentsJson := args, caller := none }] := rfl
  by_cases hHas : hasCall callId turn = true
  · rw [if_pos hHas] at hCalls
    refine ⟨fun c => ?_, hResults, fun c h => ?_⟩
    · rw [hCalls]
      exact .refl _
    · rwa [hasCall, hCalls]
  · rw [if_neg hHas] at hCalls
    refine ⟨fun c => ?_, hResults, fun c h => ?_⟩
    · rw [hCalls]
      exact growsToOne_append AssistantToolCallRecord.callId
        (Bool.not_eq_true _ ▸ hHas) c
    · rw [hasCall, hCalls, List.any_append, Bool.or_eq_true]
      exact .inl h

theorem startedTurn_hasCall (turn : Turn) (callId name args description : String) :
    hasCall callId (SessionView.startedTurn turn callId name args description) = true := by
  unfold hasCall SessionView.startedTurn
  split
  · assumption
  · simp

theorem resultChunkTurn_grows (turn : Turn) (description : Option String) (callId data : String) :
    TurnGrows turn (SessionView.resultChunkTurn turn description callId data) := by
  refine ⟨fun _ => .refl _, fun c => ?_, fun _ h => h⟩
  unfold SessionView.resultChunkTurn
  split
  · exact .inl (countP_modifyFirst (f := SessionView.appendChunk description data)
      (fun _ => rfl) callId c turn.toolResults)
  · rename_i hNone
    exact growsToOne_append ToolResultRecord.callId (Bool.not_eq_true _ ▸ hNone) c

/-- The stream of an event. -/
def SessionOp.eventStream? : SessionOp → Option Nat
  | .streamChunk streamId _ _ => some streamId
  | .toolCallStarted streamId _ _ _ _ => some streamId
  | .toolResultChunk streamId _ _ => some streamId
  | _ => none

/-- What an event does to the turns: at most it grows the turn that its stream is on. -/
inductive TurnsStep (v w : SessionView) (streamId : Nat) : Prop
  | same (h : w.turns = v.turns)
  | grown {turnId : Nat} {turn turn' : Turn} (hRoute : v.requestTurnId streamId = some turnId)
      (hTurn : v.turns.get? turnId = some turn) (hGrows : TurnGrows turn turn')
      (h : w.turns = v.turns.insert turnId turn')

namespace SessionView

variable {v : SessionView} {op : SessionOp} {streamId turnId : Nat} {w : SessionView}
  {callId : String}

theorem apply_event (op : SessionOp) (streamId : Nat) (h : op.eventStream? = some streamId) :
    (v.apply op).requestToTurn = v.requestToTurn ∧ TurnsStep v (v.apply op) streamId := by
  have hNamed : ∀ {s : Nat}, some s = some streamId → s = streamId := fun hEq => Option.some.inj hEq
  cases op with
  | streamChunk s stream data =>
    obtain rfl := hNamed h
    simp only [apply, streamChunk]
    split
    · exact ⟨rfl, .same rfl⟩
    · rename_i turnId turn hRouted
      obtain ⟨hRoute, hTurn⟩ := routed_eq_some.mp hRouted
      exact ⟨rfl, .grown hRoute hTurn (chunkTurn_grows turn stream data) rfl⟩
  | toolCallStarted s callId name args description =>
    obtain rfl := hNamed h
    simp only [apply, toolCallStarted]
    split
    · exact ⟨rfl, .same rfl⟩
    · rename_i turnId turn hRouted
      obtain ⟨hRoute, hTurn⟩ := routed_eq_some.mp hRouted
      exact ⟨rfl, .grown hRoute hTurn (startedTurn_grows turn callId name args description) rfl⟩
  | toolResultChunk s callId data =>
    obtain rfl := hNamed h
    simp only [apply, toolResultChunk]
    split
    · exact ⟨rfl, .same rfl⟩
    · rename_i turnId turn hRouted
      obtain ⟨hRoute, hTurn⟩ := routed_eq_some.mp hRouted
      exact ⟨rfl, .grown hRoute hTurn (resultChunkTurn_grows turn _ callId data) rfl⟩
  | startRequest s t => cases h
  | insertOrReplace t turn => cases h
  | finishRequest s => cases h

theorem requestTurnId_startRequest (streamId turnId s : Nat) :
    (v.startRequest streamId turnId).1.requestTurnId s =
      if s = streamId ∧ (∀ current ∈ v.requestTurnId streamId, current ≤ turnId) then some turnId
      else v.requestTurnId s := by
  unfold startRequest
  cases hRoute : v.requestTurnId streamId with
  | none => simp [requestTurnId]
  | some current =>
    by_cases hBack : turnId < current
    · simp [hBack, Nat.not_le.mpr hBack]
    · simp [hBack, Nat.not_lt.mp hBack, requestTurnId]

theorem clearToolCallDescriptions_requestToTurn (v : SessionView) (turnId : Nat) :
    (v.clearToolCallDescriptions turnId).requestToTurn = v.requestToTurn := by
  unfold clearToolCallDescriptions
  split <;> rfl

theorem clearToolCallDescriptions_turns (v : SessionView) (turnId : Nat) :
    (v.clearToolCallDescriptions turnId).turns = v.turns := by
  unfold clearToolCallDescriptions
  split <;> rfl

theorem finishRequest_requestToTurn (v : SessionView) (streamId : Nat) :
    (v.finishRequest streamId).requestToTurn = v.requestToTurn.erase streamId := by
  unfold finishRequest
  split
  · simp only [clearToolCallDescriptions_requestToTurn]
  · rfl

theorem finishRequest_turns (v : SessionView) (streamId : Nat) :
    (v.finishRequest streamId).turns = v.turns := by
  unfold finishRequest
  split
  · simp only [clearToolCallDescriptions_turns]
  · rfl

theorem startRequest_turns (v : SessionView) (streamId turnId : Nat) :
    (v.startRequest streamId turnId).1.turns = v.turns := by
  unfold startRequest
  split
  · split <;> rfl
  · rfl

/-! ## Routes move forward -/

theorem apply_requestTurnId (hRoute : v.requestTurnId streamId = some turnId)
    (hEnds : op.ends streamId = false) :
    ∃ turnId', (v.apply op).requestTurnId streamId = some turnId' ∧ turnId ≤ turnId' := by
  have hSame : (v.apply op).requestToTurn = v.requestToTurn →
      ∃ turnId', (v.apply op).requestTurnId streamId = some turnId' ∧ turnId ≤ turnId' := by
    intro hRoutes
    exact ⟨turnId, by rw [requestTurnId, hRoutes]; exact hRoute, Nat.le_refl turnId⟩
  cases op with
  | startRequest s t =>
    simp only [apply, requestTurnId_startRequest]
    by_cases hMoves : streamId = s ∧ ∀ current ∈ v.requestTurnId s, current ≤ t
    · obtain ⟨rfl, hForward⟩ := hMoves
      exact ⟨t, if_pos ⟨rfl, hForward⟩, hForward turnId hRoute⟩
    · exact ⟨turnId, by rw [if_neg hMoves, hRoute], Nat.le_refl turnId⟩
  | finishRequest s =>
    have hNe : streamId ≠ s := fun hEq => by simp [SessionOp.ends, hEq] at hEnds
    refine ⟨turnId, ?_, Nat.le_refl turnId⟩
    simp only [apply, requestTurnId, finishRequest_requestToTurn, OrdMap.get?_erase, if_neg hNe]
    exact hRoute
  | streamChunk s stream data => exact hSame (apply_event _ s rfl).1
  | toolCallStarted s callId name args description => exact hSame (apply_event _ s rfl).1
  | toolResultChunk s callId data => exact hSame (apply_event _ s rfl).1
  | insertOrReplace t turn => exact hSame rfl

/-! ## Records -/

/-- Both counts of a call's records in a turn. -/
structure CountsGrow (v w : SessionView) (turnId : Nat) (callId : String) : Prop where
  calls : GrowsToOne (v.recordCounts turnId callId).1 (w.recordCounts turnId callId).1
  results : GrowsToOne (v.recordCounts turnId callId).2 (w.recordCounts turnId callId).2

theorem countsGrow_of_get? (h : w.turns.get? turnId = v.turns.get? turnId) (callId : String) :
    CountsGrow v w turnId callId := by
  have hSame : w.recordCounts turnId callId = v.recordCounts turnId callId := by
    unfold recordCounts
    rw [h]
  constructor
  · rw [hSame]
    exact .refl _
  · rw [hSame]
    exact .refl _

theorem countsGrow_of_turnsStep (h : TurnsStep v w streamId) (turnId : Nat) (callId : String) :
    CountsGrow v w turnId callId := by
  cases h with
  | same hTurns => exact countsGrow_of_get? (by rw [hTurns]) callId
  | @grown t turn turn' hRoute hTurn hGrows hTurns =>
    by_cases hHere : turnId = t
    · subst hHere
      have hAfter : w.turns.get? turnId = some turn' := by
        rw [hTurns, OrdMap.get?_insert, if_pos rfl]
      constructor
      · simp only [recordCounts, hTurn, hAfter]
        exact hGrows.calls callId
      · simp only [recordCounts, hTurn, hAfter]
        exact hGrows.results callId
    · exact countsGrow_of_get? (by rw [hTurns, OrdMap.get?_insert, if_neg hHere]) callId

theorem apply_countsGrow (hKept : op.replaces turnId = false) (callId : String) :
    CountsGrow v (v.apply op) turnId callId := by
  cases op with
  | streamChunk s stream data =>
    exact countsGrow_of_turnsStep (apply_event _ s rfl).2 turnId callId
  | toolCallStarted s c name args description =>
    exact countsGrow_of_turnsStep (apply_event _ s rfl).2 turnId callId
  | toolResultChunk s c data =>
    exact countsGrow_of_turnsStep (apply_event _ s rfl).2 turnId callId
  | startRequest s t =>
    exact countsGrow_of_get? (by rw [apply, startRequest_turns]) callId
  | finishRequest s =>
    exact countsGrow_of_get? (by rw [apply, finishRequest_turns]) callId
  | insertOrReplace t turn =>
    have hNe : turnId ≠ t := fun hEq => by simp [SessionOp.replaces, hEq] at hKept
    refine countsGrow_of_get? ?_ callId
    simp only [apply, insertOrReplace, OrdMap.get?_insert, if_neg hNe]

/-! ## Runs -/

theorem after_cons (op : SessionOp) (rest : List SessionOp) :
    v.after (op :: rest) = (v.apply op).after rest := rfl

theorem after_append (ops ops' : List SessionOp) :
    v.after (ops ++ ops') = (v.after ops).after ops' := List.foldl_append

theorem after_forward (v : SessionView) (between : List SessionOp) :
    Forward v (v.after between) between := by
  induction between generalizing v with
  | nil => exact ⟨fun s t h _ => ⟨t, h, Nat.le_refl t⟩, fun _ _ _ => .refl _, fun _ _ _ => .refl _⟩
  | cons op rest ih =>
    obtain ⟨hRoutes, hCalls, hResults⟩ := ih (v.apply op)
    rw [after_cons]
    constructor
    · intro streamId turnId hRoute hAll
      rw [List.all_cons, Bool.and_eq_true, Bool.not_eq_true'] at hAll
      obtain ⟨t, hStep, hLe⟩ := apply_requestTurnId hRoute hAll.1
      obtain ⟨t', hRest, hLe'⟩ := hRoutes streamId t hStep hAll.2
      exact ⟨t', hRest, hLe.trans hLe'⟩
    · intro turnId callId hAll
      rw [List.all_cons, Bool.and_eq_true, Bool.not_eq_true'] at hAll
      exact (apply_countsGrow hAll.1 callId).calls.trans (hCalls turnId callId hAll.2)
    · intro turnId callId hAll
      rw [List.all_cons, Bool.and_eq_true, Bool.not_eq_true'] at hAll
      exact (apply_countsGrow hAll.1 callId).results.trans (hResults turnId callId hAll.2)

theorem apply_chunkFrame (h : op.chunkStream? = some streamId) :
    ChunkFrame v (v.apply op) streamId := by
  have hEvent : op.eventStream? = some streamId := by
    cases op <;> first | exact h | cases h
  obtain ⟨hRoutes, hTurns⟩ := apply_event (v := v) op streamId hEvent
  refine ⟨?_, hRoutes, ?_⟩
  · intro turnId hOther
    cases hTurns with
    | same hSame => rw [hSame]
    | @grown t turn turn' hRoute hTurn hGrows hWritten =>
      have hNe : turnId ≠ t := fun hEq => hOther (hEq ▸ hRoute)
      rw [hWritten, OrdMap.get?_insert, if_neg hNe]
  · cases op with
    | streamChunk s stream data =>
      simp only [apply, streamChunk]
      split <;> rfl
    | toolResultChunk s callId data =>
      simp only [apply, toolResultChunk]
      split <;> rfl
    | toolCallStarted s callId name args description => cases h
    | startRequest s t => cases h
    | insertOrReplace t turn => cases h
    | finishRequest s => cases h

/-! ## Descriptions -/

/-- The stream is on a turn that lists the call. -/
def Holds (v : SessionView) (streamId turnId : Nat) (callId : String) : Prop :=
  v.requestTurnId streamId = some turnId ∧ v.hasCallAt turnId callId = true

/-- Every stashed description belongs to a call of a turn that a stream is on. -/
def Covered (v : SessionView) : Prop :=
  ∀ callId ∈ v.toolCallDescriptions.keys, ∃ streamId turnId, v.Holds streamId turnId callId

theorem hasCallAt_eq_true :
    v.hasCallAt turnId callId = true ↔
      ∃ turn, v.turns.get? turnId = some turn ∧ hasCall callId turn = true := by
  unfold hasCallAt
  cases v.turns.get? turnId <;> simp

theorem heldByOther_eq_true :
    v.heldByOther streamId callId = true ↔
      ∃ s t, s ≠ streamId ∧ v.Holds s t callId := by
  simp only [heldByOther, List.any_eq_true, Bool.and_eq_true, bne_iff_ne, Prod.exists, Holds,
    requestTurnId, OrdMap.get?_eq_some_iff]
  constructor
  · rintro ⟨s, t, hMem, hNe, hHas⟩
    exact ⟨s, t, hNe, hMem, hHas⟩
  · rintro ⟨s, t, hNe, hMem, hHas⟩
    exact ⟨s, t, hMem, hNe, hHas⟩

theorem heldElsewhere_eq_true :
    v.heldElsewhere turnId callId = true ↔
      ∃ s t, t ≠ turnId ∧ v.Holds s t callId := by
  simp only [heldElsewhere, List.any_eq_true, Bool.and_eq_true, bne_iff_ne, Prod.exists, Holds,
    requestTurnId, OrdMap.get?_eq_some_iff]
  constructor
  · rintro ⟨s, t, hMem, hNe, hHas⟩
    exact ⟨s, t, hNe, hMem, hHas⟩
  · rintro ⟨s, t, hNe, hMem, hHas⟩
    exact ⟨s, t, hMem, hNe, hHas⟩

/-- Events keep the calls of every turn. -/
theorem Holds.of_turnsStep (h : TurnsStep v w streamId)
    (hRoutes : w.requestToTurn = v.requestToTurn) {s t : Nat} (hHolds : v.Holds s t callId) :
    w.Holds s t callId := by
  obtain ⟨hRoute, hHas⟩ := hHolds
  refine ⟨by rw [requestTurnId, hRoutes]; exact hRoute, ?_⟩
  obtain ⟨turn, hTurn, hCall⟩ := hasCallAt_eq_true.mp hHas
  rw [hasCallAt_eq_true]
  cases h with
  | same hSame => exact ⟨turn, by rw [hSame, hTurn], hCall⟩
  | @grown t' old new hStream hOld hGrows hWritten =>
    by_cases hHere : t = t'
    · subst hHere
      rw [hTurn] at hOld
      cases hOld
      exact ⟨new, by rw [hWritten, OrdMap.get?_insert, if_pos rfl], hGrows.keepsCalls callId hCall⟩
    · exact ⟨turn, by rw [hWritten, OrdMap.get?_insert, if_neg hHere, hTurn], hCall⟩

theorem mem_keys_forgetCalls {descriptions : OrdMap String String}
    {calls : List AssistantToolCallRecord} :
    callId ∈ (forgetCalls descriptions calls).keys ↔
      (calls.any fun call => call.callId == callId) = false ∧ callId ∈ descriptions.keys := by
  simp only [OrdMap.mem_keys_iff, get?_forgetCalls]
  by_cases hCall : (calls.any fun call => call.callId == callId) = true
  · simp [hCall]
  · simp [Bool.not_eq_true _ ▸ hCall]

theorem Covered.of_holds (h : v.Covered)
    (hKeys : ∀ callId ∈ w.toolCallDescriptions.keys, callId ∈ v.toolCallDescriptions.keys)
    (hHolds : ∀ s t callId, v.Holds s t callId → w.Holds s t callId) : w.Covered := by
  intro callId hMem
  obtain ⟨s, t, hHeld⟩ := h callId (hKeys callId hMem)
  exact ⟨s, t, hHolds s t callId hHeld⟩

theorem Covered.chunk (h : v.Covered) (op : SessionOp) (streamId : Nat)
    (hChunk : op.chunkStream? = some streamId) (hEvent : op.eventStream? = some streamId) :
    (v.apply op).Covered := by
  obtain ⟨hRoutes, hTurns⟩ := apply_event (v := v) op streamId hEvent
  refine h.of_holds ?_ fun s t callId hHeld => hHeld.of_turnsStep hTurns hRoutes
  intro callId hMem
  rwa [(apply_chunkFrame (v := v) hChunk).descriptions] at hMem

theorem Covered.toolCallStarted (h : v.Covered) (streamId : Nat)
    (callId name args description : String) :
    (v.toolCallStarted streamId callId name args description).Covered := by
  obtain ⟨hRoutes, hTurns⟩ := apply_event (v := v)
    (.toolCallStarted streamId callId name args description) streamId rfl
  have hKeep : ∀ s t c, v.Holds s t c → (v.toolCallStarted streamId callId name args
      description).Holds s t c := fun s t c hHeld => hHeld.of_turnsStep hTurns hRoutes
  cases hRouted : v.routed streamId with
  | none =>
    refine h.of_holds ?_ hKeep
    simp only [SessionView.toolCallStarted, hRouted]
    exact fun _ hMem => hMem
  | some place =>
    obtain ⟨turnId, turn⟩ := place
    obtain ⟨hRoute, hTurn⟩ := routed_eq_some.mp hRouted
    intro c hMem
    by_cases hNew : c = callId
    · refine ⟨streamId, turnId, ?_, ?_⟩
      · simp only [SessionView.toolCallStarted, hRouted]
        exact hRoute
      · rw [hasCallAt_eq_true]
        refine ⟨startedTurn turn callId name args description, ?_, ?_⟩
        · simp only [SessionView.toolCallStarted, hRouted, OrdMap.get?_insert, if_pos]
        · rw [hNew]
          exact startedTurn_hasCall turn callId name args description
    · have hOld : c ∈ v.toolCallDescriptions.keys := by
        simp only [SessionView.toolCallStarted, hRouted] at hMem
        split at hMem
        · exact hMem
        · rw [OrdMap.mem_keys_iff] at hMem ⊢
          simpa [OrdMap.get?_insert, hNew] using hMem
      obtain ⟨s, t, hHeld⟩ := h c hOld
      exact ⟨s, t, hKeep s t c hHeld⟩

theorem Covered.insertOrReplace (h : v.Covered) {turn : Turn}
    (hClean : v.stepClean (.insertOrReplace turnId turn) = true) :
    (v.insertOrReplace turnId turn).Covered := by
  -- A hold on another turn is not touched.
  have hOther : ∀ {s t c}, t ≠ turnId → v.Holds s t c →
      (v.insertOrReplace turnId turn).Holds s t c := by
    rintro s t c hNe ⟨hRoute, hHas⟩
    refine ⟨hRoute, ?_⟩
    obtain ⟨old, hOld, hCall⟩ := hasCallAt_eq_true.mp hHas
    rw [hasCallAt_eq_true]
    refine ⟨old, ?_, hCall⟩
    simp only [SessionView.insertOrReplace, OrdMap.get?_insert, if_neg hNe, hOld]
  intro callId hMem
  obtain ⟨hGone, hOld⟩ := mem_keys_forgetCalls.mp hMem
  obtain ⟨s, t, hHeld⟩ := h callId hOld
  by_cases hHere : t = turnId
  · subst hHere
    have hCase := List.all_eq_true.mp hClean callId hOld
    rw [hHeld.2, Bool.not_true, Bool.false_or, Bool.or_eq_true] at hCase
    rcases hCase with hListed | hElsewhere
    · rw [hasCall, hGone] at hListed
      cases hListed
    · obtain ⟨s', t', hNe, hHeld'⟩ := heldElsewhere_eq_true.mp hElsewhere
      exact ⟨s', t', hOther hNe hHeld'⟩
  · exact ⟨s, t, hOther hHere hHeld⟩

theorem Covered.startRequest (h : v.Covered)
    (hClean : v.stepClean (.startRequest streamId turnId) = true) :
    (v.startRequest streamId turnId).1.Covered := by
  have hCalls : ∀ t c, (v.startRequest streamId turnId).1.hasCallAt t c = v.hasCallAt t c := by
    intro t c
    unfold hasCallAt
    rw [startRequest_turns]
  have hOther : ∀ {s t c}, s ≠ streamId → v.Holds s t c →
      (v.startRequest streamId turnId).1.Holds s t c := by
    rintro s t c hNe ⟨hRoute, hHas⟩
    refine ⟨?_, by rw [hCalls, hHas]⟩
    rw [requestTurnId_startRequest, if_neg fun hBoth => hNe hBoth.1, hRoute]
  have hKeys : (v.startRequest streamId turnId).1.toolCallDescriptions =
      v.toolCallDescriptions := by
    unfold SessionView.startRequest
    split
    · split <;> rfl
    · rfl
  intro callId hMem
  rw [hKeys] at hMem
  obtain ⟨s, t, hHeld⟩ := h callId hMem
  by_cases hStream : s = streamId
  · subst hStream
    by_cases hForward : turnId ≤ t
    · -- The route stays, as it would go back or names the same turn.
      refine ⟨s, t, ?_, by rw [hCalls, hHeld.2]⟩
      rw [requestTurnId_startRequest]
      split
      · rename_i hTaken
        rw [Nat.le_antisymm hForward (hTaken.2 t hHeld.1)]
      · exact hHeld.1
    · have hCase : (v.toolCallDescriptions.keys.all fun callId =>
          !v.hasCallAt t callId || v.hasCallAt turnId callId || v.heldByOther s callId) = true := by
        simpa only [stepClean, hHeld.1, hForward, decide_false, Bool.false_or] using hClean
      have hCall := List.all_eq_true.mp hCase callId hMem
      rw [hHeld.2, Bool.not_true, Bool.false_or, Bool.or_eq_true] at hCall
      rcases hCall with hListed | hHeldByOther
      · refine ⟨s, turnId, ?_, by rw [hCalls, hListed]⟩
        rw [requestTurnId_startRequest, if_pos]
        refine ⟨rfl, fun current hCurrent => ?_⟩
        rw [hHeld.1] at hCurrent
        cases hCurrent
        omega
      · obtain ⟨s', t', hNe, hHeld'⟩ := heldByOther_eq_true.mp hHeldByOther
        exact ⟨s', t', hOther hNe hHeld'⟩
  · exact ⟨s, t, hOther hStream hHeld⟩

theorem Covered.finishRequest (h : v.Covered) (streamId : Nat) :
    (v.finishRequest streamId).Covered := by
  have hKept : ∀ {s t c}, s ≠ streamId → v.Holds s t c →
      (v.finishRequest streamId).Holds s t c := by
    rintro s t c hNe ⟨hRoute, hHas⟩
    constructor
    · rw [requestTurnId, finishRequest_requestToTurn, OrdMap.get?_erase, if_neg hNe]
      exact hRoute
    · unfold hasCallAt at hHas ⊢
      rwa [finishRequest_turns]
  intro callId hMem
  have hBoth : callId ∈ v.toolCallDescriptions.keys ∧
      ∀ t, ¬ v.Holds streamId t callId := by
    cases hRoute : v.requestTurnId streamId with
    | none =>
      simp only [SessionView.finishRequest, hRoute] at hMem
      refine ⟨hMem, fun t hHeld => ?_⟩
      rw [Holds, hRoute] at hHeld
      cases hHeld.1
    | some turnId =>
      simp only [SessionView.finishRequest, hRoute, clearToolCallDescriptions] at hMem
      cases hTurn : v.turns.get? turnId with
      | none =>
        simp only [hTurn] at hMem
        refine ⟨hMem, ?_⟩
        rintro t ⟨hOn, hHas⟩
        obtain ⟨turn, hFound, -⟩ := hasCallAt_eq_true.mp hHas
        rw [hRoute] at hOn
        cases hOn
        rw [hTurn] at hFound
        cases hFound
      | some turn =>
        simp only [hTurn] at hMem
        obtain ⟨hGone, hMem⟩ := mem_keys_forgetCalls.mp hMem
        refine ⟨hMem, ?_⟩
        rintro t ⟨hOn, hHas⟩
        obtain ⟨turn', hFound, hCall⟩ := hasCallAt_eq_true.mp hHas
        rw [hRoute] at hOn
        cases hOn
        rw [hTurn] at hFound
        cases hFound
        rw [hasCall, hGone] at hCall
        cases hCall
  obtain ⟨hOld, hNone⟩ := hBoth
  obtain ⟨s, t, hHeld⟩ := h callId hOld
  have hNe : s ≠ streamId := fun hEq => hNone t (hEq ▸ hHeld)
  exact ⟨s, t, hKept hNe hHeld⟩

theorem Covered.apply (h : v.Covered) (hClean : v.stepClean op = true) : (v.apply op).Covered := by
  cases op with
  | streamChunk s stream data => exact h.chunk _ s rfl rfl
  | toolResultChunk s callId data => exact h.chunk _ s rfl rfl
  | toolCallStarted s callId name args description =>
    exact h.toolCallStarted s callId name args description
  | startRequest s t => exact h.startRequest hClean
  | insertOrReplace t turn => exact h.insertOrReplace hClean
  | finishRequest s => exact h.finishRequest s

theorem Covered.after (h : v.Covered) {ops : List SessionOp} (hClean : v.runClean ops = true) :
    (v.after ops).Covered := by
  induction ops generalizing v with
  | nil => exact h
  | cons op rest ih =>
    rw [runClean, Bool.and_eq_true] at hClean
    exact ih (h.apply hClean.1) hClean.2

theorem runClean_append {ops ops' : List SessionOp} (h : v.runClean (ops ++ ops') = true) :
    v.runClean ops = true := by
  induction ops generalizing v with
  | nil => rfl
  | cons op rest ih =>
    rw [List.cons_append, runClean, Bool.and_eq_true] at h
    rw [runClean, Bool.and_eq_true]
    exact ⟨h.1, ih h.2⟩

end SessionView

/-! ## The routing of a run -/

/-- In every run that leaves no stashed description behind. -/
theorem routed_of_clean (ops : List SessionOp)
    (hClean : ({} : SessionView).runClean ops = true) : Routed ops := by
  constructor
  · rintro before between later rfl
    rw [SessionView.after_append]
    exact SessionView.after_forward _ between
  · rintro before op later streamId rfl hChunk
    rw [SessionView.after_append]
    exact SessionView.apply_chunkFrame hChunk
  · rintro before later rfl hIdle
    have hStart : ({} : SessionView).Covered := fun callId hMem => absurd hMem List.not_mem_nil
    have hCovered := hStart.after (SessionView.runClean_append hClean)
    refine List.eq_nil_iff_forall_not_mem.mpr ?_
    rintro ⟨callId, description⟩ hMem
    obtain ⟨s, t, hRoute, -⟩ := hCovered callId (List.mem_map.mpr ⟨_, hMem, rfl⟩)
    rw [SessionView.requestTurnId, OrdMap.get?_eq_some_iff, hIdle] at hRoute
    exact absurd hRoute List.not_mem_nil

/-- A call whose turn is replaced by the authoritative one before the stream moves on. -/
def answeredRun : List SessionOp :=
  [.startRequest 7 1, .insertOrReplace 1 {}, .toolCallStarted 7 "c" "sh" "" "Run ls",
    .toolResultChunk 7 "c" "out",
    .insertOrReplace 1 { toolCalls := [{ callId := "c", name := "sh", argumentsJson := "" }] },
    .startRequest 7 2, .finishRequest 7]

theorem answeredRun_routed : Routed answeredRun :=
  routed_of_clean answeredRun (by decide)

/-- The stream moves on while the description of a call of its last turn is stashed. -/
def movedOnRun : List SessionOp :=
  [.startRequest 7 1, .insertOrReplace 1 {}, .toolCallStarted 7 "c" "sh" "" "Run ls",
    .startRequest 7 2, .finishRequest 7]

theorem movedOnRun_leaks : ¬ Routed movedOnRun := by
  intro h
  have hEmpty := h.clean movedOnRun [] rfl (by decide)
  exact absurd hEmpty (by decide)

end Choreographr.Client
