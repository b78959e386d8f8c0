import Choreographr.Protocols.BlockReplies

/-!
# When a stream of blocks reads as the whole reply

Both endings are functions of the texts and the calls. `sameTurn_iff` and
`sameReasoning_iff` say when they come to the same turn, given that the stream has
appended the texts of the whole reply.
-/

namespace Choreographr.Protocols

open Session

/-! ## Joined texts -/

/-- A pass over a list that succeeds succeeds on each element. -/
theorem map_eq_of_mapM_ok {ε α β : Type} {f : α → Except ε β} {xs : List α} {ys : List β}
    (h : xs.mapM f = .ok ys) : xs.map f = ys.map .ok := by
  induction xs generalizing ys with
  | nil =>
    cases h
    rfl
  | cons x rest ih =>
    rw [List.mapM_cons] at h
    cases hHead : f x with
    | error e =>
      rw [hHead] at h
      cases h
    | ok y =>
      rw [hHead] at h
      cases hRest : rest.mapM f with
      | error e =>
        rw [hRest] at h
        cases h
      | ok others =>
        rw [hRest] at h
        cases h
        rw [List.map_cons, List.map_cons, hHead, ih hRest]

theorem flatten_of_mapM_ok {ε α β : Type} {f : α → Except ε (List β)} {xs : List α}
    {ys : List (List β)} (h : xs.mapM f = .ok ys) :
    (∀ x ∈ xs, f x = .ok ((f x).toOption.getD [])) ∧
      ys.flatten = xs.flatMap fun x => (f x).toOption.getD [] := by
  have hMap := map_eq_of_mapM_ok h
  constructor
  · intro x hx
    have hMem : f x ∈ ys.map Except.ok := hMap ▸ List.mem_map_of_mem hx
    obtain ⟨y, -, hy⟩ := List.mem_map.mp hMem
    rw [← hy]
    rfl
  · have hToOption := congrArg (List.map fun y => y.toOption.getD []) hMap
    rw [List.map_map, List.map_map] at hToOption
    rw [List.flatMap_def, ← List.map_id ys]
    exact congrArg List.flatten hToOption.symm

theorem join_eq_empty_iff {texts : List String} :
    String.join texts = "" ↔ ∀ text ∈ texts, text = "" := by
  induction texts with
  | nil => simp
  | cons text rest ih => simp [ih]

/-- Lines are longer than the texts alone. -/
theorem length_lines (first second : String) (rest : List String) :
    (String.join (first :: second :: rest)).length <
      ("\n".intercalate (first :: second :: rest)).length := by
  induction rest generalizing first second with
  | nil =>
    rw [String.intercalate_cons_cons, String.intercalate_singleton]
    have hLine : ("\n" : String).length = 1 := rfl
    simp only [String.join_cons, String.join_nil, String.length_append, hLine, String.length_empty]
    omega
  | cons third rest ih =>
    have hRest := ih second third
    rw [String.intercalate_cons_cons]
    simp only [String.join_cons, String.length_append] at hRest ⊢
    omega

/-- The parts are one line: none, or a single text. -/
def OneLine (parts : List String) : Prop := parts = [] ∨ ∃ text, text ≠ "" ∧ parts = [text]

/-- The texts alone are the lines exactly if there is one line. -/
theorem reasoning_eq_iff (parts : BlockParts) (s : StreamTexts)
    (h : s.fullReasoning = String.join parts.reasoningParts) :
    s.reasoning = parts.reasoning ↔ OneLine parts.reasoningParts := by
  unfold StreamTexts.reasoning BlockParts.reasoning
  rw [h]
  cases hParts : parts.reasoningParts with
  | nil => simp [OneLine]
  | cons first rest =>
    cases rest with
    | nil =>
      by_cases hEmpty : first = "" <;> simp [OneLine, hEmpty]
    | cons second rest =>
      have hLonger := length_lines first second rest
      have hNe : String.join (first :: second :: rest) ≠
          "\n".intercalate (first :: second :: rest) := by
        intro hEq
        rw [hEq] at hLonger
        exact Nat.lt_irrefl _ hLonger
      have hNot : ¬OneLine (first :: second :: rest) := by
        rintro (hNil | ⟨text, _, hOne⟩)
        · cases hNil
        · cases hOne
      simp only [hNot, iff_false]
      rw [if_neg (List.cons_ne_nil _ _)]
      split
      · simp
      · simpa using hNe

/-! ## The pushes of a stream -/

namespace StreamTexts

theorem pushText_pushText (s : StreamTexts) (first second : String) :
    (s.pushText first).pushText second = s.pushText (first ++ second) := by
  by_cases hFirst : first = ""
  · simp [pushText, hFirst]
  · by_cases hSecond : second = "" <;> simp [pushText, hFirst, hSecond, String.append_assoc]

theorem pushReasoning_pushReasoning (s : StreamTexts) (first second : String) :
    (s.pushReasoning first).pushReasoning second = s.pushReasoning (first ++ second) := by
  by_cases hFirst : first = ""
  · simp [pushReasoning, hFirst]
  · by_cases hSecond : second = "" <;> simp [pushReasoning, hFirst, hSecond, String.append_assoc]

@[simp] theorem pushText_fullText (s : StreamTexts) (text : String) :
    (s.pushText text).fullText = s.fullText ++ text := by
  by_cases hText : text = "" <;> simp [pushText, hText]

@[simp] theorem pushText_fullReasoning (s : StreamTexts) (text : String) :
    (s.pushText text).fullReasoning = s.fullReasoning := by
  unfold pushText
  split <;> rfl

@[simp] theorem pushReasoning_fullText (s : StreamTexts) (text : String) :
    (s.pushReasoning text).fullText = s.fullText := by
  unfold pushReasoning
  split <;> rfl

@[simp] theorem pushReasoning_fullReasoning (s : StreamTexts) (text : String) :
    (s.pushReasoning text).fullReasoning = s.fullReasoning ++ text := by
  by_cases hText : text = "" <;> simp [pushReasoning, hText]

/-- There is output exactly if there is a call or some text. -/
def Tracks (s : StreamTexts) (called : Prop) : Prop :=
  s.hasAnyOutput = true ↔ called ∨ s.fullText ≠ "" ∨ s.fullReasoning ≠ ""

theorem Tracks.pushText {s : StreamTexts} {called : Prop} (h : s.Tracks called) (text : String) :
    (s.pushText text).Tracks called := by
  unfold Tracks at h ⊢
  by_cases hText : text = ""
  · simpa [StreamTexts.pushText, hText] using h
  · simp [StreamTexts.pushText, hText]

theorem Tracks.pushReasoning {s : StreamTexts} {called : Prop} (h : s.Tracks called)
    (text : String) : (s.pushReasoning text).Tracks called := by
  unfold Tracks at h ⊢
  by_cases hText : text = ""
  · simpa [StreamTexts.pushReasoning, hText] using h
  · simp [StreamTexts.pushReasoning, hText]

end StreamTexts

/-! ## The endings -/

section Endings

variable {parts : BlockParts} {s : StreamTexts} {calls : List ChatToolCall} {isEmpty : Bool}
  {usage : Option TokenUsage} {artifact : Option ReasoningArtifact}
  {sameCall : ChatToolCall → ChatToolCall → Prop}

/-- A tool-call turn is not text beside blank text blocks. -/
def BlockParts.ContentKept (parts : BlockParts) : Prop :=
  parts.toolCalls ≠ [] → parts.textParts = [] ∨ String.join parts.textParts ≠ ""

/-- The two turns are the same exactly if the calls are, the text of a tool-call
turn is not blank, and both call a turn without text empty. -/
theorem sameTurn_iff (hText : s.fullText = String.join parts.textParts)
    (hOutput : s.Tracks (calls ≠ [])) (hCalls : calls = [] ↔ parts.toolCalls = [])
    (hEmpty : isEmpty = true → s.fullText = "") :
    SameTurn sameCall (s.toTurnResult isEmpty calls usage artifact)
        (parts.toTurnResult usage artifact) ↔
      List.Forall₂ sameCall calls parts.toolCalls ∧ parts.ContentKept ∧
        (calls = [] → s.hasAnyOutput = true → s.fullText = "" → isEmpty = true) := by
  unfold StreamTexts.toTurnResult BlockParts.toTurnResult BlockParts.ContentKept
  by_cases hNil : calls = []
  · have hParts := hCalls.mp hNil
    subst hNil
    rw [hParts]
    by_cases hAny : s.hasAnyOutput = true
    · cases hIs : isEmpty with
      | true => simp [hAny, SameTurn, ← hText, hEmpty hIs]
      | false => by_cases hBlank : s.fullText = "" <;> simp [hAny, SameTurn, ← hText, hBlank]
    · have hBlank : s.fullText = "" := by
        by_contra hNot
        exact hAny (hOutput.mpr (Or.inr (Or.inl hNot)))
      simp [hAny, SameTurn, ← hText, hBlank]
  · have hAny : s.hasAnyOutput = true := hOutput.mpr (Or.inl hNil)
    have hParts : parts.toolCalls ≠ [] := fun h => hNil (hCalls.mpr h)
    have hContent : ((if s.fullText = "" then none else some s.fullText) =
        if parts.textParts = [] then none else some (String.join parts.textParts)) ↔
        parts.textParts = [] ∨ String.join parts.textParts ≠ "" := by
      rw [hText]
      by_cases hTexts : parts.textParts = []
      · simp [hTexts]
      · by_cases hBlank : String.join parts.textParts = "" <;> simp [hTexts, hBlank]
    simp only [hAny, hNil, hParts, ne_eq, not_false_eq_true, Bool.not_true, dif_pos, SameTurn,
      forall_const, IsEmpty.forall_iff, and_true]
    simp [hContent, and_comm]

theorem stream_reasoning {result : ChatTurnResult}
    (h : s.toTurnResult isEmpty calls usage artifact = .ok result) :
    result.reasoning = s.reasoning := by
  unfold StreamTexts.toTurnResult at h
  split at h
  · cases h
  · split at h
    · cases h
      rfl
    · split at h
      · cases h
      · cases h
        rfl

theorem whole_reasoning {result : ChatTurnResult}
    (h : parts.toTurnResult usage artifact = .ok result) : result.reasoning = parts.reasoning := by
  unfold BlockParts.toTurnResult at h
  split at h
  · cases h
    rfl
  · dsimp only at h
    split at h
    · cases h
    · cases h
      rfl

theorem whole_eq_error_iff :
    (∃ err, parts.toTurnResult usage artifact = .error err) ↔
      parts.toolCalls = [] ∧ String.join parts.textParts = "" := by
  unfold BlockParts.toTurnResult
  by_cases hCalls : parts.toolCalls = []
  · by_cases hBlank : String.join parts.textParts = "" <;> simp [hCalls, hBlank]
  · simp [hCalls]

/-- Two turns that are the same show the same reasoning exactly if it is one line,
or the turn is an error. -/
theorem sameReasoning_iff (hReasoning : s.fullReasoning = String.join parts.reasoningParts)
    (hSame : SameTurn sameCall (s.toTurnResult isEmpty calls usage artifact)
      (parts.toTurnResult usage artifact)) :
    SameReasoning (s.toTurnResult isEmpty calls usage artifact)
        (parts.toTurnResult usage artifact) ↔
      (parts.toolCalls = [] ∧ String.join parts.textParts = "") ∨
        OneLine parts.reasoningParts := by
  rw [← reasoning_eq_iff parts s hReasoning, ← @whole_eq_error_iff parts usage artifact]
  unfold SameReasoning
  cases hStream : s.toTurnResult isEmpty calls usage artifact with
  | error err =>
    rw [hStream] at hSame
    cases hWhole : parts.toTurnResult usage artifact with
    | error err' =>
      rw [hWhole] at hSame
      have hErr : err = err' := hSame
      simp [Except.map, hErr]
    | ok result =>
      rw [hWhole] at hSame
      exact hSame.elim
  | ok result =>
    rw [hStream] at hSame
    cases hWhole : parts.toTurnResult usage artifact with
    | error err' =>
      rw [hWhole] at hSame
      cases result <;> exact hSame.elim
    | ok result' =>
      simp [Except.map, stream_reasoning hStream, whole_reasoning hWhole]

end Endings

end Choreographr.Protocols
