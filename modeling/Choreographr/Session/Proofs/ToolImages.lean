import Choreographr.Session.ToolWait
import Choreographr.Session.Proofs.Runs

/-!
# The images a tool displays

The wait takes one image off the channel, the first that was sent before it looked
(`image_eq`). So the turn gets every image of an execution exactly when there is at
most one and it came before the look, on either path and however the wait ended.
-/

namespace Choreographr.Session

open Lib

/-! ## The images of a schedule -/

/-- The images sent by some actions, in their order. -/
def sentImages (actions : List WaitAction) : List PreparedImage :=
  actions.filterMap fun action =>
    match action with
    | .emitImage image => some image
    | _ => none

/-- The actions before the wait looks at the image channel. -/
def beforeLook (actions : List WaitAction) : List WaitAction :=
  actions.takeWhile (· ≠ .drainImage)

/-- The actions before the handle is handed over. -/
def beforeHandOver (actions : List WaitAction) : List WaitAction :=
  actions.takeWhile (· ≠ .handOver)

namespace ToolExecution

variable {x x' : ToolExecution} {action : WaitAction} {handles : List WaitHandle}

/-- What one step does to the wait: it hands a handle over, looks at the images, or
leaves both to later. -/
theorem step_cases (h : x.step action = some (x', handles)) :
    (∃ outcome image, action = .handOver ∧ x.phase = .drained outcome image ∧
      x'.phase = .over ∧ handles = [⟨outcome, image⟩]) ∨
    (∃ outcome, action = .drainImage ∧ x.phase = .woken outcome ∧
      x'.phase = .drained outcome x.images.head? ∧ handles = []) ∨
    (action ≠ .handOver ∧ action ≠ .drainImage ∧ handles = [] ∧
      (x'.phase = x.phase ∨ x.phase = .waiting ∧ ∃ outcome, x'.phase = .woken outcome) ∧
      (x.phase ≠ .over → x'.images = x.images ++ sentImages [action])) := by
  cases action with
  | emitImage image =>
    refine Or.inr (Or.inr ⟨by simp, by simp, ?_⟩)
    simp only [step] at h
    split at h
    · cases h
    · split at h
      · rename_i hOver
        cases h
        exact ⟨rfl, Or.inl rfl, fun hNot => absurd hOver hNot⟩
      · cases h
        exact ⟨rfl, Or.inl rfl, fun _ => rfl⟩
  | finish result =>
    refine Or.inr (Or.inr ⟨by simp, by simp, ?_⟩)
    simp only [step] at h
    split at h
    · cases h
      exact ⟨rfl, Or.inl rfl, fun _ => by simp [sentImages]⟩
    · cases h
  | die =>
    refine Or.inr (Or.inr ⟨by simp, by simp, ?_⟩)
    simp only [step] at h
    split at h
    · cases h
      exact ⟨rfl, Or.inl rfl, fun _ => by simp [sentImages]⟩
    · cases h
  | stop =>
    cases h
    exact Or.inr (Or.inr ⟨by simp, by simp, rfl, Or.inl rfl, fun _ => by simp [sentImages]⟩)
  | expire =>
    cases h
    exact Or.inr (Or.inr ⟨by simp, by simp, rfl, Or.inl rfl, fun _ => by simp [sentImages]⟩)
  | wake arm =>
    refine Or.inr (Or.inr ⟨by simp, by simp, ?_⟩)
    simp only [step] at h
    split at h
    · rename_i hPhase
      obtain ⟨outcome, -, hEq⟩ := Option.map_eq_some_iff.mp h
      cases hEq
      exact ⟨rfl, Or.inr ⟨hPhase, outcome, rfl⟩, fun _ => by simp [sentImages]⟩
    · cases h
  | drainImage =>
    simp only [step] at h
    split at h
    · rename_i outcome hPhase
      cases h
      exact Or.inr (Or.inl ⟨outcome, rfl, hPhase, rfl, rfl⟩)
    · cases h
  | handOver =>
    simp only [step] at h
    split at h
    · rename_i outcome image hPhase
      cases h
      exact Or.inl ⟨outcome, image, rfl, hPhase, rfl, rfl⟩
    · cases h

end ToolExecution

/-! ## The image of a handle -/

/-- After the handover nothing is handed over. -/
theorem handles_of_over {x x' : ToolExecution} {actions : List WaitAction}
    {handles : List WaitHandle} (hPhase : x.phase = .over)
    (h : toolWait.exec x actions = some (x', handles)) : handles = [] := by
  induction actions generalizing x handles with
  | nil =>
    cases h
    rfl
  | cons action rest ih =>
    obtain ⟨y, first, later, hStep, hRest, rfl⟩ := Machine.exec_cons_eq_some.mp h
    rcases ToolExecution.step_cases hStep with ⟨_, _, -, hBefore, -⟩ | ⟨_, -, hBefore, -⟩ |
      ⟨-, -, rfl, hKeeps, -⟩
    · rw [hPhase] at hBefore
      cases hBefore
    · rw [hPhase] at hBefore
      cases hBefore
    · rcases hKeeps with hSame | ⟨hBefore, -⟩
      · exact ih (hSame.trans hPhase) hRest
      · rw [hPhase] at hBefore
        cases hBefore

/-- Once the wait has looked, its handle is settled, and the handover is still to come. -/
theorem handle_of_drained {x x' : ToolExecution} {actions : List WaitAction} {handle : WaitHandle}
    {outcome : ToolOutcome} {image : Option PreparedImage} (hPhase : x.phase = .drained outcome image)
    (h : toolWait.exec x actions = some (x', [handle])) :
    handle = ⟨outcome, image⟩ ∧ ∃ window after, actions = window ++ WaitAction.handOver :: after ∧
      ∀ action ∈ window, action ≠ WaitAction.handOver := by
  induction actions generalizing x with
  | nil => cases h
  | cons action rest ih =>
    obtain ⟨y, first, later, hStep, hRest, hHandles⟩ := Machine.exec_cons_eq_some.mp h
    rcases ToolExecution.step_cases hStep with ⟨outcome', image', rfl, hBefore, hOver, rfl⟩ |
      ⟨_, -, hBefore, -⟩ | ⟨hNot, -, rfl, hKeeps, -⟩
    · rw [hPhase] at hBefore
      cases hBefore
      have hNone := handles_of_over hOver hRest
      rw [hNone] at hHandles
      cases hHandles
      exact ⟨rfl, [], rest, rfl, by simp⟩
    · rw [hPhase] at hBefore
      cases hBefore
    · have hSame : y.phase = x.phase := by
        rcases hKeeps with hSame | ⟨hBefore, -⟩
        · exact hSame
        · rw [hPhase] at hBefore
          cases hBefore
      rw [List.nil_append] at hHandles
      obtain ⟨hHandle, window, after, rfl, hWindow⟩ := ih (hSame.trans hPhase) (hHandles ▸ hRest)
      refine ⟨hHandle, action :: window, after, rfl, ?_⟩
      intro a ha
      rcases List.mem_cons.mp ha with rfl | ha
      · exact hNot
      · exact hWindow a ha

/-- The wait has not looked at the images yet. -/
def ToolExecution.Listening (x : ToolExecution) : Prop :=
  x.phase = .waiting ∨ ∃ outcome, x.phase = .woken outcome

/-- A handle carries the first image that was sent before the wait looked. -/
theorem image_of_listening {x x' : ToolExecution} {actions : List WaitAction} {handle : WaitHandle}
    (hPhase : x.Listening) (h : toolWait.exec x actions = some (x', [handle])) :
    ∃ before window after, actions = before ++ WaitAction.drainImage :: (window ++ WaitAction.handOver :: after) ∧
      (∀ action ∈ before, action ≠ WaitAction.drainImage ∧ action ≠ WaitAction.handOver) ∧
      (∀ action ∈ window, action ≠ WaitAction.handOver) ∧
      handle.image = (x.images ++ sentImages before).head? := by
  induction actions generalizing x with
  | nil => cases h
  | cons action rest ih =>
    obtain ⟨y, first, later, hStep, hRest, hHandles⟩ := Machine.exec_cons_eq_some.mp h
    rcases ToolExecution.step_cases hStep with ⟨_, _, -, hBefore, -⟩ |
      ⟨outcome, rfl, -, hDrained, rfl⟩ | ⟨hNotOver, hNotLook, rfl, hKeeps, hImages⟩
    · rcases hPhase with hWaiting | ⟨outcome, hWoken⟩
      · rw [hWaiting] at hBefore
        cases hBefore
      · rw [hWoken] at hBefore
        cases hBefore
    · rw [List.nil_append] at hHandles
      obtain ⟨hHandle, window, after, rfl, hWindow⟩ := handle_of_drained hDrained (hHandles ▸ hRest)
      refine ⟨[], window, after, rfl, by simp, hWindow, ?_⟩
      simp [hHandle, sentImages]
    · have hListening : y.Listening := by
        rcases hKeeps with hSame | ⟨-, hWoken⟩
        · rw [ToolExecution.Listening, hSame]
          exact hPhase
        · exact Or.inr hWoken
      have hOpen : x.phase ≠ .over := by
        rcases hPhase with hWaiting | ⟨outcome, hWoken⟩
        · rw [hWaiting]
          exact fun hEq => by cases hEq
        · rw [hWoken]
          exact fun hEq => by cases hEq
      rw [List.nil_append] at hHandles
      obtain ⟨before, window, after, rfl, hBefore, hWindow, hImage⟩ :=
        ih hListening (hHandles ▸ hRest)
      refine ⟨action :: before, window, after, rfl, ?_, hWindow, ?_⟩
      · intro a ha
        rcases List.mem_cons.mp ha with rfl | ha
        · exact ⟨hNotLook, hNotOver⟩
        · exact hBefore a ha
      · have hCons : sentImages (action :: before) = sentImages [action] ++ sentImages before :=
          List.filterMap_append (l := [action])
        rw [hImage, hImages hOpen, hCons, List.append_assoc]

namespace FinishedTool

/-- The images of an execution before its result is handed over. -/
def emitted (f : FinishedTool) : List PreparedImage := sentImages (beforeHandOver f.actions)

/-- At most one image is sent before the result is handed over, and none after the wait
has looked at the image channel. -/
structure OneImage (f : FinishedTool) : Prop where
  few : f.emitted.length ≤ 1
  early : f.emitted = sentImages (beforeLook f.actions)

/-- What is sent before the look is the start of what is emitted, and the handle carries
the first image of it. -/
theorem image_eq (f : FinishedTool) :
    f.handle.image = (sentImages (beforeLook f.actions)).head? ∧
      sentImages (beforeLook f.actions) <+: f.emitted := by
  obtain ⟨before, window, after, hActions, hBefore, hWindow, hImage⟩ :=
    image_of_listening (Or.inl rfl) f.run
  have hLook : beforeLook f.actions = before := by
    rw [beforeLook, hActions, List.takeWhile_append_of_pos (by simpa using fun a ha =>
      (hBefore a ha).1)]
    simp
  have hOver : beforeHandOver f.actions = before ++ .drainImage :: window := by
    have hFront : ∀ a ∈ before ++ .drainImage :: window, a ≠ .handOver := by
      intro a ha
      rcases List.mem_append.mp ha with hMem | hMem
      · exact (hBefore a hMem).2
      · rcases List.mem_cons.mp hMem with rfl | hMem
        · exact fun hEq => by cases hEq
        · exact hWindow a hMem
    have hSplit : f.actions = (before ++ .drainImage :: window) ++ .handOver :: after := by
      rw [hActions, List.append_assoc]
      rfl
    rw [beforeHandOver, hSplit, List.takeWhile_append_of_pos (by simpa using hFront)]
    simp
  refine ⟨by rw [hLook, hImage, List.nil_append], ?_⟩
  rw [emitted, hLook, hOver, sentImages, sentImages, List.filterMap_append]
  exact List.prefix_append _ _

/-- The record of an image that the call displayed. -/
def record (f : FinishedTool) (image : PreparedImage) : DisplayedImageRecord :=
  { metadata :=
      { mimeType := image.mimeType, width := image.width, height := image.height
        byteLen := image.data.length, alt := image.alt }
    data := image.data
    toolCallId := some f.call.call.id }

theorem displayedImage_completion (f : FinishedTool) :
    f.completion.displayedImage.toList =
      ((sentImages (beforeLook f.actions)).take 1).map f.record := by
  have hImage : f.completion.displayedImage = f.handle.image.map f.record := rfl
  rw [hImage, f.image_eq.1]
  cases sentImages (beforeLook f.actions) <;> rfl

/-- An execution's images are recorded exactly when there is at most one, sent before the
wait looked. -/
theorem oneImage_iff (f : FinishedTool) :
    f.OneImage ↔ f.completion.displayedImage.toList.length = (f.emitted.map f.record).length := by
  obtain ⟨-, rest, hRest⟩ := f.image_eq
  have hLength := congrArg List.length hRest
  rw [List.length_append] at hLength
  rw [displayedImage_completion, List.length_map, List.length_map, List.length_take]
  constructor
  · rintro ⟨hFew, hEarly⟩
    rw [← hEarly]
    omega
  · intro hSame
    have hNone : rest = [] := List.length_eq_zero_iff.mp (by omega)
    refine ⟨by omega, ?_⟩
    rw [← hRest, hNone, List.append_nil]

end FinishedTool

/-! ## The turn -/

theorem displayedImages_recordToolCompletion (env : Env) (t : Turn) (c : Completion) :
    (t.recordToolCompletion env c).displayedImages =
      t.displayedImages ++ c.displayedImage.toList := by
  unfold Turn.recordToolCompletion
  cases c.displayedImage with
  | none => simp [Turn.updateToolResult]
  | some image => simp [Turn.updateToolResult, Turn.addDisplayedImage]

theorem displayedImages_recordFinished (env : Env) (t : Turn) (finished : List FinishedTool) :
    (t.recordFinished env finished).displayedImages =
      t.displayedImages ++ finished.flatMap fun f => f.completion.displayedImage.toList := by
  induction finished generalizing t with
  | nil => simp [Turn.recordFinished]
  | cons f rest ih =>
    have hCons : t.recordFinished env (f :: rest) =
        (t.recordToolCompletion env f.completion).recordFinished env rest := rfl
    rw [hCons, ih, displayedImages_recordToolCompletion, List.flatMap_cons, List.append_assoc]

/-- Parts that are no longer than the others, and as long in sum, are each as long. -/
theorem length_eq_of_flatMap_eq {α β : Type} {xs : List α} {f g : α → List β}
    (hLe : ∀ x ∈ xs, (f x).length ≤ (g x).length) (h : xs.flatMap f = xs.flatMap g) :
    ∀ x ∈ xs, (f x).length = (g x).length := by
  have hSum : ∀ {ys : List α}, (∀ y ∈ ys, (f y).length ≤ (g y).length) →
      (ys.flatMap f).length ≤ (ys.flatMap g).length := by
    intro ys hYs
    induction ys with
    | nil => exact Nat.le_refl _
    | cons y rest ih =>
      have hHead := hYs y List.mem_cons_self
      have hRest := ih fun z hz => hYs z (List.mem_cons_of_mem _ hz)
      simp only [List.flatMap_cons, List.length_append]
      omega
  intro x hx
  obtain ⟨front, back, rfl⟩ := List.append_of_mem hx
  have hLength := congrArg List.length h
  have hFront := hSum fun y hy => hLe y (List.mem_append_left _ hy)
  have hBack := hSum fun y hy => hLe y (List.mem_append_right _ (List.mem_cons_of_mem _ hy))
  have hHere := hLe x hx
  simp only [List.flatMap_append, List.flatMap_cons, List.length_append] at hLength
  omega

/-- Exactly then does the turn get every image that its tools emitted before their
results were handed over, in the order of emission: when every execution sent at most
one, before its wait looked. -/
theorem images_recorded_iff (env : Env) (t : Turn) (finished : List FinishedTool) :
    (t.recordFinished env finished).displayedImages =
        (t.displayedImages ++ finished.flatMap fun f => f.emitted.map f.record) ↔
      ∀ f ∈ finished, f.OneImage := by
  rw [displayedImages_recordFinished, List.append_cancel_left_eq]
  constructor
  · intro hAll f hf
    refine f.oneImage_iff.mpr (length_eq_of_flatMap_eq (fun f _ => ?_) hAll f hf)
    obtain ⟨-, hBefore⟩ := f.image_eq
    rw [f.displayedImage_completion, List.length_map, List.length_map, List.length_take]
    exact (Nat.min_le_right _ _).trans hBefore.length_le
  · intro hOne
    refine List.flatMap_congr fun f hf => ?_
    obtain ⟨hFew, hEarly⟩ := hOne f hf
    rw [f.displayedImage_completion, ← hEarly, List.take_of_length_le hFew]

/-! ## Two images -/

def firstImage : PreparedImage := ⟨"image/png", 1, 1, none, [1]⟩
def secondImage : PreparedImage := ⟨"image/png", 1, 1, none, [2]⟩

/-- A tool whose result carries two images. -/
def twoImageActions : List WaitAction :=
  [.emitImage firstImage, .emitImage secondImage, .finish (.success { content := "done" }),
    .wake .result, .drainImage, .handOver]

def twoImageTool (path : WaitPath) : FinishedTool where
  call := ⟨0, { id := "call1", name := "chart", argumentsJson := "\x7b\x7d" }, "chart"⟩
  path := path
  timeout := some 60
  actions := twoImageActions
  state :=
    { path := path, timeout := some 60, images := [secondImage]
      result := .queued (.success { content := "done" }), phase := .over }
  handle := ⟨.finished { content := "done" }, some firstImage⟩
  run := rfl

/-- The second image is lost, on either path. -/
theorem second_image_lost :
    ((twoImageTool .serial).emitted = [firstImage, secondImage] ∧
      (({} : Turn).recordFinished sampleEnv [twoImageTool .serial]).displayedImages =
        [(twoImageTool .serial).record firstImage]) ∧
    (twoImageTool .concurrent).emitted = [firstImage, secondImage] ∧
      (({} : Turn).recordFinished sampleEnv [twoImageTool .concurrent]).displayedImages =
        [(twoImageTool .concurrent).record firstImage] := by
  refine ⟨⟨rfl, ?_⟩, rfl, ?_⟩
  · rw [displayedImages_recordFinished]
    rfl
  · rw [displayedImages_recordFinished]
    rfl

end Choreographr.Session
