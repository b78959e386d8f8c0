import Choreographr.Tools.Grep.Output
import Choreographr.Tools.Grep.Walk

/-!
# One searched file

What the sink has of a file when the searcher is through with it, for each output mode. In content
mode this is said of the callbacks that were delivered; the other modes look at few of them.
-/

namespace Choreographr.Tools.Grep

open Lib Session

variable {u : UnicodeTables} {Path Matcher : Type} [DecidableEq Path] {s s' : GrepSink Path}

theorem deliver_eq (s : GrepSink Path) (calls : List SinkCall) :
    ∃ done, done <+: calls ∧ (deliver u s calls).1 = callAll u s done ∧
      ((deliver u s calls).2 = true → done = calls) := by
  induction calls generalizing s with
  | nil => exact ⟨[], List.prefix_refl [], rfl, fun _ => rfl⟩
  | cons call rest ih =>
    obtain ⟨done, hPrefix, hDone, hAll⟩ := ih (s.answer u call).1
    unfold deliver
    dsimp only
    split
    · refine ⟨call :: done, (List.prefix_cons_inj call).mpr hPrefix, hDone, fun hRan => ?_⟩
      rw [hAll hRan]
    · exact ⟨[call], (List.prefix_cons_inj call).mpr List.nil_prefix, rfl,
        fun hRan => absurd hRan Bool.false_ne_true⟩

/-! ## Content mode -/

namespace GrepSink

theorem Effect.stop_ne_none {call : SinkCall} (h : Effect u s call s') (hStop : s.stop ≠ none) :
    s'.stop ≠ none := by
  cases h with
  | quiet hSame =>
    rcases hSame with rfl | rfl
    · exact hStop
    · exact fun hNone => by cases hNone
  | line => exact hStop
  | hit hNone => exact absurd hNone hStop

/-- A sink that is stopped by the cap has reached it. -/
def CapReached (s : GrepSink Path) : Prop :=
  s.stop = some .cap → s.maxResults ≤ s.contentMatchCount

theorem Effect.capReached {call : SinkCall} (h : Effect u s call s') (hCap : s.CapReached) :
    s'.CapReached := by
  cases h with
  | quiet hSame =>
    rcases hSame with rfl | rfl
    · exact hCap
    · exact fun hStop => by cases hStop
  | line => exact hCap
  | hit =>
    intro hStop
    by_contra hFew
    have hBelow : ¬ s.maxResults ≤ s.contentMatchCount + 1 := hFew
    dsimp only at hStop
    rw [if_neg hBelow] at hStop
    cases hStop

/-- Until the sink stops, the searcher goes on and every match is counted. -/
theorem answer_goesOn (hMode : s.outputMode = .content) (hNone : s.stop = none) {call : SinkCall}
    (hCall : call.isBinary = false) (hNext : (s.answer u call).1.stop = none) :
    (s.answer u call).2 = true ∧
      s.contentMatchCount + (if call.isMatched then 1 else 0) ≤
        (s.answer u call).1.contentMatchCount := by
  have hNotCap : s.stop ≠ some .cap := by
    rw [hNone]
    exact fun h => by cases h
  have hNotSome : ¬ s.stop.isSome = true := by
    rw [hNone]
    exact Bool.false_ne_true
  have hContent : ¬ s.outputMode ≠ .content := not_not.mpr hMode
  cases call with
  | matched lineNumber bytes =>
    revert hNext
    rw [answer, matched, if_neg hNotCap, if_neg hNotSome]
    simp only [hMode]
    rcases s.offerLine_cases (u := u) (lineNumber.getD 0) (prepareLine (lossyWindow bytes)).1
      (.inl rfl) with hFull | ⟨files, hFiles, hFits, hOffer⟩
    · intro hNext
      simp only [hFull, Bool.false_eq_true, if_false] at hNext
      cases hNext
    · by_cases hMax : s.maxResults ≤ s.contentMatchCount + 1
      · intro hNext
        simp only [hOffer, if_true, grown, hMax] at hNext
        cases hNext
      · intro _
        simp only [hOffer, if_true, grown, hMax, if_false]
        exact ⟨trivial, Nat.le_refl _⟩
  | context kind lineNumber bytes =>
    revert hNext
    rw [answer, context, if_neg hContent, if_neg hNotCap, if_neg hNotSome]
    rcases s.offerLine_cases (u := u) (lineNumber.getD 0) (prepareLine (lossyWindow bytes)).1
      (.inr rfl) with hFull | ⟨files, hFiles, hFits, hOffer⟩
    · intro hNext
      rw [hFull] at hNext
      cases hNext
    · rw [hOffer]
      exact fun _ => ⟨rfl, Nat.le_refl _⟩
  | contextBreak =>
    revert hNext
    rw [answer, contextBreak, if_neg hContent, if_neg hNotSome]
    rcases s.pushItem_cases .breakItem with hFull | ⟨-, hSame⟩ | ⟨files, hFiles, hFits, hPush⟩
    · intro hNext
      rw [hFull] at hNext
      cases hNext
    · rw [hSame]
      exact fun _ => ⟨rfl, Nat.le_refl _⟩
    · rw [hPush]
      exact fun _ => ⟨rfl, Nat.le_refl _⟩
  | binaryData offset => cases hCall

end GrepSink

theorem callAll_stop_ne_none (hMode : s.outputMode = .content) (hStop : s.stop ≠ none)
    (calls : List SinkCall) : (callAll u s calls).stop ≠ none := by
  induction calls generalizing s with
  | nil => exact hStop
  | cons call rest ih =>
    have hEffect := GrepSink.answer_effect (u := u) hMode call
    exact ih (hEffect.sameSetup.outputMode.trans hMode) (hEffect.stop_ne_none hStop)

theorem callAll_capReached (hMode : s.outputMode = .content) (hCap : s.CapReached)
    (calls : List SinkCall) : (callAll u s calls).CapReached := by
  induction calls generalizing s with
  | nil => exact hCap
  | cons call rest ih =>
    have hEffect := GrepSink.answer_effect (u := u) hMode call
    exact ih (hEffect.sameSetup.outputMode.trans hMode) (hEffect.capReached hCap)

theorem callAll_fileAborted (hMode : s.outputMode = .content) (calls : List SinkCall) :
    (callAll u s calls).fileAborted = (s.fileAborted || calls.any SinkCall.isBinary) := by
  induction calls generalizing s with
  | nil => exact (Bool.or_false _).symm
  | cons call rest ih =>
    have hEffect := GrepSink.answer_effect (u := u) hMode call
    have hRest := ih (hEffect.sameSetup.outputMode.trans hMode)
    rw [hEffect.fileAborted, Bool.or_assoc, ← List.any_cons] at hRest
    exact hRest

/-- In a file that is not cut short, every match is counted, unless the sink stops. -/
theorem deliver_content (hMode : s.outputMode = .content) (hNone : s.stop = none)
    {calls : List SinkCall} (hCalls : calls.any SinkCall.isBinary = false)
    (hEnd : (deliver u s calls).1.stop = none) :
    (deliver u s calls).2 = true ∧
      s.contentMatchCount + calls.countP SinkCall.isMatched ≤
        (deliver u s calls).1.contentMatchCount := by
  induction calls generalizing s with
  | nil => exact ⟨rfl, Nat.le_refl _⟩
  | cons call rest ih =>
    rw [List.any_cons, Bool.or_eq_false_iff] at hCalls
    have hEffect := GrepSink.answer_effect (u := u) hMode call
    have hNextMode := hEffect.sameSetup.outputMode.trans hMode
    have hNext : (s.answer u call).1.stop = none := by
      by_contra hStop
      unfold deliver at hEnd
      dsimp only at hEnd
      split at hEnd
      · obtain ⟨done, -, hDone, -⟩ := deliver_eq (u := u) (s.answer u call).1 rest
        rw [hDone] at hEnd
        exact callAll_stop_ne_none hNextMode hStop done hEnd
      · exact hStop hEnd
    obtain ⟨hGoesOn, hCount⟩ := GrepSink.answer_goesOn (u := u) hMode hNone hCalls.1 hNext
    unfold deliver at hEnd ⊢
    dsimp only at hEnd ⊢
    rw [if_pos hGoesOn] at hEnd ⊢
    obtain ⟨hRan, hRest⟩ := ih hNextMode hNext hCalls.2 hEnd
    refine ⟨hRan, Nat.le_trans ?_ hRest⟩
    rw [List.countP_cons]
    omega

/-! ## The other modes -/

/-- A match comes before anything binary. -/
def firstIsMatch : List SinkCall → Bool
  | [] => false
  | .matched _ _ :: _ => true
  | .binaryData _ :: _ => false
  | .context _ _ _ :: rest => firstIsMatch rest
  | .contextBreak :: rest => firstIsMatch rest

theorem firstIsMatch_of_text {calls : List SinkCall} (hText : calls.any SinkCall.isBinary = false) :
    firstIsMatch calls = calls.any SinkCall.isMatched := by
  induction calls with
  | nil => rfl
  | cons call rest ih =>
    rw [List.any_cons, Bool.or_eq_false_iff] at hText
    cases call with
    | matched lineNumber bytes => rfl
    | context kind lineNumber bytes => exact ih hText.2
    | contextBreak => exact ih hText.2
    | binaryData offset => cases hText.1

/-- Of a file, the first match is asked for. -/
theorem deliver_files (hMode : s.outputMode = .filesWithMatches) (hNone : s.stop = none)
    (calls : List SinkCall) :
    deliver u s calls =
      if firstIsMatch calls then
        ({ s with
          matchedFiles := s.matchedFiles ++ [s.currentPath]
          stop := if s.maxResults ≤ (s.matchedFiles ++ [s.currentPath]).length then some .cap
            else s.stop }, false)
      else if calls.any SinkCall.isBinary then (s.abortFile, false)
      else (s, true) := by
  have hNotContent : s.outputMode ≠ .content := by
    rw [hMode]
    exact fun h => by cases h
  induction calls with
  | nil => rfl
  | cons call rest ih =>
    unfold deliver
    cases call with
    | matched lineNumber bytes =>
      simp only [GrepSink.answer, GrepSink.matched, hNone, hMode, firstIsMatch, reduceCtorEq,
        if_false, if_true, Option.isSome_none, Bool.false_eq_true]
    | context kind lineNumber bytes =>
      rw [GrepSink.answer, GrepSink.context, if_pos hNotContent]
      exact ih
    | contextBreak =>
      rw [GrepSink.answer, GrepSink.contextBreak, if_pos hNotContent]
      exact ih
    | binaryData offset => rfl

/-- Matching lines are counted until the file turns out to be binary. -/
theorem deliver_count (hMode : s.outputMode = .count) (hNone : s.stop = none)
    (calls : List SinkCall) : ∃ lines,
      deliver u s calls = ({ s with
        countFileLines := lines
        fileAborted := s.fileAborted || calls.any SinkCall.isBinary },
          !calls.any SinkCall.isBinary) ∧
      (calls.any SinkCall.isBinary = false →
        lines = s.countFileLines + calls.countP SinkCall.isMatched) := by
  have hNotContent : s.outputMode ≠ .content := by
    rw [hMode]
    exact fun h => by cases h
  induction calls generalizing s with
  | nil => exact ⟨s.countFileLines, by simp [deliver], fun _ => rfl⟩
  | cons call rest ih =>
    unfold deliver
    cases call with
    | matched lineNumber bytes =>
      obtain ⟨lines, hDeliver, hLines⟩ :=
        ih (s := { s with countFileLines := s.countFileLines + 1 }) hMode hNone hNotContent
      have hAnswer : s.answer u (.matched lineNumber bytes) =
          ({ s with countFileLines := s.countFileLines + 1 }, true) := by
        simp only [GrepSink.answer, GrepSink.matched, hNone, hMode, reduceCtorEq, if_false,
          Option.isSome_none, Bool.false_eq_true]
      rw [hAnswer]
      refine ⟨lines, ?_, fun hText => ?_⟩
      · dsimp only
        rw [if_pos rfl, hDeliver]
        rfl
      · have hMatched : (SinkCall.matched lineNumber bytes).isMatched = true := rfl
        rw [hLines hText, List.countP_cons, if_pos hMatched]
        dsimp only
        omega
    | context kind lineNumber bytes =>
      rw [GrepSink.answer, GrepSink.context, if_pos hNotContent]
      exact ih hMode hNone hNotContent
    | contextBreak =>
      rw [GrepSink.answer, GrepSink.contextBreak, if_pos hNotContent]
      exact ih hMode hNone hNotContent
    | binaryData offset =>
      refine ⟨s.countFileLines, ?_, fun hText => ?_⟩
      · simp [GrepSink.answer, GrepSink.binaryData, GrepSink.abortFile, SinkCall.isBinary]
      · cases hText

end Choreographr.Tools.Grep
