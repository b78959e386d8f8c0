import Choreographr.Tools.Grep.Sink
import Choreographr.Tools.Proofs.SanitizeText

/-!
# What the sink charges

Every charge of the sink is the length of what will be rendered, over any callbacks, in any order,
of any files. What a callback does is said once; the accounts are kept by each of its cases.
-/

namespace Choreographr.Tools.Grep

open Lib Session

variable {u : UnicodeTables} {Path : Type} [DecidableEq Path] {item : Nat → List Char → GrepItem}
  {call : SinkCall} {s : GrepSink Path}

/-! ## Lengths -/

theorem byteLen_toDigits (n : Nat) : byteLen (Nat.toDigits 10 n) = decimalLen n := by
  have hOne : ∀ d < 10, byteLen [Nat.digitChar d] = 1 := by decide
  induction n using Nat.strongRecOn with
  | ind n ih =>
    rw [Nat.toDigits_eq_if (by decide)]
    split
    · rename_i hLt
      rw [hOne n hLt, decimalLen, Nat.log_of_lt hLt]
      split <;> rfl
    · rename_i hGe
      have hTen : 10 ≤ n := Nat.le_of_not_lt hGe
      have hLog : Nat.log 10 n = Nat.log 10 (n / 10) + 1 :=
        Nat.log_of_one_lt_of_le (by decide) hTen
      rw [byteLen_append, hOne _ (Nat.mod_lt n (by decide)),
        ih (n / 10) (Nat.div_lt_self (by omega) (by decide)), decimalLen, decimalLen,
        if_neg (by omega), if_neg (by omega), hLog]

theorem decimalLen_mono {m n : Nat} (h : m ≤ n) : decimalLen m ≤ decimalLen n := by
  have hLog : Nat.log 10 m ≤ Nat.log 10 n := Nat.log_mono_right h
  unfold decimalLen
  split <;> split <;> omega

namespace GrepItem

theorem byteLen_render (label : List Char) (item : GrepItem) :
    byteLen (item.render label) = item.renderLen label := by
  have hColon : byteLen ":".toList = 1 := by decide
  have hDash : byteLen "-".toList = 1 := by decide
  cases item with
  | matchItem n content =>
    simp only [render, renderLen, byteLen_append, byteLen_toDigits, hColon]
    omega
  | contextItem n content =>
    simp only [render, renderLen, byteLen_append, byteLen_toDigits, hDash]
    omega
  | breakItem =>
    show byteLen "--".toList = 2
    decide

theorem renderLen_pos (label : List Char) (item : GrepItem) : 0 < item.renderLen label := by
  cases item with
  | matchItem n content =>
    rw [renderLen]
    omega
  | contextItem n content =>
    rw [renderLen]
    omega
  | breakItem => exact Nat.succ_pos 1

theorem renderLen_line (hItem : item = .matchItem ∨ item = .contextItem) (label : List Char)
    (lineNumber : Nat) (content : List Char) : (item lineNumber content).renderLen label =
      byteLen label + 2 + decimalLen lineNumber + byteLen content := by
  rcases hItem with rfl | rfl <;> rfl

theorem line_ne_break (hItem : item = .matchItem ∨ item = .contextItem) (lineNumber : Nat)
    (content : List Char) : item lineNumber content ≠ .breakItem := by
  rcases hItem with rfl | rfl <;> exact fun h => by cases h

end GrepItem

theorem joinLines_concat (lines : List (List Char)) (line : List Char) :
    joinLines (lines ++ [line]) =
      if lines = [] then line else joinLines lines ++ '\n' :: line := by
  induction lines with
  | nil => simp [joinLines, List.intercalate]
  | cons first rest ih =>
    rw [if_neg (List.cons_ne_nil first rest)]
    cases rest with
    | nil => simp [joinLines, List.intercalate]
    | cons second rest =>
      rw [if_neg (List.cons_ne_nil second rest)] at ih
      simp only [joinLines, List.intercalate, List.cons_append, List.intersperse_cons_cons,
        List.flatten_cons, List.append_assoc] at ih ⊢
      rw [ih]

theorem byteLen_joinLines_concat (lines : List (List Char)) (line : List Char) :
    byteLen (joinLines (lines ++ [line])) =
      byteLen (joinLines lines) + byteLen line + if lines = [] then 0 else 1 := by
  rw [joinLines_concat]
  split
  · rename_i hNil
    rw [hNil, show byteLen (joinLines []) = 0 from rfl]
    omega
  · have hOne : '\n'.utf8Size = 1 := by decide
    rw [byteLen_append, byteLen_cons, hOne]
    omega

/-! ## What a callback does -/

/-- The line that is shown for the bytes of one. -/
def shownLine (u : UnicodeTables) (bytes : Bytes) : List Char :=
  sanitizeContent u (prepareLine (lossyWindow bytes)).1

/-- The items that may be kept of a callback. -/
def SinkCall.Shows (u : UnicodeTables) : SinkCall → GrepItem → Prop
  | .matched lineNumber bytes, item =>
      item = .matchItem (lineNumber.getD 0) (shownLine u bytes) ∨
        item = .contextItem (lineNumber.getD 0) (shownLine u bytes)
  | .context _ lineNumber bytes, item =>
      item = .contextItem (lineNumber.getD 0) (shownLine u bytes)
  | .contextBreak, item => item = .breakItem
  | .binaryData _, _ => False

theorem not_binary_of_shows {item : GrepItem} (h : call.Shows u item) : call.isBinary = false := by
  cases call with
  | binaryData offset => exact absurd h id
  | matched lineNumber bytes => rfl
  | context kind lineNumber bytes => rfl
  | contextBreak => rfl

namespace GrepSink

/-- The bytes that an item is charged. -/
def charge (s : GrepSink Path) (item : GrepItem) : Nat :=
  item.renderLen s.currentLabel + s.joiningNewline

/-- The buckets after an item of the current file. -/
inductive Appended (s : GrepSink Path) (item : GrepItem) : List (ContentBucket Path) → Prop
  | first : s.matchesCurrent = false →
      Appended s item
        (s.contentFiles ++ [⟨s.currentLabel, s.currentPath, [item], s.charge item⟩])
  | more {front : List (ContentBucket Path)} {bucket : ContentBucket Path} :
      s.contentFiles = front ++ [bucket] → bucket.path = s.currentPath →
      Appended s item (front ++ [{ bucket with
        items := bucket.items ++ [item], charged := bucket.charged + s.charge item }])

/-- The sink with an item charged. -/
def grown (s : GrepSink Path) (item : GrepItem) (files : List (ContentBucket Path)) :
    GrepSink Path :=
  { s with contentBytes := s.contentBytes + s.charge item, contentFiles := files }

theorem matchesCurrent_iff : s.matchesCurrent = true ↔
    ∃ bucket, s.contentFiles.getLast? = some bucket ∧ bucket.path = s.currentPath := by
  unfold matchesCurrent
  cases s.contentFiles.getLast? with
  | none => simp
  | some bucket => simp

theorem pushItem_cases (s : GrepSink Path) (item : GrepItem) :
    s.pushItem item = ({ s with stop := some .byteBudget }, false) ∨
      (item = .breakItem ∧ s.pushItem item = (s, true)) ∨
      ∃ files, s.Appended item files ∧ s.contentBytes + s.charge item ≤ s.budget ∧
        s.pushItem item = (s.grown item files, true) := by
  unfold pushItem
  split
  · rename_i hStop
    refine .inl ?_
    rw [← hStop]
  split
  · rename_i hBreak
    exact .inr (.inl ⟨hBreak.2, rfl⟩)
  rename_i hOpen
  dsimp only
  split
  · exact .inl rfl
  rename_i hFits
  cases hCurrent : s.matchesCurrent with
  | false =>
    have hItem : item ≠ .breakItem := fun hBreak => hOpen ⟨hCurrent, hBreak⟩
    refine .inr (.inr ⟨_, .first hCurrent, Nat.le_of_not_lt hFits, ?_⟩)
    simp only [Bool.false_eq_true, if_false, List.getLast?_concat, List.dropLast_concat, hItem,
      false_and, List.nil_append, Nat.zero_add]
    rfl
  | true =>
    obtain ⟨bucket, hLast, hPath⟩ := matchesCurrent_iff.mp hCurrent
    obtain ⟨front, hFront⟩ := List.getLast?_eq_some_iff.mp hLast
    simp only [if_true, hLast]
    split
    · rename_i hBreak
      exact .inr (.inl ⟨hBreak.1, rfl⟩)
    · refine .inr (.inr ⟨_, .more hFront hPath, Nat.le_of_not_lt hFits, ?_⟩)
      rw [hFront, List.dropLast_concat]
      rfl

/-- Until the budget has stopped the sink, a line is pushed if and only if it fits. -/
theorem pushItem_accepts_iff (hStop : s.stop ≠ some .byteBudget) {item : GrepItem}
    (hItem : item ≠ .breakItem) :
    (s.pushItem item).2 = true ↔ s.contentBytes + s.charge item ≤ s.budget := by
  unfold pushItem
  rw [if_neg hStop, if_neg fun h => hItem h.2]
  dsimp only
  rw [charge]
  split
  · rename_i hFull
    exact iff_of_false Bool.false_ne_true (Nat.not_le_of_lt hFull)
  · rename_i hFits
    refine iff_of_true ?_ (Nat.le_of_not_lt hFits)
    split
    · rfl
    · rw [if_neg fun h => hItem h.1]

omit [DecidableEq Path] in
theorem budgetAllowsLen_eq (s : GrepSink Path) (lineNumber : Nat) (line : List Char)
    (hItem : item = .matchItem ∨ item = .contextItem) :
    s.budgetAllowsLen lineNumber (sanitizeTextLen u line true) =
      if s.budget < s.contentBytes + s.charge (item lineNumber (sanitizeContent u line)) then
        ({ s with stop := some .byteBudget }, false)
      else (s, true) := by
  rw [budgetAllowsLen, ← byteLen_sanitizeText, ← sanitizeContent, charge,
    GrepItem.renderLen_line hItem]
  rw [← Nat.add_assoc, ← Nat.add_assoc, ← Nat.add_assoc, ← Nat.add_assoc]

/-- A line is charged and kept, or the budget stops the sink. -/
theorem offerLine_cases (s : GrepSink Path) (lineNumber : Nat) (line : List Char)
    (hItem : item = .matchItem ∨ item = .contextItem) :
    s.offerLine u lineNumber line item = ({ s with stop := some .byteBudget }, false) ∨
      ∃ files, s.Appended (item lineNumber (sanitizeContent u line)) files ∧
        s.contentBytes + s.charge (item lineNumber (sanitizeContent u line)) ≤ s.budget ∧
        s.offerLine u lineNumber line item =
          (s.grown (item lineNumber (sanitizeContent u line)) files, true) := by
  rw [offerLine, budgetAllowsLen_eq s lineNumber line hItem]
  by_cases hFits : s.budget < s.contentBytes + s.charge (item lineNumber (sanitizeContent u line))
  · rw [if_pos hFits]
    exact .inl rfl
  · rw [if_neg hFits]
    rcases s.pushItem_cases (item lineNumber (sanitizeContent u line)) with
      hStop | ⟨hBreak, -⟩ | hKept
    · exact .inl hStop
    · exact absurd hBreak (GrepItem.line_ne_break hItem _ _)
    · exact .inr hKept

/-- What no callback changes. -/
structure SameSetup (s s' : GrepSink Path) : Prop where
  outputMode : s'.outputMode = s.outputMode
  maxResults : s'.maxResults = s.maxResults
  resolved : s'.resolved = s.resolved
  singleFile : s'.singleFile = s.singleFile

namespace SameSetup

variable {s' s'' : GrepSink Path}

omit [DecidableEq Path] in
theorem refl (s : GrepSink Path) : SameSetup s s := ⟨rfl, rfl, rfl, rfl⟩

omit [DecidableEq Path] in
theorem trans (h : SameSetup s s') (h' : SameSetup s' s'') : SameSetup s s'' :=
  ⟨h'.outputMode.trans h.outputMode, h'.maxResults.trans h.maxResults,
    h'.resolved.trans h.resolved, h'.singleFile.trans h.singleFile⟩

theorem label (h : SameSetup s s') (fs : PathOps Path) : s'.label u fs = s.label u fs := by
  unfold GrepSink.label
  rw [h.resolved, h.singleFile]

end SameSetup

/-- What a callback may do in content mode. -/
inductive Effect (u : UnicodeTables) (s : GrepSink Path) (call : SinkCall) : GrepSink Path → Prop
  | quiet {stop : Option StopReason} {remaining : Nat} :
      stop = s.stop ∨ stop = some .byteBudget →
      Effect u s call { s with
        stop := stop
        afterContextRemaining := remaining
        fileAborted := s.fileAborted || call.isBinary }
  | line {item : GrepItem} {files : List (ContentBucket Path)} {remaining : Nat} :
      item.isMatch = false → call.Shows u item → s.Appended item files →
      s.contentBytes + s.charge item ≤ s.budget →
      Effect u s call { s.grown item files with afterContextRemaining := remaining }
  | hit {item : GrepItem} {files : List (ContentBucket Path)} :
      s.stop = none → item.isMatch = true → call.Shows u item → s.Appended item files →
      s.contentBytes + s.charge item ≤ s.budget →
      Effect u s call { s.grown item files with
        contentMatchCount := s.contentMatchCount + 1
        stop := if s.maxResults ≤ s.contentMatchCount + 1 then some .cap else none }

theorem Effect.same (h : call.isBinary = false) : Effect u s call s := by
  have hQuiet : Effect u s call { s with
      stop := s.stop
      afterContextRemaining := s.afterContextRemaining
      fileAborted := s.fileAborted || call.isBinary } := .quiet (.inl rfl)
  rwa [h, Bool.or_false] at hQuiet

theorem Effect.stopped (h : call.isBinary = false) :
    Effect u s call { s with stop := some .byteBudget } := by
  have hQuiet : Effect u s call { s with
      stop := some .byteBudget
      afterContextRemaining := s.afterContextRemaining
      fileAborted := s.fileAborted || call.isBinary } := .quiet (.inr rfl)
  rwa [h, Bool.or_false] at hQuiet

theorem Effect.sameSetup {s' : GrepSink Path} (h : Effect u s call s') : SameSetup s s' := by
  cases h <;> exact ⟨rfl, rfl, rfl, rfl⟩

theorem Effect.fileAborted {s' : GrepSink Path} (h : Effect u s call s') :
    s'.fileAborted = (s.fileAborted || call.isBinary) := by
  cases h with
  | quiet => rfl
  | line _ hShows =>
    rw [not_binary_of_shows hShows, Bool.or_false]
    rfl
  | hit _ _ hShows =>
    rw [not_binary_of_shows hShows, Bool.or_false]
    rfl

theorem drainAfterContext_effect {lineNumber : Nat} {bytes : Bytes} (h : call.isBinary = false)
    (hShows : call.Shows u (.contextItem lineNumber (shownLine u bytes))) :
    Effect u s call (s.drainAfterContext u lineNumber bytes).1 := by
  unfold drainAfterContext
  rcases s.offerLine_cases (u := u) lineNumber (prepareLine (lossyWindow bytes)).1 (.inr rfl) with
    hStop | ⟨files, hFiles, hFits, hOffer⟩
  · simp only [hStop, Bool.false_eq_true, if_false]
    exact .stopped h
  · simp only [hOffer, if_true]
    exact .line rfl hShows hFiles hFits

theorem answer_effect (hMode : s.outputMode = .content) (call : SinkCall) :
    Effect u s call (s.answer u call).1 := by
  cases call with
  | matched lineNumber bytes =>
    rw [answer, matched]
    dsimp only
    split
    · split
      · exact drainAfterContext_effect rfl (.inr rfl)
      · exact .same rfl
    split
    · exact .same rfl
    rename_i hCap hStop
    have hNone : s.stop = none := Option.not_isSome_iff_eq_none.mp hStop
    simp only [hMode]
    rcases s.offerLine_cases (u := u) (lineNumber.getD 0) (prepareLine (lossyWindow bytes)).1
      (.inl rfl) with hFull | ⟨files, hFiles, hFits, hOffer⟩
    · simp only [hFull, Bool.false_eq_true, if_false]
      exact .stopped rfl
    · have hHit : Effect u s (.matched lineNumber bytes) _ :=
        .hit hNone rfl (.inl rfl) hFiles hFits
      by_cases hMax : s.maxResults ≤ s.contentMatchCount + 1
      · rw [if_pos hMax] at hHit
        simp only [hOffer, if_true, grown, hMax]
        exact hHit
      · rw [if_neg hMax, ← hNone] at hHit
        simp only [hOffer, if_true, grown, hMax, if_false]
        exact hHit
  | context kind lineNumber bytes =>
    rw [answer, context, if_neg (by rw [hMode]; exact fun h => h rfl)]
    split
    · split
      · exact drainAfterContext_effect rfl rfl
      · exact .same rfl
    split
    · exact .same rfl
    rcases s.offerLine_cases (u := u) (lineNumber.getD 0) (prepareLine (lossyWindow bytes)).1
      (.inr rfl) with hFull | ⟨files, hFiles, hFits, hOffer⟩
    · rw [hFull]
      exact .stopped rfl
    · rw [hOffer]
      exact @Effect.line _ _ _ _ _ _ _ s.afterContextRemaining rfl rfl hFiles hFits
  | contextBreak =>
    rw [answer, contextBreak, if_neg (by rw [hMode]; exact fun h => h rfl)]
    split
    · exact .same rfl
    rcases s.pushItem_cases .breakItem with hFull | ⟨-, hSame⟩ | ⟨files, hFiles, hFits, hPush⟩
    · rw [hFull]
      exact .stopped rfl
    · rw [hSame]
      exact .same rfl
    · rw [hPush]
      exact @Effect.line _ _ _ _ _ _ _ s.afterContextRemaining rfl rfl hFiles hFits
  | binaryData offset =>
    have hQuiet : Effect u s (.binaryData offset) { s with
        stop := s.stop
        afterContextRemaining := s.afterContextRemaining
        fileAborted := s.fileAborted || true } := .quiet (.inl rfl)
    rwa [Bool.or_true] at hQuiet

/-- The line that a callback gives to the sink in content mode, if it takes any there. -/
def offered (u : UnicodeTables) (s : GrepSink Path) : SinkCall → Option GrepItem
  | .matched lineNumber bytes =>
      if s.stop = none then some (.matchItem (lineNumber.getD 0) (shownLine u bytes))
      else if s.stop = some .cap ∧ 0 < s.afterContextRemaining then
        some (.contextItem (lineNumber.getD 0) (shownLine u bytes))
      else none
  | .context kind lineNumber bytes =>
      if s.stop = none ∨ s.stop = some .cap ∧ kind = .after ∧ 0 < s.afterContextRemaining then
        some (.contextItem (lineNumber.getD 0) (shownLine u bytes))
      else none
  | .contextBreak => none
  | .binaryData _ => none

/-- A line that is offered is kept if it fits, and else the budget stops the sink. -/
def Taken (s : GrepSink Path) (item : GrepItem) (s' : GrepSink Path) : Prop :=
  if s.contentBytes + s.charge item ≤ s.budget then s.Appended item s'.contentFiles
  else s'.contentFiles = s.contentFiles ∧ s'.stop = some .byteBudget

theorem offerLine_taken (hStop : s.stop ≠ some .byteBudget) (lineNumber : Nat) (line : List Char)
    (hItem : item = .matchItem ∨ item = .contextItem) :
    s.Taken (item lineNumber (sanitizeContent u line)) (s.offerLine u lineNumber line item).1 := by
  have hAccepts := pushItem_accepts_iff hStop
    (GrepItem.line_ne_break hItem lineNumber (sanitizeContent u line))
  rw [offerLine, budgetAllowsLen_eq s lineNumber line hItem, Taken]
  split
  · rename_i hFits
    rw [if_neg (Nat.not_lt_of_le hFits)]
    rcases s.pushItem_cases (item lineNumber (sanitizeContent u line)) with
      hFull | ⟨hBreak, -⟩ | ⟨files, hFiles, -, hPush⟩
    · rw [hFull] at hAccepts
      exact absurd (hAccepts.mpr hFits) Bool.false_ne_true
    · exact absurd hBreak (GrepItem.line_ne_break hItem _ _)
    · simp only [if_true, hPush]
      exact hFiles
  · rename_i hFull
    rw [if_pos (Nat.lt_of_not_le hFull)]
    exact ⟨rfl, rfl⟩

theorem drainAfterContext_taken (hStop : s.stop ≠ some .byteBudget) (lineNumber : Nat)
    (bytes : Bytes) :
    s.Taken (.contextItem lineNumber (shownLine u bytes))
      (s.drainAfterContext u lineNumber bytes).1 := by
  have hTaken := s.offerLine_taken (u := u) hStop lineNumber
    (prepareLine (lossyWindow bytes)).1 (.inr rfl)
  unfold drainAfterContext
  dsimp only
  split <;> exact hTaken

theorem answer_taken (hMode : s.outputMode = .content) {item : GrepItem}
    (hOffered : s.offered u call = some item) : s.Taken item (s.answer u call).1 := by
  have hCap : s.stop = some .cap → s.stop ≠ some .byteBudget := by
    intro h
    rw [h]
    exact fun hBoth => by cases hBoth
  have hOpen : s.stop = none → s.stop ≠ some .byteBudget := by
    intro h
    rw [h]
    exact fun hBoth => by cases hBoth
  cases call with
  | matched lineNumber bytes =>
    rw [answer, matched]
    rw [offered] at hOffered
    dsimp only
    split at hOffered
    · rename_i hNone
      cases hOffered
      have hTaken := s.offerLine_taken (u := u) (hOpen hNone) (lineNumber.getD 0)
        (prepareLine (lossyWindow bytes)).1 (.inl rfl)
      simp only [hNone, reduceCtorEq, if_false, Option.isSome_none, Bool.false_eq_true, hMode]
      rcases s.offerLine_cases (u := u) (lineNumber.getD 0) (prepareLine (lossyWindow bytes)).1
        (.inl rfl) with hFull | ⟨files, hFiles, hFits, hOffer⟩
      · rw [hFull] at hTaken
        simp only [hFull, Bool.false_eq_true, if_false]
        exact hTaken
      · simp only [hOffer, if_true]
        rw [Taken, shownLine, if_pos hFits]
        split <;> exact hFiles
    · split at hOffered
      · rename_i hRoom
        cases hOffered
        rw [if_pos hRoom.1, if_pos ⟨hMode, hRoom.2⟩]
        exact drainAfterContext_taken (hCap hRoom.1) _ _
      · cases hOffered
  | context kind lineNumber bytes =>
    rw [answer, context, if_neg (by rw [hMode]; exact fun h => h rfl)]
    rw [offered] at hOffered
    split at hOffered
    · rename_i hRoom
      cases hOffered
      rcases hRoom with hNone | ⟨hStop, hAfter⟩
      · rw [if_neg (by rw [hNone]; exact fun h => by cases h), if_neg (by rw [hNone]; decide)]
        exact offerLine_taken (hOpen hNone) _ _ (.inr rfl)
      · rw [if_pos hStop, if_pos hAfter]
        exact drainAfterContext_taken (hCap hStop) _ _
    · cases hOffered
  | contextBreak => cases hOffered
  | binaryData offset => cases hOffered

/-- A stopped sink keeps no line but the context behind its last match. -/
theorem answer_not_offered (hMode : s.outputMode = .content) (hLine : call ≠ .contextBreak)
    (hOffered : s.offered u call = none) : (s.answer u call).1.contentFiles = s.contentFiles := by
  have hSome : s.stop ≠ none → s.stop.isSome = true := Option.isSome_iff_ne_none.mpr
  cases call with
  | matched lineNumber bytes =>
    rw [answer, matched]
    rw [offered] at hOffered
    split at hOffered
    · cases hOffered
    · rename_i hStop
      rw [if_pos (hSome hStop)]
      simp only [ite_eq_right_iff, reduceCtorEq, imp_false] at hOffered
      split
      · rename_i hCap
        rw [if_neg fun hRoom => hOffered ⟨hCap, hRoom.2⟩]
      · rfl
  | context kind lineNumber bytes =>
    rw [answer, context, if_neg (by rw [hMode]; exact fun h => h rfl)]
    simp only [offered, ite_eq_right_iff, reduceCtorEq, imp_false, not_or] at hOffered
    rw [if_pos (hSome hOffered.1)]
    split
    · rename_i hCap
      rw [if_neg fun hRoom => hOffered.2 ⟨hCap, hRoom⟩]
    · rfl
  | contextBreak => exact absurd rfl hLine
  | binaryData offset => rfl

theorem dropCurrentBucket_sameSetup (s : GrepSink Path) : SameSetup s s.dropCurrentBucket := by
  unfold dropCurrentBucket
  split
  · split <;> exact ⟨rfl, rfl, rfl, rfl⟩
  · exact .refl s

theorem endFile_content (hMode : s.outputMode = .content) :
    s.endFile =
      { (if s.fileAborted then s.dropCurrentBucket else s) with fileAborted := false } := by
  have hOther : s.outputMode ≠ .count := by
    rw [hMode]
    exact fun h => by cases h
  have hDropped := s.dropCurrentBucket_sameSetup.outputMode
  unfold endFile
  cases s.fileAborted with
  | false =>
    simp only [Bool.false_eq_true, if_false, hOther, false_and]
  | true =>
    simp only [if_true, hMode, hDropped, reduceCtorEq, if_false]

end GrepSink

/-! ## The accounts -/

/-- The lines that buckets are rendered as. -/
def bucketLines (files : List (ContentBucket Path)) : List (List Char) :=
  files.flatMap fun bucket => bucket.items.map (GrepItem.render bucket.label)

def matchTotal (files : List (ContentBucket Path)) : Nat :=
  (files.map fun bucket => bucket.items.countP GrepItem.isMatch).sum

def chargeTotal (files : List (ContentBucket Path)) : Nat :=
  (files.map ContentBucket.charged).sum

/-- Any first buckets are charged what they are rendered as. -/
def Settled (files : List (ContentBucket Path)) : Prop :=
  ∀ front, front <+: files → chargeTotal front = byteLen (joinLines (bucketLines front))

omit [DecidableEq Path] in
theorem bucketLines_append (xs ys : List (ContentBucket Path)) :
    bucketLines (xs ++ ys) = bucketLines xs ++ bucketLines ys := List.flatMap_append

omit [DecidableEq Path] in
theorem matchTotal_concat (files : List (ContentBucket Path)) (bucket : ContentBucket Path) :
    matchTotal (files ++ [bucket]) =
      matchTotal files + bucket.items.countP GrepItem.isMatch := by
  rw [matchTotal, List.map_append, List.sum_append, List.map_singleton, List.sum_singleton]
  rfl

omit [DecidableEq Path] in
theorem chargeTotal_concat (files : List (ContentBucket Path)) (bucket : ContentBucket Path) :
    chargeTotal (files ++ [bucket]) = chargeTotal files + bucket.charged := by
  rw [chargeTotal, List.map_append, List.sum_append, List.map_singleton, List.sum_singleton]
  rfl

omit [DecidableEq Path] in
/-- A rendered text is empty if nothing is rendered. -/
theorem byteLen_joinLines_eq_zero {files : List (ContentBucket Path)} :
    byteLen (joinLines (bucketLines files)) = 0 ↔ bucketLines files = [] := by
  constructor
  · intro h
    by_contra hSome
    obtain ⟨front, line, hLines⟩ := (List.eq_nil_or_concat (bucketLines files)).resolve_left hSome
    rw [List.concat_eq_append] at hLines
    have hMem : line ∈ bucketLines files := by
      rw [hLines]
      exact List.mem_append_right _ List.mem_cons_self
    obtain ⟨bucket, -, hBucket⟩ := List.mem_flatMap.mp hMem
    obtain ⟨item, -, rfl⟩ := List.mem_map.mp hBucket
    have hPos := item.renderLen_pos bucket.label
    rw [hLines, byteLen_joinLines_concat, item.byteLen_render] at h
    omega
  · intro h
    rw [h]
    rfl

/-- What holds of a sink in content mode, whatever it was called with. -/
structure Accounts (u : UnicodeTables) (fs : PathOps Path) (s : GrepSink Path) : Prop where
  settled : Settled s.contentFiles
  bytes : s.contentBytes = chargeTotal s.contentFiles
  within : s.contentBytes ≤ s.budget
  filled : ∀ bucket ∈ s.contentFiles, bucket.items ≠ []
  labels : ∀ bucket ∈ s.contentFiles, bucket.label = s.label u fs bucket.path
  counted : s.contentMatchCount = matchTotal s.contentFiles
  below : s.stop = none → s.contentMatchCount < s.maxResults
  count_le : s.contentMatchCount ≤ s.maxResults
  mode : s.outputMode = .content
  budget_eq : s.budget = collectionBudget .content s.maxResults
  clamped : 1 ≤ s.maxResults ∧ s.maxResults ≤ 200

namespace Accounts

variable {fs : PathOps Path} {s' : GrepSink Path}

theorem bytes_eq (h : Accounts u fs s) :
    s.contentBytes = byteLen (renderContent s) := by
  rw [h.bytes, h.settled s.contentFiles (List.prefix_refl _)]
  rfl

/-- The buckets with one more item are settled. -/
theorem appended (h : Accounts u fs s) (hLabel : s.currentLabel = s.label u fs s.currentPath)
    {item : GrepItem} {files : List (ContentBucket Path)} (hFiles : s.Appended item files) :
    Settled files ∧ s.contentBytes + s.charge item = chargeTotal files ∧
      (∀ bucket ∈ files, bucket.items ≠ []) ∧
      (∀ bucket ∈ files, bucket.label = s.label u fs bucket.path) ∧
      matchTotal files = s.contentMatchCount + if item.isMatch then 1 else 0 := by
  have hBytes := h.bytes_eq
  -- The joining newline is charged if something is rendered already.
  have hJoin : s.joiningNewline = if bucketLines s.contentFiles = [] then 0 else 1 := by
    have hZero := @byteLen_joinLines_eq_zero _ s.contentFiles
    change s.contentBytes = byteLen (joinLines (bucketLines s.contentFiles)) at hBytes
    rw [← hBytes] at hZero
    rw [GrepSink.joiningNewline]
    by_cases hNil : bucketLines s.contentFiles = []
    · rw [if_neg (not_not.mpr (hZero.mpr hNil)), if_pos hNil]
    · rw [if_pos (mt hZero.mp hNil), if_neg hNil]
  have hGrows : s.contentBytes + s.charge item =
      byteLen (joinLines (bucketLines s.contentFiles ++ [item.render s.currentLabel])) := by
    rw [byteLen_joinLines_concat, item.byteLen_render, GrepSink.charge, hJoin, hBytes,
      ← Nat.add_assoc]
    rfl
  have hCount : [item].countP GrepItem.isMatch = if item.isMatch then 1 else 0 := by
    rw [List.countP_singleton]
  cases hFiles with
  | first hNew =>
    have hLines : bucketLines (s.contentFiles ++
        [⟨s.currentLabel, s.currentPath, [item], s.charge item⟩]) =
          bucketLines s.contentFiles ++ [item.render s.currentLabel] := by
      rw [bucketLines_append]
      rfl
    have hCharge : s.contentBytes + s.charge item = chargeTotal (s.contentFiles ++
        [⟨s.currentLabel, s.currentPath, [item], s.charge item⟩]) := by
      rw [chargeTotal_concat, ← h.bytes]
    refine ⟨fun front hFront => ?_, hCharge, fun bucket hMem => ?_, fun bucket hMem => ?_, ?_⟩
    · rcases List.prefix_concat_iff.mp hFront with rfl | hOld
      · rw [← hCharge, hLines, hGrows]
      · exact h.settled front hOld
    · rcases List.mem_append.mp hMem with hOld | hLast
      · exact h.filled bucket hOld
      · obtain rfl := List.mem_singleton.mp hLast
        exact List.cons_ne_nil item []
    · rcases List.mem_append.mp hMem with hOld | hLast
      · exact h.labels bucket hOld
      · obtain rfl := List.mem_singleton.mp hLast
        exact hLabel
    · rw [matchTotal_concat, ← h.counted, hCount]
  | @more front bucket hOpen hPath =>
    have hHere : bucket ∈ s.contentFiles := by
      rw [hOpen]
      exact List.mem_append_right _ List.mem_cons_self
    have hSame : bucket.label = s.currentLabel := by
      rw [h.labels bucket hHere, hPath, hLabel]
    have hLines : bucketLines (front ++ [{ bucket with
        items := bucket.items ++ [item], charged := bucket.charged + s.charge item }]) =
          bucketLines s.contentFiles ++ [item.render s.currentLabel] := by
      rw [hOpen, bucketLines_append, bucketLines_append, List.append_assoc, ← hSame]
      simp [bucketLines]
    have hCharge : s.contentBytes + s.charge item = chargeTotal (front ++ [{ bucket with
        items := bucket.items ++ [item], charged := bucket.charged + s.charge item }]) := by
      rw [chargeTotal_concat, h.bytes, hOpen, chargeTotal_concat, Nat.add_assoc]
    have hFrontMem : ∀ b ∈ front, b ∈ s.contentFiles := by
      intro b hMem
      rw [hOpen]
      exact List.mem_append_left _ hMem
    refine ⟨fun early hEarly => ?_, hCharge, fun b hMem => ?_, fun b hMem => ?_, ?_⟩
    · rcases List.prefix_concat_iff.mp hEarly with rfl | hOld
      · rw [← hCharge, hLines, hGrows]
      · exact h.settled early (hOpen ▸ hOld.trans (List.prefix_append front [bucket]))
    · rcases List.mem_append.mp hMem with hOld | hLast
      · exact h.filled b (hFrontMem b hOld)
      · obtain rfl := List.mem_singleton.mp hLast
        exact List.append_ne_nil_of_right_ne_nil _ (List.cons_ne_nil item [])
    · rcases List.mem_append.mp hMem with hOld | hLast
      · exact h.labels b (hFrontMem b hOld)
      · obtain rfl := List.mem_singleton.mp hLast
        exact h.labels bucket hHere
    · rw [matchTotal_concat, h.counted, hOpen, matchTotal_concat, List.countP_append, hCount,
        Nat.add_assoc]

theorem effect (h : Accounts u fs s) (hLabel : s.currentLabel = s.label u fs s.currentPath)
    (hEffect : GrepSink.Effect u s call s') :
    Accounts u fs s' ∧ s'.currentLabel = s'.label u fs s'.currentPath := by
  cases hEffect with
  | quiet hStop =>
    refine ⟨⟨h.settled, h.bytes, h.within, h.filled, h.labels, h.counted, fun hNone => ?_,
      h.count_le, h.mode, h.budget_eq, h.clamped⟩, hLabel⟩
    rcases hStop with rfl | rfl
    · exact h.below hNone
    · cases hNone
  | line hItem hShows hFiles hFits =>
    obtain ⟨hSettled, hBytes, hFilled, hLabels, hCount⟩ := h.appended hLabel hFiles
    rw [hItem, if_neg Bool.false_ne_true, Nat.add_zero] at hCount
    exact ⟨⟨hSettled, hBytes, hFits, hFilled, hLabels, hCount.symm, h.below, h.count_le, h.mode,
      h.budget_eq, h.clamped⟩, hLabel⟩
  | hit hNone hItem hShows hFiles hFits =>
    obtain ⟨hSettled, hBytes, hFilled, hLabels, hCount⟩ := h.appended hLabel hFiles
    have hBelow := h.below hNone
    rw [hItem, if_pos rfl] at hCount
    refine ⟨⟨hSettled, hBytes, hFits, hFilled, hLabels, hCount.symm, fun hStop => ?_, hBelow,
      h.mode, h.budget_eq, h.clamped⟩, hLabel⟩
    by_contra hMax
    have hReached : s.maxResults ≤ s.contentMatchCount + 1 := Nat.le_of_not_lt hMax
    dsimp only at hStop
    rw [if_pos hReached] at hStop
    cases hStop

theorem answer (h : Accounts u fs s) (hLabel : s.currentLabel = s.label u fs s.currentPath)
    (call : SinkCall) : Accounts u fs (s.answer u call).1 ∧
      (s.answer u call).1.currentLabel =
        (s.answer u call).1.label u fs (s.answer u call).1.currentPath :=
  h.effect hLabel (GrepSink.answer_effect h.mode call)

theorem dropCurrentBucket (h : Accounts u fs s) : Accounts u fs s.dropCurrentBucket := by
  unfold GrepSink.dropCurrentBucket
  split
  · rename_i bucket hLast
    split
    · obtain ⟨front, hFront⟩ := List.getLast?_eq_some_iff.mp hLast
      have hMem : ∀ b ∈ front, b ∈ s.contentFiles := by
        intro b hMem
        rw [hFront]
        exact List.mem_append_left _ hMem
      have hCharge := h.bytes
      have hCount := h.counted
      have hWithin := h.within
      rw [hFront, chargeTotal_concat] at hCharge
      rw [hFront, matchTotal_concat] at hCount
      rw [hFront, List.dropLast_concat]
      refine ⟨fun early hEarly => ?_, ?_, ?_, fun b hB => h.filled b (hMem b hB),
        fun b hB => h.labels b (hMem b hB), ?_, fun hStop => ?_, ?_, h.mode, h.budget_eq,
        h.clamped⟩
      · exact h.settled early (hFront ▸ hEarly.trans (List.prefix_append front [bucket]))
      · dsimp only
        omega
      · dsimp only
        omega
      · dsimp only
        omega
      · have hBelow := h.below hStop
        dsimp only
        omega
      · have hLe := h.count_le
        dsimp only
        omega
    · exact h
  · exact h

theorem endFile (h : Accounts u fs s) : Accounts u fs s.endFile := by
  have hKeeps : ∀ t : GrepSink Path, Accounts u fs t →
      Accounts u fs { t with fileAborted := false } := by
    intro t ht
    exact ⟨ht.settled, ht.bytes, ht.within, ht.filled, ht.labels, ht.counted, ht.below,
      ht.count_le, ht.mode, ht.budget_eq, ht.clamped⟩
  rw [GrepSink.endFile_content h.mode]
  refine hKeeps _ ?_
  split
  · exact h.dropCurrentBucket
  · exact h

end Accounts

end Choreographr.Tools.Grep
