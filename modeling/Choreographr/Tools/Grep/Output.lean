import Mathlib.Algebra.Order.BigOperators.Group.List
import Mathlib.Algebra.Order.Group.Nat
import Choreographr.Tools.Grep.Accounting

/-!
# What the sink reports

A search is a list of files, each with the callbacks the searcher makes and whether reading failed.
No file that was cut short is in the result, every other one has its items under its own label in
the order of its callbacks, and the output has every match within the cap.
-/

namespace Choreographr.Tools.Grep

open Lib Session

variable {u : UnicodeTables} {Path : Type} [DecidableEq Path] {fs : PathOps Path}
  {s : GrepSink Path}

/-! ## Files -/

/-- One file of a search. -/
structure FileSearch (Path : Type) where
  path : Path
  calls : List SinkCall
  readError : Bool

def FileSearch.aborted (f : FileSearch Path) : Bool :=
  f.readError || f.calls.any SinkCall.isBinary

def callAll (u : UnicodeTables) (s : GrepSink Path) (calls : List SinkCall) : GrepSink Path :=
  calls.foldl (fun s call => (s.answer u call).1) s

def searchFile (u : UnicodeTables) (fs : PathOps Path) (s : GrepSink Path)
    (f : FileSearch Path) : GrepSink Path :=
  let s := callAll u (s.beginFile u fs f.path) f.calls
  (if f.readError then s.abortFile else s).endFile

def searchFiles (u : UnicodeTables) (fs : PathOps Path) (s : GrepSink Path)
    (files : List (FileSearch Path)) : GrepSink Path :=
  files.foldl (searchFile u fs) s

theorem forall₂_exists {α β : Type} {R : α → β → Prop} {xs : List α} {ys : List β}
    (h : List.Forall₂ R xs ys) {x : α} (hMem : x ∈ xs) : ∃ y ∈ ys, R x y := by
  induction h with
  | nil => exact absurd hMem List.not_mem_nil
  | cons hHead _ ih =>
    rcases List.mem_cons.mp hMem with rfl | hTail
    · exact ⟨_, List.mem_cons_self, hHead⟩
    · obtain ⟨y, hY, hRel⟩ := ih hTail
      exact ⟨y, List.mem_cons_of_mem _ hY, hRel⟩

theorem infix_joinLines {lines : List (List Char)} {line : List Char} (h : line ∈ lines) :
    line <:+: joinLines lines := by
  induction lines using List.reverseRecOn with
  | nil => exact absurd h List.not_mem_nil
  | append_singleton front last ih =>
    rw [joinLines_concat]
    split
    · rename_i hNil
      rw [hNil, List.nil_append] at h
      rw [List.mem_singleton.mp h]
    · rcases List.mem_append.mp h with hFront | hLast
      · exact (ih hFront).trans (List.infix_append' [] (joinLines front) ('\n' :: last))
      · rw [List.mem_singleton.mp hLast]
        exact ((List.suffix_cons '\n' last).trans (List.suffix_append _ _)).isInfix

namespace Accounts

theorem new (maxResults afterContext : Nat) (resolved : Path) (singleFile : Bool) :
    Accounts u fs (GrepSink.new fs .content (clampMaxResults maxResults) afterContext resolved
      singleFile) := by
  have hClamped : 1 ≤ clampMaxResults maxResults ∧ clampMaxResults maxResults ≤ 200 := by
    unfold clampMaxResults
    split
    · omega
    · split <;> omega
  refine ⟨fun front hFront => ?_, rfl, Nat.zero_le _, fun _ hMem => absurd hMem List.not_mem_nil,
    fun _ hMem => absurd hMem List.not_mem_nil, rfl, fun _ => hClamped.1, Nat.zero_le _, rfl, rfl,
    hClamped⟩
  rw [List.prefix_nil.mp hFront]
  rfl

theorem beginFile (h : Accounts u fs s) (path : Path) : Accounts u fs (s.beginFile u fs path) :=
  ⟨h.settled, h.bytes, h.within, h.filled, h.labels, h.counted, h.below, h.count_le, h.mode,
    h.budget_eq, h.clamped⟩

theorem callAll (h : Accounts u fs s) (hLabel : s.currentLabel = s.label u fs s.currentPath)
    (calls : List SinkCall) : Accounts u fs (Grep.callAll u s calls) := by
  induction calls generalizing s with
  | nil => exact h
  | cons call rest ih =>
    obtain ⟨hNext, hNextLabel⟩ := h.answer hLabel call
    exact ih hNext hNextLabel

theorem abortFile (h : Accounts u fs s) : Accounts u fs s.abortFile :=
  ⟨h.settled, h.bytes, h.within, h.filled, h.labels, h.counted, h.below, h.count_le, h.mode,
    h.budget_eq, h.clamped⟩

theorem searchFile (h : Accounts u fs s) (f : FileSearch Path) :
    Accounts u fs (Grep.searchFile u fs s f) := by
  have hCalls := (h.beginFile f.path).callAll rfl f.calls
  unfold Grep.searchFile
  dsimp only
  split
  · exact hCalls.abortFile.endFile
  · exact hCalls.endFile

theorem searchFiles (h : Accounts u fs s) (files : List (FileSearch Path)) :
    Accounts u fs (Grep.searchFiles u fs s files) := by
  induction files generalizing s with
  | nil => exact h
  | cons f rest ih => exact ih (h.searchFile f)

/-! ## The output -/

theorem byteLen_marker (n : Nat) (noun : List Char) :
    ∃ marker, truncationMarker true n noun = some marker ∧
      byteLen marker = decimalLen n + byteLen noun + 19 := by
  have hOpen : byteLen "...[truncated at ".toList = 17 := by decide
  have hSpace : byteLen " ".toList = 1 := by decide
  have hClose : byteLen "]".toList = 1 := by decide
  refine ⟨_, rfl, ?_⟩
  rw [byteLen_append, byteLen_append, byteLen_append, byteLen_append, byteLen_toDigits, hOpen,
    hSpace, hClose]
  omega

/-- The body is never cut again. -/
theorem finish_eq (h : Accounts u fs s) (hSome : s.contentMatchCount ≠ 0) (pattern : List Char)
    (regex : Bool) : ∃ tail, finishGrep u fs s pattern regex = renderContent s ++ tail ∧
      byteLen (renderContent s) + byteLen tail ≤ maxToolOutputBytes := by
  have hNoun : byteLen GrepOutputMode.content.capNoun = 7 := by decide
  have hMax : maxToolOutputBytes = 131072 := rfl
  have hCount : s.resultCount = s.contentMatchCount := by
    rw [GrepSink.resultCount, h.mode]
  have hBody : byteLen (renderContent s) ≤ s.budget := h.bytes_eq ▸ h.within
  obtain ⟨longest, hLongest, hLongestLen⟩ :=
    byteLen_marker s.maxResults GrepOutputMode.content.capNoun
  have hBudget : s.budget = 131072 - (1 + byteLen longest + 15) := by
    rw [h.budget_eq, collectionBudget, hLongest, byteLen_truncationSuffix]
    rfl
  have hDigits : decimalLen s.maxResults ≤ 3 := by
    have hThree : decimalLen 200 = 3 := by decide +kernel
    exact hThree ▸ decimalLen_mono h.clamped.2
  rw [finishGrep, hCount, if_neg (fun hBoth => hSome hBoth.2), if_neg hSome]
  simp only [h.mode]
  rw [assembleGrepOutput]
  cases s.truncated with
  | false =>
    refine ⟨[], ?_, ?_⟩
    · rw [truncationMarker, if_neg Bool.false_ne_true, finishToolOutput, truncateToolOutput,
        truncateToolOutputAt, if_pos (by omega), List.append_nil]
    · rw [byteLen_nil]
      omega
  | true =>
    obtain ⟨marker, hMarker, hMarkerLen⟩ :=
      byteLen_marker s.markerCount GrepOutputMode.content.capNoun
    have hShort : decimalLen s.markerCount ≤ decimalLen s.maxResults := by
      refine decimalLen_mono ?_
      rw [GrepSink.markerCount, hCount]
      split
      · exact h.count_le
      · exact Nat.le_refl _
    refine ⟨'\n' :: marker, ?_, ?_⟩
    · rw [hMarker, finishToolOutput, truncateToolOutputAt]
      rw [if_pos (by rw [byteLen_newline_cons, byteLen_truncationSuffix]; omega)]
    · rw [byteLen_newline_cons]
      omega

theorem size (h : Accounts u fs s) (pattern : List Char) (regex : Bool) :
    byteLen (finishGrep u fs s pattern regex) ≤ maxToolOutputBytes := by
  by_cases hSome : s.contentMatchCount = 0
  · have hCount : s.resultCount = 0 := by
      rw [GrepSink.resultCount, h.mode]
      exact hSome
    have hOver : byteLen overBudget ≤ maxToolOutputBytes := by decide
    have hHinted : byteLen (regexHint ++ '\n' :: noMatches) ≤ maxToolOutputBytes := by
      decide +kernel
    have hPlain : byteLen noMatches ≤ maxToolOutputBytes := by decide
    rw [finishGrep, hCount]
    split
    · exact hOver
    · rw [if_pos rfl]
      split
      · exact hPlain
      · unfold emptyResult
        split
        · rename_i hint hHint
          unfold regexModeHint at hHint
          split at hHint
          · cases hHint
          split at hHint
          · rw [← Option.some.inj hHint]
            exact hHinted
          · cases hHint
        · exact hPlain
  · obtain ⟨tail, hFinish, hLe⟩ := h.finish_eq hSome pattern regex
    rw [hFinish, byteLen_append]
    exact hLe

/-- Every match in a bucket is in the output. -/
theorem present (h : Accounts u fs s) {bucket : ContentBucket Path}
    (hBucket : bucket ∈ s.contentFiles) {item : GrepItem} (hItem : item ∈ bucket.items)
    (hMatch : item.isMatch = true) (pattern : List Char) (regex : Bool) :
    item.render bucket.label <:+: finishGrep u fs s pattern regex := by
  have hSome : s.contentMatchCount ≠ 0 := by
    have hHere : 0 < bucket.items.countP GrepItem.isMatch :=
      List.countP_pos_iff.mpr ⟨item, hItem, hMatch⟩
    have hLe : bucket.items.countP GrepItem.isMatch ≤ matchTotal s.contentFiles :=
      List.single_le_sum (fun _ _ => Nat.zero_le _) _ (List.mem_map_of_mem hBucket)
    have hCount := h.counted
    omega
  obtain ⟨tail, hFinish, -⟩ := h.finish_eq hSome pattern regex
  have hLine : item.render bucket.label ∈ bucketLines s.contentFiles :=
    List.mem_flatMap.mpr ⟨bucket, hBucket, List.mem_map_of_mem hItem⟩
  rw [hFinish]
  exact (infix_joinLines hLine).trans (List.infix_append' [] (renderContent s) tail)

end Accounts

/-! ## The buckets of the files -/

/-- A bucket has items of a file that was not cut short, in the order of its callbacks. -/
def Bucketed (u : UnicodeTables) (fs : PathOps Path) (s : GrepSink Path)
    (bucket : ContentBucket Path) (f : FileSearch Path) : Prop :=
  f.aborted = false ∧ bucket.path = f.path ∧ bucket.label = s.label u fs f.path ∧
    ∃ shown, shown.Sublist f.calls ∧ List.Forall₂ (SinkCall.Shows u) shown bucket.items

/-- The current file has no bucket yet, or the last one. -/
structure OpenFile (u : UnicodeTables) (s : GrepSink Path) (old : List (ContentBucket Path))
    (path : Path) (calls : List SinkCall) : Prop where
  buckets : s.contentFiles = old ∨ ∃ bucket, s.contentFiles = old ++ [bucket] ∧
    bucket.path = path ∧
    ∃ shown, shown.Sublist calls ∧ List.Forall₂ (SinkCall.Shows u) shown bucket.items
  current : s.currentPath = path
  aborted : s.fileAborted = calls.any SinkCall.isBinary

namespace OpenFile

variable {s' : GrepSink Path} {old : List (ContentBucket Path)} {path : Path}
  {calls : List SinkCall}

theorem matchesCurrent (h : OpenFile u s old path calls)
    (hNew : ∀ bucket ∈ old, bucket.path ≠ path) :
    s.matchesCurrent = true ↔ s.contentFiles ≠ old := by
  rw [GrepSink.matchesCurrent_iff, h.current]
  rcases h.buckets with hSame | ⟨bucket, hLast, hPath, -⟩
  · rw [hSame]
    refine iff_of_false ?_ (fun hNe => hNe rfl)
    rintro ⟨bucket, hLast, hPath⟩
    exact hNew bucket (List.mem_of_getLast? hLast) hPath
  · rw [hLast]
    refine iff_of_true ⟨bucket, List.getLast?_concat, hPath⟩ fun hSame => ?_
    have hLength := congrArg List.length hSame
    rw [List.length_append, List.length_singleton] at hLength
    omega

theorem appended (h : OpenFile u s old path calls) (hNew : ∀ bucket ∈ old, bucket.path ≠ path)
    {call : SinkCall} {item : GrepItem} {files : List (ContentBucket Path)}
    (hShows : call.Shows u item) (hFiles : s.Appended item files) :
    ∃ bucket, files = old ++ [bucket] ∧ bucket.path = path ∧
      ∃ shown, shown.Sublist (calls ++ [call]) ∧
        List.Forall₂ (SinkCall.Shows u) shown bucket.items := by
  cases hFiles with
  | first hFirst =>
    have hSame : s.contentFiles = old := by
      by_contra hNe
      rw [(h.matchesCurrent hNew).mpr hNe] at hFirst
      cases hFirst
    refine ⟨_, by rw [hSame], h.current, [call], List.sublist_append_right calls [call],
      .cons hShows .nil⟩
  | @more front bucket hOpen hPath =>
    rcases h.buckets with hSame | ⟨last, hLast, -, shown, hSub, hShown⟩
    · have hMem : bucket ∈ old := by
        rw [← hSame, hOpen]
        exact List.mem_append_right _ List.mem_cons_self
      exact absurd (hPath.trans h.current) (hNew bucket hMem)
    · obtain ⟨rfl, hBucket⟩ := List.append_inj' (hOpen.symm.trans hLast) rfl
      obtain rfl := List.singleton_inj.mp hBucket
      exact ⟨_, rfl, hPath.trans h.current, shown ++ [call], hSub.append (List.Sublist.refl _),
        List.rel_append hShown (.cons hShows .nil)⟩

theorem effect (h : OpenFile u s old path calls) (hNew : ∀ bucket ∈ old, bucket.path ≠ path)
    {call : SinkCall} (hEffect : GrepSink.Effect u s call s') :
    OpenFile u s' old path (calls ++ [call]) := by
  have hAborted : s'.fileAborted = (calls ++ [call]).any SinkCall.isBinary := by
    rw [hEffect.fileAborted, h.aborted, List.any_append, List.any_cons, List.any_nil, Bool.or_false]
  cases hEffect with
  | quiet hStop =>
    refine ⟨h.buckets.imp_right ?_, h.current, hAborted⟩
    rintro ⟨bucket, hLast, hPath, shown, hSub, hItems⟩
    exact ⟨bucket, hLast, hPath, shown, hSub.trans (List.sublist_append_left calls [call]), hItems⟩
  | line hItem hShows hFiles hFits =>
    exact ⟨.inr (h.appended hNew hShows hFiles), h.current, hAborted⟩
  | hit hNone hItem hShows hFiles hFits =>
    exact ⟨.inr (h.appended hNew hShows hFiles), h.current, hAborted⟩

theorem callAll (h : OpenFile u s old path calls) (hMode : s.outputMode = .content)
    (hNew : ∀ bucket ∈ old, bucket.path ≠ path) (more : List SinkCall) :
    OpenFile u (Grep.callAll u s more) old path (calls ++ more) := by
  induction more generalizing s calls with
  | nil =>
    rw [List.append_nil]
    exact h
  | cons call rest ih =>
    have hEffect := GrepSink.answer_effect (u := u) hMode call
    rw [List.append_cons]
    exact ih (h.effect hNew hEffect) (hEffect.sameSetup.outputMode.trans hMode)

end OpenFile

theorem callAll_sameSetup (hMode : s.outputMode = .content) (calls : List SinkCall) :
    s.SameSetup (callAll u s calls) := by
  induction calls generalizing s with
  | nil => exact .refl s
  | cons call rest ih =>
    have hCall := (GrepSink.answer_effect (u := u) hMode call).sameSetup
    exact hCall.trans (ih (hCall.outputMode.trans hMode))

/-- A search of a file calls the sink and drops the bucket again, if the file was cut short. -/
theorem searchFile_eq (hMode : s.outputMode = .content) (f : FileSearch Path) :
    ∃ t, callAll u (s.beginFile u fs f.path) f.calls = t ∧
      searchFile u fs s f = { (if f.readError || t.fileAborted then
        t.abortFile.dropCurrentBucket else t) with fileAborted := false } := by
  have hSetup := callAll_sameSetup (u := u) (s := s.beginFile u fs f.path) hMode f.calls
  refine ⟨_, rfl, ?_⟩
  unfold searchFile
  generalize callAll u (s.beginFile u fs f.path) f.calls = t at hSetup ⊢
  have hContent : t.outputMode = .content := hSetup.outputMode.trans hMode
  dsimp only
  cases f.readError with
  | true =>
    have hAborted : t.abortFile.outputMode = .content := hContent
    rw [if_pos rfl, GrepSink.endFile_content hAborted]
    rfl
  | false =>
    rw [if_neg Bool.false_ne_true, GrepSink.endFile_content hContent, Bool.false_or]
    cases hAborted : t.fileAborted with
    | false => rfl
    | true =>
      have hSame : t.abortFile = t := by
        rw [GrepSink.abortFile, ← hAborted]
      rw [hSame]

theorem searchFile_sameSetup (hMode : s.outputMode = .content) (f : FileSearch Path) :
    s.SameSetup (searchFile u fs s f) := by
  have hCalls := callAll_sameSetup (u := u) (s := s.beginFile u fs f.path) hMode f.calls
  obtain ⟨t, hCalled, hSearch⟩ := @searchFile_eq u Path _ fs _ hMode f
  rw [hCalled] at hCalls
  have hBegin : s.SameSetup t := ⟨hCalls.outputMode, hCalls.maxResults, hCalls.resolved,
    hCalls.singleFile⟩
  rw [hSearch]
  refine hBegin.trans ?_
  split
  · have hDrop := t.abortFile.dropCurrentBucket_sameSetup
    exact ⟨hDrop.outputMode, hDrop.maxResults, hDrop.resolved, hDrop.singleFile⟩
  · exact ⟨rfl, rfl, rfl, rfl⟩

/-- One file adds its bucket, if it was not cut short and shows anything. -/
theorem searchFile_contentFiles (hMode : s.outputMode = .content) {f : FileSearch Path}
    (hNew : ∀ bucket ∈ s.contentFiles, bucket.path ≠ f.path) (hAccounts : Accounts u fs s) :
    (searchFile u fs s f).contentFiles = s.contentFiles ∨
      ∃ bucket, (searchFile u fs s f).contentFiles = s.contentFiles ++ [bucket] ∧
        Bucketed u fs (searchFile u fs s f) bucket f := by
  have hLabels := (hAccounts.searchFile f).labels
  have hBegin : OpenFile u (s.beginFile u fs f.path) s.contentFiles f.path [] :=
    ⟨.inl rfl, rfl, rfl⟩
  have hOpen := hBegin.callAll hMode hNew f.calls
  rw [List.nil_append] at hOpen
  obtain ⟨t, hCalled, hSearch⟩ := @searchFile_eq u Path _ fs _ hMode f
  rw [hCalled] at hOpen
  have hAborted : (f.readError || t.fileAborted) = f.aborted := by
    rw [hOpen.aborted]
    rfl
  rw [hAborted] at hSearch
  cases hCut : f.aborted with
  | true =>
    rw [hCut, if_pos rfl] at hSearch
    refine .inl ?_
    rw [hSearch]
    show t.abortFile.dropCurrentBucket.contentFiles = s.contentFiles
    unfold GrepSink.dropCurrentBucket GrepSink.abortFile
    rcases hOpen.buckets with hSame | ⟨bucket, hLast, hPath, -⟩
    · dsimp only
      rw [hSame]
      split
      · rename_i bucket hLast
        rw [if_neg (by rw [hOpen.current]; exact hNew bucket (List.mem_of_getLast? hLast))]
      · rfl
    · dsimp only
      rw [hLast, List.getLast?_concat]
      dsimp only
      rw [if_pos (hPath.trans hOpen.current.symm), List.dropLast_concat]
  | false =>
    rw [hCut, if_neg Bool.false_ne_true] at hSearch
    rcases hOpen.buckets with hSame | ⟨bucket, hLast, hPath, hShown⟩
    · exact .inl (by rw [hSearch]; exact hSame)
    · have hFiles : (searchFile u fs s f).contentFiles = s.contentFiles ++ [bucket] := by
        rw [hSearch]
        exact hLast
      refine .inr ⟨bucket, hFiles, hCut, hPath, ?_, hShown⟩
      rw [← hPath]
      exact hLabels bucket (hFiles ▸ List.mem_append_right _ List.mem_cons_self)

/-- The result has the buckets of a part of the files, in their order. -/
def FromFiles (u : UnicodeTables) (fs : PathOps Path) (s : GrepSink Path)
    (files : List (FileSearch Path)) : Prop :=
  ∃ kept, kept.Sublist files ∧ List.Forall₂ (Bucketed u fs s) s.contentFiles kept

theorem Bucketed.sameSetup {s' : GrepSink Path} {bucket : ContentBucket Path} {f : FileSearch Path}
    (h : Bucketed u fs s bucket f) (hSetup : s.SameSetup s') : Bucketed u fs s' bucket f := by
  rwa [Bucketed, hSetup.label fs]

theorem fromFiles_searchFiles (hAccounts : Accounts u fs s) (hEmpty : s.contentFiles = [])
    {files : List (FileSearch Path)} (hPaths : (files.map FileSearch.path).Nodup) :
    FromFiles u fs (searchFiles u fs s files) files := by
  induction files using List.reverseRecOn with
  | nil =>
    refine ⟨[], List.Sublist.refl [], ?_⟩
    show List.Forall₂ _ s.contentFiles []
    rw [hEmpty]
    exact .nil
  | append_singleton front f ih =>
    rw [List.map_append, List.nodup_append] at hPaths
    obtain ⟨hFront, -, hFresh⟩ := hPaths
    obtain ⟨kept, hSub, hKept⟩ := ih hFront
    have hMid := hAccounts.searchFiles front
    have hNew : ∀ bucket ∈ (searchFiles u fs s front).contentFiles, bucket.path ≠ f.path := by
      intro bucket hMem
      obtain ⟨g, hG, -, hPath, -⟩ := forall₂_exists hKept hMem
      rw [hPath]
      exact hFresh g.path (List.mem_map_of_mem (hSub.subset hG)) f.path (List.mem_singleton_self _)
    have hSetup := @searchFile_sameSetup u Path _ fs _ hMid.mode f
    have hOld : List.Forall₂ (Bucketed u fs (searchFile u fs (searchFiles u fs s front) f))
        (searchFiles u fs s front).contentFiles kept :=
      hKept.imp fun _ _ hBucket => hBucket.sameSetup hSetup
    have hStep : searchFiles u fs s (front ++ [f]) =
        searchFile u fs (searchFiles u fs s front) f := List.foldl_concat ..
    rw [hStep]
    rcases searchFile_contentFiles hMid.mode hNew hMid with hSame | ⟨bucket, hFiles, hBucket⟩
    · refine ⟨kept, hSub.trans (List.sublist_append_left front [f]), ?_⟩
      rwa [hSame]
    · refine ⟨kept ++ [f], hSub.append (List.Sublist.refl [f]), ?_⟩
      rw [hFiles]
      exact List.rel_append hOld (.cons hBucket .nil)

/-! ## Accounting -/

/-- The accounts of a sink, as they are seen in its output. -/
structure OutputHolds (u : UnicodeTables) (fs : PathOps Path) (s : GrepSink Path) : Prop where
  rendered : s.contentBytes = byteLen (renderContent s)
  charged : s.contentBytes = chargeTotal s.contentFiles
  within : s.contentBytes ≤ s.budget
  counted : s.contentMatchCount = matchTotal s.contentFiles
  /-- The callbacks ask only while the budget has not stopped the sink. -/
  precheck : s.stop ≠ some .byteBudget → ∀ lineNumber line item,
    item = GrepItem.matchItem ∨ item = GrepItem.contextItem →
    ((s.budgetAllowsLen lineNumber (sanitizeTextLen u line true)).2 = true ↔
      (s.pushItem (item lineNumber (sanitizeContent u line))).2 = true)
  recorded : ∀ call item, s.offered u call = some item → s.Taken item (s.answer u call).1
  unrecorded : ∀ call, s.offered u call = none → call ≠ .contextBreak →
    (s.answer u call).1.contentFiles = s.contentFiles
  size : ∀ pattern regex, byteLen (finishGrep u fs s pattern regex) ≤ maxToolOutputBytes
  present : ∀ bucket ∈ s.contentFiles, ∀ item ∈ bucket.items, item.isMatch = true →
    ∀ pattern regex, item.render bucket.label <:+: finishGrep u fs s pattern regex

theorem Accounts.outputHolds (h : Accounts u fs s) : OutputHolds u fs s := by
  refine ⟨h.bytes_eq, h.bytes, h.within, h.counted, fun hStop lineNumber line item hItem => ?_,
    fun call item hOffered => GrepSink.answer_taken h.mode hOffered,
    fun call hOffered hLine => GrepSink.answer_not_offered h.mode hLine hOffered,
    h.size, fun bucket hBucket item hItem hMatch => h.present hBucket hItem hMatch⟩
  rw [GrepSink.budgetAllowsLen_eq s lineNumber line hItem,
    GrepSink.pushItem_accepts_iff hStop (GrepItem.line_ne_break hItem _ _)]
  split
  · rename_i hFull
    exact iff_of_false Bool.false_ne_true (Nat.not_le_of_lt hFull)
  · rename_i hFits
    exact iff_of_true rfl (Nat.le_of_not_lt hFits)

/-- The sink of a search in content mode, after its files. -/
def searched (u : UnicodeTables) (fs : PathOps Path) (maxResults afterContext : Nat)
    (resolved : Path) (singleFile : Bool) (files : List (FileSearch Path)) : GrepSink Path :=
  searchFiles u fs (GrepSink.new fs .content (clampMaxResults maxResults) afterContext resolved
    singleFile) files

/-- The accounts hold after any files, and inside any further one after any callbacks; of files
with different paths, those that were not cut short have their items in the result. -/
theorem grepSink_accounts (u : UnicodeTables) (fs : PathOps Path)
    (maxResults afterContext : Nat) (resolved : Path) (singleFile : Bool)
    (files : List (FileSearch Path)) :
    OutputHolds u fs (searched u fs maxResults afterContext resolved singleFile files) ∧
      (∀ path calls, OutputHolds u fs (callAll u ((searched u fs maxResults afterContext resolved
        singleFile files).beginFile u fs path) calls)) ∧
      ((files.map FileSearch.path).Nodup → FromFiles u fs
        (searched u fs maxResults afterContext resolved singleFile files) files) := by
  have hNew := @Accounts.new u Path _ fs maxResults afterContext resolved singleFile
  have hFiles := hNew.searchFiles files
  refine ⟨hFiles.outputHolds, fun path calls => ?_, fun hPaths => ?_⟩
  · exact ((hFiles.beginFile path).callAll rfl calls).outputHolds
  · exact fromFiles_searchFiles hNew rfl hPaths

/-! ## Two files -/

/-- Paths that are their own names. -/
def samplePaths : PathOps (List Char) where
  new := []
  fileName path := some path
  stripPrefix _ _ := none
  toStringLossy path := path

/-- Two files with a match each, the second one cut short behind it. -/
def sampleFiles : List (FileSearch (List Char)) :=
  [⟨"a".toList, [.matched (some 1) [102, 10]], false⟩,
    ⟨"b".toList, [.matched (some 7) [102, 10], .binaryData 70000], false⟩]

theorem sampleFiles_fromFiles : FromFiles sampleTables samplePaths
    (searched sampleTables samplePaths 50 0 "dir".toList false sampleFiles) sampleFiles :=
  (grepSink_accounts sampleTables samplePaths 50 0 "dir".toList false sampleFiles).2.2 (by decide)

end Choreographr.Tools.Grep
