import Choreographr.Tools.Grep.Delivery

/-!
# What the tool says of the matches

The search ends with a sink that has a result for the matches it has seen, unless it lost the file
in which the cap was reached. The verdict is read off from the text: the message of an empty
result, a marker, or the matches.
-/

namespace Choreographr.Tools.Grep

open Lib Session

variable {u : UnicodeTables} {Path Matcher : Type} [DecidableEq Path]
  {w : GrepWorld Path Matcher} {m : Matcher} {c : SearcherConfig} {s : GrepSink Path}

/-! ## The ends of the files -/

/-- The matches that are dropped when the current file is cut short. -/
def GrepSink.currentMatches (s : GrepSink Path) : Nat :=
  match s.contentFiles.getLast? with
  | some bucket =>
      if bucket.path = s.currentPath then bucket.items.countP GrepItem.isMatch else 0
  | none => 0

/-- A file is cut short after the cap was reached in it, and no other file has a match. -/
structure GrepSink.LosesCap (s : GrepSink Path) : Prop where
  mode : s.outputMode = .content
  aborted : s.fileAborted = true
  cap : s.stop = some .cap
  alone : s.contentMatchCount = s.currentMatches

/-- The sinks at the ends of the files of a walk. -/
def walkEnds (u : UnicodeTables) (w : GrepWorld Path Matcher) (m : Matcher) (c : SearcherConfig) :
    GrepSink Path → List Path → List (GrepSink Path)
  | _, [] => []
  | s, path :: rest =>
      let t := searchEntry u w m c s path
      t :: if t.endFile.shouldStop then [] else walkEnds u w m c t.endFile rest

omit [DecidableEq Path] in
theorem shouldStop_eq_false {s : GrepSink Path} : s.shouldStop = false ↔ s.stop = none := by
  unfold GrepSink.shouldStop
  cases s.stop with
  | none => exact iff_of_true rfl rfl
  | some reason => exact iff_of_false (fun h => by cases h) (fun h => by cases h)

/-- A walk that has stopped did so at the end of a file. -/
theorem walkFiles_ends (hNone : s.stop = none) (files : List Path) :
    ((walkFiles u w m c s files).1.stop ≠ none →
        ∃ t ∈ walkEnds u w m c s files, (walkFiles u w m c s files).1 = t.endFile) ∧
      (∀ t ∈ walkEnds u w m c s files, t.endFile.stop ≠ none →
        (walkFiles u w m c s files).1 = t.endFile) ∧
      (walkFiles u w m c s files).2 = (walkFiles u w m c s files).1.shouldStop := by
  induction files generalizing s with
  | nil =>
    exact ⟨fun hStop => absurd hNone hStop, fun _ hMem => absurd hMem List.not_mem_nil,
      (shouldStop_eq_false.mpr hNone).symm⟩
  | cons path rest ih =>
    rw [walkFiles, walkEnds]
    cases hStop : (searchEntry u w m c s path).endFile.shouldStop with
    | true =>
      rw [if_pos rfl, if_pos rfl]
      refine ⟨fun _ => ⟨_, List.mem_cons_self, rfl⟩, fun t hMem _ => ?_, hStop.symm⟩
      rw [List.mem_singleton.mp hMem]
    | false =>
      have hNext := shouldStop_eq_false.mp hStop
      obtain ⟨hLast, hOnly, hQuit⟩ := ih hNext
      rw [if_neg Bool.false_ne_true, if_neg Bool.false_ne_true]
      refine ⟨fun h => ?_, fun t hMem hT => ?_, hQuit⟩
      · obtain ⟨t, hMem, hEq⟩ := hLast h
        exact ⟨t, List.mem_cons_of_mem _ hMem, hEq⟩
      · rcases List.mem_cons.mp hMem with rfl | hRest
        · exact absurd hNext hT
        · exact hOnly t hRest hT

/-- What every file preserves holds of the files that were searched. -/
theorem walkFiles_induct (Inv : List Path → GrepSink Path → Prop)
    (hStep : ∀ done s path, path ∉ done → Inv done s → s.stop = none →
      Inv (done ++ [path]) (searchEntry u w m c s path).endFile)
    (done files : List Path) (hOnce : (done ++ files).Nodup) (hInv : Inv done s)
    (hNone : s.stop = none) :
    ∃ more rest, files = more ++ rest ∧ Inv (done ++ more) (walkFiles u w m c s files).1 ∧
      ((walkFiles u w m c s files).1.stop = none → rest = []) := by
  induction files generalizing done s with
  | nil => exact ⟨[], [], rfl, by rwa [List.append_nil], fun _ => rfl⟩
  | cons path rest ih =>
    have hNew : path ∉ done := by
      intro hMem
      rw [List.nodup_append] at hOnce
      exact hOnce.2.2 path hMem path List.mem_cons_self rfl
    have hNext := hStep done s path hNew hInv hNone
    rw [walkFiles]
    cases hStop : (searchEntry u w m c s path).endFile.shouldStop with
    | true =>
      refine ⟨[path], rest, rfl, hNext, fun hEnd => ?_⟩
      rw [if_pos rfl] at hEnd
      rw [shouldStop_eq_false.mpr hEnd] at hStop
      cases hStop
    | false =>
      rw [if_neg Bool.false_ne_true]
      obtain ⟨more, left, hSplit, hMore, hLeft⟩ :=
        ih (done ++ [path]) (by rwa [List.append_assoc]) hNext
          (shouldStop_eq_false.mp hStop)
      refine ⟨path :: more, left, by rw [hSplit]; rfl, ?_, hLeft⟩
      rwa [List.append_cons]

/-- What every file ends with. -/
theorem walkEnds_induct (Inv End : GrepSink Path → Prop)
    (hEnd : ∀ s path, Inv s → s.stop = none → End (searchEntry u w m c s path))
    (hStep : ∀ s path, Inv s → s.stop = none → Inv (searchEntry u w m c s path).endFile)
    (hInv : Inv s) (hNone : s.stop = none) (files : List Path) :
    ∀ t ∈ walkEnds u w m c s files, End t := by
  induction files generalizing s with
  | nil => exact fun _ hMem => absurd hMem List.not_mem_nil
  | cons path rest ih =>
    intro t hMem
    rcases List.mem_cons.mp hMem with rfl | hRest
    · exact hEnd s path hInv hNone
    · split at hRest
      · exact absurd hRest List.not_mem_nil
      · rename_i hGoesOn
        exact ih (hStep s path hInv hNone)
          (shouldStop_eq_false.mp (Bool.eq_false_iff.mpr hGoesOn)) t hRest

theorem deliver_sameSetup (hNone : s.stop = none) (calls : List SinkCall) :
    s.SameSetup (deliver u s calls).1 := by
  cases hMode : s.outputMode with
  | content =>
    obtain ⟨done, -, hDone, -⟩ := deliver_eq (u := u) s calls
    rw [hDone]
    exact callAll_sameSetup hMode done
  | filesWithMatches =>
    rw [deliver_files hMode hNone]
    split
    · exact ⟨rfl, rfl, rfl, rfl⟩
    · split <;> exact ⟨rfl, rfl, rfl, rfl⟩
  | count =>
    obtain ⟨lines, hDeliver, -⟩ := deliver_count (u := u) hMode hNone calls
    rw [hDeliver]
    exact ⟨rfl, rfl, rfl, rfl⟩

theorem searchEntry_sameSetup (hNone : s.stop = none) (path : Path) :
    s.SameSetup (searchEntry u w m c s path) := by
  have hDeliver := deliver_sameSetup (u := u) (s := s.beginFile u w.paths path) hNone
    (w.calls m c path)
  have hSame : s.SameSetup (deliver u (s.beginFile u w.paths path) (w.calls m c path)).1 :=
    ⟨hDeliver.outputMode, hDeliver.maxResults, hDeliver.resolved, hDeliver.singleFile⟩
  unfold searchEntry searchPath
  dsimp only
  generalize (if (deliver u (s.beginFile u w.paths path) (w.calls m c path)).2 then
    w.readError m c path else none) = error
  cases error with
  | none => exact hSame
  | some e => exact ⟨hSame.outputMode, hSame.maxResults, hSame.resolved, hSame.singleFile⟩

theorem endFile_sameSetup (t : GrepSink Path) : t.SameSetup t.endFile := by
  unfold GrepSink.endFile
  split
  · split
    · have hDrop := t.dropCurrentBucket_sameSetup
      exact ⟨hDrop.outputMode, hDrop.maxResults, hDrop.resolved, hDrop.singleFile⟩
    · exact ⟨rfl, rfl, rfl, rfl⟩
  · split <;> exact ⟨rfl, rfl, rfl, rfl⟩

/-! ## Content mode -/

/-- A searched entry is a searched file with the callbacks that were delivered. -/
theorem searchEntry_eq (s : GrepSink Path) (path : Path) :
    ∃ f : FileSearch Path, f.path = path ∧ f.calls <+: w.calls m c path ∧
      ((deliver u (s.beginFile u w.paths path) (w.calls m c path)).2 = true →
        f.calls = w.calls m c path) ∧
      (f.readError = true → (w.readError m c path).isSome = true) ∧
      searchEntry u w m c s path =
        (if f.readError then (callAll u (s.beginFile u w.paths path) f.calls).abortFile
          else callAll u (s.beginFile u w.paths path) f.calls) := by
  obtain ⟨calls, hPrefix, hCalls, hAll⟩ :=
    deliver_eq (u := u) (s.beginFile u w.paths path) (w.calls m c path)
  unfold searchEntry searchPath
  dsimp only
  rw [hCalls]
  refine ⟨⟨path, calls, (if (deliver u (s.beginFile u w.paths path) (w.calls m c path)).2 then
    w.readError m c path else none).isSome⟩, rfl, hPrefix, hAll, fun hError => ?_, rfl⟩
  dsimp only at hError
  split at hError
  · exact hError
  · cases hError

/-- What is known at the end of a file in content mode. -/
theorem searchEntry_content (hAccounts : Accounts u w.paths s) (hNone : s.stop = none)
    (path : Path) : Accounts u w.paths (searchEntry u w m c s path) ∧
      (searchEntry u w m c s path).CapReached := by
  obtain ⟨f, -, -, -, -, hEntry⟩ := searchEntry_eq (u := u) (w := w) (m := m) (c := c) s path
  have hBegin := hAccounts.beginFile path
  have hCap : (s.beginFile u w.paths path).CapReached := by
    intro hStop
    rw [show (s.beginFile u w.paths path).stop = s.stop from rfl, hNone] at hStop
    cases hStop
  have hCalled := hBegin.callAll rfl f.calls
  have hReached := callAll_capReached (u := u) hBegin.mode hCap f.calls
  rw [hEntry]
  split
  · exact ⟨hCalled.abortFile, hReached⟩
  · exact ⟨hCalled, hReached⟩

theorem endFile_content_fields {t : GrepSink Path} (hMode : t.outputMode = .content) :
    t.endFile.stop = t.stop ∧
      t.endFile.contentMatchCount =
        if t.fileAborted then t.contentMatchCount - t.currentMatches else t.contentMatchCount := by
  rw [GrepSink.endFile_content hMode]
  cases t.fileAborted with
  | false => exact ⟨rfl, rfl⟩
  | true =>
    rw [if_pos rfl, if_pos rfl]
    unfold GrepSink.dropCurrentBucket GrepSink.currentMatches
    cases t.contentFiles.getLast? with
    | none => exact ⟨rfl, rfl⟩
    | some bucket =>
      dsimp only
      by_cases hPath : bucket.path = t.currentPath
      · rw [if_pos hPath, if_pos hPath]
        exact ⟨rfl, rfl⟩
      · rw [if_neg hPath, if_neg hPath]
        exact ⟨rfl, rfl⟩

theorem currentMatches_le {t : GrepSink Path} (h : Accounts u w.paths t) :
    t.currentMatches ≤ t.contentMatchCount := by
  unfold GrepSink.currentMatches
  split
  · rename_i bucket hLast
    split
    · obtain ⟨front, hFront⟩ := List.getLast?_eq_some_iff.mp hLast
      rw [h.counted, hFront, matchTotal_concat]
      exact Nat.le_add_left _ _
    · exact Nat.zero_le _
  · exact Nat.zero_le _

/-- Stopped by the cap, the sink has a match, unless the file at the end has lost them all. -/
theorem endFile_cap {t : GrepSink Path} (h : Accounts u w.paths t) (hCap : t.CapReached)
    (hStop : t.endFile.stop = some .cap) :
    t.endFile.contentMatchCount = 0 ↔ t.LosesCap := by
  obtain ⟨hSame, hCount⟩ := endFile_content_fields h.mode
  have hLe := currentMatches_le h
  have hPos := h.clamped.1
  rw [hSame] at hStop
  have hReached := hCap hStop
  rw [hCount]
  cases hAborted : t.fileAborted with
  | false =>
    rw [if_neg Bool.false_ne_true]
    refine iff_of_false (by omega) fun hLoses => ?_
    rw [hLoses.aborted] at hAborted
    cases hAborted
  | true =>
    rw [if_pos rfl]
    constructor
    · exact fun hZero => ⟨h.mode, hAborted, hStop, by omega⟩
    · intro hLoses
      rw [hLoses.alone]
      exact Nat.sub_self _

/-- What holds between the files of a walk in content mode. -/
structure ContentWalk (u : UnicodeTables) (w : GrepWorld Path Matcher) (m : Matcher)
    (done : List Path) (s : GrepSink Path) : Prop where
  accounts : Accounts u w.paths s
  owned : ∀ bucket ∈ s.contentFiles, bucket.path ∈ done
  found : s.stop = none → ∀ path ∈ done, w.isText path → w.hasMatch m path →
    0 < s.contentMatchCount

theorem ContentWalk.step {done : List Path} (h : ContentWalk u w m done s) (hNone : s.stop = none)
    (hMatches : c.maxMatches ≠ some 0) {path : Path} (hNew : path ∉ done) :
    ContentWalk u w m (done ++ [path]) (searchEntry u w m c s path).endFile := by
  obtain ⟨f, hPath, hPrefix, hAll, hError, hEntry⟩ :=
    searchEntry_eq (u := u) (w := w) (m := m) (c := c) s path
  have hFile : (searchEntry u w m c s path).endFile = searchFile u w.paths s f := by
    rw [hEntry, ← hPath]
    rfl
  have hFresh : ∀ bucket ∈ s.contentFiles, bucket.path ≠ f.path := by
    intro bucket hMem hSame
    exact hNew (hPath ▸ hSame ▸ h.owned bucket hMem)
  have hAfter := h.accounts.searchFile f
  obtain ⟨hFinished, -⟩ := searchEntry_content (m := m) (c := c) h.accounts hNone path
  have hBuckets := searchFile_contentFiles (u := u) h.accounts.mode hFresh h.accounts
  rw [← hFile] at hBuckets hAfter
  refine ⟨hAfter, fun bucket hMem => ?_, fun hStop path' hMem hText hMatch => ?_⟩
  · rcases hBuckets with hSame | ⟨last, hLast, -, hLastPath, -⟩
    · rw [hSame] at hMem
      exact List.mem_append_left _ (h.owned bucket hMem)
    · rw [hLast] at hMem
      rcases List.mem_append.mp hMem with hOld | hHere
      · exact List.mem_append_left _ (h.owned bucket hOld)
      · rw [List.mem_singleton.mp hHere, hLastPath, hPath]
        exact List.mem_append_right _ (List.mem_singleton_self _)
  · rcases List.mem_append.mp hMem with hOld | hHere
    · -- Nothing of the earlier files is lost.
      have hBefore := h.found hNone path' hOld hText hMatch
      rw [h.accounts.counted] at hBefore
      rw [hAfter.counted]
      rcases hBuckets with hSame | ⟨last, hLast, -⟩
      · rwa [hSame]
      · rw [hLast, matchTotal_concat]
        omega
    · obtain rfl := List.mem_singleton.mp hHere
      obtain ⟨hSame, hCount⟩ := endFile_content_fields hFinished.mode
      rw [hSame] at hStop
      obtain ⟨hReadable, hNoBinary⟩ := w.text_calls m c path' hText
      have hSome := w.match_calls m c path' hText hMatch hMatches
      have hNoError : f.readError = false := by
        cases hRead : f.readError with
        | false => rfl
        | true =>
          have hFails := hError hRead
          rw [hReadable] at hFails
          cases hFails
      rw [hNoError, if_neg Bool.false_ne_true] at hEntry
      have hDelivered : (deliver u (s.beginFile u w.paths path') (w.calls m c path')).1 =
          searchEntry u w m c s path' := by
        unfold searchEntry searchPath
        dsimp only
        rw [hReadable, ite_self]
        rfl
      have hRan := deliver_content (u := u) (s := s.beginFile u w.paths path') h.accounts.mode hNone
        hNoBinary (by rw [hDelivered]; exact hStop)
      rw [hDelivered] at hRan
      have hMode : (s.beginFile u w.paths path').outputMode = .content := h.accounts.mode
      have hClean : (searchEntry u w m c s path').fileAborted = false := by
        rw [hEntry, callAll_fileAborted hMode, hAll hRan.1, hNoBinary]
        rfl
      rw [hCount, hClean, if_neg Bool.false_ne_true]
      have hPos : 0 < (w.calls m c path').countP SinkCall.isMatched := by
        rw [List.countP_pos_iff]
        exact List.any_eq_true.mp hSome
      omega

/-! ## The other modes -/

/-- The search of a file in the mode that lists files. -/
theorem searchEntry_files (hMode : s.outputMode = .filesWithMatches) (hNone : s.stop = none)
    (path : Path) :
    (searchEntry u w m c s path).endFile.matchedFiles =
        s.matchedFiles ++ (if firstIsMatch (w.calls m c path) then [path] else []) ∧
      (searchEntry u w m c s path).endFile.stop =
        if firstIsMatch (w.calls m c path) ∧ s.maxResults ≤ s.matchedFiles.length + 1 then
          some .cap else none := by
  have hEnd : ∀ t : GrepSink Path, t.outputMode = .filesWithMatches →
      t.endFile.matchedFiles = t.matchedFiles ∧ t.endFile.stop = t.stop := by
    intro t ht
    unfold GrepSink.endFile
    simp only [ht, reduceCtorEq, if_false, false_and, ite_self, and_self]
  have hEntryMode := (searchEntry_sameSetup (u := u) (w := w) (m := m) (c := c) hNone
    path).outputMode.trans hMode
  rw [(hEnd _ hEntryMode).1, (hEnd _ hEntryMode).2]
  unfold searchEntry searchPath
  rw [deliver_files (s := s.beginFile u w.paths path) hMode hNone]
  cases firstIsMatch (w.calls m c path) with
  | true =>
    simp only [if_true, Bool.false_eq_true, if_false, Option.isSome_none, true_and,
      GrepSink.beginFile, List.length_append, List.length_singleton, hNone]
  | false =>
    have hKeeps : ∀ t : GrepSink Path, t.matchedFiles = s.matchedFiles → t.stop = none →
        ∀ e : Option (List Char),
          (if e.isSome then t.abortFile else t).matchedFiles = s.matchedFiles ++ [] ∧
            (if e.isSome then t.abortFile else t).stop = none := by
      intro t hFiles hStop e
      rw [List.append_nil]
      split
      · exact ⟨hFiles, hStop⟩
      · exact ⟨hFiles, hStop⟩
    simp only [Bool.false_eq_true, if_false, false_and]
    split
    · exact hKeeps (s.beginFile u w.paths path).abortFile rfl hNone _
    · exact hKeeps (s.beginFile u w.paths path) rfl hNone _

/-- What holds between the files of a walk that lists files. -/
structure FilesWalk (w : GrepWorld Path Matcher) (m : Matcher) (c : SearcherConfig)
    (done : List Path) (s : GrepSink Path) : Prop where
  mode : s.outputMode = .filesWithMatches
  listed : s.matchedFiles = done.filter fun path => firstIsMatch (w.calls m c path)
  stopped : s.stop ≠ none → s.maxResults ≤ s.matchedFiles.length
  running : s.stop = none → s.matchedFiles.length < s.maxResults

theorem FilesWalk.step {done : List Path} (h : FilesWalk w m c done s) (hNone : s.stop = none)
    (path : Path) : FilesWalk w m c (done ++ [path]) (searchEntry u w m c s path).endFile := by
  obtain ⟨hListed, hStop⟩ := searchEntry_files (u := u) (w := w) (m := m) (c := c) h.mode hNone path
  have hSetup := (searchEntry_sameSetup (u := u) (w := w) (m := m) (c := c) hNone path).trans
    (endFile_sameSetup _)
  refine ⟨hSetup.outputMode.trans h.mode, ?_, fun hStopped => ?_, fun hRuns => ?_⟩
  · rw [hListed, h.listed, List.filter_append, List.filter_singleton]
    cases firstIsMatch (w.calls m c path) <;> rfl
  · rw [hStop] at hStopped
    split at hStopped
    · rename_i hFull
      rw [hSetup.maxResults, hListed, if_pos hFull.1, List.length_append, List.length_singleton]
      exact hFull.2
    · exact absurd rfl hStopped
  · have hBelow := h.running hNone
    rw [hStop] at hRuns
    rw [hSetup.maxResults, hListed, List.length_append]
    cases hHit : firstIsMatch (w.calls m c path) with
    | false => exact hBelow
    | true =>
      rw [if_pos rfl, List.length_singleton]
      by_contra hFull
      rw [if_pos ⟨hHit, Nat.le_of_not_lt hFull⟩] at hRuns
      cases hRuns

/-- The search of a file in the mode that counts lines. -/
theorem searchEntry_count (hMode : s.outputMode = .count) (hNone : s.stop = none) (path : Path) :
    s.countEntries.length ≤ (searchEntry u w m c s path).endFile.countEntries.length ∧
      ((searchEntry u w m c s path).endFile.stop ≠ none →
        s.maxResults ≤ (searchEntry u w m c s path).endFile.countEntries.length) ∧
      (w.isText path → w.hasMatch m path → c.maxMatches ≠ some 0 →
        0 < (searchEntry u w m c s path).endFile.countEntries.length) := by
  obtain ⟨lines, hDeliver, hLines⟩ :=
    deliver_count (u := u) (s := s.beginFile u w.paths path) hMode hNone (w.calls m c path)
  -- The end of a file that was not cut short adds an entry if a line was counted.
  have hEnd : ∀ t : GrepSink Path, t.outputMode = .count → t.stop = none →
      t.countEntries = s.countEntries → t.maxResults = s.maxResults →
      s.countEntries.length ≤ t.endFile.countEntries.length ∧
        (t.endFile.stop ≠ none → s.maxResults ≤ t.endFile.countEntries.length) ∧
        (t.fileAborted = false → 0 < t.countFileLines → 0 < t.endFile.countEntries.length) := by
    intro t ht hStop hEntries hMax
    unfold GrepSink.endFile
    simp only [ht, reduceCtorEq, if_false, true_and]
    cases t.fileAborted with
    | true =>
      simp only [if_true, hStop, hEntries]
      exact ⟨Nat.le_refl _, fun h => absurd rfl h, fun h => by cases h⟩
    | false =>
      simp only [Bool.false_eq_true, if_false]
      by_cases hSome : 0 < t.countFileLines
      · rw [if_pos hSome]
        simp only [hEntries, hMax, hStop, List.length_append, List.length_singleton]
        refine ⟨Nat.le_succ _, fun hFull => ?_, fun _ _ => Nat.succ_pos _⟩
        by_contra hFew
        rw [if_neg hFew] at hFull
        exact hFull rfl
      · rw [if_neg hSome]
        simp only [hEntries, hStop]
        exact ⟨Nat.le_refl _, fun h => absurd rfl h, fun _ h => absurd h hSome⟩
  have hEntry : ∃ t : GrepSink Path, searchEntry u w m c s path = t ∧ t.outputMode = .count ∧
      t.stop = none ∧ t.countEntries = s.countEntries ∧ t.maxResults = s.maxResults ∧
      (w.isText path → t.fileAborted = false ∧ t.countFileLines = lines) := by
    refine ⟨_, rfl, ?_⟩
    unfold searchEntry searchPath
    rw [hDeliver]
    dsimp only
    have hError : w.isText path → (if !(w.calls m c path).any SinkCall.isBinary then
        w.readError m c path else none) = none := by
      intro hText
      rw [(w.text_calls m c path hText).1, ite_self]
    generalize (if !(w.calls m c path).any SinkCall.isBinary then
      w.readError m c path else none) = error at hError ⊢
    cases error with
    | some e => exact ⟨hMode, hNone, rfl, rfl, fun hText => by cases hError hText⟩
    | none =>
      exact ⟨hMode, hNone, rfl, rfl, fun hText => ⟨(w.text_calls m c path hText).2, rfl⟩⟩
  obtain ⟨t, hT, hTMode, hTStop, hTEntries, hTMax, hTText⟩ := hEntry
  rw [hT]
  obtain ⟨hLe, hFull, hAdds⟩ := hEnd t hTMode hTStop hTEntries hTMax
  refine ⟨hLe, hFull, fun hText hMatch hMatches => ?_⟩
  obtain ⟨hClean, hCounted⟩ := hTText hText
  refine hAdds hClean ?_
  have hPos : 0 < (w.calls m c path).countP SinkCall.isMatched := by
    rw [List.countP_pos_iff]
    exact List.any_eq_true.mp (w.match_calls m c path hText hMatch hMatches)
  rw [hCounted, hLines (w.text_calls m c path hText).2]
  omega

/-- What holds between the files of a walk that counts lines. -/
structure CountWalk (w : GrepWorld Path Matcher) (m : Matcher) (done : List Path)
    (s : GrepSink Path) : Prop where
  mode : s.outputMode = .count
  found : ∀ path ∈ done, w.isText path → w.hasMatch m path → 0 < s.countEntries.length
  stopped : s.stop ≠ none → s.maxResults ≤ s.countEntries.length

theorem CountWalk.step {done : List Path} (h : CountWalk w m done s) (hNone : s.stop = none)
    (hMatches : c.maxMatches ≠ some 0) (path : Path) :
    CountWalk w m (done ++ [path]) (searchEntry u w m c s path).endFile := by
  obtain ⟨hGrows, hStop, hFound⟩ :=
    searchEntry_count (u := u) (w := w) (m := m) (c := c) h.mode hNone path
  have hSetup := (searchEntry_sameSetup (u := u) (w := w) (m := m) (c := c) hNone path).trans
    (endFile_sameSetup _)
  refine ⟨hSetup.outputMode.trans h.mode, fun path' hMem hText hMatch => ?_, ?_⟩
  · rcases List.mem_append.mp hMem with hOld | hHere
    · exact Nat.lt_of_lt_of_le (h.found path' hOld hText hMatch) hGrows
    · rw [List.mem_singleton.mp hHere] at hText hMatch
      exact hFound hText hMatch hMatches
  · rw [hSetup.maxResults]
    exact hStop

end Choreographr.Tools.Grep
