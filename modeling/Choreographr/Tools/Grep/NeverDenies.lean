import Choreographr.Tools.Grep.Verdict
import Mathlib.Data.Bool.AllAny

/-!
# A search does not deny its matches

The text of a result tells the three cases apart: the message of an empty result has no digit and
no bracket, a marker ends in a bracket, and what is listed has digits. The one list that reads like
the message is that of a lone file with its name.
-/

namespace Choreographr.Tools.Grep

open Lib Session

variable {u : UnicodeTables} {Path Matcher : Type} [DecidableEq Path]
  {w : GrepWorld Path Matcher} {m : Matcher} {s : GrepSink Path}

/-! ## The end of a walk -/

/-- What the sink at the end of a walk has to say of the files. -/
structure WalkVerdict (u : UnicodeTables) (w : GrepWorld Path Matcher) (m : Matcher)
    (files : List Path) (ends : List (GrepSink Path)) (s sink : GrepSink Path) : Prop where
  setup : s.SameSetup sink
  found : sink.stop = none → ∀ path ∈ files, w.isText path → w.hasMatch m path →
    0 < sink.resultCount
  capped : sink.stop = some .cap → (sink.resultCount = 0 ↔ ∃ t ∈ ends, t.LosesCap)
  lost : (∃ t ∈ ends, t.LosesCap) → sink.stop = some .cap
  accounts : sink.outputMode = .content → Accounts u w.paths sink

theorem one_le_clampMaxResults (n : Nat) : 1 ≤ clampMaxResults n := by
  unfold clampMaxResults
  split
  · exact Nat.le_refl 1
  · split <;> omega

theorem searcher_maxMatches (config : GrepConfig) : config.searcher.maxMatches ≠ some 0 := by
  have hPos := one_le_clampMaxResults config.maxResults
  unfold GrepConfig.searcher
  dsimp only
  split
  · intro h
    rw [Option.some.inj h] at hPos
    omega
  · exact fun h => by cases h

section Walk

variable {resolved : Path} {config : GrepConfig} {singleFile : Bool} {files : List Path}

theorem walk_sameSetup (hNone : s.stop = none) (c : SearcherConfig) (files : List Path)
    (hOnce : files.Nodup) :
    s.SameSetup (walkFiles u w m c s files).1 ∧
      ∀ t ∈ walkEnds u w m c s files, s.SameSetup t := by
  have hStep : ∀ t path, s.SameSetup t → t.stop = none →
      s.SameSetup (searchEntry u w m c t path).endFile := fun t path hT hStop =>
    hT.trans ((searchEntry_sameSetup hStop path).trans (endFile_sameSetup _))
  constructor
  · obtain ⟨more, rest, -, hSetup, -⟩ := walkFiles_induct (u := u) (w := w) (m := m) (c := c)
      (fun _ t => s.SameSetup t) (fun _ t path _ hT hStop => hStep t path hT hStop) [] files
      hOnce (.refl s) hNone
    exact hSetup
  · exact walkEnds_induct (u := u) (w := w) (m := m) (c := c) s.SameSetup s.SameSetup
      (fun t path hT hStop => hT.trans (searchEntry_sameSetup hStop path)) hStep (.refl s) hNone
      files

theorem walk_verdict_content (hMode : config.outputMode = .content) (hOnce : files.Nodup) :
    WalkVerdict u w m files
      (walkEnds u w m config.searcher (newSink w resolved config singleFile) files)
      (newSink w resolved config singleFile)
      (walkFiles u w m config.searcher (newSink w resolved config singleFile) files).1 := by
  generalize hSink : newSink w resolved config singleFile = s
  have hNone : s.stop = none := by
    rw [← hSink]
    rfl
  have hAccounts : Accounts u w.paths s := by
    rw [← hSink, newSink, hMode]
    exact Accounts.new config.maxResults config.afterContext resolved singleFile
  have hEmpty : s.contentFiles = [] := by
    rw [← hSink]
    rfl
  have hStart : ContentWalk u w m [] s := by
    refine ⟨hAccounts, fun bucket hMem => ?_, fun _ path hMem => absurd hMem List.not_mem_nil⟩
    rw [hEmpty] at hMem
    exact absurd hMem List.not_mem_nil
  obtain ⟨hSetup, -⟩ := walk_sameSetup (u := u) (w := w) (m := m) hNone config.searcher files hOnce
  obtain ⟨more, rest, hFiles, hWalk, hRest⟩ := walkFiles_induct (u := u) (w := w) (m := m)
    (c := config.searcher) (ContentWalk u w m)
    (fun done t path hNew hT hStop => hT.step hStop (searcher_maxMatches config) hNew)
    [] files hOnce hStart hNone
  obtain ⟨hLast, hOnly, -⟩ := walkFiles_ends (u := u) (w := w) (m := m) (c := config.searcher)
    hNone files
  have hEnds := walkEnds_induct (u := u) (w := w) (m := m) (c := config.searcher)
    (Accounts u w.paths) (fun t => Accounts u w.paths t ∧ t.CapReached)
    (fun t path hT hStop => searchEntry_content hT hStop path)
    (fun t path hT hStop => (searchEntry_content hT hStop path).1.endFile) hAccounts hNone files
  have hCount : (walkFiles u w m config.searcher s files).1.resultCount =
      (walkFiles u w m config.searcher s files).1.contentMatchCount := by
    rw [GrepSink.resultCount, hWalk.accounts.mode]
  have hStopped : ∀ t ∈ walkEnds u w m config.searcher s files, t.LosesCap →
      t.endFile.stop = some .cap := by
    intro t hMem hLoses
    rw [(endFile_content_fields hLoses.mode).1, hLoses.cap]
  have hReached : ∀ t ∈ walkEnds u w m config.searcher s files, t.LosesCap →
      (walkFiles u w m config.searcher s files).1 = t.endFile := by
    intro t hMem hLoses
    refine hOnly t hMem ?_
    rw [hStopped t hMem hLoses]
    exact fun h => by cases h
  refine ⟨hSetup, fun hEnd path hMem hText hMatch => ?_, fun hCap => ?_, ?_,
    fun _ => hWalk.accounts⟩
  · rw [hFiles, hRest hEnd, List.append_nil] at hMem
    rw [hCount]
    exact hWalk.found hEnd path hMem hText hMatch
  · rw [hCount]
    constructor
    · intro hZero
      obtain ⟨t, hMem, hEq⟩ := hLast (by rw [hCap]; exact fun h => by cases h)
      obtain ⟨hT, hTCap⟩ := hEnds t hMem
      rw [hEq] at hZero hCap
      exact ⟨t, hMem, (endFile_cap hT hTCap hCap).mp hZero⟩
    · rintro ⟨t, hMem, hLoses⟩
      obtain ⟨hT, hTCap⟩ := hEnds t hMem
      rw [hReached t hMem hLoses]
      exact (endFile_cap hT hTCap (hStopped t hMem hLoses)).mpr hLoses
  · rintro ⟨t, hMem, hLoses⟩
    rw [hReached t hMem hLoses]
    exact hStopped t hMem hLoses

/-- In the other modes no result is ever taken back. -/
theorem walk_verdict_other (hMode : config.outputMode ≠ .content) (hOnce : files.Nodup)
    (hFound : ∀ sink, sink = (walkFiles u w m config.searcher
        (newSink w resolved config singleFile) files).1 →
      (sink.stop = none → ∀ path ∈ files, w.isText path → w.hasMatch m path →
        0 < sink.resultCount) ∧
      (sink.stop ≠ none → sink.maxResults ≤ sink.resultCount)) :
    WalkVerdict u w m files
      (walkEnds u w m config.searcher (newSink w resolved config singleFile) files)
      (newSink w resolved config singleFile)
      (walkFiles u w m config.searcher (newSink w resolved config singleFile) files).1 := by
  have hNone : (newSink w resolved config singleFile).stop = none := rfl
  obtain ⟨hSetup, hEnds⟩ :=
    walk_sameSetup (u := u) (w := w) (m := m) hNone config.searcher files hOnce
  obtain ⟨hShown, hFull⟩ := hFound _ rfl
  have hNever : ¬ ∃ t ∈ walkEnds u w m config.searcher (newSink w resolved config singleFile) files,
      t.LosesCap := by
    rintro ⟨t, hMem, hLoses⟩
    exact hMode ((hEnds t hMem).outputMode.symm.trans hLoses.mode)
  refine ⟨hSetup, hShown, fun hCap => iff_of_false ?_ hNever, fun h => absurd h hNever,
    fun h => absurd (hSetup.outputMode.symm.trans h) hMode⟩
  have hMax := hFull (by rw [hCap]; exact fun h => by cases h)
  rw [hSetup.maxResults] at hMax
  have hPos : 1 ≤ clampMaxResults config.maxResults := one_le_clampMaxResults config.maxResults
  have hSame : (newSink w resolved config singleFile).maxResults =
      clampMaxResults config.maxResults := rfl
  omega

theorem walk_listed (hMode : config.outputMode = .filesWithMatches) (hOnce : files.Nodup) :
    ∃ more rest, files = more ++ rest ∧
      FilesWalk w m config.searcher more
        (walkFiles u w m config.searcher (newSink w resolved config singleFile) files).1 ∧
      ((walkFiles u w m config.searcher (newSink w resolved config singleFile) files).1.stop =
        none → rest = []) :=
  walkFiles_induct (u := u) (w := w) (m := m) (c := config.searcher)
    (FilesWalk w m config.searcher)
    (fun _ _ path _ hT hStop => hT.step hStop path) [] files hOnce
    ⟨hMode, rfl, fun h => absurd rfl h, fun _ => one_le_clampMaxResults config.maxResults⟩ rfl

theorem walk_verdict (hOnce : files.Nodup) :
    WalkVerdict u w m files
      (walkEnds u w m config.searcher (newSink w resolved config singleFile) files)
      (newSink w resolved config singleFile)
      (walkFiles u w m config.searcher (newSink w resolved config singleFile) files).1 := by
  cases hMode : config.outputMode with
  | content => exact walk_verdict_content hMode hOnce
  | filesWithMatches =>
    refine walk_verdict_other (by rw [hMode]; exact fun h => by cases h) hOnce ?_
    rintro sink rfl
    obtain ⟨more, rest, hFiles, hWalk, hRest⟩ := @walk_listed u Path Matcher _ w m
      resolved config singleFile files hMode hOnce
    rw [GrepSink.resultCount, hWalk.mode]
    refine ⟨fun hEnd path hMem hText hMatch => ?_, hWalk.stopped⟩
    rw [hFiles, hRest hEnd, List.append_nil] at hMem
    dsimp only
    rw [hWalk.listed]
    refine List.length_pos_of_mem (List.mem_filter.mpr ⟨hMem, ?_⟩)
    rw [firstIsMatch_of_text (w.text_calls m config.searcher path hText).2]
    exact w.match_calls m config.searcher path hText hMatch (searcher_maxMatches config)
  | count =>
    refine walk_verdict_other (by rw [hMode]; exact fun h => by cases h) hOnce ?_
    rintro sink rfl
    obtain ⟨more, rest, hFiles, hWalk, hRest⟩ := walkFiles_induct (u := u) (w := w) (m := m)
      (c := config.searcher) (s := newSink w resolved config singleFile) (CountWalk w m)
      (fun done t path _ hT hStop => hT.step hStop (searcher_maxMatches config) path) [] files
      hOnce
      ⟨hMode, fun path hMem => absurd hMem List.not_mem_nil, fun h => absurd rfl h⟩ rfl
    rw [GrepSink.resultCount, hWalk.mode]
    refine ⟨fun hEnd path hMem hText hMatch => ?_, hWalk.stopped⟩
    rw [hFiles, hRest hEnd, List.append_nil] at hMem
    exact hWalk.found path hMem hText hMatch

end Walk

/-! ## Texts -/

/-- The message of a search without results. -/
def IsNoMatches (text : List Char) : Prop :=
  text = noMatches ∨ text = regexHint ++ '\n' :: noMatches

/-- The result says that it is not complete. -/
def HasMarker (text : List Char) : Prop :=
  text = overBudget ∨ ∃ n noun marker, truncationMarker true n noun = some marker ∧
    '\n' :: marker <:+ text

theorem IsNoMatches.getLast? {text : List Char} (h : IsNoMatches text) :
    text.getLast? = some '.' := by
  have hPlain : noMatches.getLast? = some '.' := by decide
  rcases h with h | h
  · rw [h, hPlain]
  · rw [h, List.getLast?_append, List.getLast?_cons, hPlain]
    rfl

theorem IsNoMatches.no_digit {text : List Char} (h : IsNoMatches text) :
    ∀ c ∈ text, c.isDigit = false := by
  have hPlain : ∀ c ∈ noMatches, c.isDigit = false :=
    List.all_iff_forall_prop.mp (by decide)
  have hHint : ∀ c ∈ regexHint, c.isDigit = false :=
    List.all_iff_forall_prop.mp (by decide +kernel)
  rcases h with h | h
  · rw [h]
    exact hPlain
  · intro c hMem
    rw [h] at hMem
    rcases List.mem_append.mp hMem with hFront | hBack
    · exact hHint c hFront
    · rcases List.mem_cons.mp hBack with rfl | hRest
      · decide
      · exact hPlain c hRest

theorem not_isNoMatches_of_suffix {text tail : List Char} (hTail : tail.getLast? = some ']')
    (h : tail <:+ text) : ¬ IsNoMatches text := by
  obtain ⟨front, rfl⟩ := h
  intro hText
  have hLast := hText.getLast?
  rw [List.getLast?_append, hTail] at hLast
  cases hLast

theorem HasMarker.not_isNoMatches {text : List Char} (h : HasMarker text) :
    ¬ IsNoMatches text := by
  have hOver : overBudget.getLast? = some ']' := by decide +kernel
  have hClose : ("]".toList : List Char).getLast? = some ']' := by decide
  rcases h with h | ⟨n, noun, marker, hMarker, hSuffix⟩
  · rw [h]
    exact not_isNoMatches_of_suffix hOver (List.suffix_refl _)
  · refine not_isNoMatches_of_suffix ?_ hSuffix
    rw [truncationMarker, if_pos rfl] at hMarker
    rw [← Option.some.inj hMarker, List.getLast?_cons, List.getLast?_append, hClose]
    rfl

theorem emptyResult_isNoMatches (pattern : List Char) (regex : Bool) :
    IsNoMatches (emptyResult pattern regex) := by
  unfold emptyResult
  split
  · rename_i hint hHint
    unfold regexModeHint at hHint
    split at hHint
    · cases hHint
    split at hHint
    · rw [← Option.some.inj hHint]
      exact .inr rfl
    · cases hHint
  · exact .inl rfl

theorem digit_mem_toDigits (n : Nat) : ∃ c ∈ Nat.toDigits 10 n, c.isDigit = true := by
  obtain ⟨c, hMem⟩ := List.exists_mem_of_ne_nil _ (Nat.toDigits_ne_nil (n := n) (b := 10))
  exact ⟨c, hMem, Nat.isDigit_of_mem_toDigits (by decide) (by decide) hMem⟩

theorem not_isNoMatches_of_line {lines : List (List Char)} {line : List Char}
    (hLine : line ∈ lines) (hDigit : ∃ c ∈ line, c.isDigit = true) :
    ¬ IsNoMatches (joinLines lines) := by
  intro hText
  obtain ⟨c, hMem, hIs⟩ := hDigit
  have hNone := hText.no_digit c ((infix_joinLines hLine).subset hMem)
  rw [hIs] at hNone
  cases hNone

theorem not_isNoMatches_truncate {body : List Char} (h : ¬ IsNoMatches body) :
    ¬ IsNoMatches (truncateToolOutput body) := by
  have hSuffix : truncationSuffix.getLast? = some ']' := by decide
  unfold truncateToolOutput truncateToolOutputAt
  split
  · exact h
  · exact not_isNoMatches_of_suffix hSuffix (List.suffix_append _ _)

/-! ## Lists of files -/

theorem textLe_total (a b : List Char) : (textLe a b || textLe b a) = true := by
  induction a generalizing b with
  | nil => rfl
  | cons x xs ih =>
    cases b with
    | nil => rfl
    | cons y ys =>
      have hRest := ih ys
      simp only [textLe, Bool.or_eq_true, Bool.and_eq_true, decide_eq_true_eq, beq_iff_eq]
        at hRest ⊢
      rcases Nat.lt_trichotomy x.toNat y.toNat with hLt | hEq | hGt
      · exact .inl (.inl hLt)
      · rcases hRest with hLe | hLe
        · exact .inl (.inr ⟨hEq, hLe⟩)
        · exact .inr (.inr ⟨hEq.symm, hLe⟩)
      · exact .inr (.inl hGt)

theorem textLe_trans (a b c : List Char) (hAb : textLe a b = true) (hBc : textLe b c = true) :
    textLe a c = true := by
  induction a generalizing b c with
  | nil => rfl
  | cons x xs ih =>
    cases b with
    | nil => cases hAb
    | cons y ys =>
      cases c with
      | nil => cases hBc
      | cons z zs =>
        simp only [textLe, Bool.or_eq_true, Bool.and_eq_true, decide_eq_true_eq, beq_iff_eq]
          at hAb hBc ⊢
        rcases hAb with hLt | ⟨hEq, hLe⟩
        · rcases hBc with hLt' | ⟨hEq', -⟩
          · exact .inl (Nat.lt_trans hLt hLt')
          · exact .inl (hEq' ▸ hLt)
        · rcases hBc with hLt' | ⟨hEq', hLe'⟩
          · exact .inl (hEq ▸ hLt')
          · exact .inr ⟨hEq.trans hEq', ih ys zs hLe hLe'⟩

theorem newline_not_mem_label (fs : PathOps Path) (path : Path) : '\n' ∉ s.label u fs path := by
  intro hMem
  have hControl : isControl '\n' = true := by decide
  exact (sanitizeText_safe u (pathLabel fs path s.resolved s.singleFile) false).1 '\n' hMem
    (.inl ⟨hControl, fun h => Bool.false_ne_true h.2⟩)

theorem joinLines_cons_cons (a b : List Char) (rest : List (List Char)) :
    joinLines (a :: b :: rest) = a ++ '\n' :: joinLines (b :: rest) := by
  simp [joinLines, List.intercalate]

theorem eq_singleton_of_joinLines {lines : List (List Char)} {x : List Char} (hSome : lines ≠ [])
    (hX : '\n' ∉ x) (h : joinLines lines = x) : lines = [x] := by
  rcases lines with _ | ⟨a, _ | ⟨b, rest⟩⟩
  · exact absurd rfl hSome
  · rw [← h]
    simp [joinLines, List.intercalate]
  · rw [joinLines_cons_cons] at h
    exact absurd (h ▸ List.mem_append_right a List.mem_cons_self) hX

/-- The text up to the first line break is the first line. -/
theorem eq_cons_of_joinLines {lines : List (List Char)} {x y : List Char}
    (hLines : ∀ line ∈ lines, '\n' ∉ line) (hX : '\n' ∉ x)
    (h : joinLines lines = x ++ '\n' :: y) :
    ∃ b rest, lines = x :: b :: rest ∧ joinLines (b :: rest) = y := by
  rcases lines with _ | ⟨a, _ | ⟨b, rest⟩⟩
  · cases x <;> cases h
  · have hOne : joinLines [a] = a := by simp [joinLines, List.intercalate]
    rw [hOne] at h
    exact absurd (h ▸ List.mem_append_right x List.mem_cons_self) (hLines a List.mem_cons_self)
  · rw [joinLines_cons_cons] at h
    rcases append_eq_append_cons h with ⟨back, hA, -⟩ | ⟨front, hFront, hRest⟩
    · exact absurd (hA ▸ List.mem_append_right x List.mem_cons_self) (hLines a List.mem_cons_self)
    · cases front with
      | nil =>
        rw [List.append_nil] at hFront
        exact ⟨b, rest, by rw [hFront], (List.cons.inj hRest).2⟩
      | cons c front =>
        obtain ⟨rfl, -⟩ := List.cons.inj hRest
        exact absurd (hFront ▸ List.mem_append_right a List.mem_cons_self) hX

/-- The sorted lines read like the message only if the message is the one line. -/
theorem eq_noMatches_of_sorted {labels : List (List Char)}
    (hLines : ∀ label ∈ labels, '\n' ∉ label) (hSome : labels ≠ [])
    (h : IsNoMatches (joinLines (labels.mergeSort textLe))) : labels = [noMatches] := by
  have hPerm := List.mergeSort_perm labels textLe
  have hPlain : '\n' ∉ noMatches := by decide
  have hHint : '\n' ∉ regexHint := by decide +kernel
  have hOrder : textLe regexHint noMatches = false := by decide +kernel
  have hSorted := List.pairwise_mergeSort textLe_trans textLe_total labels
  rcases h with h | h
  · have hNe : labels.mergeSort textLe ≠ [] :=
      fun hNil => hSome (List.perm_nil.mp (hNil ▸ hPerm.symm))
    rw [eq_singleton_of_joinLines hNe hPlain h] at hPerm
    exact List.perm_singleton.mp hPerm.symm
  · have hEach : ∀ line ∈ labels.mergeSort textLe, '\n' ∉ line :=
      fun line hMem => hLines line (hPerm.subset hMem)
    obtain ⟨b, rest, hSplit, hRest⟩ := eq_cons_of_joinLines hEach hHint h
    have hLast := eq_singleton_of_joinLines (List.cons_ne_nil b rest) hPlain hRest
    rw [hSplit, hLast] at hSorted
    have hLe := (List.pairwise_cons.mp hSorted).1 noMatches List.mem_cons_self
    rw [hOrder] at hLe
    cases hLe

/-! ## The result -/

theorem finishGrep_marked {fs : PathOps Path} (hTruncated : s.truncated = true)
    (hCount : s.resultCount = 0 → s.stop = some .byteBudget) (pattern : List Char)
    (regex : Bool) : HasMarker (finishGrep u fs s pattern regex) := by
  rw [finishGrep]
  by_cases hZero : s.resultCount = 0
  · rw [if_pos ⟨hCount hZero, hZero⟩]
    exact .inl rfl
  · rw [if_neg (fun h => hZero h.2), if_neg hZero]
    dsimp only
    rw [assembleGrepOutput, hTruncated]
    exact .inr ⟨_, _, _, rfl, List.suffix_append _ _⟩

/-- What is listed does not read like the message, unless it is the one label that does. -/
theorem finishGrep_shown {fs : PathOps Path} (hTruncated : s.truncated = false)
    (hCount : s.resultCount = 0 → s.stop = some .byteBudget)
    (hAccounts : s.outputMode = .content → Accounts u fs s)
    (hLone : s.outputMode = .filesWithMatches → s.matchedFiles.map (s.label u fs) ≠ [noMatches])
    (pattern : List Char) (regex : Bool) :
    ¬ IsNoMatches (finishGrep u fs s pattern regex) := by
  rw [finishGrep]
  by_cases hZero : s.resultCount = 0
  · rw [if_pos ⟨hCount hZero, hZero⟩]
    exact HasMarker.not_isNoMatches (.inl rfl)
  rw [if_neg (fun h => hZero h.2), if_neg hZero]
  dsimp only
  rw [assembleGrepOutput, hTruncated, truncationMarker, if_neg Bool.false_ne_true, finishToolOutput]
  refine not_isNoMatches_truncate ?_
  cases hMode : s.outputMode with
  | content =>
    rw [GrepSink.resultCount, hMode] at hZero
    have hMatches := (hAccounts hMode).counted
    obtain ⟨bucket, hBucket, item, hItem, hMatch⟩ : ∃ bucket ∈ s.contentFiles,
        ∃ item ∈ bucket.items, item.isMatch = true := by
      by_contra hNone
      have hAll : ∀ n ∈ s.contentFiles.map fun b => b.items.countP GrepItem.isMatch, n = 0 := by
        intro n hMem
        obtain ⟨b, hB, rfl⟩ := List.mem_map.mp hMem
        refine Nat.eq_zero_of_not_pos fun hPos => ?_
        obtain ⟨item, hItem, hMatch⟩ := List.countP_pos_iff.mp hPos
        exact hNone ⟨b, hB, item, hItem, hMatch⟩
      rw [matchTotal, List.sum_eq_zero hAll] at hMatches
      exact hZero hMatches
    refine not_isNoMatches_of_line (List.mem_flatMap.mpr ⟨bucket, hBucket,
      List.mem_map_of_mem hItem⟩) ?_
    cases item with
    | matchItem n content =>
      obtain ⟨c, hMem, hDigit⟩ := digit_mem_toDigits n
      refine ⟨c, ?_, hDigit⟩
      simp only [GrepItem.render, List.mem_append]
      exact .inl (.inl (.inr hMem))
    | contextItem n content => cases hMatch
    | breakItem => cases hMatch
  | filesWithMatches =>
    rw [GrepSink.resultCount, hMode] at hZero
    intro hText
    refine hLone hMode (eq_noMatches_of_sorted (fun label hMem => ?_) (fun hNil => hZero ?_) hText)
    · obtain ⟨path, -, rfl⟩ := List.mem_map.mp hMem
      exact newline_not_mem_label fs path
    · exact List.length_eq_zero_iff.mpr (List.map_eq_nil_iff.mp hNil)
  | count =>
    rw [GrepSink.resultCount, hMode] at hZero
    obtain ⟨entry, hEntry⟩ := List.exists_mem_of_ne_nil s.countEntries
      fun hNil => hZero (List.length_eq_zero_iff.mpr hNil)
    have hSorted : (s.label u fs entry.1, entry.2) ∈
        (s.countEntries.map fun e => (s.label u fs e.1, e.2)).mergeSort fun a b =>
          !textLe b.1 a.1 || (a.1 == b.1 && decide (a.2 ≤ b.2)) :=
      (List.mergeSort_perm _ _).symm.subset (List.mem_map_of_mem hEntry)
    refine not_isNoMatches_of_line (List.mem_map_of_mem hSorted) ?_
    obtain ⟨c, hMem, hDigit⟩ := digit_mem_toDigits entry.2
    exact ⟨c, List.mem_append_right _ hMem, hDigit⟩

theorem finishGrep_empty {fs : PathOps Path} (hStop : s.stop ≠ some .byteBudget)
    (hZero : s.resultCount = 0) (pattern : List Char) (regex : Bool) :
    IsNoMatches (finishGrep u fs s pattern regex) := by
  rw [finishGrep, if_neg (fun h => hStop h.1), if_pos hZero]
  split
  · exact .inl rfl
  · exact emptyResult_isNoMatches pattern regex

/-! ## A whole run -/

section Run

variable {resolved : Path} {config : GrepConfig} {plan : GrepPlan Path Matcher}

omit [DecidableEq Path] in
/-- The files of a search are different, and a named file is the only one. -/
theorem prepare_files (hPlan : prepare w resolved config = .ok plan) :
    plan.files.Nodup ∧ (plan.singleFile = true → plan.files = [resolved] ∨ plan.files = []) := by
  unfold prepare at hPlan
  cases hMatcher : compileMatcher w config with
  | error e =>
    rw [hMatcher] at hPlan
    cases hPlan
  | ok matcher =>
    cases hInclude : compileInclude w config with
    | error e =>
      rw [hMatcher, hInclude] at hPlan
      cases hPlan
    | ok filter =>
      rw [hMatcher, hInclude] at hPlan
      simp only [bind, Except.bind] at hPlan
      split at hPlan
      · obtain rfl := Except.ok.inj hPlan
        dsimp only
        split
        · exact ⟨List.nodup_singleton resolved, fun _ => .inl rfl⟩
        · exact ⟨List.nodup_nil, fun _ => .inr rfl⟩
      · split at hPlan
        · cases hPlan
        · rename_i entries fatal hWalk
          obtain rfl := Except.ok.inj hPlan
          refine ⟨?_, fun h => by cases h⟩
          exact (w.walk_once resolved entries fatal hWalk).sublist (List.filter_sublist.map _)

theorem walkFiles_singleton (c : SearcherConfig) (path : Path) :
    (walkFiles u w m c s [path]).1 = (searchEntry u w m c s path).endFile := by
  rw [walkFiles, walkFiles]
  split <;> rfl

/-- The sink of a search that ends without an error is that of a walk over its files. -/
theorem runSearch_some {sink : GrepSink Path} (hPlan : prepare w resolved config = .ok plan)
    (hRun : runSearch u w resolved config plan = .ok (some sink)) :
    sink = (walkFiles u w plan.matcher config.searcher
      (newSink w resolved config plan.singleFile) plan.files).1 := by
  rw [runSearch] at hRun
  dsimp only at hRun
  by_cases hSingle : plan.singleFile = true
  · rw [if_pos hSingle] at hRun
    rcases (prepare_files hPlan).2 hSingle with hFiles | hFiles
    · rw [hFiles] at hRun ⊢
      rw [walkFiles_singleton, searchEntry]
      dsimp only at hRun ⊢
      split at hRun
      · cases hRun
      · rename_i hError
        rw [hError]
        exact (Option.some.inj (Except.ok.inj hRun)).symm
    · rw [hFiles] at hRun
      cases hRun
  · rw [if_neg hSingle] at hRun
    split at hRun
    · exact (Option.some.inj (Except.ok.inj hRun)).symm
    · split at hRun
      · exact (Option.some.inj (Except.ok.inj hRun)).symm
      · cases hRun

theorem runGrepWalk_eq {sink : Option (GrepSink Path)}
    (hPlan : prepare w resolved config = .ok plan)
    (hRun : runSearch u w resolved config plan = .ok sink) :
    runGrepWalk u w resolved config = .ok (searchResult u w config sink) := by
  rw [runGrepWalk, hPlan]
  simp only [bind, Except.bind, hRun]

theorem runSearch_of_ok {text : List Char} (hPlan : prepare w resolved config = .ok plan)
    (hText : runGrepWalk u w resolved config = .ok text) :
    ∃ sink, runSearch u w resolved config plan = .ok sink ∧
      text = searchResult u w config sink := by
  rw [runGrepWalk, hPlan] at hText
  simp only [bind, Except.bind] at hText
  split at hText
  · cases hText
  · rename_i sink hRun
    exact ⟨sink, hRun, (Except.ok.inj hText).symm⟩

/-- A search that is excluded has no files. -/
theorem runSearch_none (hPlan : prepare w resolved config = .ok plan)
    (hRun : runSearch u w resolved config plan = .ok none) : plan.files = [] := by
  rw [runSearch] at hRun
  dsimp only at hRun
  by_cases hSingle : plan.singleFile = true
  · rcases (prepare_files hPlan).2 hSingle with hFiles | hFiles
    · rw [if_pos hSingle, hFiles] at hRun
      dsimp only at hRun
      split at hRun
      · cases hRun
      · cases hRun
    · exact hFiles
  · rw [if_neg hSingle] at hRun
    split at hRun
    · cases hRun
    · split at hRun
      · cases hRun
      · cases hRun

end Run

/-- The result of a search is not the message if a text file has a match, and has a marker if the
search was stopped. -/
structure NeverDenies (u : UnicodeTables) (w : GrepWorld Path Matcher) (resolved : Path)
    (config : GrepConfig) : Prop where
  shown : ∀ plan text, prepare w resolved config = .ok plan →
    runGrepWalk u w resolved config = .ok text →
    (∃ path ∈ plan.files, w.isText path ∧ w.hasMatch plan.matcher path) → ¬ IsNoMatches text
  marked : ∀ plan sink text, prepare w resolved config = .ok plan →
    runSearch u w resolved config plan = .ok (some sink) → sink.truncated = true →
    runGrepWalk u w resolved config = .ok text → HasMarker text

/-- No file that reached the cap is cut short while it has all the matches. -/
def KeepsCap (u : UnicodeTables) (w : GrepWorld Path Matcher) (resolved : Path)
    (config : GrepConfig) (plan : GrepPlan Path Matcher) : Prop :=
  ∀ t ∈ walkEnds u w plan.matcher config.searcher (newSink w resolved config plan.singleFile)
    plan.files, ¬ t.LosesCap

/-- The one file with a hit, and it is text, is shown under the name of the message. -/
structure LoneName (u : UnicodeTables) (w : GrepWorld Path Matcher) (resolved : Path)
    (config : GrepConfig) (plan : GrepPlan Path Matcher) : Prop where
  mode : config.outputMode = .filesWithMatches
  room : plan.singleFile = true ∨ 1 < clampMaxResults config.maxResults
  lone : (plan.files.filter fun path =>
    firstIsMatch (w.calls plan.matcher config.searcher path)).map
      ((newSink w resolved config plan.singleFile).label u w.paths) = [noMatches]
  text : ∃ path ∈ plan.files, w.isText path ∧ w.hasMatch plan.matcher path

section Verdict

variable {resolved : Path} {config : GrepConfig} {plan : GrepPlan Path Matcher}
  {sink : GrepSink Path}

theorem listed_of_not_truncated (hPlan : prepare w resolved config = .ok plan)
    (hRun : runSearch u w resolved config plan = .ok (some sink))
    (hMode : config.outputMode = .filesWithMatches) :
    ∃ more rest, plan.files = more ++ rest ∧ FilesWalk w plan.matcher config.searcher more sink ∧
      (sink.stop = none → rest = []) := by
  rw [runSearch_some hPlan hRun]
  exact walk_listed hMode (prepare_files hPlan).1

theorem run_verdict (hPlan : prepare w resolved config = .ok plan)
    (hRun : runSearch u w resolved config plan = .ok (some sink)) :
    WalkVerdict u w plan.matcher plan.files
      (walkEnds u w plan.matcher config.searcher (newSink w resolved config plan.singleFile)
        plan.files) (newSink w resolved config plan.singleFile) sink := by
  rw [runSearch_some hPlan hRun]
  exact walk_verdict (prepare_files hPlan).1

omit [DecidableEq Path] in
theorem truncated_eq_false (hMode : sink.outputMode = .filesWithMatches) :
    sink.truncated = false ↔ sink.stop = none ∨ sink.singleFile = true := by
  have hOther : decide (sink.outputMode ≠ .content) = true := by
    rw [hMode]
    rfl
  rw [GrepSink.truncated, hOther, Bool.and_true]
  cases sink.stop with
  | none => exact iff_of_true rfl (.inl rfl)
  | some reason =>
    rw [Option.isSome_some, Bool.true_and, Bool.not_eq_false']
    exact (or_iff_right fun h => by cases h).symm

/-- Without a marker every file with a hit is listed. -/
theorem matchedFiles_eq (hPlan : prepare w resolved config = .ok plan)
    (hRun : runSearch u w resolved config plan = .ok (some sink))
    (hMode : config.outputMode = .filesWithMatches) (hTruncated : sink.truncated = false) :
    sink.matchedFiles = plan.files.filter fun path =>
      firstIsMatch (w.calls plan.matcher config.searcher path) := by
  have hVerdict := run_verdict hPlan hRun
  obtain ⟨more, rest, hFiles, hWalk, hRest⟩ := listed_of_not_truncated hPlan hRun hMode
  have hDone : rest = [] := by
    rcases (truncated_eq_false hWalk.mode).mp hTruncated with hNone | hSingle
    · exact hRest hNone
    · by_cases hNone : sink.stop = none
      · exact hRest hNone
      · -- The one file there is has reached the cap.
        have hMax := hWalk.stopped hNone
        rw [hVerdict.setup.maxResults, hWalk.listed] at hMax
        have hPos : 1 ≤ clampMaxResults config.maxResults :=
          one_le_clampMaxResults config.maxResults
        have hCap : (newSink w resolved config plan.singleFile).maxResults =
            clampMaxResults config.maxResults := rfl
        have hLe := List.length_filter_le
          (fun path => firstIsMatch (w.calls plan.matcher config.searcher path)) more
        have hPlanSingle : plan.singleFile = true := by
          rw [hVerdict.setup.singleFile] at hSingle
          exact hSingle
        have hLength : plan.files.length ≤ 1 := by
          rcases (prepare_files hPlan).2 hPlanSingle with hOne | hNil
          · rw [hOne]
            exact Nat.le_refl 1
          · rw [hNil]
            exact Nat.zero_le 1
        rw [hFiles, List.length_append] at hLength
        exact List.length_eq_zero_iff.mp (by omega)
  rw [hWalk.listed, hFiles, hDone, List.append_nil]

/-- A lone file with the name of the message is listed without a marker. -/
theorem LoneName.listed (h : LoneName u w resolved config plan)
    (hPlan : prepare w resolved config = .ok plan)
    (hRun : runSearch u w resolved config plan = .ok (some sink)) :
    sink.truncated = false ∧ sink.matchedFiles.map (sink.label u w.paths) = [noMatches] := by
  have hVerdict := run_verdict hPlan hRun
  obtain ⟨more, rest, hFiles, hWalk, hRest⟩ := listed_of_not_truncated hPlan hRun h.mode
  have hTruncated : sink.truncated = false := by
    refine (truncated_eq_false hWalk.mode).mpr ?_
    rcases h.room with hSingle | hRoom
    · exact .inr (hVerdict.setup.singleFile.trans hSingle)
    · refine .inl (by_contra fun hStop => ?_)
      have hMax := hWalk.stopped hStop
      have hOne := congrArg List.length h.lone
      rw [List.length_map, List.length_singleton, hFiles, List.filter_append,
        List.length_append] at hOne
      have hCap : sink.maxResults = clampMaxResults config.maxResults := hVerdict.setup.maxResults
      rw [hWalk.listed] at hMax
      omega
  refine ⟨hTruncated, ?_⟩
  rw [matchedFiles_eq hPlan hRun h.mode hTruncated, hVerdict.setup.label]
  exact h.lone

theorem resultCount_eq_zero (hVerdict : WalkVerdict u w plan.matcher plan.files
      (walkEnds u w plan.matcher config.searcher (newSink w resolved config plan.singleFile)
        plan.files) (newSink w resolved config plan.singleFile) sink)
    (hKeeps : KeepsCap u w resolved config plan) (hStop : sink.stop ≠ none)
    (hZero : sink.resultCount = 0) : sink.stop = some .byteBudget := by
  cases hReason : sink.stop with
  | none => exact absurd hReason hStop
  | some reason =>
    cases reason with
    | byteBudget => rfl
    | cap =>
      obtain ⟨t, hMem, hLoses⟩ := (hVerdict.capped hReason).mp hZero
      exact absurd hLoses (hKeeps t hMem)

/-- In every search that ends without an error: the result denies no match, and is marked if the
search was stopped, if and only if no file is cut short with the cap and all matches, and no list
is a lone file with the name of the message. -/
theorem neverDenies_iff (u : UnicodeTables) (w : GrepWorld Path Matcher) (resolved : Path)
    (config : GrepConfig) :
    NeverDenies u w resolved config ↔
      ∀ plan sink, prepare w resolved config = .ok plan →
        runSearch u w resolved config plan = .ok (some sink) →
        KeepsCap u w resolved config plan ∧ ¬ LoneName u w resolved config plan := by
  constructor
  · intro h plan sink hPlan hRun
    have hVerdict := run_verdict hPlan hRun
    have hText := runGrepWalk_eq hPlan hRun
    constructor
    · intro t hMem hLoses
      have hCap := hVerdict.lost ⟨t, hMem, hLoses⟩
      have hZero := (hVerdict.capped hCap).mpr ⟨t, hMem, hLoses⟩
      have hSetup := (walk_sameSetup (u := u) (w := w) (m := plan.matcher)
        (s := newSink w resolved config plan.singleFile) rfl config.searcher plan.files
        (prepare_files hPlan).1).2 t hMem
      have hMode : sink.outputMode = .content :=
        hVerdict.setup.outputMode.trans (hSetup.outputMode.symm.trans hLoses.mode)
      have hTruncated : sink.truncated = true := by
        rw [GrepSink.truncated, hCap, hMode]
        simp
      have hMarked := h.marked plan sink _ hPlan hRun hTruncated hText
      refine hMarked.not_isNoMatches (finishGrep_empty ?_ hZero config.pattern config.regex)
      rw [hCap]
      exact fun h => by cases h
    · intro hLone
      obtain ⟨hTruncated, hListed⟩ := hLone.listed hPlan hRun
      refine h.shown plan _ hPlan hText hLone.text (.inl ?_)
      have hMode : sink.outputMode = .filesWithMatches :=
        hVerdict.setup.outputMode.trans hLone.mode
      have hCount : sink.resultCount = 1 := by
        rw [GrepSink.resultCount, hMode, ← List.length_map (sink.label u w.paths), hListed]
        rfl
      have hShort : byteLen noMatches ≤ maxToolOutputBytes := by decide
      rw [searchResult, finishGrep, hCount, if_neg (fun h => by cases h.2),
        if_neg (Nat.succ_ne_zero 0), assembleGrepOutput, hTruncated, truncationMarker,
        if_neg Bool.false_ne_true, finishToolOutput, hMode]
      dsimp only
      rw [renderFiles, hListed, List.mergeSort_singleton, show joinLines [noMatches] = noMatches by
        simp [joinLines, List.intercalate], truncateToolOutput, truncateToolOutputAt, if_pos hShort]
  · intro h
    constructor
    · intro plan text hPlan hText hMatch
      obtain ⟨result, hRun, rfl⟩ := runSearch_of_ok hPlan hText
      cases result with
      | none =>
        obtain ⟨path, hMem, -⟩ := hMatch
        rw [runSearch_none hPlan hRun] at hMem
        exact absurd hMem List.not_mem_nil
      | some sink =>
        obtain ⟨hKeeps, hLone⟩ := h plan sink hPlan hRun
        have hVerdict := run_verdict hPlan hRun
        have hCount : sink.resultCount = 0 → sink.stop = some .byteBudget := by
          intro hZero
          refine resultCount_eq_zero hVerdict hKeeps (fun hNone => ?_) hZero
          obtain ⟨path, hMem, hText', hHas⟩ := hMatch
          have hPos := hVerdict.found hNone path hMem hText' hHas
          omega
        cases hTruncated : sink.truncated with
        | true =>
          exact (finishGrep_marked hTruncated hCount config.pattern config.regex).not_isNoMatches
        | false =>
          refine finishGrep_shown hTruncated hCount hVerdict.accounts (fun hMode hListed => ?_)
            config.pattern config.regex
          have hConfig : config.outputMode = .filesWithMatches :=
            hVerdict.setup.outputMode.symm.trans hMode
          have hOne := congrArg List.length hListed
          rw [List.length_map, List.length_singleton] at hOne
          rw [matchedFiles_eq hPlan hRun hConfig hTruncated, hVerdict.setup.label] at hListed
          refine hLone ⟨hConfig, ?_, hListed, hMatch⟩
          rcases (truncated_eq_false hMode).mp hTruncated with hNone | hSingle
          · obtain ⟨more, rest, -, hWalk, -⟩ := listed_of_not_truncated hPlan hRun hConfig
            have hBelow := hWalk.running hNone
            rw [hVerdict.setup.maxResults, hOne] at hBelow
            exact .inr hBelow
          · exact .inl (hVerdict.setup.singleFile.symm.trans hSingle)
    · intro plan sink text hPlan hRun hTruncated hText
      obtain ⟨hKeeps, -⟩ := h plan sink hPlan hRun
      rw [runGrepWalk_eq hPlan hRun] at hText
      obtain rfl := Except.ok.inj hText
      refine finishGrep_marked hTruncated (resultCount_eq_zero (run_verdict hPlan hRun) hKeeps
        fun hNone => ?_) config.pattern config.regex
      rw [GrepSink.truncated, hNone] at hTruncated
      cases hTruncated

end Verdict

/-! ## A match lost with its file -/

/-- Two files with a match: behind that of the first one, in its context, there is a NUL byte. -/
def sampleWorld : GrepWorld (List Char) Unit where
  paths := samplePaths
  pathNew name := name
  isFile _ := false
  buildMatcher _ _ _ := .ok ()
  compileGlob _ := .ok fun _ => true
  walk _ := .ok ([⟨"a".toList, "a".toList, true⟩, ⟨"b".toList, "b".toList, true⟩], none)
  calls _ _ path :=
    if path = "b".toList then [SinkCall.matched (some 1) [102, 10]]
    else [SinkCall.matched (some 1) [102, 10], SinkCall.binaryData 65536]
  readError _ _ _ := none
  isText path := path = "b".toList
  hasMatch _ _ := True
  walk_once root entries fatal h := by
    cases h
    decide
  text_calls m c path h := by
    rw [if_pos h]
    exact ⟨rfl, rfl⟩
  match_calls m c path h _ _ := by
    rw [if_pos h]
    rfl

def sampleGrep : GrepConfig where
  pattern := "f".toList
  regex := true
  ignoreCase := false
  context := 1
  outputMode := .content
  includeGlob := none
  maxResults := 1

/-- The file that reached the cap takes its match away, and the walk has stopped. -/
theorem sampleGrep_denies :
    ¬ NeverDenies sampleTables sampleWorld "dir".toList sampleGrep := by
  intro h
  have hText : runGrepWalk sampleTables sampleWorld "dir".toList sampleGrep = .ok noMatches := by
    decide +kernel
  refine h.shown ⟨(), false, ["a".toList, "b".toList], none⟩ noMatches rfl hText ?_ (.inl rfl)
  exact ⟨"b".toList, List.mem_cons_of_mem _ List.mem_cons_self, rfl, trivial⟩

end Choreographr.Tools.Grep
