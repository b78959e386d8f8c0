import Choreographr.Tools.EditFile
import Choreographr.Tools.Proofs.Sanitize

/-!
# What an edit leaves alone

The content of a file with uniform line breaks is its LF view with the break of the file in the
place of each newline. Substituting in the view is therefore substituting in the file, and what
lies outside the substituted spans is the same before and after.
-/

namespace Choreographr.Tools

open Lib

/-! ## Line breaks -/

/-- What a character of the LF view stands for in the file. -/
def lineBreak (ending : List Char) (c : Char) : List Char := if c = '\n' then ending else [c]

/-- Every LF has a CR in front of it, or none has. -/
def UniformBreaks (text : List Char) : Prop :=
  (∀ p, text[p]? = some '\n' → ∃ q, p = q + 1 ∧ text[q]? = some '\r') ∨ contains text crlf = false

theorem flatMap_lineBreak_lf (text : List Char) : text.flatMap (lineBreak ['\n']) = text := by
  induction text with
  | nil => rfl
  | cons c rest ih =>
    rw [List.flatMap_cons, ih, lineBreak]
    split
    · rename_i hEq
      rw [hEq]
      rfl
    · rfl

theorem restoreLineEndings_eq (text ending : List Char) :
    restoreLineEndings text ending = text.flatMap (lineBreak ending) := by
  unfold restoreLineEndings
  split
  · rename_i hLf
    rw [hLf, flatMap_lineBreak_lf]
  · exact replace_singleton '\n' ending text

theorem replace_of_not_contains {pat new text : List Char} (hPat : pat ≠ [])
    (h : contains text pat = false) : replace pat new text = text := by
  have hNone : matchIndices pat text = [] := by
    refine (matchIndices_eq_nil_iff hPat).mpr fun o hOccurs => ?_
    obtain ⟨rest, hRest⟩ := hOccurs
    refine of_decide_eq_false h ⟨text.take o, rest, ?_⟩
    rw [List.append_assoc, hRest, List.take_append_drop]
  have hSame := replace_substituted hPat new text
  rw [hNone] at hSame
  exact hSame.eq_of_zero

/-- A text that has a CR in front of every LF, taken apart. -/
inductive CrlfText : List Char → Prop
  | nil : CrlfText []
  | pair {rest : List Char} : CrlfText rest → CrlfText ('\r' :: '\n' :: rest)
  | char {c : Char} {rest : List Char} : c ≠ '\n' → ¬ crlf <+: c :: rest → CrlfText rest →
      CrlfText (c :: rest)

theorem crlfText_of_breaks (text : List Char)
    (h : ∀ p, text[p]? = some '\n' → ∃ q, p = q + 1 ∧ text[q]? = some '\r') : CrlfText text := by
  have hFirst : ∀ {c : Char} {rest : List Char}, text = c :: rest → c ≠ '\n' := by
    rintro c rest rfl rfl
    obtain ⟨q, hQ, -⟩ := h 0 rfl
    cases hQ
  induction text using List.twoStepInduction with
  | nil => exact .nil
  | singleton c => exact .char (hFirst rfl) (by simp [crlf]) .nil
  | cons_cons c d rest ih ih' =>
    by_cases hPair : c = '\r' ∧ d = '\n'
    · obtain ⟨rfl, rfl⟩ := hPair
      have hRest : ∀ p, rest[p]? = some '\n' → ∃ q, p = q + 1 ∧ rest[q]? = some '\r' := by
        intro p hP
        obtain ⟨q, hQ, hCr⟩ := h (p + 2) hP
        obtain rfl : q = p + 1 := by omega
        cases p with
        | zero => cases hCr
        | succ p => exact ⟨p, rfl, hCr⟩
      refine .pair (ih hRest ?_)
      rintro c rest rfl rfl
      obtain ⟨q, hQ, -⟩ := hRest 0 rfl
      cases hQ
    · have hRest : ∀ p, (d :: rest)[p]? = some '\n' →
          ∃ q, p = q + 1 ∧ (d :: rest)[q]? = some '\r' := by
        intro p hP
        obtain ⟨q, hQ, hCr⟩ := h (p + 1) hP
        obtain rfl : q = p := by omega
        cases q with
        | zero => exact absurd ⟨by simpa using hCr, by simpa using hP⟩ hPair
        | succ q => exact ⟨q, rfl, hCr⟩
      refine .char (hFirst rfl) ?_ (ih' d hRest ?_)
      · intro hPrefix
        simp only [crlf, List.cons_prefix_cons] at hPrefix
        exact hPair ⟨hPrefix.1.symm, hPrefix.2.1.symm⟩
      · rintro c rest' hEq rfl
        cases hEq
        obtain ⟨q, hQ, -⟩ := hRest 0 rfl
        cases hQ

theorem replace_crlf_flatMap {text : List Char} (h : CrlfText text) :
    (replace crlf ['\n'] text).flatMap (lineBreak crlf) = text := by
  unfold replace
  induction h with
  | nil => rfl
  | pair _ ih => exact congrArg (fun rest => '\r' :: '\n' :: rest) ih
  | char hChar hPrefix _ ih =>
    rw [replaceFrom, if_neg (by simpa using hPrefix), List.flatMap_cons, ih, lineBreak,
      if_neg hChar]
    rfl

/-- A file with uniform line breaks is its LF view, written with its own line breaks. -/
theorem toLf_flatMap {file : List Char} (h : UniformBreaks file) :
    (toLf file).flatMap (lineBreak (detectLineEnding file)) = file := by
  unfold toLf detectLineEnding
  cases hCrlf : contains file crlf with
  | false =>
    rw [if_neg (by simp), flatMap_lineBreak_lf]
    split
    · exact replace_of_not_contains (by decide) hCrlf
    · rfl
  | true =>
    have hBreaks := h.resolve_right (by simp [hCrlf])
    have hCr : file.contains '\r' = true := by
      have hInfix : crlf <:+: file := of_decide_eq_true hCrlf
      exact List.contains_iff_mem.mpr (hInfix.subset (by simp [crlf]))
    rw [if_pos rfl, if_pos hCr]
    exact replace_crlf_flatMap (crlfText_of_breaks file hBreaks)

/-! ## Edits -/

theorem nearestLoop_mem (content : List Char) (nearLine : Nat) (found : List Nat)
    (best : Nat × Option Nat) :
    (nearestLoop content nearLine best found).1 = best.1 ∨
      (nearestLoop content nearLine best found).1 ∈ found := by
  induction found generalizing best with
  | nil => exact .inl rfl
  | cons offset rest ih =>
    obtain ⟨best, bestDist⟩ := best
    simp only [nearestLoop]
    split
    · rcases ih (offset, some (absDiff (lineOfOffset content offset) nearLine)) with hEq | hMem
      · exact .inr (hEq ▸ List.mem_cons_self)
      · exact .inr (List.mem_cons_of_mem offset hMem)
    · rcases ih (best, bestDist) with hEq | hMem
      · exact .inl hEq
      · exact .inr (List.mem_cons_of_mem offset hMem)

theorem headD_mem {found : List Nat} (h : found ≠ []) : found.headD 0 ∈ found := by
  cases found with
  | nil => exact absurd rfl h
  | cons offset rest => exact List.mem_cons_self

theorem nearestMatch_mem (content : List Char) (nearLine : Nat) {found : List Nat}
    (h : found ≠ []) : nearestMatch content found nearLine ∈ found := by
  rcases nearestLoop_mem content nearLine found (found.headD 0, none) with hEq | hMem
  · rw [nearestMatch, hEq]
    exact headD_mem h
  · exact hMem

/-- Where an edit of one occurrence replaces. -/
def editOffset (content : List Char) (edit : TextEditArgs) : Nat :=
  let found := matchIndices (toLf edit.oldText) content
  if found.length = 1 then found.headD 0
  else nearestMatch content found (edit.nearLine.getD 0)

variable {index : Nat} {content content' : List Char} {edit : TextEditArgs} {n : Nat}

theorem editOffset_mem (h : matchIndices (toLf edit.oldText) content ≠ []) :
    editOffset content edit ∈ matchIndices (toLf edit.oldText) content := by
  unfold editOffset
  dsimp only
  split
  · exact headD_mem h
  · exact nearestMatch_mem content _ h

/-- What an edit is refused for: no old text, no change, no match, or several matches and nothing
to choose among them. -/
def EditRefused (content : List Char) (edit : TextEditArgs) : Prop :=
  toLf edit.oldText = [] ∨ toLf edit.oldText = toLf edit.newText ∨
    (∀ p, ¬ OccursAt (toLf edit.oldText) content p) ∨
    (edit.replaceAll ≠ some true ∧ edit.nearLine = none ∧
      1 < (matchIndices (toLf edit.oldText) content).length)

/-- What an edit does that is not refused: it replaces every match, or the one it is about. -/
def EditDone (content : List Char) (edit : TextEditArgs) (n : Nat) (content' : List Char) : Prop :=
  (edit.replaceAll = some true ∧ n = (matchIndices (toLf edit.oldText) content).length ∧
      content' = replace (toLf edit.oldText) (toLf edit.newText) content) ∨
    (edit.replaceAll ≠ some true ∧ n = 1 ∧
      content' = replaceRange content (editOffset content edit) (toLf edit.oldText).length
        (toLf edit.newText))

theorem getD_false_iff (flag : Option Bool) : flag.getD false = true ↔ flag = some true := by
  cases flag <;> simp

theorem editRefused_iff : EditRefused content edit ↔
    toLf edit.oldText = [] ∨ toLf edit.oldText = toLf edit.newText ∨
      matchIndices (toLf edit.oldText) content = [] ∨
      (edit.replaceAll ≠ some true ∧ edit.nearLine = none ∧
        (matchIndices (toLf edit.oldText) content).length ≠ 1) := by
  unfold EditRefused
  by_cases hOld : toLf edit.oldText = []
  · simp only [hOld, true_or]
  rw [← matchIndices_eq_nil_iff hOld]
  by_cases hFound : matchIndices (toLf edit.oldText) content = []
  · simp only [hFound, true_or, or_true]
  · have hPos := List.length_pos_of_ne_nil hFound
    have hMany : 1 < (matchIndices (toLf edit.oldText) content).length ↔
        (matchIndices (toLf edit.oldText) content).length ≠ 1 := by omega
    rw [hMany]

/-- An edit is refused, or does what it is to do. -/
theorem applyTextEdit_ok_iff : applyTextEdit index content edit = .ok (content', n) ↔
    ¬ EditRefused content edit ∧ EditDone content edit n content' := by
  simp only [editRefused_iff, EditDone, editOffset, applyTextEdit, ne_eq, ← getD_false_iff]
  by_cases hOld : toLf edit.oldText = []
  · simp [hOld]
  by_cases hNew : toLf edit.oldText = toLf edit.newText
  · rw [if_neg hOld]
    simp [hNew]
  by_cases hFound : matchIndices (toLf edit.oldText) content = []
  · simp [hOld, hNew, hFound]
  rw [if_neg hOld, if_neg hNew, if_neg hFound]
  by_cases hAll : edit.replaceAll.getD false = true
  · rw [if_pos hAll]
    simp [hOld, hNew, hFound, hAll, and_comm, eq_comm]
  rw [if_neg hAll]
  by_cases hOne : (matchIndices (toLf edit.oldText) content).length = 1
  · rw [if_pos hOne]
    simp [hOld, hNew, hFound, hAll, hOne, and_comm, eq_comm]
  · rw [if_neg hOne]
    cases hNear : edit.nearLine with
    | none => simp [hAll, hOne]
    | some nearLine => simp [hOld, hNew, hFound, hAll, hOne, and_comm, eq_comm]

theorem EditDone.substituted (hOpen : ¬ EditRefused content edit)
    (h : EditDone content edit n content') :
    Substituted (toLf edit.oldText) (toLf edit.newText) n content content' := by
  rw [editRefused_iff, not_or, not_or, not_or] at hOpen
  rcases h with ⟨-, rfl, rfl⟩ | ⟨-, rfl, rfl⟩
  · exact replace_substituted hOpen.1 _ content
  · exact (occursAt_of_mem_matchIndices (editOffset_mem hOpen.2.2.1)).substituted
      (toLf edit.newText)

/-- The edits have been applied one after the other, each in what the ones before it have left,
`n` replacements in all. Written with `render`, what an edit does not replace is the same before
and after. -/
inductive EditsApplied (render : Char → List Char) :
    List TextEditArgs → Nat → List Char → List Char → Prop
  | nil (text : List Char) : EditsApplied render [] 0 text text
  | cons {edit : TextEditArgs} {rest : List TextEditArgs} {n m : Nat}
      {before mid after : List Char} : ¬ EditRefused before edit → EditDone before edit n mid →
      Substituted ((toLf edit.oldText).flatMap render) ((toLf edit.newText).flatMap render) n
        (before.flatMap render) (mid.flatMap render) →
      EditsApplied render rest m mid after → EditsApplied render (edit :: rest) (n + m) before after

variable {render : Char → List Char} {edits : List TextEditArgs}

/-- The loop keeps count of the replacements and of the length. -/
theorem applyEditsFrom_applied {summary summary' : AppliedEditSummary}
    (h : applyEditsFrom index summary edits = .ok summary') :
    ∃ n, EditsApplied render edits n summary.content summary'.content ∧
      summary'.replacementCount = summary.replacementCount + n ∧
      summary'.charDelta = summary.charDelta +
        ((summary'.content.length : Int) - summary.content.length) := by
  induction edits generalizing index summary with
  | nil =>
    cases h
    exact ⟨0, .nil _, rfl, by simp⟩
  | cons edit rest ih =>
    simp only [applyEditsFrom] at h
    split at h
    · cases h
    rename_i content n hEdit
    obtain ⟨hOpen, hDone⟩ := applyTextEdit_ok_iff.mp hEdit
    have hSubst := hDone.substituted hOpen
    obtain ⟨m, hApplied, hCount, hDelta⟩ := ih h
    have hLength := hSubst.length_eq
    refine ⟨n + m, .cons hOpen hDone (hSubst.flatMap render) hApplied, ?_, ?_⟩
    · rw [hCount]
      exact Nat.add_assoc _ _ _
    · rw [hDelta]
      change summary.charDelta + _ * (n : Int) + _ = _
      rw [← hLength]
      change _ + _ + ((summary'.content.length : Int) - content.length) = _
      omega

theorem applyEditsFrom_of_applied {before after : List Char}
    (h : EditsApplied render edits n before after) {summary : AppliedEditSummary}
    (hContent : summary.content = before) :
    ∃ summary', applyEditsFrom index summary edits = .ok summary' := by
  induction h generalizing index summary with
  | nil text => exact ⟨summary, rfl⟩
  | cons hOpen hDone _ _ ih =>
    rw [applyEditsFrom, hContent, applyTextEdit_ok_iff.mpr ⟨hOpen, hDone⟩]
    exact ih rfl

/-! ## The file -/

variable {env : EditEnv} {args : EditFileArgs} {file : List Char}

/-- What a call fails for. -/
def CallRefused (env : EditEnv) (args : EditFileArgs) (file : List Char) : Prop :=
  trimText args.path = [] ∨ args.edits = [] ∨
    (∃ expected, args.expectedSha256 = some expected ∧
      env.sha256Hex file ≠ (trimText expected).map Char.toLower) ∨
    (¬ ∃ n after, EditsApplied (lineBreak (detectLineEnding file)) args.edits n (toLf file) after) ∨
    (args.dryRun ≠ some true ∧ env.writeError ≠ none)

/-- A call ends with an error and the file as it was, or with a report on the edits of its LF
view. -/
theorem executeEditFileTool_cases (env : EditEnv) (args : EditFileArgs) (file : List Char) :
    (CallRefused env args file ∧ ∃ e, executeEditFileTool env args file = (.error e, file)) ∨
      (¬ CallRefused env args file ∧
        ∃ action summary, applyTextEdits (toLf file) args.edits = .ok summary ∧
          executeEditFileTool env args file =
            (.ok (formatEditResult env action (sanitizeName env.tables env.label) summary),
              if args.dryRun.getD false then file
              else restoreLineEndings summary.content (detectLineEnding file))) := by
  unfold executeEditFileTool
  split
  · rename_i hPath
    exact .inl ⟨.inl hPath, _, rfl⟩
  rename_i hPath
  split
  · rename_i hEdits
    exact .inl ⟨.inr (.inl hEdits), _, rfl⟩
  rename_i hSome
  unfold applyEditFileLocked
  dsimp only
  split
  · rename_i expected hMismatch
    obtain ⟨hExpected, hNe⟩ := Option.filter_eq_some_iff.mp hMismatch
    exact .inl ⟨.inr (.inr (.inl ⟨expected, hExpected, by simpa using hNe⟩)), _, rfl⟩
  rename_i hMatch
  have hHash : ¬ ∃ expected, args.expectedSha256 = some expected ∧
      env.sha256Hex file ≠ (trimText expected).map Char.toLower := by
    rintro ⟨expected, hExpected, hNe⟩
    rw [Option.filter_eq_none_iff] at hMatch
    exact hMatch expected hExpected (decide_eq_true hNe)
  cases hEdits : applyTextEdits (toLf file) args.edits with
  | error e =>
    refine .inl ⟨.inr (.inr (.inr (.inl ?_))), _, rfl⟩
    rintro ⟨n, after, hApplied⟩
    obtain ⟨summary, hOk⟩ := applyEditsFrom_of_applied hApplied (rfl : (⟨toLf file,
      some (toLf file), 0, 0⟩ : AppliedEditSummary).content = toLf file)
    rw [applyTextEdits, hOk] at hEdits
    cases hEdits
  | ok summary =>
    obtain ⟨n, hApplied, -⟩ :=
      @applyEditsFrom_applied _ (lineBreak (detectLineEnding file)) _ _ _ hEdits
    have hRefused : CallRefused env args file ↔
        args.dryRun ≠ some true ∧ env.writeError ≠ none := by
      unfold CallRefused
      rw [or_iff_right hPath, or_iff_right hSome, or_iff_right hHash,
        or_iff_right (not_not.mpr ⟨n, _, hApplied⟩)]
    rw [hRefused, ne_eq, ← getD_false_iff]
    dsimp only
    split
    · rename_i hDry
      exact .inr ⟨fun hBoth => hBoth.1 hDry, _, summary, rfl, rfl⟩
    rename_i hWet
    cases hWrite : env.writeError with
    | some error => exact .inl ⟨⟨hWet, by simp⟩, _, rfl⟩
    | none => exact .inr ⟨fun hBoth => hBoth.2 rfl, _, summary, rfl, rfl⟩

/-- What a call does to a file. -/
structure EditFrame (env : EditEnv) (args : EditFileArgs) (file : List Char) : Prop where
  /-- The file is its LF view, written with its own line breaks. -/
  view : file = (toLf file).flatMap (lineBreak (detectLineEnding file))
  /-- A call fails for these reasons alone, and leaves the file as it was. -/
  fails_iff : (∃ e, (executeEditFileTool env args file).1 = .error e) ↔ CallRefused env args file
  failed : ∀ e, (executeEditFileTool env args file).1 = .error e →
    (executeEditFileTool env args file).2 = file
  previewed : args.dryRun = some true → (executeEditFileTool env args file).2 = file
  /-- Otherwise the edits are applied to the LF view, which is written with the line breaks of
  the file: nothing else changes there. -/
  edited : ∀ report, (executeEditFileTool env args file).1 = .ok report →
    ∃ action summary,
      report = formatEditResult env action (sanitizeName env.tables env.label) summary ∧
      EditsApplied (lineBreak (detectLineEnding file)) args.edits summary.replacementCount
        (toLf file) summary.content ∧
      summary.charDelta = (summary.content.length : Int) - (toLf file).length ∧
      (args.dryRun ≠ some true → (executeEditFileTool env args file).2 =
        summary.content.flatMap (lineBreak (detectLineEnding file)))

/-- A file with uniform line breaks is left alone by a call that fails or previews; otherwise its
LF view is edited and written with its own line breaks, and nothing else changes. -/
theorem editFile_frame (env : EditEnv) (args : EditFileArgs) (file : List Char)
    (hUniform : UniformBreaks file) : EditFrame env args file := by
  have hView := (toLf_flatMap hUniform).symm
  rcases executeEditFileTool_cases env args file with
    ⟨hRefused, e, hCall⟩ | ⟨hOpen, action, summary, hEdits, hCall⟩
  · refine ⟨hView, ?_, ?_, ?_, ?_⟩ <;> rw [hCall]
    · exact ⟨fun _ => hRefused, fun _ => ⟨e, rfl⟩⟩
    · exact fun _ _ => rfl
    · exact fun _ => rfl
    · exact fun _ hOk => (by cases hOk)
  · refine ⟨hView, ?_, ?_, ?_, ?_⟩ <;> rw [hCall]
    · exact ⟨fun ⟨_, hError⟩ => (by cases hError), fun hRefused => absurd hRefused hOpen⟩
    · exact fun _ hError => (by cases hError)
    · exact fun hDry => if_pos ((getD_false_iff _).mpr hDry)
    · intro report hOk
      obtain rfl : _ = report := Except.ok.inj hOk
      obtain ⟨n, hApplied, hCount, hDelta⟩ := applyEditsFrom_applied hEdits
      rw [Nat.zero_add] at hCount
      rw [Int.zero_add] at hDelta
      refine ⟨action, summary, rfl, hCount ▸ hApplied, hDelta, fun hWet => ?_⟩
      rw [if_neg fun hDry => hWet ((getD_false_iff _).mp hDry)]
      exact restoreLineEndings_eq _ _

/-- A disk that takes every write, and no diff. -/
def sampleEnv : EditEnv where
  tables := sampleTables
  sha256Hex content := content
  resolved := "/w/f".toList
  label := "f".toList
  generateDiff _ _ _ := []
  writeError := none

def sampleEdit : EditFileArgs where
  path := "f".toList
  edits := [{ oldText := "b\n".toList, newText := "B\nc\n".toList }]

theorem sampleEdit_frame : EditFrame sampleEnv sampleEdit "a\r\nb\r\n".toList ∧
    (executeEditFileTool sampleEnv sampleEdit "a\r\nb\r\n".toList).2 =
      "a\r\nB\r\nc\r\n".toList := by
  have hUniform : UniformBreaks "a\r\nb\r\n".toList := by
    have hEach : ∀ p < 6, "a\r\nb\r\n".toList[p]? = some '\n' →
        ∃ q < 6, p = q + 1 ∧ "a\r\nb\r\n".toList[q]? = some '\r' := by
      decide
    refine .inl fun p hP => ?_
    obtain ⟨hLt, -⟩ := List.getElem?_eq_some_iff.mp hP
    obtain ⟨q, -, hCr⟩ := hEach p hLt hP
    exact ⟨q, hCr⟩
  exact ⟨editFile_frame sampleEnv sampleEdit _ hUniform, by decide +kernel⟩

end Choreographr.Tools
