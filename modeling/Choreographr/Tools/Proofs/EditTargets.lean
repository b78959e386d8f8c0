import Choreographr.Tools.Proofs.EditFile

/-!
# Which occurrence an edit replaces

Every character of the text keeps the number of the line it had in the file; what an edit puts
in is given the line of what it replaces. The search of the tool finds matches that do not
overlap and counts the lines of the text as edited so far, so its choice is the one that was
asked for when no occurrence starts inside a match and no match has moved to another line.
-/

namespace Choreographr.Tools

open Lib

/-! ## Lines of the file -/

/-- The characters with their line numbers. -/
def numberedFrom (line : Nat) : List Char → List (Char × Nat)
  | [] => []
  | c :: rest => (c, line) :: numberedFrom (if c = '\n' then line + 1 else line) rest

/-- The characters with the line numbers that `read_file` shows. -/
def numbered (content : List Char) : List (Char × Nat) := numberedFrom 1 content

def textOf (tracked : List (Char × Nat)) : List Char := tracked.map Prod.fst

/-- The line of a position in the file as it was. -/
def fileLine (tracked : List (Char × Nat)) (p : Nat) : Nat := (tracked[p]?.map Prod.snd).getD 0

/-- An edit, with the lines kept. -/
def trackEdit (tracked : List (Char × Nat)) (edit : TextEditArgs) : List (Char × Nat) :=
  let oldText := toLf edit.oldText
  let newText := toLf edit.newText
  if edit.replaceAll.getD false then
    replaceFrom Prod.fst oldText (fun b => newText.map fun c => (c, b.2)) 0 tracked
  else
    let offset := editOffset (textOf tracked) edit
    tracked.take offset ++ newText.map (fun c => (c, fileLine tracked offset)) ++
      tracked.drop (offset + oldText.length)

def trackEdits (tracked : List (Char × Nat)) (edits : List TextEditArgs) : List (Char × Nat) :=
  edits.foldl trackEdit tracked

/-! ## The law and its condition -/

variable (tracked : List (Char × Nat)) (edit : TextEditArgs)

/-- The old text occurs once, overlapping occurrences counted. -/
def OccursOnce (oldText content : List Char) : Prop :=
  ∃ p, OccursAt oldText content p ∧ ∀ q, OccursAt oldText content q → q = p

/-- The edit has replaced the occurrence whose line in the file is nearest. -/
def ReplacesNearest (nearLine : Nat) (content' : List Char) : Prop :=
  ∃ offset, OccursAt (toLf edit.oldText) (textOf tracked) offset ∧
    content' = replaceRange (textOf tracked) offset (toLf edit.oldText).length
      (toLf edit.newText) ∧
    ∀ p, OccursAt (toLf edit.oldText) (textOf tracked) p →
      absDiff (fileLine tracked offset) nearLine ≤ absDiff (fileLine tracked p) nearLine

/-- The edit has replaced what it was to replace. -/
def Targeted (content' : List Char) : Prop :=
  edit.replaceAll = some true ∨
    ((edit.nearLine = none → OccursOnce (toLf edit.oldText) (textOf tracked)) ∧
      ∀ nearLine, edit.nearLine = some nearLine → ReplacesNearest tracked edit nearLine content')

/-- No occurrence starts inside a match. -/
def NoOverlap (oldText content : List Char) : Prop :=
  ∀ o ∈ matchIndices oldText content, ∀ p, OccursAt oldText content p → o ≤ p →
    p < o + oldText.length → p = o

/-- No match has moved to another line. -/
def LinesKept (oldText : List Char) : Prop :=
  ∀ o ∈ matchIndices oldText (textOf tracked),
    fileLine tracked o = lineOfOffset (textOf tracked) o

variable {tracked edit} {content content' oldText : List Char} {index n : Nat}

/-! ## The tracked text is the text -/

theorem textOf_numbered (content : List Char) : textOf (numbered content) = content := by
  have hFrom : ∀ line, textOf (numberedFrom line content) = content := by
    induction content with
    | nil => exact fun _ => rfl
    | cons c rest ih => exact fun line => congrArg (c :: ·) (ih _)
  exact hFrom 1

theorem map_fst_map_pair (text : List Char) (line : Nat) :
    (text.map fun c => (c, line)).map Prod.fst = text := by
  rw [List.map_map]
  exact List.map_id text

theorem textOf_trackEdit (h : applyTextEdit index (textOf tracked) edit = .ok (content', n)) :
    textOf (trackEdit tracked edit) = content' := by
  obtain ⟨-, ⟨hAll, -, rfl⟩ | ⟨hAll, -, rfl⟩⟩ := applyTextEdit_ok_iff.mp h
  · rw [trackEdit, hAll]
    exact map_replaceFrom (fun b => map_fst_map_pair _ b.2) 0 tracked
  · rw [trackEdit, if_neg fun hFlag => hAll ((getD_false_iff _).mp hFlag)]
    simp only [textOf, replaceRange, List.map_append, List.map_take, List.map_drop,
      map_fst_map_pair]

theorem textOf_trackEdits {edits : List TextEditArgs} {summary summary' : AppliedEditSummary}
    (hText : textOf tracked = summary.content)
    (h : applyEditsFrom index summary edits = .ok summary') :
    textOf (trackEdits tracked edits) = summary'.content := by
  induction edits generalizing index summary tracked with
  | nil =>
    cases h
    exact hText
  | cons edit rest ih =>
    simp only [applyEditsFrom] at h
    split at h
    · cases h
    rename_i content n hEdit
    rw [← hText] at hEdit
    exact ih (textOf_trackEdit hEdit) h

/-! ## The choice -/

/-- The search prefers no match to its choice. -/
theorem nearestLoop_le (content : List Char) (nearLine : Nat) (found : List Nat) (best : Nat) :
    absDiff (lineOfOffset content
          (nearestLoop content nearLine
            (best, some (absDiff (lineOfOffset content best) nearLine)) found).1) nearLine ≤
        absDiff (lineOfOffset content best) nearLine ∧
      ∀ o ∈ found, absDiff (lineOfOffset content
          (nearestLoop content nearLine
            (best, some (absDiff (lineOfOffset content best) nearLine)) found).1) nearLine ≤
        absDiff (lineOfOffset content o) nearLine := by
  induction found generalizing best with
  | nil => exact ⟨Nat.le_refl _, by simp⟩
  | cons offset rest ih =>
    simp only [nearestLoop, Option.all_some, decide_eq_true_eq]
    split
    · rename_i hCloser
      obtain ⟨hBest, hRest⟩ := ih offset
      refine ⟨hBest.trans hCloser.le, ?_⟩
      intro o hMem
      rcases List.mem_cons.mp hMem with rfl | hTail
      · exact hBest
      · exact hRest o hTail
    · rename_i hNot
      obtain ⟨hBest, hRest⟩ := ih best
      refine ⟨hBest, ?_⟩
      intro o hMem
      rcases List.mem_cons.mp hMem with rfl | hTail
      · exact hBest.trans (Nat.le_of_not_lt hNot)
      · exact hRest o hTail

theorem nearestMatch_le (content : List Char) (nearLine : Nat) {found : List Nat} {o : Nat}
    (h : o ∈ found) :
    absDiff (lineOfOffset content (nearestMatch content found nearLine)) nearLine ≤
      absDiff (lineOfOffset content o) nearLine := by
  cases found with
  | nil => cases h
  | cons offset rest =>
    obtain ⟨hBest, hRest⟩ := nearestLoop_le content nearLine rest offset
    rcases List.mem_cons.mp h with rfl | hTail
    · exact hBest
    · exact hRest o hTail

theorem mem_matchIndices_of_occursAt (hOld : oldText ≠ []) (hApart : NoOverlap oldText content)
    {p : Nat} (h : OccursAt oldText content p) : p ∈ matchIndices oldText content := by
  rcases exists_match_of_occursAt 0 0 hOld h with hLt | ⟨o, hMem, hLe, hGt⟩
  · exact absurd hLt (Nat.not_lt_zero p)
  · rw [Nat.zero_add] at hLe hGt
    rwa [hApart o hMem p h hLe hGt]

theorem occursOnce_iff (hOld : oldText ≠ []) (hOne : (matchIndices oldText content).length = 1) :
    OccursOnce oldText content ↔ NoOverlap oldText content := by
  obtain ⟨o, hFound⟩ := List.length_eq_one_iff.mp hOne
  have hOccurs : OccursAt oldText content o :=
    occursAt_of_mem_matchIndices (hFound ▸ List.mem_singleton_self o)
  constructor
  · rintro ⟨p, -, hOnly⟩ o' hMem q hQ - -
    rw [hOnly q hQ, hOnly o' (occursAt_of_mem_matchIndices hMem)]
  · intro hApart
    refine ⟨o, hOccurs, fun q hQ => ?_⟩
    have hMem := mem_matchIndices_of_occursAt hOld hApart hQ
    rw [hFound] at hMem
    exact List.mem_singleton.mp hMem

/-- The offset of an edit is that of a match, and none is nearer in the text as it stands. -/
theorem editOffset_le {nearLine o : Nat} (hNear : edit.nearLine = some nearLine)
    (h : o ∈ matchIndices (toLf edit.oldText) content) :
    absDiff (lineOfOffset content (editOffset content edit)) nearLine ≤
      absDiff (lineOfOffset content o) nearLine := by
  unfold editOffset
  dsimp only
  split
  · rename_i hOne
    obtain ⟨only, hFound⟩ := List.length_eq_one_iff.mp hOne
    rw [hFound] at h ⊢
    rw [List.mem_singleton.mp h]
    exact Nat.le_refl _
  · rw [hNear]
    exact nearestMatch_le content nearLine h

/-! ## The law -/

/-- After any edits of a call, the next one hits what it was to hit if it replaces everything.
Otherwise it does when no occurrence of its old text starts inside a match and, if a line has to
choose among several matches, none of them has moved to another line; an edit that goes by no
line needs the first. -/
theorem edit_targeted (file : List Char) (before : List TextEditArgs) (edit : TextEditArgs)
    (summary : AppliedEditSummary) (content' : List Char) (n : Nat)
    (hBefore : applyTextEdits (toLf file) before = .ok summary)
    (hEdit : applyTextEdit before.length summary.content edit = .ok (content', n)) :
    ((edit.replaceAll ≠ some true → NoOverlap (toLf edit.oldText) summary.content ∧
          (edit.nearLine ≠ none → 1 < (matchIndices (toLf edit.oldText) summary.content).length →
            LinesKept (trackEdits (numbered (toLf file)) before) (toLf edit.oldText))) →
        Targeted (trackEdits (numbered (toLf file)) before) edit content') ∧
      (edit.nearLine = none →
        (Targeted (trackEdits (numbered (toLf file)) before) edit content' ↔
          (edit.replaceAll ≠ some true → NoOverlap (toLf edit.oldText) summary.content))) := by
  have hText := textOf_trackEdits (textOf_numbered (toLf file)) hBefore
  obtain ⟨hOpen, hDone⟩ := applyTextEdit_ok_iff.mp hEdit
  rw [editRefused_iff, not_or, not_or, not_or] at hOpen
  obtain ⟨hOld, -, hFound, hChoice⟩ := hOpen
  rcases hDone with ⟨hAll, -, -⟩ | ⟨hNotAll, -, rfl⟩
  · exact ⟨fun _ => .inl hAll, fun _ => ⟨fun _ hNot => absurd hAll hNot, fun _ => .inl hAll⟩⟩
  -- Without a line there is one match.
  have hOnce : edit.nearLine = none → (OccursOnce (toLf edit.oldText) summary.content ↔
      NoOverlap (toLf edit.oldText) summary.content) := by
    intro hNone
    refine occursOnce_iff hOld ?_
    by_contra hMany
    exact hChoice ⟨hNotAll, hNone, hMany⟩
  constructor
  · intro hGuard
    obtain ⟨hApart, hKept⟩ := hGuard hNotAll
    refine .inr ⟨fun hNone => ?_, fun nearLine hNear => ?_⟩
    · rw [hText]
      exact (hOnce hNone).mpr hApart
    · unfold ReplacesNearest
      rw [hText]
      have hMem := @editOffset_mem _ _ hFound
      refine ⟨editOffset summary.content edit, occursAt_of_mem_matchIndices hMem, rfl,
        fun p hP => ?_⟩
      have hMatch := mem_matchIndices_of_occursAt hOld hApart hP
      rcases Nat.lt_or_ge 1 (matchIndices (toLf edit.oldText) summary.content).length with
        hMany | hFew
      · have hLines := hKept (by simp [hNear]) hMany
        unfold LinesKept at hLines
        rw [hText] at hLines
        rw [hLines _ hMem, hLines p hMatch]
        exact editOffset_le hNear hMatch
      · have hPos := List.length_pos_of_ne_nil hFound
        obtain ⟨o, hO⟩ := List.length_eq_one_iff.mp (by omega :
          (matchIndices (toLf edit.oldText) summary.content).length = 1)
        rw [hO] at hMem hMatch
        rw [List.mem_singleton.mp hMem, List.mem_singleton.mp hMatch]
  · intro hNone
    rw [Targeted, hText, or_iff_right hNotAll, hOnce hNone]
    exact ⟨fun hBoth _ => hBoth.1 hNone, fun hGuard => ⟨fun _ => hGuard hNotAll, by simp [hNone]⟩⟩

theorem uniqueEdit_targeted :
    Targeted (trackEdits (numbered (toLf "a b c".toList)) [])
        { oldText := ['b'], newText := ['B'] } "a B c".toList ↔
      ((none : Option Bool) ≠ some true → NoOverlap (toLf ['b']) "a b c".toList) :=
  (edit_targeted "a b c".toList [] { oldText := ['b'], newText := ['B'] }
    ⟨"a b c".toList, some "a b c".toList, 0, 0⟩ "a B c".toList 1 rfl rfl).2 rfl

/-- Line 2 and line 6 of this file read `foo`. -/
def shiftedFile : List Char := "h\nfoo\nm\nm\nm\nfoo\n".toList

/-- The first edit adds three lines, the second one asks for the line that was the sixth. -/
def addLines : TextEditArgs := { oldText := ['h'], newText := "h\nh\nh\nh".toList }

def sixthLine : TextEditArgs :=
  { oldText := "foo".toList, newText := "bar".toList, nearLine := some 6 }

/-- The lines that the first edit adds make the second one replace the wrong occurrence. -/
theorem shifted_not_targeted :
    ¬ ∀ (file : List Char) (before : List TextEditArgs) (edit : TextEditArgs)
      (summary : AppliedEditSummary) (content' : List Char) (n : Nat),
      applyTextEdits (toLf file) before = .ok summary →
      applyTextEdit before.length summary.content edit = .ok (content', n) →
      Targeted (trackEdits (numbered (toLf file)) before) edit content' := by
  intro hClaim
  have hTargeted := hClaim shiftedFile [addLines] sixthLine
    ⟨"h\nh\nh\nh\nfoo\nm\nm\nm\nfoo\n".toList, some shiftedFile, 1, 6⟩
    "h\nh\nh\nh\nbar\nm\nm\nm\nfoo\n".toList 1 rfl rfl
  obtain ⟨offset, hOccurs, hContent, hNearest⟩ :=
    (hTargeted.resolve_left (by decide)).2 6 rfl
  have hEach : ∀ offset < 22,
      "h\nh\nh\nh\nbar\nm\nm\nm\nfoo\n".toList =
        replaceRange (textOf (trackEdits (numbered (toLf shiftedFile)) [addLines])) offset
          (toLf sixthLine.oldText).length (toLf sixthLine.newText) →
      ¬ absDiff (fileLine (trackEdits (numbered (toLf shiftedFile)) [addLines]) offset) 6 ≤
        absDiff (fileLine (trackEdits (numbered (toLf shiftedFile)) [addLines]) 18) 6 := by
    decide
  have hBound := hOccurs.add_length_le (by decide)
  have hLength : (textOf (trackEdits (numbered (toLf shiftedFile)) [addLines])).length = 22 := by
    decide
  have hThree : (toLf sixthLine.oldText).length = 3 := by decide
  exact hEach offset (by omega) hContent (hNearest 18 (by decide))

end Choreographr.Tools
