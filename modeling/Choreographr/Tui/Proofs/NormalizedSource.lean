import Choreographr.Tui.NormalizedSource
import Choreographr.Tui.Proofs.TextFilter

/-!
# The normalization cache holds the whole normalized source

A token that consumes a line break ends with it, leaves the scan in column 0 and puts out a single
line break; no other token puts one out. Hence the last line break of the source and that of its
normalized form are the same one, and what stands behind it is normalized by itself.
-/

namespace Choreographr.Tui

open Lib Tools

variable {u : UnicodeTables} {w : CharWidths} {sgrPolicy : SgrPolicy}

/-! ## Line breaks -/

theorem newline_not_printable {text : List Char} (h : ∀ c ∈ text, IsPrintable c) : '\n' ∉ text :=
  fun hMem => absurd (h _ hMem) (by decide)

section Tokens

variable {col col' : Nat} {taken out rest : List Char}

/-- A token that consumes a line break ends with it. -/
theorem Token.line_end {front behind : List Char} (h : Token u w sgrPolicy col taken out col' rest)
    (hTaken : taken = front ++ '\n' :: behind) : behind = [] ∧ col' = 0 ∧ out = ['\n'] := by
  have hMem : '\n' ∈ taken := hTaken ▸ List.mem_append_right _ List.mem_cons_self
  have hCsi : ∀ {tail : List Char}, (∀ c ∈ tail, IsPrintable c) → '\n' ∉ esc :: '[' :: tail := by
    intro tail hTail hLine
    rcases List.mem_cons.mp hLine with hEsc | hLine
    · exact absurd hEsc (by decide)
    rcases List.mem_cons.mp hLine with hOpen | hLine
    · exact absurd hOpen (by decide)
    · exact newline_not_printable hTail hLine
  cases h with
  | crlf =>
    cases front with
    | nil => exact absurd (List.cons.inj hTaken).1 (by decide)
    | cons c front =>
      cases front with
      | nil => exact ⟨(List.cons.inj (List.cons.inj hTaken).2).2.symm, rfl, rfl⟩
      | cons d front => exact absurd (List.cons.inj (List.cons.inj hTaken).2).2.symm (by simp)
  | sgr hKeep hTail => exact absurd hMem (hCsi fun c hMem => hTail.printable hMem)
  | @csi tail _ hKeep hRead =>
    refine absurd hMem (hCsi fun c hMem => @readCsi_printable _ (tail ++ rest) ?_)
    rwa [hRead]
  | tab => exact absurd hMem (by decide)
  | newline =>
    cases front with
    | nil => exact ⟨(List.cons.inj hTaken).2.symm, rfl, rfl⟩
    | cons c front => exact absurd (List.cons.inj hTaken).2.symm (by simp)
  | kept hDrawable hLine => exact absurd (List.mem_singleton.mp hMem).symm hLine
  | escaped hDrop =>
    obtain rfl := List.mem_singleton.mp hMem
    cases hDrop

theorem Token.no_line (h : Token u w sgrPolicy col taken out col' rest) (hTaken : '\n' ∉ taken) :
    '\n' ∉ out := by
  cases h with
  | crlf => exact absurd (List.mem_cons_of_mem _ List.mem_cons_self) hTaken
  | sgr => exact hTaken
  | csi _ hRead => exact newline_not_printable (escapedCsi_printable hRead)
  | tab => exact fun hMem => absurd (List.eq_of_mem_replicate hMem) (by decide)
  | newline => exact absurd List.mem_cons_self hTaken
  | kept => exact hTaken
  | escaped => exact newline_not_printable (escapeDefault_printable _)

end Tokens

theorem scan_no_line (col : Nat) (text : List Char) (h : '\n' ∉ text) :
    '\n' ∉ scan (normalizeStep u w sgrPolicy) col text := by
  induction col, text using tokens_induction u w sgrPolicy with
  | nil col => rwa [scan_nil]
  | token hToken ih =>
    rw [hToken.scan]
    intro hMem
    rcases List.mem_append.mp hMem with hOut | hRest
    · exact hToken.no_line (fun hTaken => h (List.mem_append_left _ hTaken)) hOut
    · exact ih (fun hBehind => h (List.mem_append_right _ hBehind)) hRest

/-- What is behind a line break is scanned by itself, and has no influence on what is before. -/
theorem scan_line (col : Nat) (text : List Char) : ∀ front last : List Char,
    text = front ++ '\n' :: last →
    ∃ before, ∀ last', last' <+: last →
      scan (normalizeStep u w sgrPolicy) col (front ++ '\n' :: last') =
        before ++ '\n' :: scan (normalizeStep u w sgrPolicy) 0 last' := by
  induction col, text using tokens_induction u w sgrPolicy with
  | nil col => exact fun front last h => absurd h (by simp)
  | @token col taken out col' rest hToken ih =>
    intro front last hText
    rcases append_eq_append_cons hText with ⟨behind, hTaken, hLast⟩ | ⟨front', hFront, hRest⟩
    · obtain ⟨rfl, rfl, rfl⟩ := hToken.line_end hTaken
      obtain rfl : last = rest := hLast
      refine ⟨[], fun last' hPrefix => ?_⟩
      have hSplit : front ++ '\n' :: last' = taken ++ last' := by
        rw [hTaken, List.append_assoc]
        rfl
      rw [hSplit, (hToken.truncate hPrefix).scan]
      rfl
    · obtain ⟨before, hBefore⟩ := ih front' last hRest
      refine ⟨out ++ before, fun last' hPrefix => ?_⟩
      have hShort : front' ++ '\n' :: last' <+: rest := by
        rw [hRest]
        exact (List.prefix_append_right_inj _).mpr ((List.prefix_cons_inj _).mpr hPrefix)
      rw [hFront, List.append_assoc, (hToken.truncate hShort).scan, hBefore last' hPrefix,
        List.append_assoc]

/-! ## The line start -/

theorem lineStart_of_notMem {text : List Char} (h : '\n' ∉ text) : lineStart text = 0 := by
  rw [lineStart, rposition_eq_none]
  · rfl
  · intro c hMem
    exact beq_false_of_ne fun hLine => h (hLine ▸ hMem)

theorem lineStart_append {front last : List Char} (h : '\n' ∉ last) :
    lineStart (front ++ '\n' :: last) = front.length + 1 := by
  rw [lineStart, rposition_append_cons (by rfl)]
  · rfl
  · intro c hMem
    exact beq_false_of_ne fun hLine => h (hLine ▸ hMem)

theorem take_lineStart {front last : List Char} (h : '\n' ∉ last) :
    (front ++ '\n' :: last).take (lineStart (front ++ '\n' :: last)) = front ++ ['\n'] := by
  rw [lineStart_append h, List.append_cons, List.take_left' (by simp)]

theorem drop_lineStart {front last : List Char} (h : '\n' ∉ last) (more : List Char) :
    (front ++ '\n' :: (last ++ more)).drop (lineStart (front ++ '\n' :: last)) = last ++ more := by
  rw [lineStart_append h, List.append_cons, List.drop_left' (by simp)]

theorem exists_last_line {text : List Char} (h : '\n' ∈ text) :
    ∃ front last, text = front ++ '\n' :: last ∧ '\n' ∉ last := by
  obtain ⟨front, c, last, hText, hLine, hNone⟩ :=
    exists_last_match (p := (· == '\n')) ⟨'\n', h, rfl⟩
  obtain rfl := eq_of_beq hLine
  refine ⟨front, last, hText, fun hMem => ?_⟩
  cases hNone _ hMem

/-! ## Updates -/

/-- The cache has the normalized form of the source it has seen. -/
def NormalizedSource.Holds (u : UnicodeTables) (w : CharWidths) (s : NormalizedSource)
    (src : List Char) : Prop :=
  s.raw = src ∧ s.normalized = normalizeDisplayText u w src

/-- The tail normalized again behind the last line break gives the whole. -/
theorem normalize_resumed (raw appended : List Char) :
    (normalizeDisplayText u w raw).take (lineStart (normalizeDisplayText u w raw)) ++
      normalizeDisplayText u w ((raw ++ appended).drop (lineStart raw)) =
    normalizeDisplayText u w (raw ++ appended) := by
  simp only [normalizeDisplayText_eq, normalizeImpl]
  by_cases hLine : '\n' ∈ raw
  · obtain ⟨front, last, rfl, hLast⟩ := exists_last_line hLine
    obtain ⟨before, hBefore⟩ := @scan_line u w .escape 0 _ front
      (last ++ appended) rfl
    have hNoLine := @scan_no_line u w .escape 0 last hLast
    have hWhole : front ++ '\n' :: last ++ appended = front ++ '\n' :: (last ++ appended) := by
      rw [List.append_assoc, List.cons_append]
    rw [hWhole, hBefore last (List.prefix_append _ _), take_lineStart hNoLine,
      drop_lineStart hLast, hBefore _ (List.prefix_refl _), List.append_assoc]
    rfl
  · have hNoLine := @scan_no_line u w .escape 0 raw hLine
    rw [lineStart_of_notMem hLine, lineStart_of_notMem hNoLine, List.take_zero, List.drop_zero,
      List.nil_append]

theorem NormalizedSource.update_holds {s : NormalizedSource} {src : List Char}
    (h : s.Holds u w src) (next : List Char) : (s.update u w next).Holds u w next := by
  obtain ⟨hRaw, hNormalized⟩ := h
  unfold update
  split
  · exact ⟨rfl, rfl⟩
  · rename_i hExtends
    obtain ⟨appended, hNext⟩ := Classical.not_not.mp hExtends
    rw [hRaw] at hNext
    subst hNext
    dsimp only
    rw [hRaw, List.drop_left]
    split
    · rename_i hEmpty
      rw [hEmpty, List.append_nil]
      exact ⟨hRaw, hNormalized⟩
    · exact ⟨rfl, by rw [hNormalized]; exact normalize_resumed src appended⟩

/-- After any updates, the cached text is the normalized form of the whole of the last source. -/
theorem normalizedSource_whole (u : UnicodeTables) (w : CharWidths) (sources : List (List Char))
    (src : List Char) :
    ((sources ++ [src]).foldl (NormalizedSource.update u w) {}).Holds u w src := by
  have hRun : ∀ (sources : List (List Char)) (s : NormalizedSource) (first : List Char),
      s.Holds u w first →
      ∃ last, (sources.foldl (NormalizedSource.update u w) s).Holds u w last := by
    intro sources
    induction sources with
    | nil => exact fun s first h => ⟨first, h⟩
    | cons next rest ih => exact fun s first h => ih _ next (NormalizedSource.update_holds h next)
  obtain ⟨last, hLast⟩ := hRun sources {} [] ⟨rfl, rfl⟩
  rw [List.foldl_append]
  exact NormalizedSource.update_holds hLast src

end Choreographr.Tui
