import Choreographr.Tools.Proofs.SanitizeText
import Choreographr.Tui.TextFilter

/-!
# The terminal filter as two passes

The scan reads a text as a sequence of tokens: a line break, a colour sequence, an escape sequence
of another kind, or one character. What it makes of a token depends on the column only, and what
it reads as a token depends on the next character only; both passes take the same tokens.
-/

namespace Choreographr.Tui

open Lib Tools

variable {u : UnicodeTables} {w : CharWidths} {sgrPolicy : SgrPolicy} {c : Char}
  {tail text : List Char}

/-! ## Scans -/

section Scans

variable {σ : Type} {step : σ → Char → (text : List Char) → Scanned σ text}

theorem scan_nil (s : σ) : scan step s [] = [] := by rw [scan]

theorem scan_cons (s : σ) (c : Char) (text : List Char) :
    scan step s (c :: text) =
      (step s c text).out ++ scan step (step s c text).state (step s c text).rest := by
  rw [scan]

/-- What every turn puts out is what the scan puts out. -/
theorem forall_mem_scan {P : Char → Prop} (h : ∀ s c text, ∀ d ∈ (step s c text).out, P d) (s : σ)
    (text : List Char) : ∀ d ∈ scan step s text, P d := by
  induction hLength : text.length using Nat.strongRecOn generalizing s text with
  | ind n ih =>
    cases text with
    | nil =>
      rw [scan_nil]
      exact fun d hMem => absurd hMem List.not_mem_nil
    | cons c text =>
      have hShort := (step s c text).suffix.length_le
      rw [List.length_cons] at hLength
      rw [scan_cons]
      intro d hMem
      rcases List.mem_append.mp hMem with hHere | hRest
      · exact h s c text d hHere
      · exact ih _ (by omega) _ _ rfl d hRest

end Scans

/-! ## Kept characters -/

/-- What a terminal draws as it is measured: no tab, no control character but a newline, no
separator and no format character but a joiner. -/
def IsDrawable (u : UnicodeTables) (c : Char) : Prop :=
  (isControl c = true → c = '\n') ∧ isUnsafeUnicode u c = false

theorem IsDrawable.ne_tab (h : IsDrawable u c) : c ≠ '\t' := by
  rintro rfl
  exact absurd (h.1 (by decide)) (by decide)

theorem terminalKeeps_iff (c : Char) : terminalKeeps u c = true ↔ c = '\t' ∨ IsDrawable u c := by
  have hNewline : isUnsafeUnicode u '\n' = false := isUnsafeUnicode_of_ascii (by decide)
  by_cases hTab : c = '\t'
  · subst hTab
    exact iff_of_true rfl (.inl rfl)
  by_cases hLine : c = '\n'
  · subst hLine
    exact iff_of_true rfl (.inr ⟨fun _ => rfl, hNewline⟩)
  by_cases hAscii : c.toNat < 128
  · have hControl := isControl_of_ascii hAscii
    unfold IsPrintable at hControl
    simp [terminalKeeps, IsDrawable, hTab, hLine, hAscii, isUnsafeUnicode_of_ascii hAscii,
      ← hControl]
  · simp [terminalKeeps, IsDrawable, hTab, hLine, hAscii]

theorem IsDrawable.kept (h : IsDrawable u c) : terminalKeeps u c = true :=
  (terminalKeeps_iff c).mpr (.inr h)

theorem drawable_of_printable (h : IsPrintable c) : IsDrawable u c := by
  have hAscii : c.toNat < 128 := Nat.lt_of_le_of_lt h.2 (by decide)
  refine ⟨fun hControl => ?_, isUnsafeUnicode_of_ascii hAscii⟩
  rw [(isControl_of_ascii hAscii).mpr h] at hControl
  cases hControl

/-! ## Escape sequences -/

/-- What stands behind `ESC [` in a complete colour sequence. -/
def IsSgrTail (tail : List Char) : Prop :=
  ∃ params : List Char, (∀ c ∈ params, isParam c = true) ∧ tail = params ++ ['m']

theorem readCsi_append (text : List Char) : (readCsi text).tail ++ (readCsi text).rest = text := by
  induction text with
  | nil => rfl
  | cons n rest ih =>
    simp only [readCsi]
    split
    · exact congrArg (List.cons n) ih
    split
    · rfl
    · rfl

theorem readCsi_of_sgr (h : IsSgrTail tail) (rest : List Char) :
    readCsi (tail ++ rest) = ⟨tail, true, rest⟩ := by
  obtain ⟨params, hParams, rfl⟩ := h
  induction params with
  | nil => rfl
  | cons n params ih =>
    have hRest := ih fun c hMem => hParams c (List.mem_cons_of_mem n hMem)
    rw [List.cons_append, List.cons_append, readCsi, if_pos (hParams n List.mem_cons_self), hRest]

theorem sgr_of_readCsi (h : (readCsi text).sgr = true) : IsSgrTail (readCsi text).tail := by
  induction text with
  | nil => cases h
  | cons n rest ih =>
    simp only [readCsi] at h ⊢
    split at h
    · rename_i hParam
      obtain ⟨params, hParams, hTail⟩ := ih h
      refine ⟨n :: params, ?_, by rw [if_pos hParam, hTail]; rfl⟩
      intro c hMem
      rcases List.mem_cons.mp hMem with rfl | hRest
      · exact hParam
      · exact hParams c hRest
    · rename_i hParam
      rw [if_neg hParam]
      split at h
      · rename_i hFinal
        rw [if_pos hFinal]
        exact ⟨[], by simp, by rw [eq_of_beq h]; rfl⟩
      · cases h

/-- The look-ahead does not go beyond what it consumes. -/
theorem readCsi_truncate {rest rest' : List Char} {sgr : Bool}
    (h : readCsi (tail ++ rest) = ⟨tail, sgr, rest⟩) (hPrefix : rest' <+: rest) :
    readCsi (tail ++ rest') = ⟨tail, sgr, rest'⟩ := by
  induction tail with
  | nil =>
    cases rest' with
    | nil =>
      cases rest with
      | nil => exact h
      | cons n rest =>
        simp only [List.nil_append, readCsi] at h ⊢
        split at h
        · exact absurd (congrArg Csi.tail h) (by simp)
        split at h
        · exact absurd (congrArg Csi.tail h) (by simp)
        · have hSgr : false = sgr := congrArg Csi.sgr h
          exact Csi.ext rfl hSgr rfl
    | cons n rest' =>
      obtain ⟨more, rfl⟩ := hPrefix
      simp only [List.nil_append, List.cons_append, readCsi] at h ⊢
      split at h
      · exact absurd (congrArg Csi.tail h) (by simp)
      split at h
      · exact absurd (congrArg Csi.tail h) (by simp)
      · rename_i hParam hFinal
        rw [if_neg hParam, if_neg hFinal]
        have hSgr : false = sgr := congrArg Csi.sgr h
        exact Csi.ext rfl hSgr rfl
  | cons n tail ih =>
    simp only [List.cons_append, readCsi] at h ⊢
    split at h
    · rename_i hParam
      injection h with hTail hSgr hRest
      have hInner := ih (Csi.ext (List.cons.inj hTail).2 hSgr hRest)
      rw [if_pos hParam, hInner]
    split at h
    · rename_i hParam hFinal
      injection h with hTail hSgr hRest
      obtain rfl : tail = [] := (List.cons.inj hTail).2.symm
      rw [if_neg hParam, if_pos hFinal, hSgr]
      rfl
    · exact absurd (congrArg Csi.tail h) (by simp)

theorem readCsi_printable (h : c ∈ (readCsi text).tail) : IsPrintable c := by
  induction text with
  | nil => exact absurd h List.not_mem_nil
  | cons n rest ih =>
    have hHead : ∀ low high : Nat, 0x20 ≤ low → high ≤ 0x7e →
        (decide (low ≤ n.toNat) && decide (n.toNat ≤ high)) = true → IsPrintable n := by
      intro low high hLow hHigh hIn
      obtain ⟨hMin, hMax⟩ := (Bool.and_eq_true _ _).mp hIn
      have hMin := of_decide_eq_true hMin
      have hMax := of_decide_eq_true hMax
      exact ⟨by omega, by omega⟩
    simp only [readCsi] at h
    split at h
    · rename_i hParam
      rcases List.mem_cons.mp h with rfl | hRest
      · exact hHead _ _ (by decide) (by decide) hParam
      · exact ih hRest
    split at h
    · rename_i hFinal
      obtain rfl := List.mem_singleton.mp h
      exact hHead _ _ (by decide) (by decide) hFinal
    · exact absurd h List.not_mem_nil

theorem escapedCsi_printable {tail rest : List Char} {final : Bool}
    (hRead : readCsi (tail ++ rest) = ⟨tail, final, rest⟩) :
    ∀ c ∈ escapedEsc ++ '[' :: tail, IsPrintable c := by
  intro c hMem
  rcases List.mem_append.mp hMem with hEscape | hTail
  · exact escapeDefault_printable esc c hEscape
  rcases List.mem_cons.mp hTail with rfl | hTail
  · decide
  · refine @readCsi_printable _ (tail ++ rest) ?_
    rwa [hRead]

theorem IsSgrTail.printable (h : IsSgrTail tail) (hMem : c ∈ tail) : IsPrintable c := by
  refine @readCsi_printable _ (tail ++ []) ?_
  rwa [readCsi_of_sgr h]

/-- Behind `ESC [`, the copy of a colour sequence ends where the sequence does. -/
theorem copyCsi_of_sgr (h : IsSgrTail tail) (rest : List Char) :
    copyCsi (tail ++ rest) = (tail, rest) := by
  obtain ⟨params, hParams, rfl⟩ := h
  induction params with
  | nil => rfl
  | cons n params ih =>
    have hRest := ih fun c hMem => hParams c (List.mem_cons_of_mem n hMem)
    have hParam := hParams n List.mem_cons_self
    have hFinal : isFinal n = false := by
      simp only [isParam, isFinal, Bool.and_eq_true, Bool.and_eq_false_iff, decide_eq_true_eq,
        decide_eq_false_iff_not] at hParam ⊢
      omega
    rw [List.cons_append, List.cons_append, copyCsi, hFinal, if_neg Bool.false_ne_true, hRest]

/-! ## Tokens -/

/-- What the scan reads at a column in front of a rest: the text that it consumes, what it puts
out for it, and the column behind it. -/
inductive Token (u : UnicodeTables) (w : CharWidths) (sgrPolicy : SgrPolicy) (col : Nat) :
    List Char → List Char → Nat → List Char → Prop
  | crlf {rest : List Char} : Token u w sgrPolicy col ['\r', '\n'] ['\n'] 0 rest
  | sgr {tail rest : List Char} (hKeep : sgrPolicy = .keep) (hTail : IsSgrTail tail) :
      Token u w sgrPolicy col (esc :: '[' :: tail) (esc :: '[' :: tail) col rest
  | csi {tail rest : List Char} (hKeep : sgrPolicy = .keep)
      (hRead : readCsi (tail ++ rest) = ⟨tail, false, rest⟩) :
      Token u w sgrPolicy col (esc :: '[' :: tail) (escapedEsc ++ '[' :: tail)
        (col + (escapedEsc ++ '[' :: tail).length) rest
  | tab {rest : List Char} :
      Token u w sgrPolicy col ['\t'] (List.replicate (tabPad col) ' ') (col + tabPad col) rest
  | newline {rest : List Char} : Token u w sgrPolicy col ['\n'] ['\n'] 0 rest
  | kept {c : Char} {rest : List Char} (hDrawable : IsDrawable u c) (hLine : c ≠ '\n') :
      Token u w sgrPolicy col [c] [c] (col + columns w c) rest
  | escaped {c : Char} {rest : List Char} (hDrop : terminalKeeps u c = false)
      (hCrlf : ¬ (c = '\r' ∧ rest.head? = some '\n'))
      (hCsi : ¬ (c = esc ∧ sgrPolicy = .keep ∧ rest.head? = some '[')) :
      Token u w sgrPolicy col [c] (escapeDefault c) (col + (escapeDefault c).length) rest

theorem not_terminalKeeps_esc : terminalKeeps u esc = false := rfl

theorem not_terminalKeeps_cr : terminalKeeps u '\r' = false := rfl

theorem ne_of_terminalKeeps {d : Char} (h : terminalKeeps u c = true)
    (hDrop : terminalKeeps u d = false) : c ≠ d := by
  rintro rfl
  rw [h] at hDrop
  cases hDrop

theorem byteLen_of_printable (h : ∀ c ∈ text, IsPrintable c) : byteLen text = text.length :=
  byteLen_of_ascii fun c hMem => Nat.lt_of_le_of_lt (h c hMem).2 (by decide)

theorem byteLen_escapeDefault (c : Char) : byteLen (escapeDefault c) = (escapeDefault c).length :=
  byteLen_of_printable (escapeDefault_printable c)

theorem csi_columns {tail : List Char} (h : ∀ c ∈ tail, IsPrintable c) :
    6 + byteLen ('[' :: tail) = (escapedEsc ++ '[' :: tail).length := by
  have hAll : ∀ c ∈ '[' :: tail, IsPrintable c := by
    intro c hMem
    rcases List.mem_cons.mp hMem with rfl | hTail
    · decide
    · exact h c hTail
  rw [byteLen_of_printable hAll, List.length_append]
  rfl

theorem eq_cons_tail (h : text.head? = some c) : text = c :: text.tail := by
  cases text with
  | nil => cases h
  | cons d rest =>
    obtain rfl := Option.some.inj h
    rfl

/-- The scan begins with a token. -/
theorem exists_token (u : UnicodeTables) (w : CharWidths) (sgrPolicy : SgrPolicy) (col : Nat)
    (c : Char) (text : List Char) :
    ∃ (taken out : List Char) (col' : Nat) (rest : List Char),
      Token u w sgrPolicy col taken out col' rest ∧ taken ≠ [] ∧ c :: text = taken ++ rest := by
  by_cases hCrlf : c = '\r' ∧ text.head? = some '\n'
  · obtain ⟨rfl, hHead⟩ := hCrlf
    refine ⟨_, _, _, text.tail, .crlf, List.cons_ne_nil _ _, ?_⟩
    exact congrArg (List.cons '\r') (eq_cons_tail hHead)
  by_cases hCsi : c = esc ∧ sgrPolicy = .keep ∧ text.head? = some '['
  · obtain ⟨rfl, hKeep, hHead⟩ := hCsi
    have hSplit := readCsi_append text.tail
    have hText : esc :: text =
        esc :: '[' :: (readCsi text.tail).tail ++ (readCsi text.tail).rest := by
      rw [List.cons_append, List.cons_append, hSplit, ← eq_cons_tail hHead]
    cases hSgr : (readCsi text.tail).sgr with
    | true => exact ⟨_, _, _, _, .sgr hKeep (sgr_of_readCsi hSgr), List.cons_ne_nil _ _, hText⟩
    | false =>
      refine ⟨_, _, _, _, .csi hKeep ?_, List.cons_ne_nil _ _, hText⟩
      rw [hSplit, ← hSgr]
  cases hKept : terminalKeeps u c with
  | false => exact ⟨_, _, _, text, .escaped hKept hCrlf hCsi, List.cons_ne_nil _ _, rfl⟩
  | true =>
    by_cases hLine : c = '\n'
    · subst hLine
      exact ⟨_, _, _, text, .newline, List.cons_ne_nil _ _, rfl⟩
    rcases (terminalKeeps_iff c).mp hKept with rfl | hDrawable
    · exact ⟨_, _, _, text, .tab, List.cons_ne_nil _ _, rfl⟩
    · exact ⟨_, _, _, text, .kept hDrawable hLine, List.cons_ne_nil _ _, rfl⟩

/-- A property of the column and the text holds of every text if each token preserves it. -/
theorem tokens_induction {motive : Nat → List Char → Prop} (u : UnicodeTables) (w : CharWidths)
    (sgrPolicy : SgrPolicy) (nil : ∀ col, motive col [])
    (token : ∀ {col : Nat} {taken out : List Char} {col' : Nat} {rest : List Char},
      Token u w sgrPolicy col taken out col' rest → motive col' rest → motive col (taken ++ rest))
    (col : Nat) (text : List Char) : motive col text := by
  induction hLength : text.length using Nat.strongRecOn generalizing col text with
  | ind n ih =>
    cases text with
    | nil => exact nil col
    | cons c text =>
      obtain ⟨taken, out, col', rest, hToken, hSome, hText⟩ := exists_token u w sgrPolicy col c text
      have hPos := List.length_pos_iff.mpr hSome
      rw [hText, List.length_append] at hLength
      rw [hText]
      exact token hToken (ih rest.length (by omega) col' rest rfl)

namespace Token

variable {col col' : Nat} {taken out rest rest' : List Char}

/-- The scan puts out what the token stands for. -/
theorem scan (h : Token u w sgrPolicy col taken out col' rest) :
    scan (normalizeStep u w sgrPolicy) col (taken ++ rest) =
      out ++ scan (normalizeStep u w sgrPolicy) col' rest := by
  cases h with
  | crlf => simp [scan_cons, normalizeStep]
  | @sgr tail _ hKeep hTail =>
    simp [scan_cons, normalizeStep, hKeep, readCsi_of_sgr hTail, esc]
  | @csi tail _ hKeep hRead =>
    have hColumns := @csi_columns tail fun c hMem => by
      refine @readCsi_printable _ (tail ++ rest) ?_
      rwa [hRead]
    rw [← hColumns]
    simp [scan_cons, normalizeStep, hKeep, hRead, esc]
  | tab => simp [scan_cons, normalizeStep, esc]
  | newline => simp [scan_cons, normalizeStep, esc]
  | @kept c _ hDrawable hLine =>
    have hKept := hDrawable.kept
    simp [scan_cons, normalizeStep, hDrawable.ne_tab, hLine, hKept,
      ne_of_terminalKeeps hKept not_terminalKeeps_esc,
      ne_of_terminalKeeps hKept not_terminalKeeps_cr]
  | @escaped c _ hDrop hCrlf hCsi =>
    have hTab : c ≠ '\t' := by
      rintro rfl
      cases hDrop
    have hLine : c ≠ '\n' := by
      rintro rfl
      cases hDrop
    simp [scan_cons, normalizeStep, hCrlf, hCsi, hTab, hLine, hDrop, byteLen_escapeDefault]

/-- A token does not look beyond the character behind it. -/
theorem truncate (h : Token u w sgrPolicy col taken out col' rest) (hPrefix : rest' <+: rest) :
    Token u w sgrPolicy col taken out col' rest' := by
  have hHead : ∀ c, rest'.head? = some c → rest.head? = some c := by
    intro c hSome
    obtain ⟨more, rfl⟩ := hPrefix
    cases rest' with
    | nil => cases hSome
    | cons d rest' => exact hSome
  cases h with
  | crlf => exact .crlf
  | sgr hKeep hTail => exact .sgr hKeep hTail
  | csi hKeep hRead => exact .csi hKeep (readCsi_truncate hRead hPrefix)
  | tab => exact .tab
  | newline => exact .newline
  | kept hDrawable hLine => exact .kept hDrawable hLine
  | escaped hDrop hCrlf hCsi =>
    exact .escaped hDrop (fun h => hCrlf ⟨h.1, hHead _ h.2⟩)
      (fun h => hCsi ⟨h.1, h.2.1, hHead _ h.2.2⟩)

end Token

/-! ## The two passes -/

section TwoPasses

variable {col : Nat}

theorem expand_printable {piece : List Char} (h : ∀ c ∈ piece, IsPrintable c) (more : List Char) :
    scan (expandStep w) col (piece ++ more) =
      piece ++ scan (expandStep w) (col + piece.length) more := by
  induction piece generalizing col with
  | nil => rfl
  | cons c piece ih =>
    have hPrintable := h c List.mem_cons_self
    have hNe : ∀ d, ¬ IsPrintable d → c ≠ d := by
      rintro d hNot rfl
      exact hNot hPrintable
    have hOne : columns w c = 1 := by rw [columns, w.ascii c hPrintable.1 hPrintable.2]; rfl
    have hRest := @ih (col + 1) fun d hMem => h d (List.mem_cons_of_mem c hMem)
    rw [List.cons_append, scan_cons, expandStep, if_neg (hNe '\n' (by decide)),
      if_neg (hNe '\t' (by decide)), if_neg (hNe esc (by decide)), hOne, hRest, List.length_cons,
      Nat.add_right_comm, Nat.add_assoc]
    rfl

/-- The filter makes of a token what the expansion makes its output of. -/
theorem Token.two_passes {taken out rest : List Char} {col' : Nat}
    (h : Token u w sgrPolicy col taken out col' rest) :
    ∃ piece, Tui.scan (filterStep u sgrPolicy) () (taken ++ rest) =
        piece ++ Tui.scan (filterStep u sgrPolicy) () rest ∧
      ∀ more, Tui.scan (expandStep w) col (piece ++ more) =
        out ++ Tui.scan (expandStep w) col' more := by
  cases h with
  | crlf =>
    refine ⟨['\n'], by simp [scan_cons, filterStep], fun more => ?_⟩
    simp [scan_cons, expandStep]
  | @sgr tail _ hKeep hTail =>
    refine ⟨esc :: '[' :: tail, ?_, fun more => ?_⟩
    · simp [scan_cons, filterStep, hKeep, readCsi_of_sgr hTail, esc]
    · simp [scan_cons, expandStep, copyCsi_of_sgr hTail, esc]
  | @csi tail _ hKeep hRead =>
    refine ⟨escapedEsc ++ '[' :: tail, ?_, fun more => ?_⟩
    · simp [scan_cons, filterStep, hKeep, hRead, esc]
    · exact expand_printable (escapedCsi_printable hRead) more
  | tab =>
    refine ⟨['\t'], ?_, fun more => ?_⟩
    · simp [scan_cons, filterStep, terminalKeeps, esc]
    · simp [scan_cons, expandStep]
  | newline =>
    refine ⟨['\n'], ?_, fun more => ?_⟩
    · simp [scan_cons, filterStep, terminalKeeps, esc]
    · simp [scan_cons, expandStep]
  | @kept c _ hDrawable hLine =>
    have hKept := hDrawable.kept
    have hEsc := ne_of_terminalKeeps hKept not_terminalKeeps_esc
    refine ⟨[c], ?_, fun more => ?_⟩
    · simp [scan_cons, filterStep, hKept, hEsc, ne_of_terminalKeeps hKept not_terminalKeeps_cr]
    · simp [scan_cons, expandStep, hEsc, hLine, hDrawable.ne_tab]
  | @escaped c _ hDrop hCrlf hCsi =>
    refine ⟨escapeDefault c, ?_, expand_printable (escapeDefault_printable c)⟩
    have hCsi' : ¬ (sgrPolicy = .keep ∧ c = esc ∧ rest.head? = some '[') :=
      fun h => hCsi ⟨h.2.1, h.1, h.2.2⟩
    simp [scan_cons, filterStep, hCrlf, hCsi', hDrop]

theorem scan_eq_two_passes (col : Nat) (text : List Char) :
    scan (normalizeStep u w sgrPolicy) col text =
      scan (expandStep w) col (scan (filterStep u sgrPolicy) () text) := by
  induction col, text using tokens_induction u w sgrPolicy with
  | nil col => rw [scan_nil, scan_nil, scan_nil]
  | token hToken ih =>
    obtain ⟨piece, hFilter, hExpand⟩ := hToken.two_passes
    rw [hToken.scan, hFilter, hExpand, ih]

end TwoPasses

/-! ## Texts that pass unchanged -/

/-- A text that the scan leaves as it is. -/
inductive Clean (u : UnicodeTables) (sgrPolicy : SgrPolicy) : List Char → Prop
  | nil : Clean u sgrPolicy []
  | drawable {c : Char} {rest : List Char} :
      IsDrawable u c → Clean u sgrPolicy rest → Clean u sgrPolicy (c :: rest)
  | sgr {tail rest : List Char} : sgrPolicy = .keep → IsSgrTail tail → Clean u sgrPolicy rest →
      Clean u sgrPolicy (esc :: '[' :: tail ++ rest)

theorem newline_drawable : IsDrawable u '\n' :=
  ⟨fun _ => rfl, isUnsafeUnicode_of_ascii (by decide)⟩

theorem Clean.append {piece rest : List Char} (h : ∀ c ∈ piece, IsDrawable u c)
    (hRest : Clean u sgrPolicy rest) : Clean u sgrPolicy (piece ++ rest) := by
  induction piece with
  | nil => exact hRest
  | cons c piece ih =>
    exact .drawable (h c List.mem_cons_self) (ih fun d hMem => h d (List.mem_cons_of_mem c hMem))

/-- What the scan puts out is clean. -/
theorem clean_scan (col : Nat) (text : List Char) :
    Clean u sgrPolicy (scan (normalizeStep u w sgrPolicy) col text) := by
  have hPrintable : ∀ {piece rest : List Char}, (∀ c ∈ piece, IsPrintable c) →
      Clean u sgrPolicy rest → Clean u sgrPolicy (piece ++ rest) :=
    fun hAll => .append fun c hMem => drawable_of_printable (hAll c hMem)
  induction col, text using tokens_induction u w sgrPolicy with
  | nil col =>
    rw [scan_nil]
    exact .nil
  | @token col taken out col' rest hToken ih =>
    rw [hToken.scan]
    cases hToken with
    | crlf => exact .drawable newline_drawable ih
    | sgr hKeep hTail => exact .sgr hKeep hTail ih
    | csi _ hRead => exact hPrintable (escapedCsi_printable hRead) ih
    | tab =>
      refine hPrintable (fun c hMem => ?_) ih
      obtain rfl := List.eq_of_mem_replicate hMem
      decide
    | newline => exact .drawable newline_drawable ih
    | kept hDrawable _ => exact .drawable hDrawable ih
    | escaped _ _ _ => exact hPrintable (escapeDefault_printable _) ih

theorem Clean.scan_eq (h : Clean u sgrPolicy text) (col : Nat) :
    scan (normalizeStep u w sgrPolicy) col text = text := by
  induction h generalizing col with
  | nil => exact scan_nil col
  | @drawable c rest hDrawable _ ih =>
    by_cases hLine : c = '\n'
    · subst hLine
      exact (@Token.newline u w _ _ rest).scan.trans (congrArg _ (ih 0))
    · exact (@Token.kept u w _ _ c rest hDrawable hLine).scan.trans (congrArg _ (ih _))
  | @sgr tail rest hKeep hTail _ ih =>
    exact (@Token.sgr u w _ _ tail rest hKeep hTail).scan.trans (congrArg _ (ih col))

theorem Clean.of_drawable (h : ∀ c ∈ text, IsDrawable u c) : Clean u sgrPolicy text := by
  have hAll := Clean.append h (@Clean.nil u sgrPolicy)
  rwa [List.append_nil] at hAll

theorem Clean.drawable_of_escape (h : Clean u .escape text) : ∀ c ∈ text, IsDrawable u c := by
  induction h with
  | nil => exact fun c hMem => absurd hMem List.not_mem_nil
  | drawable hDrawable _ ih =>
    intro d hMem
    rcases List.mem_cons.mp hMem with rfl | hRest
    · exact hDrawable
    · exact ih d hRest
  | sgr hKeep => cases hKeep

/-! ## The fast paths -/

theorem drawable_of_fast (h : (!text.contains '\t' && text.all (terminalKeeps u)) = true) :
    ∀ c ∈ text, IsDrawable u c := by
  obtain ⟨hTabs, hAll⟩ := (Bool.and_eq_true _ _).mp h
  intro c hMem
  rcases (terminalKeeps_iff c).mp (List.all_eq_true.mp hAll c hMem) with rfl | hDrawable
  · rw [List.contains_iff_mem.mpr hMem] at hTabs
    cases hTabs
  · exact hDrawable

theorem normalizeDisplayText_eq (text : List Char) :
    normalizeDisplayText u w text = normalizeImpl u w .escape text := by
  unfold normalizeDisplayText
  split
  · rename_i hFast
    exact ((Clean.of_drawable (drawable_of_fast hFast)).scan_eq 0).symm
  · rfl

theorem normalizeDisplayText_drawable (text : List Char) :
    ∀ c ∈ normalizeDisplayText u w text, IsDrawable u c := by
  rw [normalizeDisplayText_eq]
  exact (clean_scan 0 text).drawable_of_escape

theorem normalizeDisplayText_of_drawable (h : ∀ c ∈ text, IsDrawable u c) :
    normalizeDisplayText u w text = text := by
  rw [normalizeDisplayText_eq]
  exact (Clean.of_drawable h).scan_eq 0

theorem sanitizeStep_drawable (col : Nat) (c : Char) (text : List Char) :
    ∀ d ∈ (sanitizeStep u w col c text).out, IsDrawable u d := by
  have hLine : ∀ d ∈ ['\n'], IsDrawable u d := by
    intro d hMem
    obtain rfl := List.mem_singleton.mp hMem
    exact newline_drawable
  unfold sanitizeStep
  split
  · split
    · exact hLine
    · exact hLine
  split
  · intro d hMem
    obtain rfl := List.eq_of_mem_replicate hMem
    exact drawable_of_printable (by decide)
  split
  · exact hLine
  split
  · rename_i hTab _ hKept
    intro d hMem
    obtain rfl := List.mem_singleton.mp hMem
    exact ((terminalKeeps_iff d).mp hKept).resolve_left hTab
  · exact fun d hMem => absurd hMem List.not_mem_nil

theorem sanitizePastedText_drawable (text : List Char) :
    ∀ c ∈ sanitizePastedText u w text, IsDrawable u c := by
  unfold sanitizePastedText
  split
  · rename_i hFast
    rw [Bool.not_or, Bool.and_assoc, Bool.and_left_comm, Bool.and_eq_true] at hFast
    exact drawable_of_fast hFast.2
  · exact forall_mem_scan sanitizeStep_drawable 0 text

theorem sanitizePastedText_of_drawable (h : ∀ c ∈ text, IsDrawable u c) :
    sanitizePastedText u w text = text := by
  have hTab : text.contains '\t' = false := by
    rw [← Bool.not_eq_true, List.contains_iff_mem]
    exact fun hMem => (h _ hMem).ne_tab rfl
  have hCr : text.contains '\r' = false := by
    rw [← Bool.not_eq_true, List.contains_iff_mem]
    exact fun hMem => absurd ((h _ hMem).1 (by decide)) (by decide)
  have hAll : text.all (terminalKeeps u) = true :=
    List.all_eq_true.mpr fun c hMem => (h c hMem).kept
  rw [sanitizePastedText, hTab, hCr, hAll]
  rfl

/-! ## Escape characters in the output -/

theorem esc_not_printable (h : ∀ c ∈ text, IsPrintable c) : esc ∉ text :=
  fun hMem => absurd (h esc hMem) (by decide)

/-- Only a colour sequence puts out an escape character, its first. -/
theorem Token.sgr_of_esc {col col' : Nat} {taken out rest before behind : List Char}
    (h : Token u w sgrPolicy col taken out col' rest) (hOut : out = before ++ esc :: behind) :
    before = [] ∧ ∃ tail, IsSgrTail tail ∧ taken = esc :: '[' :: tail ∧ behind = '[' :: tail := by
  have hMem : esc ∈ out := hOut ▸ List.mem_append_right _ List.mem_cons_self
  cases h with
  | crlf => exact absurd hMem (by decide)
  | @sgr tail _ hKeep hTail =>
    have hNone : esc ∉ '[' :: tail := by
      refine esc_not_printable fun c hMem => ?_
      rcases List.mem_cons.mp hMem with rfl | hTailMem
      · decide
      · exact hTail.printable hTailMem
    cases before with
    | nil => exact ⟨rfl, tail, hTail, rfl, (List.cons.inj hOut).2.symm⟩
    | cons c before =>
      refine absurd ?_ hNone
      rw [(List.cons.inj hOut).2]
      exact List.mem_append_right _ List.mem_cons_self
  | @csi tail _ hKeep hRead =>
    exact absurd hMem (esc_not_printable (escapedCsi_printable hRead))
  | tab => exact absurd (List.eq_of_mem_replicate hMem) (by decide)
  | newline => exact absurd hMem (by decide)
  | @kept c _ hDrawable _ =>
    obtain rfl := List.mem_singleton.mp hMem
    exact absurd (hDrawable.1 (by decide)) (by decide)
  | escaped => exact absurd hMem (esc_not_printable (escapeDefault_printable _))

/-- An escape character of the output stands for one of the input, with the colour sequence that
begins there and the same output before it. -/
theorem esc_of_scan (col : Nat) (text : List Char) : ∀ before rest : List Char,
    scan (normalizeStep u w sgrPolicy) col text = before ++ esc :: rest →
    ∃ source tail after more, IsSgrTail tail ∧ text = source ++ (esc :: '[' :: tail ++ after) ∧
      scan (normalizeStep u w sgrPolicy) col source = before ∧ rest = '[' :: tail ++ more := by
  induction col, text using tokens_induction u w sgrPolicy with
  | nil col =>
    intro before rest h
    rw [scan_nil] at h
    exact absurd h.symm (by simp)
  | @token col taken out col' text hToken ih =>
    intro before rest h
    rw [hToken.scan] at h
    rcases append_eq_append_cons h with ⟨front, hOut, hRest⟩ | ⟨before', hBefore, hRest⟩
    · obtain ⟨rfl, tail, hTail, rfl, rfl⟩ := hToken.sgr_of_esc hOut
      exact ⟨[], tail, text, _, hTail, rfl, scan_nil col, hRest⟩
    · obtain ⟨source, tail, after, more, hTail, hText, hSource, hMore⟩ := ih before' rest hRest
      refine ⟨taken ++ source, tail, after, more, hTail, ?_, ?_, hMore⟩
      · rw [hText, List.append_assoc]
      · rw [(hToken.truncate (hText ▸ List.prefix_append _ _)).scan, hSource, hBefore]

/-! ## The filter as a whole -/

/-- What the filter does with a text. -/
structure TerminalFilter (u : UnicodeTables) (w : CharWidths) (text : List Char) : Prop where
  display : normalizeDisplayText u w text = referenceNormalize u w .escape text
  ansi : normalizeAnsiText u w text = referenceNormalize u w .keep text
  /-- What is displayed has no tab, no control but the newline, no unsafe character. -/
  safe : ∀ c ∈ normalizeDisplayText u w text, c ≠ '\t' ∧ (isControl c = true → c = '\n') ∧
    isUnsafeUnicode u c = false
  /-- An escape character comes from a colour sequence of the text. -/
  colours : ∀ before rest, normalizeAnsiText u w text = before ++ esc :: rest →
    ∃ source tail after more, IsSgrTail tail ∧
      text = source ++ (esc :: '[' :: tail ++ after) ∧
      normalizeAnsiText u w source = before ∧ rest = '[' :: tail ++ more
  displayTwice : normalizeDisplayText u w (normalizeDisplayText u w text) =
    normalizeDisplayText u w text
  ansiTwice : normalizeAnsiText u w (normalizeAnsiText u w text) = normalizeAnsiText u w text
  pastedTwice : sanitizePastedText u w (sanitizePastedText u w text) =
    sanitizePastedText u w text
  pastedDisplay : normalizeDisplayText u w (sanitizePastedText u w text) =
    sanitizePastedText u w text

/-- Both display forms are the two passes, what they let through is safe, and neither changes
anything the second time; the editing rule leaves nothing for itself or for the display. -/
theorem terminalFilter_correct (u : UnicodeTables) (w : CharWidths) (text : List Char) :
    TerminalFilter u w text where
  display := by
    rw [normalizeDisplayText_eq]
    exact scan_eq_two_passes 0 text
  ansi := scan_eq_two_passes 0 text
  safe := by
    intro c hMem
    have hDrawable := normalizeDisplayText_drawable text c hMem
    exact ⟨hDrawable.ne_tab, hDrawable⟩
  colours := esc_of_scan 0 text
  displayTwice := normalizeDisplayText_of_drawable (normalizeDisplayText_drawable text)
  ansiTwice := (clean_scan 0 text).scan_eq 0
  pastedTwice := sanitizePastedText_of_drawable (sanitizePastedText_drawable text)
  pastedDisplay := normalizeDisplayText_of_drawable (sanitizePastedText_drawable text)

end Choreographr.Tui
