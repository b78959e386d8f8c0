import Choreographr.Tools.Sanitize
import Choreographr.Lib.Counting
import Mathlib.Data.Bool.AllAny

/-!
# The cap on tool output, applied twice

What has been escaped has nothing left to escape, so only the byte budget can change an output
when it is recorded. An output that was cut is longer than the budget unless room for the
marker was kept; cutting it again gives the same text exactly when the first cut fell on the
last byte of the budget.
-/

namespace Choreographr.Tools

open Lib

variable {u : UnicodeTables}

/-! ## Escaping twice -/

/-- A printable ASCII character. -/
def IsPrintable (c : Char) : Prop := 0x20 ≤ c.toNat ∧ c.toNat ≤ 0x7e

instance (c : Char) : Decidable (IsPrintable c) :=
  inferInstanceAs (Decidable (0x20 ≤ c.toNat ∧ c.toNat ≤ 0x7e))

theorem hexDigit_printable (n : Nat) (c : Char) (h : c ∈ Nat.toDigits 16 n) : IsPrintable c := by
  have hDigit : ∀ d < 16, IsPrintable (Nat.digitChar d) := by decide
  induction n using Nat.strongRecOn with
  | ind n ih =>
    rw [Nat.toDigits_eq_if (by decide)] at h
    split at h
    · rename_i hLt
      obtain rfl := List.mem_singleton.mp h
      exact hDigit n hLt
    · rename_i hGe
      rcases List.mem_append.mp h with hHigh | hLow
      · exact ih (n / 16) (Nat.div_lt_self (by omega) (by decide)) hHigh
      · obtain rfl := List.mem_singleton.mp hLow
        exact hDigit _ (Nat.mod_lt n (by decide))

/-- An escape is inert text. -/
theorem escapeDefault_printable (c d : Char) (h : d ∈ escapeDefault c) : IsPrintable d := by
  have hLiteral : ∀ (s : List Char), (s.all fun d => decide (IsPrintable d)) = true → d ∈ s →
      IsPrintable d := fun s hAll hMem => of_decide_eq_true (List.all_eq_true.mp hAll d hMem)
  unfold escapeDefault at h
  split at h
  · exact hLiteral _ (by decide) h
  split at h
  · exact hLiteral _ (by decide) h
  split at h
  · exact hLiteral _ (by decide) h
  split at h
  · rename_i hQuote
    rcases List.mem_cons.mp h with rfl | hSelf
    · decide
    · obtain rfl := List.mem_singleton.mp hSelf
      unfold IsPrintable
      omega
  split at h
  · rename_i hPlain
    obtain rfl := List.mem_singleton.mp h
    exact hPlain
  · rcases List.mem_append.mp h with hFront | hClose
    · rcases List.mem_append.mp hFront with hOpen | hHex
      · exact hLiteral _ (by decide) hOpen
      · exact hexDigit_printable _ _ hHex
    · exact hLiteral _ (by decide) hClose

theorem escapeDefault_ascii (c d : Char) (h : d ∈ escapeDefault c) : d.toNat < 128 :=
  Nat.lt_of_le_of_lt (escapeDefault_printable c d h).2 (by decide)

/-- The text has no character that the transcript escapes. -/
def FormatFree (u : UnicodeTables) (text : List Char) : Prop :=
  ∀ c ∈ text, isNonJoinerFormatChar u c = false

instance (text : List Char) : Decidable (FormatFree u text) :=
  inferInstanceAs (Decidable (∀ c ∈ text, isNonJoinerFormatChar u c = false))

theorem formatFree_of_ascii {text : List Char} (h : ∀ c ∈ text, c.toNat < 128) :
    FormatFree u text := by
  intro c hMem
  have hFormat : u.isFormat c = false := by
    cases hCase : u.isFormat c with
    | false => rfl
    | true => exact absurd (u.notAscii c hCase) (Nat.not_le.mpr (h c hMem))
  simp [isNonJoinerFormatChar, hFormat]

theorem FormatFree.append {xs ys : List Char} (hXs : FormatFree u xs) (hYs : FormatFree u ys) :
    FormatFree u (xs ++ ys) := by
  intro c hMem
  rcases List.mem_append.mp hMem with hLeft | hRight
  · exact hXs c hLeft
  · exact hYs c hRight

theorem FormatFree.bytePrefix {text : List Char} (h : FormatFree u text) (cap : Nat) :
    FormatFree u (bytePrefix cap text) :=
  fun c hMem => h c ((bytePrefix_isPrefix cap text).subset hMem)

theorem truncationSuffix_formatFree : FormatFree u truncationSuffix :=
  formatFree_of_ascii (List.all_iff_forall_prop.mp (by decide))

theorem sanitizeTranscript_formatFree (text : List Char) :
    FormatFree u (sanitizeTranscript u text) := by
  unfold sanitizeTranscript
  split
  · rename_i hAscii
    refine formatFree_of_ascii ?_
    intro c hMem
    have hChar := List.all_eq_true.mp hAscii c hMem
    simp only [Bool.and_eq_true, decide_eq_true_eq] at hChar
    exact hChar.1
  · intro c hMem
    obtain ⟨d, hD, hC⟩ := List.mem_flatMap.mp hMem
    split at hC
    · exact formatFree_of_ascii (escapeDefault_ascii d) c hC
    · rename_i hPlain
      obtain rfl := List.mem_singleton.mp hC
      exact Bool.eq_false_iff.mpr hPlain

theorem flatMap_of_formatFree {text : List Char} (h : FormatFree u text) :
    (text.flatMap fun c => if isNonJoinerFormatChar u c then escapeDefault c else [c]) = text := by
  induction text with
  | nil => rfl
  | cons c rest ih =>
    have hRest := ih fun d hD => h d (List.mem_cons_of_mem c hD)
    rw [List.flatMap_cons, hRest, if_neg (by simp [h c List.mem_cons_self])]
    rfl

theorem sanitizeTranscript_of_formatFree {text : List Char} (h : FormatFree u text) :
    sanitizeTranscript u text = text := by
  unfold sanitizeTranscript
  split
  · rfl
  · exact flatMap_of_formatFree h

theorem sanitizeTranscript_eq_flatMap (text : List Char) :
    sanitizeTranscript u text =
      text.flatMap fun c => if isNonJoinerFormatChar u c then escapeDefault c else [c] := by
  unfold sanitizeTranscript
  split
  · rename_i hAscii
    refine (flatMap_of_formatFree (formatFree_of_ascii fun c hMem => ?_)).symm
    have hChar := List.all_eq_true.mp hAscii c hMem
    simp only [Bool.and_eq_true, decide_eq_true_eq] at hChar
    exact hChar.1
  · rfl

theorem sanitizeTranscript_append (xs ys : List Char) :
    sanitizeTranscript u (xs ++ ys) = sanitizeTranscript u xs ++ sanitizeTranscript u ys := by
  simp only [sanitizeTranscript_eq_flatMap, List.flatMap_append]

/-! ## Cutting twice -/

theorem byteLen_truncationSuffix : byteLen truncationSuffix = 15 := by decide

theorem bytePrefix_truncationSuffix_eq_nil_iff (n : Nat) :
    bytePrefix n truncationSuffix = [] ↔ n = 0 := by
  have hOne : ('\n').utf8Size = 1 := by decide
  rw [show truncationSuffix = '\n' :: truncationSuffix.tail by decide, bytePrefix, hOne]
  split
  · simp
    omega
  · simp
    omega

/-- The texts that the cap leaves alone: those within it, and those cut right at it. -/
theorem truncateToolOutputAt_eq_self_iff (out : List Char) (cap : Nat) :
    truncateToolOutputAt out cap = out ↔
      byteLen out ≤ cap ∨ ∃ kept, byteLen kept = cap ∧ out = kept ++ truncationSuffix := by
  by_cases hFits : byteLen out ≤ cap
  · simp [truncateToolOutputAt, hFits]
  rw [truncateToolOutputAt, if_neg hFits, or_iff_right hFits]
  have hLe := byteLen_bytePrefix_le cap out
  constructor
  · intro hSame
    refine ⟨bytePrefix cap out, ?_, hSame.symm⟩
    have hAgain := bytePrefix_bytePrefix_append cap out truncationSuffix
    rw [hSame] at hAgain
    have hNone := (bytePrefix_truncationSuffix_eq_nil_iff _).mp
      (List.append_right_eq_self.mp hAgain.symm)
    omega
  · rintro ⟨kept, hKept, rfl⟩
    rw [bytePrefix_append hKept.le, hKept, Nat.sub_self,
      (bytePrefix_truncationSuffix_eq_nil_iff 0).mpr rfl, List.append_nil]

/-- The text is within the budget, or has a character boundary at its end. -/
def CutsOnBoundary (text : List Char) : Prop :=
  byteLen text ≤ maxToolOutputBytes ∨
    byteLen (bytePrefix maxToolOutputBytes text) = maxToolOutputBytes

theorem truncateToolOutput_twice_iff (content : List Char) :
    truncateToolOutput (truncateToolOutput content) = truncateToolOutput content ↔
      CutsOnBoundary content := by
  unfold truncateToolOutput CutsOnBoundary
  rw [truncateToolOutputAt_eq_self_iff]
  by_cases hFits : byteLen content ≤ maxToolOutputBytes
  · simp [truncateToolOutputAt, hFits]
  have hShort := lt_byteLen_bytePrefix (Nat.lt_of_not_le hFits)
  rw [truncateToolOutputAt, if_neg hFits, or_iff_right hFits, byteLen_append,
    byteLen_truncationSuffix, or_iff_right (by omega)]
  constructor
  · rintro ⟨kept, hKept, hSame⟩
    rw [List.append_cancel_right hSame, hKept]
  · exact fun hEq => ⟨_, hEq, rfl⟩

/-! ## Outputs with a tail -/

/-- There is room for the tail, or the tail ends with the very marker that a cut would add. -/
def TailFits (body marker : List Char) : Prop :=
  body = [] ∨ byteLen marker + 16 ≤ maxToolOutputBytes ∨
    (byteLen marker + 1 = maxToolOutputBytes ∧ truncationSuffix <:+ marker)

theorem byteLen_truncateToolOutputAt_le (content : List Char) (cap : Nat) :
    byteLen (truncateToolOutputAt content cap) ≤ cap + 15 := by
  unfold truncateToolOutputAt
  split
  · omega
  · have hLe := byteLen_bytePrefix_le cap content
    rw [byteLen_append, byteLen_truncationSuffix]
    omega

theorem byteLen_newline_cons (text : List Char) : byteLen ('\n' :: text) = byteLen text + 1 := by
  have hOne : ('\n').utf8Size = 1 := by decide
  rw [byteLen_cons, hOne, Nat.add_comm]

theorem finishToolOutput_of_long {body marker : List Char} (hBody : body ≠ [])
    (hLong : maxToolOutputBytes < byteLen marker + 16) :
    finishToolOutput body (some marker) = truncationSuffix ++ '\n' :: marker := by
  have hPos : ¬ byteLen body ≤ 0 := by
    rw [Nat.le_zero, byteLen_eq_zero]
    exact hBody
  rw [finishToolOutput, byteLen_newline_cons, byteLen_truncationSuffix,
    Nat.sub_eq_zero_of_le (by omega), truncateToolOutputAt, if_neg hPos, bytePrefix_zero]
  rfl

theorem finishToolOutput_some_stable_iff (body marker : List Char)
    (hShort : byteLen marker < maxToolOutputBytes) :
    truncateToolOutput (finishToolOutput body (some marker)) =
      finishToolOutput body (some marker) ↔ TailFits body marker := by
  have hStable : ∀ out, byteLen out ≤ maxToolOutputBytes → truncateToolOutput out = out :=
    fun out hLe => if_pos hLe
  by_cases hBody : body = []
  · refine iff_of_true (hStable _ ?_) (.inl hBody)
    have hTail : finishToolOutput body (some marker) = '\n' :: marker := by
      rw [hBody, finishToolOutput, truncateToolOutputAt, byteLen_nil, if_pos (Nat.zero_le _)]
      rfl
    rw [hTail, byteLen_newline_cons]
    omega
  rcases Nat.lt_or_ge maxToolOutputBytes (byteLen marker + 16) with hLong | hRoom
  · rw [finishToolOutput_of_long hBody hLong, TailFits, or_iff_right hBody,
      or_iff_right (Nat.not_le.mpr hLong), truncateToolOutput, truncateToolOutputAt_eq_self_iff,
      byteLen_append, byteLen_newline_cons, byteLen_truncationSuffix, or_iff_right (by omega)]
    constructor
    · rintro ⟨kept, hKept, hSplit⟩
      have hLength := congrArg byteLen hSplit
      rw [byteLen_append, byteLen_append, byteLen_newline_cons, byteLen_truncationSuffix] at hLength
      refine ⟨by omega, ?_⟩
      have hMax : maxToolOutputBytes = 131072 := rfl
      have hMarker := byteLen_le_four_mul marker
      have hSuffix : truncationSuffix.length = 15 := by decide
      have hEnd : truncationSuffix <:+ truncationSuffix ++ '\n' :: marker := ⟨kept, hSplit.symm⟩
      have hEnd' : marker <:+ truncationSuffix ++ '\n' :: marker :=
        ⟨truncationSuffix ++ ['\n'], by simp⟩
      exact List.suffix_of_suffix_length_le hEnd hEnd' (by omega)
    · rintro ⟨hLength, front, rfl⟩
      refine ⟨truncationSuffix ++ '\n' :: front, ?_, by simp⟩
      rw [byteLen_append, byteLen_truncationSuffix] at hLength
      rw [byteLen_append, byteLen_newline_cons, byteLen_truncationSuffix]
      omega
  · refine iff_of_true (hStable _ ?_) (.inr (.inl hRoom))
    have hLe := byteLen_truncateToolOutputAt_le body (maxToolOutputBytes - (byteLen marker + 1 + 15))
    rw [finishToolOutput, byteLen_append, byteLen_newline_cons, byteLen_truncationSuffix]
    omega

/-! ## The recording step -/

theorem FormatFree.truncateToolOutputAt {text : List Char} (h : FormatFree u text) (cap : Nat) :
    FormatFree u (truncateToolOutputAt text cap) := by
  unfold Tools.truncateToolOutputAt
  split
  · exact h
  · exact (h.bytePrefix cap).append truncationSuffix_formatFree

theorem finishToolOutputSanitized_formatFree (body : List Char) (marker : Option (List Char))
    (hMarker : ∀ m ∈ marker, FormatFree u m) :
    FormatFree u (finishToolOutputSanitized u body marker) := by
  have hBody := sanitizeTranscript_formatFree (u := u) body
  cases marker with
  | none => exact hBody.truncateToolOutputAt _
  | some m =>
    refine (hBody.truncateToolOutputAt _).append ?_
    have hNewline : FormatFree u ['\n'] :=
      formatFree_of_ascii (List.all_iff_forall_prop.mp (by decide))
    exact hNewline.append (hMarker m rfl)

theorem escapeDefault_ne_nil (c : Char) : escapeDefault c ≠ [] := by
  unfold escapeDefault
  split
  · decide
  split
  · decide
  split
  · decide
  split
  · exact List.cons_ne_nil _ _
  split
  · exact List.cons_ne_nil _ _
  · simp

theorem sanitizeTranscript_eq_nil_iff (text : List Char) :
    sanitizeTranscript u text = [] ↔ text = [] := by
  unfold sanitizeTranscript
  split
  · rfl
  · cases text with
    | nil => simp
    | cons c rest =>
      rw [List.flatMap_cons, List.append_eq_nil_iff]
      have hFirst : (if isNonJoinerFormatChar u c then escapeDefault c else [c]) ≠ [] := by
        split
        · exact escapeDefault_ne_nil c
        · exact List.cons_ne_nil c []
      simp [hFirst]

/-- What recording leaves alone, of outputs without a tail, of outputs with one, and of texts that
are cut twice. -/
theorem cap_stable_iff (u : UnicodeTables) (body content marker : List Char)
    (hFree : FormatFree u marker) (hShort : byteLen marker < maxToolOutputBytes) :
    (recordedContent u (finishToolOutputSanitized u body none) =
        finishToolOutputSanitized u body none ↔ CutsOnBoundary (sanitizeTranscript u body)) ∧
      (recordedContent u (finishToolOutputSanitized u body (some marker)) =
        finishToolOutputSanitized u body (some marker) ↔ TailFits body marker) ∧
      (truncateToolOutput (truncateToolOutput content) = truncateToolOutput content ↔
        CutsOnBoundary content) := by
  have hPlain := finishToolOutputSanitized_formatFree (u := u) body none (by simp)
  have hTail := finishToolOutputSanitized_formatFree (u := u) body (some marker)
    (by simpa using hFree)
  have hBody : TailFits (sanitizeTranscript u body) marker ↔ TailFits body marker := by
    rw [TailFits, sanitizeTranscript_eq_nil_iff, TailFits]
  refine ⟨?_, ?_, truncateToolOutput_twice_iff content⟩
  · rw [recordedContent, sanitizeTranscript_of_formatFree hPlain]
    exact truncateToolOutput_twice_iff (sanitizeTranscript u body)
  · rw [recordedContent, sanitizeTranscript_of_formatFree hTail, ← hBody]
    exact finishToolOutput_some_stable_iff _ marker hShort

/-- The bidirectional controls, of all the characters of category Cf. -/
def sampleTables : UnicodeTables where
  isFormat c := 0x202a ≤ c.toNat && c.toNat ≤ 0x202e
  notAscii c h := by
    simp only [Bool.and_eq_true, decide_eq_true_eq] at h
    omega

/-- An output over the cap. -/
def longOutput : List Char := List.replicate (maxToolOutputBytes + 1) 'a'

theorem longOutput_cutsOnBoundary : CutsOnBoundary longOutput := by
  have hSize : ('a').utf8Size = 1 := by decide
  refine .inr ?_
  rw [longOutput, bytePrefix_replicate, byteLen_replicate, hSize, Nat.div_one, Nat.mul_one,
    Nat.min_eq_right (Nat.le_succ maxToolOutputBytes)]

theorem sampleTail_stable :
    maxToolOutputBytes < byteLen longOutput ∧
    recordedContent sampleTables (finishToolOutputSanitized sampleTables longOutput none) =
      finishToolOutputSanitized sampleTables longOutput none ∧
    recordedContent sampleTables
        (finishToolOutputSanitized sampleTables longOutput (some "exit 0".toList)) =
      finishToolOutputSanitized sampleTables longOutput (some "exit 0".toList) ∧
    truncateToolOutput (truncateToolOutput longOutput) = truncateToolOutput longOutput := by
  have hSize : ('a').utf8Size = 1 := by decide
  have hFree : FormatFree sampleTables longOutput := by
    refine formatFree_of_ascii fun c hMem => ?_
    rw [List.eq_of_mem_replicate hMem]
    decide
  have hStable := cap_stable_iff sampleTables longOutput longOutput "exit 0".toList
    (formatFree_of_ascii (List.all_iff_forall_prop.mp (by decide))) (by decide)
  rw [sanitizeTranscript_of_formatFree hFree] at hStable
  refine ⟨?_, hStable.1.mpr longOutput_cutsOnBoundary, hStable.2.1.mpr (.inr (.inl (by decide))),
    hStable.2.2.mpr longOutput_cutsOnBoundary⟩
  rw [longOutput, byteLen_replicate, hSize, Nat.mul_one]
  exact Nat.lt_succ_self _

/-- Characters of three bytes: the cut falls two bytes short of the budget. -/
def euroText : List Char := List.replicate 43691 '€'

theorem euroText_not_cutsOnBoundary : ¬ CutsOnBoundary euroText := by
  have hMax : maxToolOutputBytes = 131072 := rfl
  have hSize : ('€').utf8Size = 3 := by decide
  unfold CutsOnBoundary euroText
  rw [bytePrefix_replicate, byteLen_replicate, byteLen_replicate, hSize, hMax]
  omega

/-- A cut that ends inside a character is cut again when it is recorded. -/
theorem euroText_recorded_changes :
    ¬ ((∀ (body : List Char) (marker : Option (List Char)),
        (∀ m ∈ marker, FormatFree sampleTables m ∧ byteLen m < maxToolOutputBytes) →
        recordedContent sampleTables (finishToolOutputSanitized sampleTables body marker) =
          finishToolOutputSanitized sampleTables body marker) ∧
      ∀ content, truncateToolOutput (truncateToolOutput content) = truncateToolOutput content) := by
  rintro ⟨-, hTwice⟩
  exact euroText_not_cutsOnBoundary ((truncateToolOutput_twice_iff euroText).mp (hTwice euroText))

end Choreographr.Tools
