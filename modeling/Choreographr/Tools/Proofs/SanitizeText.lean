import Choreographr.Tools.Proofs.Sanitize

/-!
# Escaping names and lines of content

A character that is kept is not one of the unsafe ones, and an escape consists of characters that
are kept. Hence an escaped text has nothing to escape, and the predicted length is the length.
-/

namespace Choreographr.Tools

open Lib

variable {u : UnicodeTables}

/-- What must not reach a terminal or split a line. -/
def IsUnsafe (u : UnicodeTables) (keepTabs : Bool) (c : Char) : Prop :=
  (isControl c = true ∧ ¬ (c = '\t' ∧ keepTabs = true)) ∨ isUnsafeUnicode u c = true

theorem isUnsafeUnicode_of_ascii {c : Char} (h : c.toNat < 128) : isUnsafeUnicode u c = false := by
  have hFormat : u.isFormat c = false := by
    cases hCase : u.isFormat c with
    | false => rfl
    | true => exact absurd (u.notAscii c hCase) (Nat.not_le.mpr h)
  have hLine : (c.toNat == 0x2028) = false := beq_false_of_ne (by omega)
  have hParagraph : (c.toNat == 0x2029) = false := beq_false_of_ne (by omega)
  simp only [isUnsafeUnicode, isNonJoinerFormatChar, hFormat, hLine, hParagraph, Bool.false_and,
    Bool.or_false]

theorem isControl_of_ascii {c : Char} (h : c.toNat < 128) :
    isControl c = false ↔ IsPrintable c := by
  simp only [isControl, IsPrintable, Bool.or_eq_false_iff, Bool.and_eq_false_iff,
    decide_eq_false_iff_not]
  omega

theorem sanitizeKeeps_iff (c : Char) (keepTabs : Bool) :
    sanitizeKeeps u c keepTabs = true ↔ ¬ IsUnsafe u keepTabs c := by
  unfold sanitizeKeeps IsUnsafe
  split
  · rename_i hAscii
    have hControl := isControl_of_ascii hAscii
    rw [isUnsafeUnicode_of_ascii hAscii]
    unfold IsPrintable at hControl
    simp only [Bool.or_eq_true, Bool.and_eq_true, beq_iff_eq, decide_eq_true_eq, ← hControl,
      Bool.false_eq_true, or_false]
    constructor
    · rintro (hTab | hPlain) ⟨hCase, hNotTab⟩
      · exact hNotTab hTab
      · rw [hPlain] at hCase
        cases hCase
    · intro h
      cases hCase : isControl c with
      | false => exact .inr rfl
      | true => exact .inl (Classical.byContradiction fun hNotTab => h ⟨hCase, hNotTab⟩)
  · rename_i hWide
    have hTab : c ≠ '\t' := by
      rintro rfl
      exact hWide (by decide)
    simp [hTab]

theorem IsPrintable.kept {c : Char} (h : IsPrintable c) (keepTabs : Bool) :
    sanitizeKeeps u c keepTabs = true := by
  obtain ⟨hLow, hHigh⟩ := h
  rw [sanitizeKeeps, if_pos (by omega)]
  simp [hLow, hHigh]

theorem isPlainAscii_kept {text : List Char} {keepTabs : Bool}
    (h : isPlainAscii text keepTabs = true) {c : Char} (hMem : c ∈ text) :
    sanitizeKeeps u c keepTabs = true := by
  have hChar := List.all_eq_true.mp h c hMem
  have hAscii : c.toNat < 128 := by
    simp only [Bool.or_eq_true, Bool.and_eq_true, beq_iff_eq, decide_eq_true_eq] at hChar
    rcases hChar with ⟨rfl, -⟩ | hPrintable
    · decide
    · omega
  rwa [sanitizeKeeps, if_pos hAscii]

theorem sanitizeText_kept (text : List Char) (keepTabs : Bool) {d : Char}
    (h : d ∈ sanitizeText u text keepTabs) : sanitizeKeeps u d keepTabs = true := by
  unfold sanitizeText at h
  split at h
  · rename_i hPlain
    exact isPlainAscii_kept hPlain h
  · obtain ⟨c, -, hD⟩ := List.mem_flatMap.mp h
    split at hD
    · rename_i hKept
      obtain rfl := List.mem_singleton.mp hD
      exact hKept
    · exact (escapeDefault_printable c d hD).kept keepTabs

theorem sanitizeText_of_kept {text : List Char} {keepTabs : Bool}
    (h : ∀ c ∈ text, sanitizeKeeps u c keepTabs = true) : sanitizeText u text keepTabs = text := by
  have hEach : (text.flatMap fun c =>
      if sanitizeKeeps u c keepTabs then [c] else escapeDefault c) = text := by
    induction text with
    | nil => rfl
    | cons c rest ih =>
      rw [List.flatMap_cons, if_pos (h c List.mem_cons_self),
        ih fun d hD => h d (List.mem_cons_of_mem c hD)]
      rfl
  unfold sanitizeText
  split
  · rfl
  · exact hEach

/-! ## Lengths -/

theorem byteLen_of_ascii {text : List Char} (h : ∀ c ∈ text, c.toNat < 128) :
    byteLen text = text.length := by
  induction text with
  | nil => rfl
  | cons c rest ih =>
    have hOne : c.utf8Size = 1 := by
      have hAscii : c.toNat < 128 := h c List.mem_cons_self
      rw [Char.utf8Size_eq_one_iff, UInt32.le_iff_toNat_le]
      have hMax : (127 : UInt32).toNat = 127 := rfl
      rw [hMax]
      exact Nat.le_of_lt_succ hAscii
    rw [byteLen_cons, hOne, ih fun d hD => h d (List.mem_cons_of_mem c hD), List.length_cons,
      Nat.add_comm]

theorem byteLen_flatMap {α : Type} (f : α → List Char) (xs : List α) :
    byteLen (xs.flatMap f) = (xs.map fun x => byteLen (f x)).sum := by
  induction xs with
  | nil => rfl
  | cons x rest ih => rw [List.flatMap_cons, byteLen_append, ih, List.map_cons, List.sum_cons]

theorem byteLen_sanitizeText (text : List Char) (keepTabs : Bool) :
    byteLen (sanitizeText u text keepTabs) = sanitizeTextLen u text keepTabs := by
  unfold sanitizeText sanitizeTextLen
  split
  · rfl
  · rw [byteLen_flatMap]
    congr 1
    refine List.map_congr_left ?_
    intro c _
    split
    · simp
    · exact byteLen_of_ascii (escapeDefault_ascii c)

/-- Nothing unsafe comes out of the escaping, a text without anything unsafe stays as it is, and
the length that is predicted is that of the result. -/
theorem sanitizeText_safe (u : UnicodeTables) (text : List Char) (keepTabs : Bool) :
    (∀ c ∈ sanitizeText u text keepTabs, ¬ IsUnsafe u keepTabs c) ∧
      ((∀ c ∈ text, ¬ IsUnsafe u keepTabs c) → sanitizeText u text keepTabs = text) ∧
      sanitizeText u (sanitizeText u text keepTabs) keepTabs = sanitizeText u text keepTabs ∧
      byteLen (sanitizeText u text keepTabs) = sanitizeTextLen u text keepTabs := by
  refine ⟨?_, ?_, ?_, byteLen_sanitizeText text keepTabs⟩
  · intro c hMem
    exact (sanitizeKeeps_iff c keepTabs).mp (sanitizeText_kept text keepTabs hMem)
  · intro hSafe
    exact sanitizeText_of_kept fun c hMem => (sanitizeKeeps_iff c keepTabs).mpr (hSafe c hMem)
  · exact sanitizeText_of_kept fun c hMem => sanitizeText_kept text keepTabs hMem

end Choreographr.Tools
