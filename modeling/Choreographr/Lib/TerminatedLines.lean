import Mathlib.Data.List.Basic

/-!
# Lines with their terminator

A list is cut behind every separator. A line carries its separator; only the last line may be
without one, and no line is empty, so that the lines put together are the list.
-/

namespace Choreographr.Lib

variable {α : Type} [DecidableEq α] {sep : α} {text xs : List α}

/-- The list up to its first separator, which is included. -/
def firstLine (sep : α) : List α → List α
  | [] => []
  | a :: rest => if a = sep then [a] else a :: firstLine sep rest

/-- All lines. -/
def splitLines (sep : α) : List α → List (List α)
  | [] => []
  | a :: rest =>
      if a = sep then [a] :: splitLines sep rest
      else
        match splitLines sep rest with
        | [] => [[a]]
        | line :: lines => (a :: line) :: lines

theorem firstLine_isPrefix (text : List α) : firstLine sep text <+: text := by
  induction text with
  | nil => exact List.prefix_refl []
  | cons a rest ih =>
    rw [firstLine]
    split
    · exact List.prefix_append [a] rest
    · exact (List.prefix_cons_inj a).mpr ih

theorem firstLine_append_drop (text : List α) :
    firstLine sep text ++ text.drop (firstLine sep text).length = text := by
  obtain ⟨rest, hRest⟩ := @firstLine_isPrefix _ _ sep text
  have hDrop : text.drop (firstLine sep text).length = rest := by
    have hLeft : (firstLine sep text ++ rest).drop (firstLine sep text).length = rest :=
      List.drop_left
    rwa [hRest] at hLeft
  rw [hDrop, hRest]

theorem firstLine_eq_nil : firstLine sep text = [] ↔ text = [] := by
  cases text with
  | nil => simp [firstLine]
  | cons a rest =>
    rw [firstLine]
    split <;> simp

/-- What has no separator is part of the line. -/
theorem firstLine_append_of_notMem (h : sep ∉ xs) (ys : List α) :
    firstLine sep (xs ++ ys) = xs ++ firstLine sep ys := by
  induction xs with
  | nil => rfl
  | cons a rest ih =>
    rw [List.mem_cons, not_or] at h
    rw [List.cons_append, firstLine, if_neg (Ne.symm h.1), ih h.2, List.cons_append]

theorem firstLine_of_notMem (h : sep ∉ text) : firstLine sep text = text := by
  have hAppend := firstLine_append_of_notMem h []
  rwa [List.append_nil, firstLine, List.append_nil] at hAppend

theorem firstLine_append_sep (h : sep ∉ xs) (ys : List α) :
    firstLine sep (xs ++ sep :: ys) = xs ++ [sep] := by
  rw [firstLine_append_of_notMem h, firstLine, if_pos rfl]

/-- The line that a search for the separator finds. -/
theorem firstLine_of_findIdx? {p : α → Bool} (hSep : ∀ a, p a = true ↔ a = sep) {idx : Nat}
    (h : xs.findIdx? p = some idx) (ys : List α) :
    firstLine sep (xs ++ ys) = xs.take (idx + 1) ∧ idx < xs.length := by
  induction xs generalizing idx with
  | nil => cases h
  | cons a rest ih =>
    rw [List.findIdx?_cons] at h
    rw [List.cons_append, firstLine]
    split at h
    · rename_i hHere
      cases h
      rw [if_pos ((hSep a).mp hHere)]
      exact ⟨rfl, Nat.succ_pos _⟩
    · rename_i hNot
      obtain ⟨idx', hRest, rfl⟩ := Option.map_eq_some_iff.mp h
      obtain ⟨hLine, hLt⟩ := ih hRest
      rw [if_neg fun hEq => hNot ((hSep a).mpr hEq), hLine]
      exact ⟨rfl, Nat.succ_lt_succ hLt⟩

omit [DecidableEq α] in
theorem notMem_of_findIdx?_eq_none {p : α → Bool} (hSep : ∀ a, p a = true ↔ a = sep)
    (h : xs.findIdx? p = none) : sep ∉ xs := by
  intro hMem
  rw [List.findIdx?_eq_none_iff] at h
  exact absurd (h sep hMem) (by simp [(hSep sep).mpr rfl])

/-- A line that is read on in the middle. -/
theorem firstLine_drop {n : Nat} (h : n < (firstLine sep text).length) :
    firstLine sep (text.drop n) = (firstLine sep text).drop n := by
  induction text generalizing n with
  | nil => exact absurd h (Nat.not_lt_zero n)
  | cons a rest ih =>
    cases n with
    | zero => rfl
    | succ n =>
      rw [firstLine] at h ⊢
      split at h
      · exact absurd h (by simp)
      · rename_i hSep
        rw [List.length_cons] at h
        rw [if_neg hSep, List.drop_succ_cons, List.drop_succ_cons]
        exact ih (Nat.lt_of_succ_lt_succ h)

theorem splitLines_eq_nil : splitLines sep text = [] ↔ text = [] := by
  cases text with
  | nil => simp [splitLines]
  | cons a rest =>
    rw [splitLines]
    split
    · simp
    · split <;> simp

/-- The lines are the first one and those of what is behind it. -/
theorem splitLines_eq_cons (h : text ≠ []) :
    splitLines sep text =
      firstLine sep text :: splitLines sep (text.drop (firstLine sep text).length) := by
  induction text with
  | nil => exact absurd rfl h
  | cons a rest ih =>
    rw [splitLines, firstLine]
    split
    · rfl
    · rw [List.length_cons, List.drop_succ_cons]
      by_cases hRest : rest = []
      · subst hRest
        rfl
      · rw [ih hRest]

theorem flatten_splitLines (text : List α) : (splitLines sep text).flatten = text := by
  induction text with
  | nil => rfl
  | cons a rest ih =>
    rw [splitLines]
    split
    · rw [List.flatten_cons, ih]
      rfl
    · split
      · rename_i hNone
        rw [splitLines_eq_nil.mp hNone]
        rfl
      · rename_i line lines hLines
        rw [hLines, List.flatten_cons] at ih
        rw [List.flatten_cons, List.cons_append, ih]

end Choreographr.Lib
