import Mathlib.Data.List.Basic
import Mathlib.Data.List.Infix

/-!
# Occurrences of a pattern in a list

A search from left to right finds occurrences that do not overlap: behind a match it goes on at
the end of the match. `matchIndices` lists where the matches start, and `replace` puts another
list in the place of each. A list may carry more than what is compared: `key` reads off the
compared part of an element.
-/

namespace Choreographr.Lib

variable {α β : Type} {text : List α} {p : Nat}

/-- The pattern stands in the text at this position. -/
def OccursAt (pat text : List α) (p : Nat) : Prop := pat <+: text.drop p

instance [DecidableEq α] (pat text : List α) (p : Nat) : Decidable (OccursAt pat text p) :=
  inferInstanceAs (Decidable (pat <+: text.drop p))

theorem OccursAt.append_eq {pat : List α} (h : OccursAt pat text p) :
    text.take p ++ pat ++ text.drop (p + pat.length) = text := by
  obtain ⟨rest, hRest⟩ := h
  have hDrop : text.drop (p + pat.length) = rest := by
    rw [← List.drop_drop, ← hRest, List.drop_left]
  rw [hDrop, List.append_assoc, hRest, List.take_append_drop]

theorem OccursAt.add_length_le {pat : List α} (h : OccursAt pat text p) (hPat : pat ≠ []) :
    p + pat.length ≤ text.length := by
  have hLe := h.length_le
  have hPos := List.length_pos_of_ne_nil hPat
  rw [List.length_drop] at hLe
  omega

/-- A pattern whose first element does not come again in it overlaps no other occurrence: put at
the end of a text it adds one occurrence. -/
theorem occursAt_append_self_iff {c : α} {rest : List α} (hFresh : c ∉ rest) (p : Nat) :
    OccursAt (c :: rest) (text ++ c :: rest) p ↔
      OccursAt (c :: rest) text p ∨ p = text.length := by
  constructor
  · intro h
    have hLe := h.add_length_le (List.cons_ne_nil c rest)
    rw [List.length_append, List.length_cons] at hLe
    rcases Nat.lt_or_ge text.length (p + rest.length + 1) with hOver | hWithin
    · right
      rcases Nat.lt_or_ge p text.length with hLt | hGe
      · -- The first element of the pattern at the end would stand inside this occurrence.
        exfalso
        obtain ⟨more, hMore⟩ := h
        rw [List.drop_append_of_le_length hLt.le] at hMore
        have hAt : ((c :: rest) ++ more)[text.length - p]? =
            (text.drop p ++ c :: rest)[text.length - p]? := by rw [hMore]
        have hFirst : (text.drop p ++ c :: rest)[text.length - p]? = some c := by
          rw [List.getElem?_append_right (by simp), List.length_drop, Nat.sub_self]
          rfl
        obtain ⟨k, hK⟩ : ∃ k, text.length - p = k + 1 := ⟨text.length - p - 1, by omega⟩
        rw [hFirst, hK, List.cons_append, List.getElem?_cons_succ,
          List.getElem?_append_left (by omega)] at hAt
        exact hFresh (List.mem_of_getElem? hAt)
      · omega
    · left
      have hTake : (text ++ c :: rest).drop p = text.drop p ++ c :: rest :=
        List.drop_append_of_le_length (by omega)
      rw [OccursAt, hTake] at h
      exact List.prefix_of_prefix_length_le h (List.prefix_append _ _) (by simp; omega)
  · rintro (h | rfl)
    · have hLe := h.add_length_le (List.cons_ne_nil c rest)
      rw [OccursAt, List.drop_append_of_le_length (by omega)]
      exact h.trans (List.prefix_append _ _)
    · rw [OccursAt, List.drop_left]

section Search

variable [DecidableEq α]

/-- The starts of the matches; the first `skip` elements belong to a match already. -/
def matchesFrom (pat : List α) : (skip offset : Nat) → List α → List Nat
  | _, _, [] => []
  | skip + 1, offset, _ :: rest => matchesFrom pat skip (offset + 1) rest
  | 0, offset, c :: rest =>
      if pat <+: c :: rest then offset :: matchesFrom pat (pat.length - 1) (offset + 1) rest
      else matchesFrom pat 0 (offset + 1) rest

def matchIndices (pat text : List α) : List Nat := matchesFrom pat 0 0 text

/-- The list with a text in the place of each match; the first `skip` elements belong to a match
already. What is put in may depend on the first element of the match. -/
def replaceFrom (key : β → α) (pat : List α) (new : β → List β) : (skip : Nat) → List β → List β
  | _, [] => []
  | skip + 1, _ :: rest => replaceFrom key pat new skip rest
  | 0, c :: rest =>
      if pat <+: (c :: rest).map key then new c ++ replaceFrom key pat new (pat.length - 1) rest
      else c :: replaceFrom key pat new 0 rest

def replace (pat new text : List α) : List α := replaceFrom id pat (fun _ => new) 0 text

/-- What stands before the first occurrence of a pattern, and what stands behind it. The pattern
is not empty. -/
def splitFirst (pat : List α) : List α → Option (List α × List α)
  | [] => none
  | c :: rest =>
      if pat <+: c :: rest then some ([], (c :: rest).drop pat.length)
      else (splitFirst pat rest).map fun parts => (c :: parts.1, parts.2)

variable {pat : List α}

/-! ## The first occurrence -/

theorem splitFirst_eq_some {before behind : List α}
    (h : splitFirst pat text = some (before, behind)) :
    text = before ++ (pat ++ behind) ∧ ∀ p < before.length, ¬ OccursAt pat text p := by
  induction text generalizing before with
  | nil => cases h
  | cons c rest ih =>
    rw [splitFirst] at h
    split at h
    · rename_i hHere
      cases h
      obtain ⟨more, hMore⟩ := hHere
      refine ⟨?_, fun p hLt => absurd hLt (Nat.not_lt_zero p)⟩
      rw [← hMore, List.drop_left]
      rfl
    · rename_i hNone
      obtain ⟨⟨before', behind'⟩, hRest, hParts⟩ := Option.map_eq_some_iff.mp h
      cases hParts
      obtain ⟨hText, hFirst⟩ := ih hRest
      refine ⟨by rw [List.cons_append, ← hText], ?_⟩
      intro p hLt
      cases p with
      | zero => exact hNone
      | succ p => exact hFirst p (Nat.lt_of_succ_lt_succ hLt)

theorem splitFirst_eq_none (hPat : pat ≠ []) (h : splitFirst pat text = none) (p : Nat) :
    ¬ OccursAt pat text p := by
  induction text generalizing p with
  | nil =>
    intro hOccurs
    have hLe := hOccurs.add_length_le hPat
    have hPos := List.length_pos_of_ne_nil hPat
    rw [List.length_nil] at hLe
    omega
  | cons c rest ih =>
    rw [splitFirst] at h
    split at h
    · cases h
    · rename_i hNone
      cases p with
      | zero => exact hNone
      | succ p => exact ih (Option.map_eq_none_iff.mp h) p

theorem length_lt_of_splitFirst {before behind : List α} (hPat : pat ≠ [])
    (h : splitFirst pat text = some (before, behind)) : behind.length < text.length := by
  have hLength := congrArg List.length (splitFirst_eq_some h).1
  have hPos := List.length_pos_of_ne_nil hPat
  rw [List.length_append, List.length_append] at hLength
  omega

/-! ## What is found -/

theorem mem_matchesFrom {skip offset o : Nat} (h : o ∈ matchesFrom pat skip offset text) :
    ∃ p, o = offset + p ∧ skip ≤ p ∧ OccursAt pat text p := by
  induction text generalizing skip offset with
  | nil => simp [matchesFrom] at h
  | cons c rest ih =>
    have hLater : ∀ {skip'}, o ∈ matchesFrom pat skip' (offset + 1) rest →
        ∃ p, o = offset + (p + 1) ∧ skip' ≤ p ∧ OccursAt pat (c :: rest) (p + 1) := by
      intro skip' hMem
      obtain ⟨p, hO, hSkip, hOccurs⟩ := ih hMem
      exact ⟨p, by omega, hSkip, hOccurs⟩
    cases skip with
    | succ skip =>
      obtain ⟨p, hO, hSkip, hOccurs⟩ := hLater h
      exact ⟨p + 1, hO, Nat.succ_le_succ hSkip, hOccurs⟩
    | zero =>
      simp only [matchesFrom] at h
      split at h
      · rename_i hHere
        rcases List.mem_cons.mp h with rfl | hMem
        · exact ⟨0, rfl, Nat.le_refl 0, hHere⟩
        · obtain ⟨p, hO, -, hOccurs⟩ := hLater hMem
          exact ⟨p + 1, hO, Nat.zero_le _, hOccurs⟩
      · obtain ⟨p, hO, -, hOccurs⟩ := hLater h
        exact ⟨p + 1, hO, Nat.zero_le _, hOccurs⟩

theorem occursAt_of_mem_matchIndices {o : Nat} (h : o ∈ matchIndices pat text) :
    OccursAt pat text o := by
  obtain ⟨p, rfl, -, hOccurs⟩ := mem_matchesFrom h
  rwa [Nat.zero_add]

/-- Every occurrence starts inside a match. -/
theorem exists_match_of_occursAt (skip offset : Nat) (hPat : pat ≠ []) (h : OccursAt pat text p) :
    p < skip ∨ ∃ o ∈ matchesFrom pat skip offset text,
      o ≤ offset + p ∧ offset + p < o + pat.length := by
  have hPos := List.length_pos_of_ne_nil hPat
  induction text generalizing skip offset p with
  | nil =>
    have hLe := h.add_length_le hPat
    rw [List.length_nil] at hLe
    omega
  | cons c rest ih =>
    cases skip with
    | succ skip =>
      cases p with
      | zero => exact .inl (Nat.succ_pos skip)
      | succ p =>
        rcases ih skip (offset + 1) h with hLt | ⟨o, hMem, hLe, hGt⟩
        · exact .inl (Nat.succ_lt_succ hLt)
        · exact .inr ⟨o, hMem, by omega, by omega⟩
    | zero =>
      right
      simp only [matchesFrom]
      split
      · rename_i hHere
        cases p with
        | zero => exact ⟨offset, List.mem_cons_self, by omega, by omega⟩
        | succ p =>
          rcases ih (pat.length - 1) (offset + 1) h with hLt | ⟨o, hMem, hLe, hGt⟩
          · exact ⟨offset, List.mem_cons_self, by omega, by omega⟩
          · exact ⟨o, List.mem_cons_of_mem _ hMem, by omega, by omega⟩
      · rename_i hNone
        cases p with
        | zero => exact absurd h hNone
        | succ p =>
          rcases ih 0 (offset + 1) h with hLt | ⟨o, hMem, hLe, hGt⟩
          · exact absurd hLt (Nat.not_lt_zero p)
          · exact ⟨o, hMem, by omega, by omega⟩

theorem matchIndices_eq_nil_iff (hPat : pat ≠ []) :
    matchIndices pat text = [] ↔ ∀ p, ¬ OccursAt pat text p := by
  constructor
  · intro hNone p hOccurs
    rcases exists_match_of_occursAt 0 0 hPat hOccurs with hLt | ⟨o, hMem, -⟩
    · exact Nat.not_lt_zero p hLt
    · rw [← matchIndices, hNone] at hMem
      cases hMem
  · intro hNone
    exact List.eq_nil_iff_forall_not_mem.mpr fun o hMem =>
      hNone o (occursAt_of_mem_matchIndices hMem)

/-! ## What is replaced -/

/-- What is put in is read off the same way. -/
theorem map_replaceFrom {key : β → α} {new : β → List β} {new' : List α}
    (hNew : ∀ b, (new b).map key = new') (skip : Nat) (text : List β) :
    (replaceFrom key pat new skip text).map key =
      replaceFrom id pat (fun _ => new') skip (text.map key) := by
  induction text generalizing skip with
  | nil => cases skip <;> rfl
  | cons c rest ih =>
    cases skip with
    | succ skip => exact ih skip
    | zero =>
      simp only [replaceFrom, List.map_cons, List.map_id_fun, id_eq]
      split
      · rw [List.map_append, hNew, ih]
      · rw [List.map_cons, ih]

end Search

/-! ## Substitutions -/

/-- The two texts differ in `n` places, in each of which the first has `old` and the second
`new`. -/
inductive Substituted (old new : List α) : Nat → List α → List α → Prop
  | rest (text : List α) : Substituted old new 0 text text
  | step (kept : List α) {n : Nat} {before after : List α} :
      Substituted old new n before after →
      Substituted old new (n + 1) (kept ++ (old ++ before)) (kept ++ (new ++ after))

namespace Substituted

variable {old new before after : List α} {n : Nat}

theorem cons (h : Substituted old new n before after) (c : α) :
    Substituted old new n (c :: before) (c :: after) := by
  cases h with
  | rest text => exact .rest (c :: before)
  | step kept h => exact .step (c :: kept) h

theorem eq_of_zero (h : Substituted old new 0 before after) : after = before := by
  cases h
  rfl

/-- A substitution of the characters carries over to what they stand for. -/
theorem flatMap (h : Substituted old new n before after) (f : α → List β) :
    Substituted (old.flatMap f) (new.flatMap f) n (before.flatMap f) (after.flatMap f) := by
  induction h with
  | rest text => exact .rest (text.flatMap f)
  | step kept _ ih =>
    simp only [List.flatMap_append]
    exact .step (kept.flatMap f) ih

theorem length_eq (h : Substituted old new n before after) :
    (after.length : Int) - before.length = ((new.length : Int) - old.length) * n := by
  induction h with
  | rest text => simp
  | step kept _ ih =>
    simp only [List.length_append]
    push_cast
    rw [Int.mul_add, Int.mul_one]
    omega

end Substituted

variable {pat : List α}

/-- Replacing at one occurrence. -/
theorem OccursAt.substituted (h : OccursAt pat text p) (new : List α) :
    Substituted pat new 1 text (text.take p ++ new ++ text.drop (p + pat.length)) := by
  have hStep : Substituted pat new 1 (text.take p ++ (pat ++ text.drop (p + pat.length)))
      (text.take p ++ (new ++ text.drop (p + pat.length))) := .step (text.take p) (.rest _)
  rw [← List.append_assoc, h.append_eq, ← List.append_assoc] at hStep
  exact hStep

variable [DecidableEq α]

theorem replaceFrom_substituted (hPat : pat ≠ []) (new : List α) (skip offset : Nat)
    (text : List α) :
    Substituted pat new (matchesFrom pat skip offset text).length (text.drop skip)
      (replaceFrom id pat (fun _ => new) skip text) := by
  induction text generalizing skip offset with
  | nil =>
    rw [List.drop_nil]
    cases skip <;> exact .rest []
  | cons c rest ih =>
    cases skip with
    | succ skip => exact ih skip (offset + 1)
    | zero =>
      simp only [matchesFrom, replaceFrom, List.map_id_fun, id_eq]
      split
      · rename_i hHere
        obtain ⟨more, hMore⟩ := hHere
        have hDrop : rest.drop (pat.length - 1) = more := by
          have hBehind : (c :: rest).drop pat.length = more := by rw [← hMore, List.drop_left]
          cases pat with
          | nil => exact absurd rfl hPat
          | cons a tail => exact hBehind
        have hRest := ih (pat.length - 1) (offset + 1)
        rw [hDrop] at hRest
        rw [List.drop_zero, ← hMore]
        exact .step [] hRest
      · exact (ih 0 (offset + 1)).cons c

/-- Replacing substitutes every match. -/
theorem replace_substituted (hPat : pat ≠ []) (new text : List α) :
    Substituted pat new (matchIndices pat text).length text (replace pat new text) :=
  replaceFrom_substituted hPat new 0 0 text

theorem replace_singleton (a : α) (new text : List α) :
    replace [a] new text = text.flatMap fun c => if c = a then new else [c] := by
  rw [replace]
  induction text with
  | nil => rfl
  | cons c rest ih =>
    simp only [replaceFrom, List.length_singleton, Nat.sub_self, List.flatMap_cons]
    rw [ih]
    by_cases hEq : c = a
    · rw [if_pos hEq, if_pos (by simp [hEq])]
    · rw [if_neg hEq, if_neg (by simp [Ne.symm hEq])]
      rfl

end Choreographr.Lib
