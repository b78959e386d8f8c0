import Mathlib.Data.List.Basic

/-!
# The last match in a list

`rposition p xs` is the position of the last element of `xs` that satisfies `p`.
`UpToLast p held xs` says that `held` is `xs` up to and including that element,
so that a list that grows or changes only behind its last match keeps the same
`held`.
-/

namespace Choreographr.Lib

/-- The position of the last element that satisfies `p`. -/
def rposition {α : Type} (p : α → Bool) : List α → Option Nat
  | [] => none
  | x :: rest =>
      match rposition p rest with
      | some i => some (i + 1)
      | none => if p x then some 0 else none

variable {α β : Type} {p : α → Bool}

theorem rposition_eq_none {xs : List α} (h : ∀ x ∈ xs, p x = false) : rposition p xs = none := by
  induction xs with
  | nil => rfl
  | cons x rest ih =>
    have hRest := ih fun y hy => h y (List.mem_cons_of_mem x hy)
    simp [rposition, hRest, h x List.mem_cons_self]

theorem rposition_append_cons {xs ys : List α} {a : α} (ha : p a = true)
    (h : ∀ y ∈ ys, p y = false) : rposition p (xs ++ a :: ys) = some xs.length := by
  induction xs with
  | nil => simp [rposition, rposition_eq_none h, ha]
  | cons x rest ih => simp [rposition, ih]

/-- The last element that satisfies `p`, if one does. -/
theorem exists_last_match {xs : List α} (h : ∃ x ∈ xs, p x = true) :
    ∃ before x after, xs = before ++ x :: after ∧ p x = true ∧ ∀ y ∈ after, p y = false := by
  induction xs with
  | nil =>
    obtain ⟨x, hMem, -⟩ := h
    cases hMem
  | cons a rest ih =>
    by_cases hRest : ∃ x ∈ rest, p x = true
    · obtain ⟨before, x, after, rfl, hx, hNone⟩ := ih hRest
      exact ⟨a :: before, x, after, rfl, hx, hNone⟩
    · obtain ⟨x, hMem, hx⟩ := h
      have hNone : ∀ y ∈ rest, p y = false := by
        intro y hy
        rw [← Bool.not_eq_true]
        exact fun hp => hRest ⟨y, hy, hp⟩
      rcases List.mem_cons.mp hMem with rfl | hIn
      · exact ⟨[], x, rest, rfl, hx, hNone⟩
      · exact absurd ⟨x, hIn, hx⟩ hRest

theorem rposition_spec {xs : List α} {i : Nat} (h : rposition p xs = some i) :
    ∃ x, xs[i]? = some x ∧ p x = true := by
  induction xs generalizing i with
  | nil => cases h
  | cons x rest ih =>
    simp only [rposition] at h
    split at h
    · rename_i j hRest
      cases h
      exact ih hRest
    · split at h
      · rename_i hp
        cases h
        exact ⟨x, rfl, hp⟩
      · cases h

/-- Selecting by position: what stands behind `a`. -/
theorem filterMap_zipIdx_after (f : α → Option β) (before after : List α) (a : α) :
    (before ++ a :: after).zipIdx.filterMap
        (fun q => if before.length < q.2 then f q.1 else none) = after.filterMap f := by
  have hBefore : before.zipIdx.filterMap
      (fun q => if before.length < q.2 then f q.1 else none) = [] := by
    rw [List.filterMap_eq_nil_iff]
    intro q hq
    have hLt := List.snd_lt_of_mem_zipIdx hq
    rw [if_neg (by omega)]
  have hAfter : (after.zipIdx (before.length + 1)).filterMap
      (fun q => if before.length < q.2 then f q.1 else none) = after.filterMap f := by
    nth_rewrite 2 [← List.zipIdx_map_fst (before.length + 1) after]
    rw [List.filterMap_map]
    apply List.filterMap_congr
    intro q hq
    have hLe := List.le_snd_of_mem_zipIdx hq
    rw [if_pos (by omega)]
    rfl
  rw [List.zipIdx_append, List.filterMap_append, hBefore, List.nil_append, Nat.zero_add,
    List.zipIdx_cons, List.filterMap_cons]
  simpa using hAfter

/-! ## Up to the last match -/

/-- `held` is the part of `xs` up to and including its last match. -/
def UpToLast (p : α → Bool) (held xs : List α) : Prop :=
  ∃ front a rest, held = front ++ [a] ∧ p a = true ∧ xs = front ++ a :: rest ∧
    ∀ x ∈ rest, p x = false

namespace UpToLast

variable {held xs ys front rest rest' : List α} {a : α}

theorem intro (ha : p a = true) (hRest : ∀ x ∈ rest, p x = false) :
    UpToLast p (front ++ [a]) (front ++ a :: rest) := ⟨front, a, rest, rfl, ha, rfl, hRest⟩

/-- The list grows behind its last match. -/
theorem append (h : UpToLast p held xs) (hNew : ∀ y ∈ ys, p y = false) :
    UpToLast p held (xs ++ ys) := by
  obtain ⟨front, a, rest, rfl, ha, rfl, hRest⟩ := h
  rw [List.append_assoc, List.cons_append]
  refine intro ha ?_
  intro x hx
  rcases List.mem_append.mp hx with hx | hx
  · exact hRest x hx
  · exact hNew x hx

/-- There is only one last match. -/
theorem held_eq (h : UpToLast p held (front ++ a :: rest)) (ha : p a = true)
    (hRest : ∀ x ∈ rest, p x = false) : held = front ++ [a] := by
  obtain ⟨front', a', rest', rfl, ha', hEq, hRest'⟩ := h
  have hLength : some front.length = some front'.length := by
    rw [← rposition_append_cons ha hRest, hEq, rposition_append_cons ha' hRest']
  obtain ⟨rfl, hTail⟩ := List.append_inj hEq (Option.some.inj hLength)
  cases hTail
  rfl

/-- The list changes behind its last match. -/
theorem change (h : UpToLast p held (front ++ a :: rest)) (ha : p a = true)
    (hRest : ∀ x ∈ rest, p x = false) (hRest' : ∀ x ∈ rest', p x = false) :
    UpToLast p held (front ++ a :: rest') := by
  rw [h.held_eq ha hRest]
  exact intro ha hRest'

end UpToLast

end Choreographr.Lib
