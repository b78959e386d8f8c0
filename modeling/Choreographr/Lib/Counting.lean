import Mathlib.Algebra.BigOperators.Group.List.Basic
import Mathlib.Data.Finset.Card
import Mathlib.Data.List.Count

/-!
# Lists with one element changed

What a sum or a count over a list becomes when one element is replaced. The old
element stands on the left, so that no subtraction is needed. What stands around an
element of a list, when one is added at the end.
-/

namespace Choreographr.Lib

variable {α : Type} {i : Nat} {a b : α} {xs : List α}

theorem sum_map_modify {M : Type} [AddCommMonoid M] (xs : List α) (g : α → M) (f : α → α)
    (h : xs[i]? = some a) : ((xs.modify i f).map g).sum + g a = (xs.map g).sum + g (f a) := by
  induction xs generalizing i with
  | nil => cases h
  | cons x rest ih =>
    cases i with
    | zero =>
      cases h
      simp only [List.modify_zero_cons, List.map_cons, List.sum_cons]
      ac_rfl
    | succ i =>
      have hRest := ih h
      simp only [List.modify_succ_cons, List.map_cons, List.sum_cons]
      rw [add_assoc, hRest, add_assoc]

theorem set_eq_self_of_getElem? (h : xs[i]? = some a) : xs.set i a = xs := by
  obtain ⟨hLength, rfl⟩ := List.getElem?_eq_some_iff.mp h
  exact List.set_getElem_self hLength

theorem sum_map_set {M : Type} [AddCommMonoid M] (xs : List α) (g : α → M) (b : α)
    (h : xs[i]? = some a) : ((xs.set i b).map g).sum + g a = (xs.map g).sum + g b := by
  rw [List.set_eq_modify]
  exact sum_map_modify xs g (fun _ => b) h

theorem sum_map_eraseIdx {M : Type} [AddCommMonoid M] (xs : List α) (g : α → M)
    (h : xs[i]? = some a) : ((xs.eraseIdx i).map g).sum + g a = (xs.map g).sum := by
  induction xs generalizing i with
  | nil => cases h
  | cons x rest ih =>
    cases i with
    | zero =>
      cases h
      simp only [List.eraseIdx_cons_zero, List.map_cons, List.sum_cons]
      ac_rfl
    | succ i =>
      have hRest := ih h
      simp only [List.eraseIdx_cons_succ, List.map_cons, List.sum_cons]
      rw [add_assoc, hRest]

theorem countP_modify {p : α → Bool} (h : xs[i]? = some a) (f : α → α) :
    (xs.modify i f).countP p + (p a).toNat = xs.countP p + (p (f a)).toNat := by
  induction xs generalizing i with
  | nil => cases h
  | cons x rest ih =>
    cases i with
    | zero =>
      cases h
      simp only [List.modify_zero_cons, List.countP_cons]
      cases p a <;> cases p (f a) <;> simp
    | succ i =>
      have hRest := ih h
      simp only [List.modify_succ_cons, List.countP_cons]
      omega

/-- A change that a function of the changed element does not see. -/
theorem map_modify_of_eq {β : Type} {g : α → β} {f : α → α}
    (h : ∀ a, xs[i]? = some a → g (f a) = g a) : (xs.modify i f).map g = xs.map g := by
  induction xs generalizing i with
  | nil => cases i <;> rfl
  | cons x rest ih =>
    cases i with
    | zero => rw [List.modify_zero_cons, List.map_cons, List.map_cons, h x rfl]
    | succ i => rw [List.modify_succ_cons, List.map_cons, List.map_cons, ih fun a hGet => h a hGet]

/-- Where an element of the changed list comes from. -/
theorem getElem?_modify_cases {f : α → α} {j : Nat} (h : (xs.modify i f)[j]? = some b) :
    ∃ a, xs[j]? = some a ∧ (b = a ∨ i = j ∧ b = f a) := by
  rw [List.getElem?_modify] at h
  obtain ⟨a, hGet, rfl⟩ := Option.map_eq_some_iff.mp h
  refine ⟨a, hGet, ?_⟩
  split
  · rename_i hEq
    exact .inr ⟨hEq, rfl⟩
  · exact .inl rfl

/-- An element of a list that grew at its end stood there before, or is the new one. -/
theorem getElem?_concat_cases {x y : α} {j : Nat} (h : (xs ++ [x])[j]? = some y) :
    xs[j]? = some y ∨ j = xs.length ∧ y = x := by
  rw [List.getElem?_append] at h
  split at h
  · exact Or.inl h
  · have hBound := (List.getElem?_eq_some_iff.mp h).1
    rw [List.length_singleton] at hBound
    obtain rfl : j = xs.length := by omega
    rw [Nat.sub_self] at h
    cases h
    exact Or.inr ⟨rfl, rfl⟩

/-- An element of a list after one was replaced is the new one, or one of the others. -/
theorem mem_set_cases (h : a ∈ xs.set i b) : a = b ∨ a ∈ xs.eraseIdx i := by
  obtain ⟨j, hGet⟩ := List.mem_iff_getElem?.mp h
  rw [List.getElem?_set] at hGet
  split at hGet
  · split at hGet
    · cases hGet
      exact .inl rfl
    · cases hGet
  · rename_i hNe
    exact .inr (List.mem_eraseIdx_iff_getElem?.mpr ⟨j, Ne.symm hNe, hGet⟩)

theorem countP_eraseIdx {p : α → Bool} (h : xs[i]? = some a) :
    (xs.eraseIdx i).countP p + (p a).toNat = xs.countP p := by
  induction xs generalizing i with
  | nil => cases h
  | cons x rest ih =>
    cases i with
    | zero =>
      cases h
      simp only [List.eraseIdx_cons_zero, List.countP_cons]
      cases p a <;> simp
    | succ i =>
      have hRest := ih h
      simp only [List.eraseIdx_cons_succ, List.countP_cons]
      omega

/-- A list with different keys in a finite set is no longer than the set. -/
theorem length_le_card {κ : Type} [DecidableEq κ] {key : α → κ} {box : Finset κ}
    (hKeys : (xs.map key).Nodup) (hBox : ∀ a ∈ xs, key a ∈ box) : xs.length ≤ box.card := by
  have hSub : (xs.map key).toFinset ⊆ box := by
    intro k hMem
    obtain ⟨a, hA, rfl⟩ := List.mem_map.mp (List.mem_toFinset.mp hMem)
    exact hBox a hA
  calc xs.length = (xs.map key).toFinset.card := by
        rw [List.toFinset_card_of_nodup hKeys, List.length_map]
    _ ≤ box.card := Finset.card_le_card hSub

/-- An element of a list that grew at its end is the new one, or stood there before. -/
theorem append_singleton_eq_split {before after : List α} (h : xs ++ [a] = before ++ b :: after) :
    (xs = before ∧ a = b ∧ after = []) ∨
      ∃ after', after = after' ++ [a] ∧ xs = before ++ b :: after' := by
  rcases List.eq_nil_or_concat after with rfl | ⟨init, last, rfl⟩
  · obtain ⟨hInit, hLast⟩ := List.append_inj' h rfl
    exact .inl ⟨hInit, List.head_eq_of_cons_eq hLast, rfl⟩
  · rw [List.concat_eq_append, ← List.cons_append, ← List.append_assoc] at h
    obtain ⟨hInit, hLast⟩ := List.append_inj' h rfl
    cases hLast
    exact .inr ⟨init, List.concat_eq_append, hInit⟩

/-- Where at most one element of a list is selected, it stands at one place. -/
theorem eq_of_countP_le_one {p : α → Bool} {j : Nat} (h : xs.countP p ≤ 1) (hi : xs[i]? = some a)
    (hj : xs[j]? = some b) (ha : p a = true) (hb : p b = true) : i = j := by
  induction xs generalizing i j with
  | nil => cases hi
  | cons x rest ih =>
    rw [List.countP_cons] at h
    cases i with
    | zero =>
      cases j with
      | zero => rfl
      | succ j =>
        cases hi
        have hPos : 0 < rest.countP p := List.countP_pos_iff.mpr ⟨b, List.mem_of_getElem? hj, hb⟩
        rw [if_pos ha] at h
        omega
    | succ i =>
      cases j with
      | zero =>
        cases hj
        have hPos : 0 < rest.countP p := List.countP_pos_iff.mpr ⟨a, List.mem_of_getElem? hi, ha⟩
        rw [if_pos hb] at h
        omega
      | succ j => rw [ih (Nat.le_trans (Nat.le_add_right _ _) h) hi hj]

/-- What stands around an element, and what is left without it. -/
theorem exists_split_of_getElem? (h : xs[i]? = some a) :
    ∃ before after, xs = before ++ a :: after ∧ xs.eraseIdx i = before ++ after := by
  induction xs generalizing i with
  | nil => cases h
  | cons x rest ih =>
    cases i with
    | zero =>
      cases h
      exact ⟨[], rest, rfl, rfl⟩
    | succ i =>
      obtain ⟨before, after, rfl, hErase⟩ := ih h
      exact ⟨x :: before, after, rfl, by rw [List.eraseIdx_cons_succ, hErase, List.cons_append]⟩

end Choreographr.Lib
