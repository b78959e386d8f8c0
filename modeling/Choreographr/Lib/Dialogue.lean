import Mathlib.Data.List.Basic
import Mathlib.Data.List.TakeWhile

/-!
# Dialogues

A list whose elements may ask for some keys and may reply to some. In a dialogue the
replies behind an element that is none itself are exactly to what it asks, in the same
order, and nothing replies at the beginning. So every reply stands in the run of replies
directly behind the element that asked for it.
-/

namespace Choreographr.Lib

variable {α κ : Type}

/-- What the elements that a list starts with reply to. -/
def leadingReplies [DecidableEq κ] (replies : α → List κ) (xs : List α) : List κ :=
  (xs.takeWhile fun x => replies x ≠ []).flatMap replies

structure Dialogue [DecidableEq κ] (asks replies : α → List κ) (xs : List α) : Prop where
  /-- The list does not start with a reply. -/
  first : ∀ x ∈ xs.head?, replies x = []
  answered : ∀ x after, (x :: after) <:+ xs → replies x = [] →
    leadingReplies replies after = asks x

section Replies

variable [DecidableEq κ] {replies : α → List κ} {xs ys : List α}

theorem leadingReplies_append_of_first (hy : ∀ y ∈ ys.head?, replies y = []) :
    leadingReplies replies (xs ++ ys) = leadingReplies replies xs := by
  unfold leadingReplies
  induction xs with
  | nil =>
    cases ys with
    | nil => rfl
    | cons y rest =>
      have hFirst : replies y = [] := hy y rfl
      simp [hFirst]
  | cons x rest ih =>
    rw [List.cons_append, List.takeWhile_cons, List.takeWhile_cons]
    split
    · rw [List.flatMap_cons, List.flatMap_cons, ih]
    · rfl

theorem leadingReplies_of_forall (h : ∀ x ∈ xs, replies x ≠ []) :
    leadingReplies replies xs = xs.flatMap replies := by
  have hAll : xs.takeWhile (fun x => replies x ≠ []) = xs := by
    rw [List.takeWhile_eq_self_iff]
    exact fun x hx => decide_eq_true (h x hx)
  rw [leadingReplies, hAll]

theorem leadingReplies_of_none (h : ∀ x ∈ xs, replies x = []) :
    leadingReplies replies xs = [] := by
  cases xs with
  | nil => rfl
  | cons x rest => simp [leadingReplies, h x List.mem_cons_self]

end Replies

namespace Dialogue

variable [DecidableEq κ] {asks replies : α → List κ} {x : α} {xs ys : List α}

theorem nil : Dialogue asks replies [] where
  first := by simp
  answered := fun x after hSuffix => by cases List.eq_nil_of_suffix_nil hSuffix

/-- An element in front of a list whose replies are to what it asks. -/
theorem cons (hFirst : replies x = []) (hAsks : leadingReplies replies xs = asks x)
    (hRest : ∀ y after, (y :: after) <:+ xs → replies y = [] →
      leadingReplies replies after = asks y) :
    Dialogue asks replies (x :: xs) where
  first := fun y hy => by
    cases hy
    exact hFirst
  answered := fun y after hSuffix hNone => by
    rcases List.suffix_cons_iff.mp hSuffix with hEq | hSuffix
    · cases hEq
      exact hAsks
    · exact hRest y after hSuffix hNone

/-- Elements that neither ask nor reply. -/
theorem of_plain (h : ∀ x ∈ xs, asks x = [] ∧ replies x = []) : Dialogue asks replies xs where
  first := fun x hx => (h x (List.mem_of_mem_head? hx)).2
  answered := fun x after hSuffix _ => by
    have hMem := hSuffix.subset
    rw [(h x (hMem List.mem_cons_self)).1]
    exact leadingReplies_of_none fun y hy => (h y (hMem (List.mem_cons_of_mem _ hy))).2

/-- An element and the replies to what it asks. -/
theorem round (hFirst : replies x = []) (hReplies : ∀ y ∈ ys, replies y ≠ [])
    (hAsks : ys.flatMap replies = asks x) : Dialogue asks replies (x :: ys) := by
  refine cons hFirst ((leadingReplies_of_forall hReplies).trans hAsks) ?_
  intro y after hSuffix hNone
  exact absurd hNone (hReplies y (hSuffix.subset List.mem_cons_self))

theorem append (hx : Dialogue asks replies xs) (hy : Dialogue asks replies ys) :
    Dialogue asks replies (xs ++ ys) := by
  constructor
  · cases xs with
    | nil => exact hy.first
    | cons x rest => exact hx.first
  · have hAnswered := hx.answered
    clear hx
    induction xs with
    | nil => exact hy.answered
    | cons x rest ih =>
      intro z after hSuffix hNone
      rw [List.cons_append] at hSuffix
      rcases List.suffix_cons_iff.mp hSuffix with hEq | hSuffix
      · cases hEq
        rw [leadingReplies_append_of_first hy.first]
        exact hAnswered x rest (List.suffix_refl _) hNone
      · exact ih (fun w front hFront =>
          hAnswered w front (hFront.trans (List.suffix_cons x rest))) z after hSuffix hNone

theorem flatMap {β : Type} {bs : List β} {f : β → List α}
    (h : ∀ b ∈ bs, Dialogue asks replies (f b)) : Dialogue asks replies (bs.flatMap f) := by
  induction bs with
  | nil => exact nil
  | cons b rest ih =>
    rw [List.flatMap_cons]
    exact (h b List.mem_cons_self).append (ih fun c hc => h c (List.mem_cons_of_mem _ hc))

/-- Without a last element that does not reply. -/
theorem dropLast (h : Dialogue asks replies xs) (hLast : ∀ x ∈ xs.getLast?, replies x = []) :
    Dialogue asks replies xs.dropLast := by
  rcases List.eq_nil_or_concat xs with rfl | ⟨front, last, rfl⟩
  · exact nil
  · rw [List.concat_eq_append, List.dropLast_concat]
    rw [List.concat_eq_append] at h hLast
    have hNone : replies last = [] := hLast last (by simp)
    constructor
    · intro x hx
      apply h.first
      rw [List.head?_append_of_ne_nil _ (List.ne_nil_of_mem (List.mem_of_mem_head? hx))]
      exact hx
    · intro x after hSuffix hPlain
      have hLonger : (x :: (after ++ [last])) <:+ front ++ [last] :=
        (List.suffix_append_inj_of_length_eq rfl).mpr ⟨hSuffix, rfl⟩
      rw [← h.answered x _ hLonger hPlain]
      refine (leadingReplies_append_of_first ?_).symm
      intro y hy
      cases hy
      exact hNone

end Dialogue

end Choreographr.Lib
