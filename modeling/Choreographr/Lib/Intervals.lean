import Mathlib.Order.MinMax

/-!
# Half-open intervals

A list of intervals of a linear order stands for the points that lie in one of them. Coalescing
joins the overlapping and touching intervals of a list that is sorted by the starts; the gaps
between intervals that are apart are what a range has outside them.
-/

namespace Choreographr.Lib

variable {α : Type} [LinearOrder α] {x : α} {ivs : List (α × α)}

/-- The point lies in the interval. -/
def InInterval (iv : α × α) (x : α) : Prop := iv.1 ≤ x ∧ x < iv.2

def Covered (ivs : List (α × α)) (x : α) : Prop := ∃ iv ∈ ivs, InInterval iv x

/-- The intervals are not empty, in order, and not even touching. -/
structure Apart (ivs : List (α × α)) : Prop where
  nonempty : ∀ iv ∈ ivs, iv.1 < iv.2
  separate : ivs.Pairwise fun a b => a.2 < b.1

theorem covered_append {xs ys : List (α × α)} :
    Covered (xs ++ ys) x ↔ Covered xs x ∨ Covered ys x := by
  constructor
  · rintro ⟨iv, hMem, hIn⟩
    rcases List.mem_append.mp hMem with hXs | hYs
    · exact .inl ⟨iv, hXs, hIn⟩
    · exact .inr ⟨iv, hYs, hIn⟩
  · rintro (⟨iv, hMem, hIn⟩ | ⟨iv, hMem, hIn⟩)
    · exact ⟨iv, List.mem_append_left _ hMem, hIn⟩
    · exact ⟨iv, List.mem_append_right _ hMem, hIn⟩

theorem covered_singleton {iv : α × α} : Covered [iv] x ↔ InInterval iv x := by
  constructor
  · rintro ⟨iv', hMem, hIn⟩
    rwa [List.mem_singleton.mp hMem] at hIn
  · exact fun hIn => ⟨iv, List.mem_singleton_self iv, hIn⟩

theorem not_covered_nil (x : α) : ¬ Covered [] x := fun ⟨_, hMem, _⟩ => List.not_mem_nil hMem

theorem covered_cons {iv : α × α} : Covered (iv :: ivs) x ↔ InInterval iv x ∨ Covered ivs x := by
  rw [← List.singleton_append, covered_append, covered_singleton]

/-- What is covered does not depend on the order of the intervals. -/
theorem covered_perm {xs ys : List (α × α)} (h : xs.Perm ys) : Covered xs x ↔ Covered ys x := by
  constructor
  · rintro ⟨iv, hMem, hIn⟩
    exact ⟨iv, h.subset hMem, hIn⟩
  · rintro ⟨iv, hMem, hIn⟩
    exact ⟨iv, h.symm.subset hMem, hIn⟩

theorem Apart.of_append_left {xs ys : List (α × α)} (h : Apart (xs ++ ys)) : Apart xs :=
  ⟨fun iv hMem => h.nonempty iv (List.mem_append_left _ hMem),
    (List.pairwise_append.mp h.separate).1⟩

/-- An interval behind all the others can be added at the end. -/
theorem Apart.concat {iv : α × α} (h : Apart ivs) (hSolid : iv.1 < iv.2)
    (hBehind : ∀ a ∈ ivs, a.2 < iv.1) : Apart (ivs ++ [iv]) := by
  constructor
  · intro iv' hMem
    rcases List.mem_append.mp hMem with hOld | hNew
    · exact h.nonempty iv' hOld
    · rwa [List.mem_singleton.mp hNew]
  · refine List.pairwise_append.mpr ⟨h.separate, List.pairwise_singleton _ _, ?_⟩
    intro a hA b hB
    rw [List.mem_singleton.mp hB]
    exact hBehind a hA

/-- Two intervals that overlap or touch are one. -/
theorem inInterval_join {a b : α × α} (hStarts : a.1 ≤ b.1) (hTouches : b.1 ≤ a.2) :
    InInterval (a.1, max a.2 b.2) x ↔ InInterval a x ∨ InInterval b x := by
  constructor
  · rintro ⟨hLow, hHigh⟩
    rcases lt_max_iff.mp hHigh with hIn | hIn
    · exact .inl ⟨hLow, hIn⟩
    · rcases lt_or_ge x a.2 with hBelow | hAbove
      · exact .inl ⟨hLow, hBelow⟩
      · exact .inr ⟨hTouches.trans hAbove, hIn⟩
  · rintro (⟨hLow, hHigh⟩ | ⟨hLow, hHigh⟩)
    · exact ⟨hLow, lt_max_iff.mpr (.inl hHigh)⟩
    · exact ⟨hStarts.trans hLow, lt_max_iff.mpr (.inr hHigh)⟩

/-! ## Coalescing -/

/-- An interval is joined to the last one if it overlaps or touches it. -/
def coalesceStep (merged : List (α × α)) (iv : α × α) : List (α × α) :=
  match merged.getLast? with
  | some last =>
      if iv.1 ≤ last.2 then merged.dropLast ++ [(last.1, max last.2 iv.2)] else merged ++ [iv]
  | none => merged ++ [iv]

def coalesce (ivs : List (α × α)) : List (α × α) := ivs.foldl coalesceStep []

/-- The intervals so far, with the rest of the list behind all their starts. -/
structure Coalesced (merged done : List (α × α)) : Prop where
  apart : Apart merged
  covers : ∀ x, Covered merged x ↔ Covered done x
  starts : ∀ iv ∈ merged, ∃ iv' ∈ done, iv.1 ≤ iv'.1

namespace Coalesced

variable {merged front done : List (α × α)} {last iv : α × α}

/-- The next interval is behind all of them. -/
theorem concat (h : Coalesced merged done) (hSolid : iv.1 < iv.2)
    (hBehind : ∀ a ∈ merged, a.2 < iv.1) : Coalesced (merged ++ [iv]) (done ++ [iv]) := by
  refine ⟨h.apart.concat hSolid hBehind, fun x => ?_, fun iv' hMem => ?_⟩
  · calc Covered (merged ++ [iv]) x
        ↔ Covered merged x ∨ Covered [iv] x := covered_append
      _ ↔ Covered done x ∨ Covered [iv] x := or_congr_left (h.covers x)
      _ ↔ Covered (done ++ [iv]) x := covered_append.symm
  · rcases List.mem_append.mp hMem with hOld | hNew
    · obtain ⟨iv'', hMem', hLe⟩ := h.starts iv' hOld
      exact ⟨iv'', List.mem_append_left _ hMem', hLe⟩
    · rw [List.mem_singleton.mp hNew]
      exact ⟨iv, List.mem_append_right _ (List.mem_singleton_self iv), le_refl _⟩

/-- The next interval starts behind the last one and reaches it. -/
theorem join (h : Coalesced (front ++ [last]) done) (hLast : last.1 ≤ iv.1)
    (hTouches : iv.1 ≤ last.2) :
    Coalesced (front ++ [(last.1, max last.2 iv.2)]) (done ++ [iv]) := by
  have hMem := List.mem_append_right front (List.mem_singleton_self last)
  have hSolid : last.1 < max last.2 iv.2 := lt_max_iff.mpr (.inl (h.apart.nonempty last hMem))
  have hFront : ∀ a ∈ front, a.2 < last.1 := fun a hA =>
    (List.pairwise_append.mp h.apart.separate).2.2 a hA last (List.mem_singleton_self last)
  refine ⟨h.apart.of_append_left.concat hSolid hFront, fun x => ?_, fun iv' hIv => ?_⟩
  · calc Covered (front ++ [(last.1, max last.2 iv.2)]) x
        ↔ Covered front x ∨ InInterval (last.1, max last.2 iv.2) x := by
          rw [covered_append, covered_singleton]
      _ ↔ Covered front x ∨ (InInterval last x ∨ InInterval iv x) :=
          or_congr_right (inInterval_join hLast hTouches)
      _ ↔ Covered (front ++ [last]) x ∨ InInterval iv x := by
          rw [covered_append, covered_singleton, or_assoc]
      _ ↔ Covered (done ++ [iv]) x := by rw [h.covers x, covered_append, covered_singleton]
  · rcases List.mem_append.mp hIv with hOld | hNew
    · obtain ⟨iv'', hMem', hLe⟩ := h.starts iv' (List.mem_append_left _ hOld)
      exact ⟨iv'', List.mem_append_left _ hMem', hLe⟩
    · rw [List.mem_singleton.mp hNew]
      exact ⟨iv, List.mem_append_right _ (List.mem_singleton_self iv), hLast⟩

theorem step (h : Coalesced merged done) (hSolid : iv.1 < iv.2)
    (hSorted : ∀ iv' ∈ done, iv'.1 ≤ iv.1) :
    Coalesced (coalesceStep merged iv) (done ++ [iv]) := by
  unfold coalesceStep
  split
  · rename_i last hGet
    obtain ⟨front, rfl⟩ := List.getLast?_eq_some_iff.mp hGet
    have hMem := List.mem_append_right front (List.mem_singleton_self last)
    split
    · rename_i hTouches
      obtain ⟨early, hEarly, hLe⟩ := h.starts last hMem
      rw [List.dropLast_concat]
      exact h.join (hLe.trans (hSorted early hEarly)) hTouches
    · rename_i hFar
      have hEnd : last.2 < iv.1 := lt_of_not_ge hFar
      refine h.concat hSolid fun a hA => ?_
      rcases List.mem_append.mp hA with hFront | hIsLast
      · have hBefore := (List.pairwise_append.mp h.apart.separate).2.2 a hFront last
          (List.mem_singleton_self last)
        exact hBefore.trans ((h.apart.nonempty last hMem).trans hEnd)
      · rwa [List.mem_singleton.mp hIsLast]
  · rename_i hNone
    rw [List.getLast?_eq_none_iff.mp hNone] at h ⊢
    exact h.concat hSolid fun a hA => absurd hA List.not_mem_nil

end Coalesced

/-- A sorted list of intervals is coalesced into intervals that are apart. -/
theorem coalesce_spec (hSolid : ∀ iv ∈ ivs, iv.1 < iv.2)
    (hSorted : ivs.Pairwise fun a b => a.1 ≤ b.1) :
    Apart (coalesce ivs) ∧ ∀ x, Covered (coalesce ivs) x ↔ Covered ivs x := by
  have hRun : ∀ rest merged done, Coalesced merged done →
      (∀ iv ∈ rest, iv.1 < iv.2) → (done ++ rest).Pairwise (fun a b : α × α => a.1 ≤ b.1) →
      Coalesced (rest.foldl coalesceStep merged) (done ++ rest) := by
    intro rest
    induction rest with
    | nil =>
      intro merged done h _ _
      rwa [List.append_nil]
    | cons iv rest ih =>
      intro merged done h hRest hOrder
      have hBefore : ∀ iv' ∈ done, iv'.1 ≤ iv.1 := fun iv' hMem =>
        (List.pairwise_append.mp hOrder).2.2 iv' hMem iv List.mem_cons_self
      rw [List.append_cons] at hOrder ⊢
      exact ih _ _ (h.step (hRest iv List.mem_cons_self) hBefore)
        (fun iv' hMem => hRest iv' (List.mem_cons_of_mem iv hMem)) hOrder
  have hStart : Coalesced ([] : List (α × α)) [] :=
    ⟨⟨fun _ hMem => absurd hMem List.not_mem_nil, .nil⟩, fun _ => Iff.rfl,
      fun _ hMem => absurd hMem List.not_mem_nil⟩
  have hEnd := hRun ivs [] [] hStart hSolid hSorted
  exact ⟨hEnd.apart, hEnd.covers⟩

/-! ## Gaps -/

/-- What a range has outside the intervals, from a point on. -/
def gapsFrom (hi cursor : α) : List (α × α) → List (α × α)
  | [] => if cursor < hi then [(cursor, hi)] else []
  | iv :: rest =>
      if cursor < iv.1 then (cursor, iv.1) :: gapsFrom hi (max cursor iv.2) rest
      else gapsFrom hi (max cursor iv.2) rest

/-- The gaps are apart, and together with the intervals they are the range. -/
theorem gapsFrom_spec {hi cursor : α} (hApart : Apart ivs)
    (hRange : ∀ iv ∈ ivs, cursor ≤ iv.1 ∧ iv.2 ≤ hi) :
    Apart (gapsFrom hi cursor ivs) ∧ (∀ gap ∈ gapsFrom hi cursor ivs, cursor ≤ gap.1) ∧
      ∀ x, Covered (gapsFrom hi cursor ivs) x ↔ InInterval (cursor, hi) x ∧ ¬ Covered ivs x := by
  induction ivs generalizing cursor with
  | nil =>
    rw [gapsFrom]
    split
    · rename_i hSome
      refine ⟨⟨fun gap hMem => ?_, List.pairwise_singleton _ _⟩, fun gap hMem => ?_, fun x => ?_⟩
      · rwa [List.mem_singleton.mp hMem]
      · rw [List.mem_singleton.mp hMem]
      · rw [covered_singleton]
        exact (and_iff_left (not_covered_nil x)).symm
    · rename_i hNone
      refine ⟨⟨fun _ hMem => absurd hMem List.not_mem_nil, .nil⟩,
        fun _ hMem => absurd hMem List.not_mem_nil, fun x => ?_⟩
      refine iff_of_false (not_covered_nil x) fun h => ?_
      exact hNone (h.1.1.trans_lt h.1.2)
  | cons iv rest ih =>
    have hHere := hRange iv List.mem_cons_self
    have hSolid := hApart.nonempty iv List.mem_cons_self
    have hBehind := List.pairwise_cons.mp hApart.separate
    have hNext : max cursor iv.2 = iv.2 := max_eq_right (hHere.1.trans hSolid.le)
    obtain ⟨hGaps, hStarts, hCovers⟩ := @ih iv.2
      ⟨fun iv' hMem => hApart.nonempty iv' (List.mem_cons_of_mem iv hMem), hBehind.2⟩
      fun iv' hMem => ⟨(hBehind.1 iv' hMem).le, (hRange iv' (List.mem_cons_of_mem iv hMem)).2⟩
    -- Nothing of the rest of the intervals is below the end of this one.
    have hRest : ∀ x, x < iv.2 → ¬ Covered rest x := by
      rintro x hLt ⟨iv', hMem, hLow, -⟩
      exact absurd ((hBehind.1 iv' hMem).trans_le hLow) (not_lt_of_gt hLt)
    have hAfter : ∀ x, Covered (gapsFrom hi iv.2 rest) x ↔
        InInterval (iv.2, hi) x ∧ ¬ Covered (iv :: rest) x := by
      intro x
      rw [hCovers, covered_cons, not_or]
      refine and_congr_right fun hIn => (and_iff_right fun hInside => ?_).symm
      exact absurd hInside.2 (not_lt_of_ge hIn.1)
    rw [gapsFrom, hNext]
    split
    · rename_i hGap
      refine ⟨⟨fun gap hMem => ?_, List.pairwise_cons.mpr ⟨fun gap hMem => ?_, hGaps.separate⟩⟩,
        fun gap hMem => ?_, fun x => ?_⟩
      · rcases List.mem_cons.mp hMem with rfl | hLater
        · exact hGap
        · exact hGaps.nonempty gap hLater
      · exact hSolid.trans_le (hStarts gap hMem)
      · rcases List.mem_cons.mp hMem with rfl | hLater
        · exact le_refl cursor
        · exact hHere.1.trans (hSolid.le.trans (hStarts gap hLater))
      · rw [covered_cons, hAfter]
        constructor
        · rintro (⟨hLow, hHigh⟩ | ⟨⟨hLow, hHigh⟩, hOut⟩)
          · refine ⟨⟨hLow, hHigh.trans (hSolid.trans_le hHere.2)⟩, ?_⟩
            rw [covered_cons, not_or]
            exact ⟨fun hIn => absurd hIn.1 (not_le_of_gt hHigh), hRest x (hHigh.trans hSolid)⟩
          · exact ⟨⟨hHere.1.trans (hSolid.le.trans hLow), hHigh⟩, hOut⟩
        · rintro ⟨⟨hLow, hHigh⟩, hOut⟩
          rcases lt_or_ge x iv.1 with hBefore | hStart
          · exact .inl ⟨hLow, hBefore⟩
          · rcases lt_or_ge x iv.2 with hInside | hEnd
            · exact absurd (covered_cons.mpr (.inl ⟨hStart, hInside⟩)) hOut
            · exact .inr ⟨⟨hEnd, hHigh⟩, hOut⟩
    · rename_i hNoGap
      have hSame : iv.1 = cursor := le_antisymm (le_of_not_gt hNoGap) hHere.1
      refine ⟨hGaps, fun gap hMem => hHere.1.trans (hSolid.le.trans (hStarts gap hMem)),
        fun x => ?_⟩
      rw [hAfter]
      constructor
      · rintro ⟨⟨hLow, hHigh⟩, hOut⟩
        exact ⟨⟨hHere.1.trans (hSolid.le.trans hLow), hHigh⟩, hOut⟩
      · rintro ⟨⟨hLow, hHigh⟩, hOut⟩
        refine ⟨⟨le_of_not_gt fun hInside => ?_, hHigh⟩, hOut⟩
        exact hOut (covered_cons.mpr (.inl ⟨hSame.le.trans hLow, hInside⟩))

end Choreographr.Lib
