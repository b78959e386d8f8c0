import Choreographr.Tui.Selection
import Mathlib.Order.Lattice
import Mathlib.Data.List.Sort

/-!
# The selectable columns are the content without the chrome

The clipped intervals of a row cover the columns of its base range that are chrome. They are
sorted by their starts, so they coalesce into intervals that are apart, and the gaps between these
are what the base range has outside the chrome.
-/

namespace Choreographr.Tui

open Lib

/-- The column is part of the chrome. -/
def LineChrome.Has (chrome : LineChrome) (x : Nat) : Prop :=
  ∃ iv ∈ chrome.intervals, InInterval (iv.1.toNat, iv.2.toNat) x

/-! ## Selectable intervals -/

theorem clipInterval_some {base : Nat × Nat} {iv : UInt16 × UInt16} {clipped : Nat × Nat}
    (h : clipInterval base iv = some clipped) :
    clipped = (max iv.1.toNat base.1, min iv.2.toNat base.2) ∧ clipped.1 < clipped.2 := by
  unfold clipInterval at h
  dsimp only at h
  split at h
  · rename_i hSolid
    rw [← Option.some.inj h]
    exact ⟨rfl, hSolid⟩
  · cases h

/-- Clipped, the chrome covers the columns of the base range that are chrome. -/
theorem covered_clipped {base : Nat × Nat} {chrome : LineChrome} {x : Nat} :
    Covered (chrome.intervals.filterMap (clipInterval base)) x ↔
      InInterval base x ∧ chrome.Has x := by
  constructor
  · rintro ⟨clipped, hMem, hIn⟩
    obtain ⟨iv, hIv, hClip⟩ := List.mem_filterMap.mp hMem
    rw [(clipInterval_some hClip).1] at hIn
    have hLow := max_le_iff.mp hIn.1
    have hHigh := lt_min_iff.mp hIn.2
    exact ⟨⟨hLow.2, hHigh.2⟩, iv, hIv, hLow.1, hHigh.1⟩
  · rintro ⟨hBase, iv, hIv, hIn⟩
    have hLow : max iv.1.toNat base.1 ≤ x := max_le hIn.1 hBase.1
    have hHigh : x < min iv.2.toNat base.2 := lt_min hIn.2 hBase.2
    refine ⟨(max iv.1.toNat base.1, min iv.2.toNat base.2), ?_, hLow, hHigh⟩
    exact List.mem_filterMap.mpr ⟨iv, hIv, if_pos (hLow.trans_lt hHigh)⟩

theorem intervalLe_iff {a b : Nat × Nat} :
    intervalLe a b = true ↔ a.1 < b.1 ∨ (a.1 = b.1 ∧ a.2 ≤ b.2) := by
  rw [intervalLe, Bool.or_eq_true, Bool.and_eq_true, decide_eq_true_eq, decide_eq_true_eq,
    decide_eq_true_eq]

/-- Sorted as pairs, the intervals are in the order of their starts. -/
theorem sorted_starts (ivs : List (Nat × Nat)) :
    (ivs.mergeSort intervalLe).Pairwise fun a b => a.1 ≤ b.1 := by
  have hTrans : ∀ a b c : Nat × Nat,
      intervalLe a b = true → intervalLe b c = true → intervalLe a c = true := by
    intro a b c hAB hBC
    rw [intervalLe_iff] at hAB hBC ⊢
    omega
  have hTotal : ∀ a b : Nat × Nat, (intervalLe a b || intervalLe b a) = true := by
    intro a b
    rw [Bool.or_eq_true, intervalLe_iff, intervalLe_iff]
    omega
  refine (List.pairwise_mergeSort hTrans hTotal ivs).imp fun hLe => ?_
  rcases intervalLe_iff.mp hLe with hLt | ⟨hEq, -⟩
  · exact hLt.le
  · exact hEq.le

/-- The selectable intervals of a row are not empty, in ascending order and not adjacent, and
their columns are the ones of the base range that are not chrome. -/
theorem selectableIntervals_spec (base : Nat × Nat) (chrome : LineChrome) :
    Apart (selectableIntervals base chrome) ∧
      ∀ x, Covered (selectableIntervals base chrome) x ↔ InInterval base x ∧ ¬ chrome.Has x := by
  unfold selectableIntervals
  split
  · rename_i hBlank
    refine ⟨⟨fun _ hMem => absurd hMem List.not_mem_nil, .nil⟩, fun x => ?_⟩
    exact iff_of_false (not_covered_nil x) fun h => absurd (h.1.1.trans_lt h.1.2) hBlank.not_gt
  rename_i hSolid
  have hBase : base.1 < base.2 := lt_of_not_ge hSolid
  split
  · rename_i hPlain
    have hNone : ∀ x, ¬ chrome.Has x := by
      rintro x ⟨iv, hMem, -⟩
      rw [List.isEmpty_iff.mp hPlain] at hMem
      exact List.not_mem_nil hMem
    refine ⟨⟨fun iv hMem => ?_, List.pairwise_singleton _ _⟩, fun x => ?_⟩
    · rwa [List.mem_singleton.mp hMem]
    · rw [covered_singleton]
      exact (and_iff_left (hNone x)).symm
  dsimp only
  generalize hClipped : chrome.intervals.filterMap (clipInterval base) = clipped
  have hPerm := List.mergeSort_perm clipped intervalLe
  have hNonempty : ∀ iv ∈ clipped.mergeSort intervalLe, iv.1 < iv.2 := by
    intro iv hMem
    have hMem' := hPerm.subset hMem
    rw [← hClipped] at hMem'
    obtain ⟨_, -, hClip⟩ := List.mem_filterMap.mp hMem'
    exact (clipInterval_some hClip).2
  obtain ⟨hApart, hCovers⟩ := coalesce_spec hNonempty (sorted_starts clipped)
  have hChrome : ∀ x, Covered (coalesce (clipped.mergeSort intervalLe)) x ↔
      InInterval base x ∧ chrome.Has x := by
    intro x
    rw [hCovers, covered_perm hPerm, ← hClipped, covered_clipped]
  -- The ends of a merged interval are columns that it covers, so they are in the base range.
  have hRange : ∀ iv ∈ coalesce (clipped.mergeSort intervalLe),
      base.1 ≤ iv.1 ∧ iv.2 ≤ base.2 := by
    intro iv hMem
    have hHere := hApart.nonempty iv hMem
    have hFirst := (hChrome iv.1).mp ⟨iv, hMem, le_refl _, hHere⟩
    have hLast := (hChrome (iv.2 - 1)).mp ⟨iv, hMem, by omega, by omega⟩
    have hLow := hFirst.1.1
    have hHigh := hLast.1.2
    omega
  obtain ⟨hGaps, -, hOutside⟩ := gapsFrom_spec hApart hRange
  refine ⟨hGaps, fun x => ?_⟩
  rw [hOutside, hChrome]
  exact and_congr_right fun hIn => not_congr (and_iff_right hIn)

end Choreographr.Tui
