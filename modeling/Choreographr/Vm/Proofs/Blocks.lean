import Choreographr.Vm.Proofs.Refines

/-!
# Blocks of a heap

A block is cut out of the first hole that it fits into, and goes back to the holes when the
program gives it up. The allocator has the holes that are meant after both, and it writes
words of the holes and of the block that goes back only.
-/

namespace Choreographr.Vm

open Lib Links

/-- The memory has this list of holes. -/
structure HoleList.Represents (l : HoleList) (spans : List Span) : Prop where
  linked : l.links.Linked (starts spans)
  sizes : ∀ s ∈ spans, (l.hole s.start).size = s.size

/-- The word is in none of the spans. -/
def Clear (spans : List Span) (w : Nat) : Prop := ∀ x ∈ spans, w < x.start ∨ x.stop ≤ w

variable {lo hi fuel size : Nat} {cells cells' : List Nat} {m : Memory} {l : HoleList}
  {spans before after : List Span} {s b : Span} {layout : Layout}

theorem HoleList.Represents.holds (h : l.Represents spans) (hSub : ∀ x ∈ starts spans, x ∈ cells) :
    Holds cells l.memory l spans :=
  ⟨hSub, h.linked, h.sizes, fun _ _ => rfl⟩

theorem Holds.represents (h : Holds cells m l spans) : l.Represents spans := ⟨h.linked, h.sizes⟩

theorem outside_of_clear (hRoom : ∀ x ∈ spans, Hole.minSize ≤ x.size) {w : Nat}
    (h : Clear spans w) :
    Outside (starts spans) w := by
  intro c hC
  obtain ⟨x, hX, rfl⟩ := List.mem_map.mp hC
  have hSize := hRoom x hX
  have hWord := h x hX
  unfold Span.stop at hWord
  omega

theorem length_reclaimed (h : Spaced lo hi spans)
    (hS : Hole.minSize ≤ s.size → s.Placed lo hi ∧ ∀ x ∈ spans, s.Apart x) :
    (reclaimed spans s).length ≤ spans.length + 1 := by
  unfold reclaimed
  split
  · rename_i hSize
    exact length_putBack h (hS hSize).1 (hS hSize).2
  · exact Nat.le_succ _

/-! ## A new hole -/

theorem Holds.write {a : Nat} (h : Holds cells m l spans) (size : Nat) (hCells : Spread cells)
    (hA : a ∈ cells) (hOut : a ∉ starts spans) :
    Holds cells m (l.write a ⟨none, size, none⟩) spans ∧
      ((l.write a ⟨none, size, none⟩).hole a).size = size := by
  have hShown := h.shows.write ⟨none, size, none⟩ hCells hA rfl rfl
  have hNe : ∀ x ∈ starts spans, x ≠ a := fun x hMem hEq => hOut (hEq ▸ hMem)
  refine ⟨⟨h.sub, ?_, fun x hMem => ?_, hShown.rest⟩, ?_⟩
  · refine h.linked.congr ⟨hShown.links.front, fun x hMem => ?_⟩
    have hX : some a ≠ some x := fun hEq => hNe x hMem (Option.some.inj hEq).symm
    obtain ⟨hNext, hPrev⟩ := hShown.links.cell x (h.sub x hMem)
    refine ⟨hNext.trans ?_, hPrev.trans ?_⟩
    · rw [next_setPrev, next_setNext, if_neg hX]
    · rw [prev_setPrev, if_neg hX, prev_setNext]
  · refine (hShown.sizes x.start (h.sub _ (mem_starts hMem))).trans ?_
    rw [Function.update_apply, if_neg (hNe _ (mem_starts hMem))]
    exact h.sizes x hMem
  · refine (hShown.sizes a hA).trans ?_
    rw [Function.update_apply, if_pos rfl]

theorem not_mem_starts (hRoom : 0 < s.size) (hSizes : ∀ x ∈ spans, 0 < x.size)
    (hApart : ∀ x ∈ spans, s.Apart x) : s.start ∉ starts spans := by
  intro hMem
  obtain ⟨x, hX, hEq⟩ := List.mem_map.mp hMem
  have hSize := hSizes x hX
  have hX' := hApart x hX
  unfold Span.Apart Span.stop at hX'
  omega

theorem Span.Placed.pos (h : s.Placed lo hi) : 0 < s.size := Nat.lt_of_lt_of_le (by decide) h.room

section Bounds

variable (hLo : 0 < lo) (hHi : hi ≤ 2 ^ 63)

include hLo hHi

theorem Holds.putBack (h : Holds cells m l spans) (hCells : Spread cells)
    (hSpaced : Spaced lo hi spans) (hS : s.Placed lo hi) (hApart : ∀ x ∈ spans, s.Apart x)
    (hMem : s.start ∈ cells) (hFuel : spans.length ≤ fuel) :
    ∃ l', (l.write s.start ⟨none, s.size, none⟩).insert fuel s.start = some l' ∧
      Holds cells m l' (putBack spans s) := by
  have hOut : s.start ∉ starts spans :=
    not_mem_starts hS.pos (fun x hX => (hSpaced.placed x hX).pos) hApart
  obtain ⟨hWritten, hSize⟩ := h.write s.size hCells hMem hOut
  exact hWritten.insert hLo hHi hCells hSpaced hS hApart hMem hSize hFuel

theorem Holds.reclaim (h : Holds cells m l spans) (hCells : Spread cells)
    (hSpaced : Spaced lo hi spans)
    (hS : Hole.minSize ≤ s.size → s.Placed lo hi ∧ ∀ x ∈ spans, s.Apart x)
    (hMem : Hole.minSize ≤ s.size → s.start ∈ cells) (hFuel : spans.length ≤ fuel) :
    ∃ l', l.reclaim fuel s.start s.size = some l' ∧ Holds cells m l' (reclaimed spans s) := by
  unfold HoleList.reclaim reclaimed
  by_cases hSize : s.size ≥ Hole.minSize
  · rw [if_pos hSize, if_pos hSize]
    exact h.putBack hLo hHi hCells hSpaced (hS hSize).1 (hS hSize).2 (hMem hSize) hFuel
  · rw [if_neg hSize, if_neg hSize]
    exact ⟨l, rfl, h⟩

theorem HoleList.Represents.deallocate (h : l.Represents spans) (hSpaced : Spaced lo hi spans)
    (layout : Layout) (hS : s.Placed lo hi) (hSize : s.size = layout.room)
    (hApart : ∀ x ∈ spans, s.Apart x) (hFuel : spans.length ≤ fuel) :
    ∃ l', l.deallocate fuel s.start layout = some l' ∧ l'.Represents (Vm.putBack spans s) ∧
      ∀ w, Clear (s :: spans) w → l'.memory w = l.memory w := by
  have hWhole := takeWhile_append_dropWhile_start spans s.start
  obtain ⟨hPlaced, hOrder⟩ := (between_takeWhile hSpaced hS hApart).ordered
  obtain ⟨hCells, -⟩ := spread_starts hLo hPlaced hOrder
  have hSub : ∀ x ∈ starts spans, x ∈ starts ((spans.takeWhile fun x => x.start ≤ s.start) ++
      s :: spans.dropWhile fun x => x.start ≤ s.start) := by
    intro x hMem
    rw [← hWhole, starts_append] at hMem
    exact starts_sub hMem
  obtain ⟨l', hInsert, hHolds⟩ := (h.holds hSub).putBack hLo hHi hCells hSpaced hS hApart
    (mem_starts (by simp)) hFuel
  refine ⟨l', ?_, hHolds.represents, fun w hW => hHolds.rest w ?_⟩
  · unfold HoleList.deallocate
    rw [← hSize]
    exact hInsert
  · refine outside_of_clear (fun x hMem => (hPlaced x hMem).room) fun x hMem => hW x ?_
    rcases List.mem_append.mp hMem with hX | hX
    · exact List.mem_cons_of_mem _ ((List.takeWhile_prefix _).subset hX)
    · rcases List.mem_cons.mp hX with rfl | hX
      · exact List.mem_cons_self
      · exact List.mem_cons_of_mem _ ((List.dropWhile_suffix _).subset hX)

end Bounds

/-! ## The first hole that fits -/

theorem fitsAt_eq (hS : s.Placed lo hi) (hHi : hi ≤ 2 ^ 63) :
    HoleList.fitsAt layout.room layout.effectiveAlign s.start s.stop = layout.fitsIn s := by
  have hAligned : s.start ≤ alignUp s.start layout.effectiveAlign := (blockIn_start hS hHi layout).1
  obtain ⟨-, hRoom, -, hMost⟩ := layout.room_spec
  have hUpper := hS.upper
  have hMin : Hole.minSize = 24 := rfl
  unfold HoleList.fitsAt Layout.fitsIn Layout.blockIn Span.stop at *
  simp only
  rcases Nat.lt_or_ge (alignUp s.start layout.effectiveAlign) (s.start + s.size) with hIn | hOut
  · rw [wrappingAdd_eq (by omega), Bool.eq_iff_iff]
    simp only [Bool.not_eq_true', Bool.or_eq_false_iff, decide_eq_false_iff_not, decide_eq_true_eq]
    omega
  · rw [Bool.eq_iff_iff]
    simp only [Bool.not_eq_true', Bool.or_eq_false_iff, decide_eq_false_iff_not, decide_eq_true_eq]
    omega

theorem firstFit_eq {prev : Option Nat} (hHi : hi ≤ 2 ^ 63) (hPlaced : ∀ x ∈ spans, x.Placed lo hi)
    (hSizes : ∀ x ∈ spans, (l.hole x.start).size = x.size)
    (h : l.links.Segment prev (starts spans) none) (hFuel : spans.length ≤ fuel) :
    l.firstFit layout.room layout.effectiveAlign fuel (starts spans).head? =
      some ((spans.find? layout.fitsIn).map Span.start) := by
  induction spans generalizing fuel prev with
  | nil => cases fuel <;> rfl
  | cons x rest ih =>
    obtain ⟨hNext, hRest⟩ := segment_cons h
    obtain ⟨hX, hPlacedRest⟩ := List.forall_mem_cons.mp hPlaced
    obtain ⟨hSize, hSizesRest⟩ := List.forall_mem_cons.mp hSizes
    cases fuel with
    | zero => cases hFuel
    | succ fuel =>
      have hEnd : wrappingAdd x.start (l.hole x.start).size = x.stop := by
        have hUpper := hX.upper
        unfold Span.stop at hUpper
        rw [hSize, wrappingAdd_eq (by omega)]
        rfl
      show (if HoleList.fitsAt layout.room layout.effectiveAlign x.start
          (wrappingAdd x.start (l.hole x.start).size) then some (some x.start)
        else l.firstFit layout.room layout.effectiveAlign fuel (l.hole x.start).next) = _
      rw [hEnd, fitsAt_eq hX hHi, List.find?_cons]
      cases hFits : layout.fitsIn x with
      | true => rfl
      | false =>
        rw [hNext]
        exact ih hPlacedRest hSizesRest hRest (Nat.le_of_succ_le_succ hFuel)

theorem HoleList.Represents.firstFit (hHi : hi ≤ 2 ^ 63) (h : l.Represents spans)
    (hSpaced : Spaced lo hi spans) (hFuel : spans.length ≤ fuel) :
    l.firstFit layout.room layout.effectiveAlign fuel l.front =
      some ((spans.find? layout.fitsIn).map Span.start) := by
  have hFront : l.front = (starts spans).head? := h.linked.front
  rw [hFront]
  exact firstFit_eq hHi hSpaced.placed h.sizes h.linked.cells hFuel

/-! ## A block is cut out -/

theorem Spread.cons {a : Nat} (h : Spread cells) (hA : 0 < a)
    (hApart : ∀ x ∈ cells, x + Hole.minSize ≤ a ∨ a + Hole.minSize ≤ x) : Spread (a :: cells) where
  apart := by
    intro x hX y hY
    rcases List.mem_cons.mp hX with rfl | hX'
    · rcases List.mem_cons.mp hY with rfl | hY'
      · exact Or.inl rfl
      · exact Or.inr (hApart y hY').symm
    · rcases List.mem_cons.mp hY with rfl | hY'
      · exact Or.inr (hApart x hX')
      · exact h.apart x hX' y hY'
  positive := List.forall_mem_cons.mpr ⟨hA, h.positive⟩

theorem Spaced.ordered (h : Spaced lo hi spans) : spans.Pairwise fun a b => a.stop ≤ b.start :=
  h.below.imp fun hAB => Nat.le_trans (Nat.le_add_right _ _) hAB

/-- The holes that are there while a block is cut out, and the one behind it. -/
theorem Cuts.exists_cells (h : Cuts lo hi before s after b) (hLo : 0 < lo) :
    ∃ cells, Spread cells ∧ (∀ x ∈ starts (before ++ s :: after), x ∈ cells) ∧
      (Hole.minSize ≤ (s.behind b).size → b.stop ∈ cells) ∧
      ∀ w, Clear (before ++ s :: after) w → Outside cells w := by
  obtain ⟨hSpread, -⟩ := spread_starts hLo h.spaced.placed h.spaced.ordered
  have hRoom : ∀ x ∈ before ++ s :: after, Hole.minSize ≤ x.size := fun x hMem =>
    (h.spaced.placed x hMem).room
  have hMin : Hole.minSize = 24 := rfl
  by_cases hBehind : Hole.minSize ≤ (s.behind b).size
  · obtain ⟨hLower, hUpper⟩ := h.inside
    have hB := h.room
    have hTail : b.stop + Hole.minSize ≤ s.stop := by
      have hSize : s.stop - b.stop ≥ Hole.minSize := hBehind
      omega
    have hOver : s.start + Hole.minSize ≤ b.stop := by
      unfold Span.stop
      omega
    refine ⟨b.stop :: starts (before ++ s :: after), hSpread.cons (by omega) fun x hX => ?_,
      fun x hX => List.mem_cons_of_mem _ hX, fun _ => List.mem_cons_self, fun w hW => ?_⟩
    · obtain ⟨y, hY, rfl⟩ := List.mem_map.mp hX
      rcases List.mem_append.mp hY with hY' | hY'
      · have hBelow := h.spaced.of_append.2.2 y hY' s List.mem_cons_self
        have hSize := hRoom y hY
        unfold Span.Below Span.stop at hBelow
        omega
      · rcases List.mem_cons.mp hY' with rfl | hY'
        · exact Or.inl hOver
        · have hBelow := (List.pairwise_cons.mp h.spaced.of_append.2.1.below).1 y hY'
          unfold Span.Below at hBelow
          omega
    · refine List.forall_mem_cons.mpr ⟨?_, outside_of_clear hRoom hW⟩
      have hWord := hW s (by simp)
      omega
  · exact ⟨starts (before ++ s :: after), hSpread, fun x hX => hX,
      fun hSize => absurd hSize hBehind, fun w hW => outside_of_clear hRoom hW⟩

/-- The sums of the allocator do not wrap. -/
theorem carve_sizes (hHi : hi ≤ 2 ^ 63) (hS : s.Placed lo hi) (hFits : layout.fitsIn s = true) :
    wrappingAdd s.start s.size = s.stop ∧
      wrappingAdd (layout.blockIn s).start layout.room = (layout.blockIn s).stop ∧
      wrappingSub (layout.blockIn s).start s.start = (s.upTo (layout.blockIn s)).size ∧
      wrappingSub s.stop (layout.blockIn s).stop = (s.behind (layout.blockIn s)).size := by
  obtain ⟨hLower, hUpper⟩ := blockIn_inside hS hHi hFits
  have hBound := hS.upper
  refine ⟨wrappingAdd_eq ?_, wrappingAdd_eq ?_, wrappingSub_eq hLower ?_, wrappingSub_eq hUpper ?_⟩
  · unfold Span.stop at hBound
    omega
  · exact Nat.lt_of_le_of_lt hUpper (by omega)
  · unfold Span.stop at hUpper hBound
    omega
  · omega

section Carve

variable (hLo : 0 < lo) (hHi : hi ≤ 2 ^ 63)

include hLo hHi

theorem HoleList.Represents.carve (h : l.Represents (before ++ s :: after))
    (hSpaced : Spaced lo hi (before ++ s :: after)) (hFits : layout.fitsIn s = true)
    (hFuel : (before ++ s :: after).length ≤ fuel) :
    ∃ l', l.carve fuel layout.room layout.effectiveAlign s.start =
        some ((layout.blockIn s).start, l') ∧
      l'.Represents (cut (before ++ after) s (layout.blockIn s)) ∧
      ∀ w, Clear (before ++ s :: after) w → l'.memory w = l.memory w := by
  have hCuts := cuts_blockIn hSpaced hHi hFits
  obtain ⟨cells, hCells, hSub, hTail, hOutside⟩ := hCuts.exists_cells hLo
  have hNodup := (spread_starts hLo hSpaced.placed hSpaced.ordered).2
  have hS : s.Placed lo hi := hSpaced.placed s (by simp)
  have hRemoved := (h.holds hSub).remove hCells hNodup
  rw [List.length_append, List.length_cons] at hFuel
  have hFuel₁ : (before ++ after).length ≤ fuel := by
    rw [List.length_append]
    omega
  have hFuel₂ : (reclaimed (before ++ after) (s.upTo (layout.blockIn s))).length ≤ fuel := by
    have hLength := length_reclaimed hSpaced.erase hCuts.upTo
    rw [List.length_append] at hLength
    omega
  obtain ⟨l₁, hFirst, hHolds₁⟩ := hRemoved.reclaim hLo hHi hCells hSpaced.erase hCuts.upTo
    (fun _ => hSub s.start (mem_starts (by simp))) hFuel₁
  obtain ⟨l₂, hSecond, hHolds₂⟩ := hHolds₁.reclaim hLo hHi hCells
    (reclaimed_spaced hSpaced.erase hCuts.upTo) hCuts.behind hTail hFuel₂
  refine ⟨l₂, ?_, hHolds₂.represents, fun w hW => hHolds₂.rest w (hOutside w hW)⟩
  obtain ⟨hEnd, hStop, hUpTo, hBehind⟩ := carve_sizes hHi hS hFits
  have hSize : (l.hole s.start).size = s.size := h.sizes s (by simp)
  unfold HoleList.carve
  change (Option.map _ (Option.bind ((l.remove s.start).reclaim fuel s.start
    (wrappingSub (layout.blockIn s).start s.start)) fun l =>
      l.reclaim fuel (wrappingAdd (layout.blockIn s).start layout.room)
        (wrappingSub (wrappingAdd s.start _)
          (wrappingAdd (layout.blockIn s).start layout.room)))) = _
  rw [hSize, hEnd, hStop, hUpTo, hBehind]
  have hFirst' : (l.remove s.start).reclaim fuel s.start (s.upTo (layout.blockIn s)).size =
      some l₁ := hFirst
  rw [hFirst', Option.bind_some]
  have hSecond' : l₁.reclaim fuel (layout.blockIn s).stop (s.behind (layout.blockIn s)).size =
      some l₂ :=
    hSecond
  rw [hSecond']
  rfl

/-- A block is allocated in the first hole that it fits into. -/
theorem HoleList.Represents.allocate (h : l.Represents spans) (hSpaced : Spaced lo hi spans)
    (layout : Layout) (hFuel : spans.length ≤ fuel) :
    (spans.find? layout.fitsIn = none ∧ l.allocateFirstFit fuel layout = some (none, l)) ∨
      ∃ before s after l', spans = before ++ s :: after ∧ spans.find? layout.fitsIn = some s ∧
        l.allocateFirstFit fuel layout = some (some (layout.blockIn s).start, l') ∧
        l'.Represents (cut (before ++ after) s (layout.blockIn s)) ∧
        ∀ w, Clear spans w → l'.memory w = l.memory w := by
  unfold HoleList.allocateFirstFit
  rw [h.firstFit hHi hSpaced hFuel]
  cases hFind : spans.find? layout.fitsIn with
  | none => exact Or.inl ⟨rfl, rfl⟩
  | some s =>
    obtain ⟨hFits, before, after, rfl, -⟩ := List.find?_eq_some_iff_append.mp hFind
    obtain ⟨l', hCarve, hRepresents, hRest⟩ := h.carve hLo hHi hSpaced hFits hFuel
    refine Or.inr ⟨before, s, after, l', rfl, rfl, ?_, hRepresents, hRest⟩
    show (l.carve fuel layout.room layout.effectiveAlign s.start).map _ = _
    rw [hCarve]
    rfl

end Carve

end Choreographr.Vm
