import Choreographr.Vm.Proofs.Heap
import Mathlib.Order.Interval.Finset.Nat

/-!
# Heaps without loss

What is left of a hole beside a block is lost while it is too small for a hole. In a run
where no request leaves such a rest the heap is made up of the blocks and the holes: the free
bytes add up, a request is refused only where there is no place for it, and when the last
block has gone back the heap is one hole again.
-/

namespace Choreographr.Vm

open Lib Links

/-- A request leaves nothing of its hole, or enough for a hole. -/
def Program.keepsRest (fuel : Nat) (s : Program) : Action → Bool
  | .alloc layout =>
      (s.heap.holes.leftovers fuel layout).all fun rest => rest = 0 || rest ≥ Hole.minSize
  | _ => true

/-- The addresses of spans. -/
def cover : List Span → Finset Nat
  | [] => ∅
  | s :: rest => Finset.Ico s.start s.stop ∪ cover rest

def Program.used (s : Program) : Nat := (s.blocks.map fun b => b.layout.room).sum

/-- Nothing of the heap is lost. -/
structure Program.Exact (size : MemorySize) (s : Program) : Prop where
  /-- The free bytes are those outside the blocks. -/
  free : ∃ free, s.heap.holes.totalFree size.bytes = some free ∧
    free + s.used = size.heapEnd - size.heapStart
  /-- A request is refused if and only if it has no place. -/
  refused_iff : ∀ layout, s.step size.bytes (.alloc layout) = some (s, [.refused layout]) ↔
    ¬∃ a, layout.effectiveAlign ∣ a ∧ size.heapStart ≤ a ∧ a + layout.room ≤ size.heapEnd ∧
      ∀ b ∈ s.blocks, (Span.mk a layout.room).Apart b.span
  joined : s.blocks = [] → s.heap.holes.holeCount size.bytes = some 1

/-- What the program has and what it can have is the heap. -/
structure WholeInv (lo hi : Nat) (s : Program) (spans : List Span) : Prop extends
    HeapInv lo hi s spans where
  whole : hi - lo ≤ total spans + s.used

variable {lo hi fuel : Nat} {s s' : Program} {spans : List Span} {size : MemorySize}
  {layout : Layout} {os : List Event}

/-! ## Addresses -/

theorem mem_cover {w : Nat} : w ∈ cover spans ↔ ∃ x ∈ spans, x.start ≤ w ∧ w < x.stop := by
  induction spans with
  | nil => simp [cover]
  | cons x rest ih => simp [cover, ih, Finset.mem_Ico]

theorem card_cover (h : spans.Pairwise Span.Apart) : (cover spans).card = total spans := by
  induction spans with
  | nil => rfl
  | cons x rest ih =>
    obtain ⟨hX, hRest⟩ := List.pairwise_cons.mp h
    have hDisjoint : Disjoint (Finset.Ico x.start x.stop) (cover rest) := by
      rw [Finset.disjoint_left]
      intro w hIn hCover
      obtain ⟨y, hY, hLower, hUpper⟩ := mem_cover.mp hCover
      obtain ⟨hLower', hUpper'⟩ := Finset.mem_Ico.mp hIn
      have hApart := hX y hY
      unfold Span.Apart at hApart
      omega
    have hSize : x.stop - x.start = x.size := Nat.add_sub_cancel_left _ _
    rw [cover, Finset.card_union_of_disjoint hDisjoint, Nat.card_Ico, hSize, ih hRest, total_cons]

theorem cover_subset (h : ∀ x ∈ spans, lo ≤ x.start ∧ x.stop ≤ hi) :
    cover spans ⊆ Finset.Ico lo hi := by
  intro w hMem
  obtain ⟨x, hX, hLower, hUpper⟩ := mem_cover.mp hMem
  obtain ⟨hX₁, hX₂⟩ := h x hX
  exact Finset.mem_Ico.mpr ⟨by omega, by omega⟩

/-! ## Holes and blocks -/

/-- The holes and the blocks. -/
def parts (s : Program) (spans : List Span) : List Span := spans ++ s.blocks.map Block.span

theorem total_parts (s : Program) (spans : List Span) :
    total (parts s spans) = total spans + s.used := by
  unfold parts
  rw [total_append]
  congr 1
  unfold total Program.used
  rw [List.map_map]
  rfl

theorem HeapInv.parts_apart (h : HeapInv lo hi s spans) : (parts s spans).Pairwise Span.Apart := by
  refine List.pairwise_append.mpr ⟨h.spaced.below.imp Span.Below.apart, ?_, fun x hX y hY => ?_⟩
  · exact List.pairwise_map.mpr h.apart
  · obtain ⟨b, hB, rfl⟩ := List.mem_map.mp hY
    exact (h.free b hB x hX).symm

theorem HeapInv.parts_inside (h : HeapInv lo hi s spans) :
    ∀ x ∈ parts s spans, lo ≤ x.start ∧ x.stop ≤ hi := by
  intro x hX
  rcases List.mem_append.mp hX with hX | hX
  · exact ⟨(h.spaced.placed x hX).lower, (h.spaced.placed x hX).upper⟩
  · obtain ⟨b, hB, rfl⟩ := List.mem_map.mp hX
    exact ⟨(h.placed b hB).lower, (h.placed b hB).upper⟩

theorem HeapInv.total_le (h : HeapInv lo hi s spans) : total spans + s.used ≤ hi - lo := by
  rw [← total_parts, ← card_cover h.parts_apart, ← Nat.card_Ico]
  exact Finset.card_le_card (cover_subset h.parts_inside)

theorem WholeInv.exists_part (h : WholeInv lo hi s spans) {w : Nat} (hLower : lo ≤ w)
    (hUpper : w < hi) :
    (∃ x ∈ spans, x.start ≤ w ∧ w < x.stop) ∨ ∃ b ∈ s.blocks, b.start ≤ w ∧ w < b.span.stop := by
  have hCard : (Finset.Ico lo hi).card ≤ (cover (parts s spans)).card := by
    rw [card_cover h.parts_apart, total_parts, Nat.card_Ico]
    exact h.whole
  have hEq := Finset.eq_of_subset_of_card_le (cover_subset h.parts_inside) hCard
  have hMem : w ∈ cover (parts s spans) := hEq ▸ Finset.mem_Ico.mpr ⟨hLower, hUpper⟩
  obtain ⟨x, hX, hIn⟩ := mem_cover.mp hMem
  rcases List.mem_append.mp hX with hX | hX
  · exact Or.inl ⟨x, hX, hIn⟩
  · obtain ⟨b, hB, rfl⟩ := List.mem_map.mp hX
    exact Or.inr ⟨b, hB, hIn⟩

theorem Spaced.stop_out (h : Spaced lo hi spans) {x y : Span} (hX : x ∈ spans) (hY : y ∈ spans)
    (hIn : y.start ≤ x.stop) : y.stop ≤ x.stop := by
  have hEither : x = y ∨ x.Below y ∨ y.Below x := by
    have hPairs : spans.Pairwise fun a b => a.Below b ∨ b.Below a := h.below.imp Or.inl
    have hSymm : Std.Symm fun a b : Span => a.Below b ∨ b.Below a := ⟨fun _ _ => Or.symm⟩
    by_cases hEq : x = y
    · exact Or.inl hEq
    · exact Or.inr (hPairs.forall hX hY hEq)
  have hMin : Hole.minSize = 24 := rfl
  rcases hEither with rfl | hBelow | hBelow
  · exact Nat.le_refl _
  · unfold Span.Below at hBelow
    omega
  · unfold Span.Below Span.stop at *
    omega

/-! ## Steps -/

theorem HoleList.Represents.leftovers {l : HoleList} {x : Span} (hHi : hi ≤ 2 ^ 63)
    (h : l.Represents spans) (hSpaced : Spaced lo hi spans) (hFuel : spans.length ≤ fuel)
    (hFind : spans.find? layout.fitsIn = some x) :
    l.leftovers fuel layout =
      [(x.upTo (layout.blockIn x)).size, (x.behind (layout.blockIn x)).size] := by
  have hX : x ∈ spans := List.mem_of_find?_eq_some hFind
  obtain ⟨hEnd, hStop, hUpTo, hBehind⟩ :=
    carve_sizes hHi (hSpaced.placed x hX) (List.find?_some hFind)
  unfold HoleList.leftovers
  rw [h.firstFit hHi hSpaced hFuel, hFind]
  change [wrappingSub (layout.blockIn x).start x.start,
    wrappingSub (wrappingAdd x.start (l.hole x.start).size)
      (wrappingAdd (layout.blockIn x).start layout.room)] = _
  rw [h.sizes x hX, hEnd, hStop, hUpTo, hBehind]

section Steps

variable (hLo : 0 < lo) (hHi : hi ≤ 2 ^ 63)

include hLo hHi

theorem WholeInv.step {a : Action} (h : WholeInv lo hi s spans) (hFuel : spans.length ≤ fuel)
    (hKeeps : s.keepsRest fuel a = true) (hStep : s.step fuel a = some (s', os)) :
    ∃ spans', WholeInv lo hi s' spans' := by
  cases a with
  | alloc layout =>
    rcases h.alloc hLo hHi hFuel layout with
      ⟨-, hRefused⟩ | ⟨before, x, after, s₁, rfl, hFind, hServed, hBlocks, hInv⟩
    · cases hRefused.symm.trans hStep
      exact ⟨spans, h⟩
    · cases hServed.symm.trans hStep
      change (s.heap.holes.leftovers fuel layout).all _ = true at hKeeps
      rw [h.represents.leftovers hHi h.spaced hFuel hFind] at hKeeps
      simp only [List.all_cons, List.all_nil, Bool.and_true, Bool.and_eq_true, Bool.or_eq_true,
        decide_eq_true_eq] at hKeeps
      have hCuts := cuts_blockIn h.spaced hHi (List.find?_some hFind)
      have hTotal := hCuts.le_total hKeeps.1 hKeeps.2
      have hWhole := h.whole
      refine ⟨_, hInv, ?_⟩
      unfold Program.used at *
      rw [hBlocks, List.map_cons, List.sum_cons]
      have hRoom : (layout.blockIn x).size = layout.room := rfl
      show hi - lo ≤ total (cut (before ++ after) x (layout.blockIn x)) + (layout.room + _)
      omega
  | dealloc index =>
    cases hGet : s.blocks[index]? with
    | none =>
      simp only [Program.step, hGet] at hStep
      cases hStep
    | some b =>
      obtain ⟨s₁, hFreed, hBlocks, hInv⟩ := h.toHeapInv.dealloc hLo hHi hFuel hGet
      cases hFreed.symm.trans hStep
      have hB : b ∈ s.blocks := List.mem_of_getElem? hGet
      have hSum := sum_map_eraseIdx s.blocks (fun b => b.layout.room) hGet
      have hTotal := le_total_putBack h.spaced (h.placed b hB) (h.free b hB)
      have hWhole := h.whole
      refine ⟨_, hInv, ?_⟩
      unfold Program.used at *
      rw [hBlocks]
      have hRoom : b.span.size = b.layout.room := rfl
      omega
  | write index offset word =>
    refine ⟨spans, h.toHeapInv.write hStep, ?_⟩
    have hBlocks : s'.blocks = s.blocks := by
      simp only [Program.step] at hStep
      split at hStep
      · cases hStep
      split at hStep
      · cases hStep
        rfl
      · cases hStep
    unfold Program.used
    rw [hBlocks]
    exact h.whole

end Steps

/-! ## What the allocator counts -/

section Counts

variable {l : HoleList} {prev : Option Nat}

theorem countHoles_eq (h : l.links.Segment prev (starts spans) none) (hFuel : spans.length ≤ fuel) :
    l.countHoles fuel (starts spans).head? = some spans.length := by
  induction spans generalizing fuel prev with
  | nil => cases fuel <;> rfl
  | cons x rest ih =>
    obtain ⟨hNext, hRest⟩ := segment_cons h
    cases fuel with
    | zero => cases hFuel
    | succ fuel =>
      show (l.countHoles fuel (l.hole x.start).next).map (1 + ·) = _
      rw [hNext, ih hRest (Nat.le_of_succ_le_succ hFuel), List.length_cons, Nat.add_comm]
      rfl

theorem sumSizes_eq (h : l.links.Segment prev (starts spans) none)
    (hSizes : ∀ x ∈ spans, (l.hole x.start).size = x.size) (hFuel : spans.length ≤ fuel) :
    l.sumSizes fuel (starts spans).head? = some (total spans) := by
  induction spans generalizing fuel prev with
  | nil => cases fuel <;> rfl
  | cons x rest ih =>
    obtain ⟨hNext, hRest⟩ := segment_cons h
    obtain ⟨hX, hSizesRest⟩ := List.forall_mem_cons.mp hSizes
    cases fuel with
    | zero => cases hFuel
    | succ fuel =>
      show (l.sumSizes fuel (l.hole x.start).next).map ((l.hole x.start).size + ·) = _
      rw [hNext, ih hRest hSizesRest (Nat.le_of_succ_le_succ hFuel), hX, total_cons]
      rfl

end Counts

/-! ## Runs -/

/-- A place apart from the blocks is in one hole, and the block fits into the hole. -/
theorem WholeInv.exists_fits (hHi : hi ≤ 2 ^ 63) (h : WholeInv lo hi s spans) {a : Nat}
    (hAlign : layout.effectiveAlign ∣ a) (hLower : lo ≤ a) (hUpper : a + layout.room ≤ hi)
    (hApart : ∀ b ∈ s.blocks, (Span.mk a layout.room).Apart b.span) :
    ∃ x ∈ spans, layout.fitsIn x = true := by
  have hRoom : 0 < layout.room := Nat.lt_of_lt_of_le (by decide) layout.room_spec.2.1
  have hOut : ∀ w, a ≤ w → w < a + layout.room → ∃ x ∈ spans, x.start ≤ w ∧ w < x.stop := by
    intro w hW hW'
    rcases h.exists_part (Nat.le_trans hLower hW) (Nat.lt_of_lt_of_le hW' hUpper) with hPart | hPart
    · exact hPart
    · obtain ⟨b, hB, hIn, hIn'⟩ := hPart
      have hAway := hApart b hB
      unfold Span.Apart at hAway
      rw [b.start_span] at hAway
      have hStop : (Span.mk a layout.room).stop = a + layout.room := rfl
      have hStart : (Span.mk a layout.room).start = a := rfl
      rw [hStop, hStart] at hAway
      omega
  obtain ⟨x, hX, hIn, hIn'⟩ := hOut a (Nat.le_refl a) (by omega)
  have hEnd : a + layout.room ≤ x.stop := by
    by_contra hOver
    obtain ⟨y, hY, hY₁, hY₂⟩ := hOut x.stop (by omega) (by omega)
    have hStop := h.spaced.stop_out hX hY hY₁
    omega
  refine ⟨x, hX, decide_eq_true ?_⟩
  have hStart := (h.spaced.placed x hX).start_lt hHi
  have hLeast : alignUp x.start layout.effectiveAlign ≤ a := by
    rw [layout.effectiveAlign_eq] at hAlign ⊢
    exact alignUp_le hStart layout.align_bound hIn hAlign
  exact Nat.le_trans (Nat.add_le_add_right hLeast _) hEnd

theorem WholeInv.exact (h : WholeInv size.heapStart size.heapEnd s spans) : s.Exact size := by
  obtain ⟨hLo, hRoom, -, hHi, -, -⟩ := size.bounds
  have hFuel := h.length_le
  have hFront : s.heap.holes.front = (starts spans).head? := h.represents.linked.front
  refine ⟨⟨total spans, ?_, ?_⟩, fun layout => ⟨?_, fun hNone => ?_⟩, fun hBlocks => ?_⟩
  · unfold HoleList.totalFree
    rw [hFront]
    exact sumSizes_eq h.represents.linked.cells h.represents.sizes hFuel
  · exact Nat.le_antisymm h.total_le h.whole
  · rintro hRefused ⟨a, hAlign, hLower, hUpper, hApart⟩
    obtain ⟨x, hX, hFits⟩ := h.exists_fits hHi hAlign hLower hUpper hApart
    rcases h.alloc hLo hHi hFuel layout with ⟨hFind, -⟩ | ⟨before, y, after, s', -, -, hServed, -⟩
    · exact absurd hFits (List.find?_eq_none.mp hFind x hX)
    · cases hServed.symm.trans hRefused
  · rcases h.alloc hLo hHi hFuel layout with
      ⟨-, hRefused⟩ | ⟨before, x, after, s', hSplit, hFind, -⟩
    · exact hRefused
    · have hX : x ∈ spans := List.mem_of_find?_eq_some hFind
      have hSpaced := h.spaced
      rw [hSplit] at hSpaced
      have hCuts := cuts_blockIn hSpaced hHi (List.find?_some hFind)
      exact absurd ⟨(layout.blockIn x).start, (blockIn_start hCuts.hole hHi layout).2,
        hCuts.placed.lower, hCuts.placed.upper,
        fun b hB => ((h.free b hB x hX).inside hCuts.inside).symm⟩ hNone
  · have hOne : spans.length = 1 := by
      have hWhole := h.whole
      unfold Program.used at hWhole
      rw [hBlocks, List.map_nil, List.sum_nil, Nat.add_zero] at hWhole
      match spans, h, hWhole with
      | [], _, hWhole =>
        rw [show total [] = 0 from rfl] at hWhole
        have hMin : Hole.minSize = 24 := rfl
        omega
      | [x], _, _ => rfl
      | x :: y :: rest, h, _ =>
        have hBelow : x.Below y := (List.pairwise_cons.mp h.spaced.below).1 y List.mem_cons_self
        have hX := h.spaced.placed x (by simp)
        have hY := h.spaced.placed y (by simp)
        have hStop : x.stop < size.heapEnd := by
          have hBound := hY.upper
          have hPos := hY.pos
          unfold Span.Below Span.stop at *
          omega
        have hLower : size.heapStart ≤ x.stop := Nat.le_trans hX.lower (Nat.le_add_right _ _)
        rcases h.exists_part hLower hStop with hPart | hPart
        · obtain ⟨z, hZ, hZ₁, hZ₂⟩ := hPart
          have hOut := h.spaced.stop_out (by simp) hZ hZ₁
          omega
        · obtain ⟨b, hB, -⟩ := hPart
          rw [hBlocks] at hB
          cases hB
    unfold HoleList.holeCount
    rw [hFront, countHoles_eq h.represents.linked.cells hFuel, hOne]

theorem wholeInv_start (size : MemorySize) (memory : Memory) :
    WholeInv size.heapStart size.heapEnd (Program.start size memory)
      [⟨size.heapStart, size.heapEnd - size.heapStart⟩] where
  toHeapInv := heapInv_start size memory
  whole := by
    have hTotal : total [⟨size.heapStart, size.heapEnd - size.heapStart⟩] =
        size.heapEnd - size.heapStart := by
      rw [total_cons, show total [] = 0 from rfl, Nat.add_zero]
    rw [hTotal]
    exact Nat.le_add_right _ _

/-- In every run in which no request leaves a rest that is too small for a hole, nothing of
the heap is lost. -/
theorem heap_exact_of_keepsRest {memory : Memory} {as : List Action}
    (hRun : ((machine size).guard fun s a => s.keepsRest size.bytes a = true).exec
      (Program.start size memory) as = some (s, os)) : s.Exact size := by
  obtain ⟨hLo, -, -, hHi, -, -⟩ := size.bounds
  have hInv : ∃ spans, WholeInv size.heapStart size.heapEnd s spans := by
    refine Machine.exec_state_invariant
      (P := fun s => ∃ spans, WholeInv size.heapStart size.heapEnd s spans) ?_
      ⟨_, wholeInv_start size memory⟩ hRun
    rintro s a s' os ⟨spans, hInv⟩ hStep
    obtain ⟨hKeeps, hStep⟩ := Machine.guard_step_eq_some.mp hStep
    exact hInv.step hLo hHi hInv.length_le hKeeps hStep
  obtain ⟨spans, hInv⟩ := hInv
  exact hInv.exact

theorem sample_heap_exact : ∃ s os,
    ((machine sampleSize).guard fun s a => s.keepsRest sampleSize.bytes a = true).exec
        (Program.start sampleSize fun _ => 0) sampleActions = some (s, os) ∧
      s.blocks.length = 2 ∧ s.Exact sampleSize := by
  have hCheck : ((machine sampleSize).guard fun s a => s.keepsRest sampleSize.bytes a = true).check
      (Program.start sampleSize fun _ => 0) sampleActions
      (fun s _ => decide (s.blocks.length = 2)) = true := by
    decide +kernel
  obtain ⟨s, os, hRun, hTest⟩ := Machine.exists_of_check hCheck
  exact ⟨s, os, hRun, of_decide_eq_true hTest, heap_exact_of_keepsRest hRun⟩

end Choreographr.Vm
