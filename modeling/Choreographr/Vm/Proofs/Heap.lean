import Choreographr.Lib.Counting
import Choreographr.Vm.Program
import Choreographr.Vm.Proofs.Blocks

/-!
# The heap of a guest program

In every run the blocks that a program has are in the heap, aligned and apart, and hold what
the program wrote to them. The allocator serves every request.
-/

namespace Choreographr.Vm

open Lib

/-- What the block takes of the heap. -/
def Block.span (b : Block) : Span := ⟨b.start, b.layout.room⟩

/-- The bounds of the heap. -/
def MemorySize.heapStart (size : MemorySize) : Nat := (computeHeapBounds size.bytes).1

def MemorySize.heapEnd (size : MemorySize) : Nat :=
  (computeHeapBounds size.bytes).1 + (computeHeapBounds size.bytes).2

/-- What a program can rely on. -/
structure Program.Safe (size : MemorySize) (s : Program) : Prop where
  inside : ∀ b ∈ s.blocks, size.heapStart ≤ b.start ∧ b.start + b.layout.size ≤ size.heapEnd
  aligned : ∀ b ∈ s.blocks, b.layout.align ∣ b.start
  apart : s.blocks.Pairwise fun a b =>
    a.start + a.layout.size ≤ b.start ∨ b.start + b.layout.size ≤ a.start
  /-- A word of a block holds what the program wrote last. -/
  kept : ∀ b ∈ s.blocks, ∀ offset < b.layout.size, ∀ word,
    s.written (b.start + offset) = some word → s.heap.holes.memory (b.start + offset) = word
  /-- A request is answered: no walk over the holes runs without end. -/
  served : (∀ layout, s.step size.bytes (.alloc layout) ≠ none) ∧
    ∀ index < s.blocks.length, s.step size.bytes (.dealloc index) ≠ none

/-- The program, with the holes that the memory has. -/
structure HeapInv (lo hi : Nat) (s : Program) (spans : List Span) : Prop where
  ready : s.heap.initialized = true
  represents : s.heap.holes.Represents spans
  spaced : Spaced lo hi spans
  placed : ∀ b ∈ s.blocks, b.span.Placed lo hi
  free : ∀ b ∈ s.blocks, ∀ x ∈ spans, b.span.Apart x
  apart : s.blocks.Pairwise fun a b => a.span.Apart b.span
  aligned : ∀ b ∈ s.blocks, b.layout.align ∣ b.start
  kept : ∀ b ∈ s.blocks, ∀ w, b.start ≤ w → w < b.span.stop → ∀ word,
    s.written w = some word → s.heap.holes.memory w = word

variable {lo hi fuel : Nat} {s s' : Program} {spans : List Span} {size : MemorySize}
  {layout : Layout} {os : List Event}

/-! ## Sizes -/

theorem Spaced.length_le (h : Spaced lo hi spans) (hLo : 0 < lo) : spans.length ≤ hi := by
  have hNodup := (spread_starts hLo h.placed h.ordered).2
  have hSub : starts spans ⊆ List.range hi := by
    intro a hA
    obtain ⟨x, hX, rfl⟩ := List.mem_map.mp hA
    have hPos := (h.placed x hX).pos
    have hUpper := (h.placed x hX).upper
    unfold Span.stop at hUpper
    exact List.mem_range.mpr (by omega)
  have hLength := (hNodup.subperm hSub).length_le
  rwa [starts, List.length_map, List.length_range] at hLength

theorem MemorySize.bounds (size : MemorySize) :
    0 < size.heapStart ∧ size.heapStart + Hole.minSize ≤ size.heapEnd ∧ size.heapEnd ≤ size.bytes ∧
      size.heapEnd ≤ 2 ^ 63 ∧ Hole.align ∣ size.heapStart ∧ Hole.align ∣ size.heapEnd := by
  obtain ⟨q, hQ⟩ := size.paged
  have hLeast := size.least
  have hMost := size.most
  unfold heapStart heapEnd computeHeapBounds Hole.minSize Hole.headerSize Hole.align
    riscvMaxMemory at *
  simp only
  omega

theorem Block.start_span (b : Block) : b.span.start = b.start := rfl

theorem Block.stop_span (b : Block) : b.span.stop = b.start + b.layout.room := rfl

/-! ## Steps -/

theorem alloc_of_ready (hReady : s.heap.initialized = true) :
    s.heap.alloc fuel layout =
      (s.heap.holes.allocateFirstFit fuel layout).map
        fun r => (r.1, { s.heap with holes := r.2 }) :=
  if_pos hReady

section Steps

variable (hLo : 0 < lo) (hHi : hi ≤ 2 ^ 63)

include hLo hHi

theorem HeapInv.alloc (h : HeapInv lo hi s spans) (hFuel : spans.length ≤ fuel) (layout : Layout) :
    (spans.find? layout.fitsIn = none ∧ s.step fuel (.alloc layout) = some (s, [.refused layout])) ∨
      ∃ before x after s', spans = before ++ x :: after ∧ spans.find? layout.fitsIn = some x ∧
        s.step fuel (.alloc layout) =
          some (s', [.allocated ⟨(layout.blockIn x).start, layout⟩]) ∧
        s'.blocks = ⟨(layout.blockIn x).start, layout⟩ :: s.blocks ∧
        HeapInv lo hi s' (cut (before ++ after) x (layout.blockIn x)) := by
  rcases h.represents.allocate hLo hHi h.spaced layout hFuel with
    ⟨hNone, hRefused⟩ | ⟨before, x, after, holes, rfl, hFind, hFirst, hRepresents, hRest⟩
  · refine Or.inl ⟨hNone, ?_⟩
    have hAlloc : s.heap.alloc fuel layout = some (none, s.heap) := by
      rw [alloc_of_ready h.ready, hRefused]
      rfl
    simp only [Program.step, hAlloc]
  · have hCuts := cuts_blockIn h.spaced hHi (List.find?_some hFind)
    set b : Block := ⟨(layout.blockIn x).start, layout⟩
    have hOld : ∀ c ∈ s.blocks, b.span.Apart c.span := fun c hC =>
      ((h.free c hC x (by simp)).inside hCuts.inside).symm
    refine Or.inr ⟨before, x, after, { s with heap := { s.heap with holes } }.receive b, rfl, hFind,
      ?_, rfl, ?_⟩
    · have hAlloc : s.heap.alloc fuel layout = some (some b.start, { s.heap with holes }) := by
        rw [alloc_of_ready h.ready, hFirst]
        rfl
      simp only [Program.step, hAlloc]
      rfl
    · refine ⟨h.ready, hRepresents, hCuts.cut_spaced,
        List.forall_mem_cons.mpr ⟨hCuts.placed, h.placed⟩,
        List.forall_mem_cons.mpr ⟨hCuts.cut_apart_self, fun c hC =>
          hCuts.cut_apart_other (h.placed c hC).room (h.free c hC)⟩,
        List.pairwise_cons.mpr ⟨hOld, h.apart⟩, List.forall_mem_cons.mpr ⟨?_, h.aligned⟩, ?_⟩
      · exact Nat.dvd_trans layout.align_dvd (blockIn_start hCuts.hole hHi layout).2
      · refine List.forall_mem_cons.mpr ⟨fun w hLower hUpper word hWord => ?_,
          fun c hC w hLower hUpper word hWord => ?_⟩
        · have hNone : ({ s with heap := { s.heap with holes } }.receive b).written w = none :=
            if_pos ⟨hLower, hUpper⟩
          rw [hNone] at hWord
          cases hWord
        · have hApart := hOld c hC
          have hOut : ¬(b.start ≤ w ∧ w < b.start + b.layout.room) := by
            unfold Span.Apart at hApart
            rw [b.stop_span, c.start_span, b.start_span] at hApart
            omega
          have hSame :
              ({ s with heap := { s.heap with holes } }.receive b).written w = s.written w :=
            if_neg hOut
          rw [hSame] at hWord
          refine (hRest w fun y hY => ?_).trans (h.kept c hC w hLower hUpper word hWord)
          have hY' := h.free c hC y hY
          unfold Span.Apart at hY'
          rw [c.start_span] at hY'
          omega

theorem HeapInv.dealloc {index : Nat} {b : Block} (h : HeapInv lo hi s spans)
    (hFuel : spans.length ≤ fuel) (hGet : s.blocks[index]? = some b) :
    ∃ s', s.step fuel (.dealloc index) = some (s', [.freed b]) ∧
      s'.blocks = s.blocks.eraseIdx index ∧ HeapInv lo hi s' (putBack spans b.span) := by
  obtain ⟨before, after, hSplit, hErase⟩ := exists_split_of_getElem? hGet
  have hB : b ∈ s.blocks := List.mem_of_getElem? hGet
  have hIn : ∀ c ∈ s.blocks.eraseIdx index, c ∈ s.blocks := fun c => List.mem_of_mem_eraseIdx
  have hOthers : ∀ c ∈ s.blocks.eraseIdx index, c.span.Apart b.span := by
    have hApart := h.apart
    rw [hSplit] at hApart
    obtain ⟨-, hAfter, hBefore⟩ := List.pairwise_append.mp hApart
    intro c hC
    rw [hErase] at hC
    rcases List.mem_append.mp hC with hC | hC
    · exact hBefore c hC b List.mem_cons_self
    · exact ((List.pairwise_cons.mp hAfter).1 c hC).symm
  obtain ⟨holes, hFreed, hRepresents, hRest⟩ := h.represents.deallocate hLo hHi
    h.spaced b.layout (h.placed b hB) rfl (h.free b hB) hFuel
  refine ⟨{ s with heap := { s.heap with holes }, blocks := s.blocks.eraseIdx index }, ?_, rfl, ?_⟩
  · have hDealloc : s.heap.dealloc fuel b.start b.layout = some { s.heap with holes } := by
      unfold GlobalHeap.dealloc
      rw [if_pos h.ready]
      have hFreed' : s.heap.holes.deallocate fuel b.start b.layout = some holes := hFreed
      rw [hFreed']
      rfl
    unfold Program.step
    simp only [hGet, hDealloc]
  · refine ⟨h.ready, hRepresents, putBack_spaced h.spaced (h.placed b hB) (h.free b hB),
      fun c hC => h.placed c (hIn c hC), fun c hC => ?_, h.apart.eraseIdx index,
      fun c hC => h.aligned c (hIn c hC), fun c hC w hLower hUpper word hWord => ?_⟩
    · exact putBack_apart h.spaced (h.placed b hB) (h.free b hB) (h.placed c (hIn c hC)).room
        (hOthers c hC) (h.free c (hIn c hC))
    · refine (hRest w ?_).trans (h.kept c (hIn c hC) w hLower hUpper word hWord)
      have hAway : ∀ y : Span, c.span.Apart y → w < y.start ∨ y.stop ≤ w := by
        intro y hY
        unfold Span.Apart at hY
        have hStart : c.span.start = c.start := rfl
        omega
      exact List.forall_mem_cons.mpr ⟨hAway _ (hOthers c hC),
        fun y hY => hAway y (h.free c (hIn c hC) y hY)⟩

omit hLo hHi in
theorem HeapInv.write {index offset word : Nat} (h : HeapInv lo hi s spans)
    (hStep : s.step fuel (.write index offset word) = some (s', os)) : HeapInv lo hi s' spans := by
  simp only [Program.step] at hStep
  split at hStep
  · cases hStep
  rename_i b hGet
  split at hStep
  rotate_left
  · cases hStep
  rename_i hOffset
  cases hStep
  have hB : b ∈ s.blocks := List.mem_of_getElem? hGet
  have hRoom := b.layout.room_spec.1
  have hWord : b.span.start ≤ b.start + offset ∧ b.start + offset < b.span.stop := by
    rw [b.start_span, b.stop_span]
    omega
  have hAway : ∀ x ∈ spans, b.start + offset < x.start ∨ x.stop ≤ b.start + offset := by
    intro x hX
    have hApart := h.free b hB x hX
    unfold Span.Apart at hApart
    omega
  have hRead : ∀ x ∈ spans, ∀ field < Hole.minSize,
      (s.heap.holes.store (b.start + offset) word).memory (x.start + field) =
        s.heap.holes.memory (x.start + field) := by
    intro x hX field hField
    have hSize := (h.spaced.placed x hX).room
    have hOut := hAway x hX
    rw [memory_store, if_neg]
    unfold Span.stop at hOut
    omega
  have hHole : ∀ x ∈ spans, (s.heap.holes.store (b.start + offset) word).hole x.start =
      s.heap.holes.hole x.start := by
    intro x hX
    unfold HoleList.hole
    rw [hRead x hX 8 (by decide), hRead x hX 16 (by decide)]
    have hFirst := hRead x hX 0 (by decide)
    rw [Nat.add_zero] at hFirst
    rw [hFirst]
  refine ⟨h.ready, ⟨h.represents.linked.congr ⟨rfl, fun a hMem => ?_⟩, fun x hX => ?_⟩, h.spaced,
    h.placed, h.free, h.apart, h.aligned, fun c hC w hLower hUpper v hV => ?_⟩
  · obtain ⟨x, hX, rfl⟩ := List.mem_map.mp hMem
    exact ⟨congrArg Hole.next (hHole x hX), congrArg Hole.prev (hHole x hX)⟩
  · exact (congrArg Hole.size (hHole x hX)).trans (h.represents.sizes x hX)
  · show (s.heap.holes.store (b.start + offset) word).memory w = v
    rw [memory_store]
    change Function.update s.written (b.start + offset) (some word) w = some v at hV
    rw [Function.update_apply] at hV
    by_cases hEq : w = b.start + offset
    · rw [if_pos hEq] at hV ⊢
      exact Option.some.inj hV
    · rw [if_neg hEq] at hV ⊢
      exact h.kept c hC w hLower hUpper v hV

theorem HeapInv.step {a : Action} (h : HeapInv lo hi s spans) (hFuel : spans.length ≤ fuel)
    (hStep : s.step fuel a = some (s', os)) : ∃ spans', HeapInv lo hi s' spans' := by
  cases a with
  | alloc layout =>
    rcases h.alloc hLo hHi hFuel layout with
      ⟨-, hRefused⟩ | ⟨before, x, after, s₁, -, -, hServed, -, hInv⟩
    · cases hRefused.symm.trans hStep
      exact ⟨spans, h⟩
    · cases hServed.symm.trans hStep
      exact ⟨_, hInv⟩
  | dealloc index =>
    cases hGet : s.blocks[index]? with
    | none =>
      simp only [Program.step, hGet] at hStep
      cases hStep
    | some b =>
      obtain ⟨s₁, hFreed, -, hInv⟩ := h.dealloc hLo hHi hFuel hGet
      cases hFreed.symm.trans hStep
      exact ⟨_, hInv⟩
  | write index offset word => exact ⟨spans, h.write hStep⟩

end Steps

/-! ## Runs -/

theorem represents_initHeap {addr bytes : Nat} (hAddr : 0 < addr) (hBytes : Hole.minSize ≤ bytes)
    (memory : Memory) :
    (GlobalHeap.initHeap memory addr bytes).initialized = true ∧
      (GlobalHeap.initHeap memory addr bytes).holes.Represents [⟨addr, bytes⟩] := by
  have hInit : (HoleList.mk none memory).init addr bytes =
      ({ (HoleList.mk none memory).write addr ⟨none, bytes, none⟩ with front := some addr },
        true) :=
    if_neg (Nat.not_lt.mpr hBytes)
  have hCells : Spread [addr] := by
    refine ⟨fun x hX y hY => Or.inl ?_, fun x hX => ?_⟩
    · rw [List.mem_singleton.mp hX, List.mem_singleton.mp hY]
    · rw [List.mem_singleton.mp hX]
      exact hAddr
  have hShown := (Shows.start [addr] (HoleList.mk none memory)).write
    ⟨none, bytes, none⟩ hCells (List.mem_singleton_self _) rfl rfl
  obtain ⟨hNext, hPrev⟩ := hShown.links.cell addr (List.mem_singleton_self _)
  unfold GlobalHeap.initHeap
  rw [hInit]
  refine ⟨rfl, ⟨rfl, hPrev.trans ?_, hNext.trans ?_, trivial⟩, fun x hX => ?_⟩
  · rw [Links.prev_setPrev, if_pos rfl]
  · rw [Links.next_setPrev, Links.next_setNext, if_pos rfl]
    rfl
  · rw [List.mem_singleton.mp hX]
    refine (hShown.sizes addr (List.mem_singleton_self _)).trans ?_
    rw [Function.update_apply, if_pos rfl]

/-- At the start the whole heap is one hole. -/
theorem heapInv_start (size : MemorySize) (memory : Memory) :
    HeapInv size.heapStart size.heapEnd (Program.start size memory)
      [⟨size.heapStart, size.heapEnd - size.heapStart⟩] := by
  obtain ⟨hLo, hRoom, -, -, hStart, hEnd⟩ := size.bounds
  have hBytes : size.heapEnd - size.heapStart = (computeHeapBounds size.bytes).2 :=
    Nat.add_sub_cancel_left _ _
  have hLarge : Hole.minSize ≤ size.heapEnd - size.heapStart := by omega
  obtain ⟨hReady, hRepresents⟩ := represents_initHeap hLo hLarge memory
  rw [hBytes] at hReady hRepresents
  have hOrder : size.heapStart ≤ size.heapEnd := by omega
  have hStop : (Span.mk size.heapStart (size.heapEnd - size.heapStart)).stop = size.heapEnd :=
    Nat.add_sub_of_le hOrder
  have hNone : ∀ b : Block, b ∉ (Program.start size memory).blocks := by
    intro b hB
    rw [show (Program.start size memory).blocks = [] from rfl] at hB
    exact List.not_mem_nil hB
  refine ⟨?_, ?_, ⟨fun x hX => ?_, List.pairwise_singleton _ _⟩, fun b hB => absurd hB (hNone b),
    fun b hB => absurd hB (hNone b), List.Pairwise.nil, fun b hB => absurd hB (hNone b),
    fun b hB => absurd hB (hNone b)⟩
  · exact hReady
  · rw [hBytes]
    exact hRepresents
  · rw [List.mem_singleton.mp hX]
    exact ⟨Nat.le_refl _, Nat.le_of_eq hStop, hLarge, hStart, Nat.dvd_sub hEnd hStart⟩

theorem HeapInv.length_le (h : HeapInv size.heapStart size.heapEnd s spans) :
    spans.length ≤ size.bytes := by
  obtain ⟨hLo, -, hBytes, -⟩ := size.bounds
  exact Nat.le_trans (h.spaced.length_le hLo) hBytes

theorem HeapInv.safe (h : HeapInv size.heapStart size.heapEnd s spans) : s.Safe size := by
  obtain ⟨hLo, -, -, hHi, -, -⟩ := size.bounds
  have hSize : ∀ b : Block, b.start + b.layout.size ≤ b.span.stop := fun b =>
    Nat.add_le_add_left b.layout.room_spec.1 _
  refine ⟨fun b hB => ⟨(h.placed b hB).lower, Nat.le_trans (hSize b) (h.placed b hB).upper⟩,
    h.aligned,
    h.apart.imp fun {a b} hAB => ?_, fun b hB offset hOffset word hWord => ?_, fun layout => ?_,
    fun index hIndex => ?_⟩
  · exact hAB.imp (Nat.le_trans (hSize a)) (Nat.le_trans (hSize b))
  · exact h.kept b hB _ (Nat.le_add_right _ _) (by have := hSize b; omega) word hWord
  · rcases h.alloc hLo hHi h.length_le layout with
      ⟨-, hRefused⟩ | ⟨before, x, after, s', -, -, hServed, -⟩
    · rw [hRefused]
      exact Option.some_ne_none _
    · rw [hServed]
      exact Option.some_ne_none _
  · obtain ⟨s', hFreed, -⟩ := h.dealloc hLo hHi h.length_le (List.getElem?_eq_getElem hIndex)
    rw [hFreed]
    exact Option.some_ne_none _

/-- In every run of a program on a memory of any size that is accepted, with any content, the
allocator keeps its promises. -/
theorem heap_safe {memory : Memory} {as : List Action}
    (hRun : (machine size).exec (Program.start size memory) as = some (s, os)) : s.Safe size := by
  obtain ⟨hLo, -, -, hHi, -, -⟩ := size.bounds
  have hInv : ∃ spans, HeapInv size.heapStart size.heapEnd s spans :=
    Machine.exec_state_invariant
      (P := fun s => ∃ spans, HeapInv size.heapStart size.heapEnd s spans)
      (fun ⟨_, hInv⟩ hStep => hInv.step hLo hHi hInv.length_le hStep)
      ⟨_, heapInv_start size memory⟩ hRun
  obtain ⟨spans, hInv⟩ := hInv
  exact hInv.safe

/-- The smallest memory that is accepted. -/
def sampleSize : MemorySize where
  bytes := 512 * 1024
  paged := by decide
  least := by decide
  most := by decide

def vectorLayout : Layout := ⟨100, 3, by decide⟩

def pageLayout : Layout := ⟨4096, 12, by decide⟩

/-- Two blocks, the second of which goes back and is followed by a third. -/
def sampleActions : List Action :=
  [.alloc vectorLayout, .alloc pageLayout, .write 0 8 7, .write 1 96 5, .dealloc 0,
    .alloc vectorLayout, .write 0 0 3]

theorem sample_heap_safe : ∃ s os,
    (machine sampleSize).exec (Program.start sampleSize fun _ => 0) sampleActions = some (s, os) ∧
      s.blocks.length = 2 ∧ s.Safe sampleSize := by
  have hCheck : (machine sampleSize).check (Program.start sampleSize fun _ => 0) sampleActions
      (fun s _ => decide (s.blocks.length = 2)) = true := by
    decide +kernel
  obtain ⟨s, os, hRun, hTest⟩ := Machine.exists_of_check hCheck
  exact ⟨s, os, hRun, of_decide_eq_true hTest, heap_safe hRun⟩

end Choreographr.Vm
