import Choreographr.Lib.Machine
import Choreographr.Vm.HoleList

/-!
# A guest program and its heap

The host chooses the bounds of the heap by the size of the memory, and the program starts
with the allocator on them. Then the program asks for blocks, gives them up, and writes words
of the blocks that it has. Its data and its stack are outside the heap.
-/

namespace Choreographr.Vm

open Lib

/-- The largest memory of the virtual machine. -/
def riscvMaxMemory : Nat := 4 * 1024 * 1024

/-- A size of the memory that a run is started with. -/
structure MemorySize where
  bytes : Nat
  paged : 4096 ∣ bytes
  least : 512 * 1024 ≤ bytes
  most : bytes ≤ riscvMaxMemory

/-- The checks of `run_riscv_impl`. -/
def MemorySize.check (input : Option Nat) : Except String MemorySize :=
  let bytes := input.getD riscvMaxMemory
  if hPaged : 4096 ∣ bytes then
    if hLeast : 512 * 1024 ≤ bytes then
      if hMost : bytes ≤ riscvMaxMemory then .ok ⟨bytes, hPaged, hLeast, hMost⟩
      else .error "memory_size cannot exceed 4MB (ckb-vm RISCV_MAX_MEMORY)"
    else .error "memory_size must be at least 512KB"
  else .error "memory_size must be a multiple of 4096"

/-- The heap is between a fixed offset and a guard below the stack. The differences with the
guard and the base saturate. -/
def computeHeapBounds (memorySize : Nat) : Nat × Nat :=
  let stackBase := memorySize - memorySize / 4
  let heapBase := 256 * 1024
  let heapEnd := stackBase - 64 * 1024
  (heapBase, heapEnd - heapBase)

/-- The global allocator. It serves nothing before it is initialised. -/
structure GlobalHeap where
  holes : HoleList
  initialized : Bool

namespace GlobalHeap

def initHeap (memory : Memory) (base size : Nat) : GlobalHeap :=
  let done := HoleList.init ⟨none, memory⟩ base size
  ⟨done.1, done.2⟩

def alloc (g : GlobalHeap) (fuel : Nat) (layout : Layout) : Option (Option Nat × GlobalHeap) :=
  if g.initialized then
    (g.holes.allocateFirstFit fuel layout).map fun r => (r.1, { g with holes := r.2 })
  else some (none, g)

def dealloc (g : GlobalHeap) (fuel ptr : Nat) (layout : Layout) : Option GlobalHeap :=
  if g.initialized then (g.holes.deallocate fuel ptr layout).map fun holes => { g with holes }
  else some g

end GlobalHeap

/-- A block that the program has. -/
structure Block where
  start : Nat
  layout : Layout

structure Program where
  heap : GlobalHeap
  blocks : List Block
  /-- What the program has written to each word since it got the block. -/
  written : Nat → Option Nat

inductive Action where
  | alloc (layout : Layout)
  /-- The program gives up one of its blocks, with the layout that it was allocated with. -/
  | dealloc (index : Nat)
  /-- The program writes a word of one of its blocks. -/
  | write (index offset word : Nat)

inductive Event where
  | allocated (block : Block)
  | refused (layout : Layout)
  | freed (block : Block)

namespace Program

/-- `_start` before it calls the program. -/
def start (size : MemorySize) (memory : Memory) : Program where
  heap :=
    GlobalHeap.initHeap memory (computeHeapBounds size.bytes).1 (computeHeapBounds size.bytes).2
  blocks := []
  written := fun _ => none

/-- The program has the block, and has written none of its words. -/
def receive (s : Program) (block : Block) : Program :=
  { s with
    blocks := block :: s.blocks
    written := fun w =>
      if block.start ≤ w ∧ w < block.start + block.layout.room then none else s.written w }

/-- A step of the program; `none` where it may not take it, or where a walk over the list of
holes does not end within the fuel. -/
def step (fuel : Nat) (s : Program) : Action → Option (Program × List Event)
  | .alloc layout =>
      match s.heap.alloc fuel layout with
      | none => none
      | some (none, heap) => some ({ s with heap }, [.refused layout])
      | some (some ptr, heap) =>
          some ({ s with heap }.receive ⟨ptr, layout⟩, [.allocated ⟨ptr, layout⟩])
  | .dealloc index =>
      match s.blocks[index]? with
      | none => none
      | some block =>
          match s.heap.dealloc fuel block.start block.layout with
          | none => none
          | some heap => some ({ s with heap, blocks := s.blocks.eraseIdx index }, [.freed block])
  | .write index offset word =>
      match s.blocks[index]? with
      | none => none
      | some block =>
          if offset < block.layout.size ∧ 8 ∣ offset then
            some ({ s with
              heap := { s.heap with holes := s.heap.holes.store (block.start + offset) word }
              written := Function.update s.written (block.start + offset) (some word) }, [])
          else none

end Program

/-- As many steps of a walk as the memory has bytes are enough for every heap in it. -/
def machine (size : MemorySize) : Machine Program Action Event := ⟨Program.step size.bytes⟩

end Choreographr.Vm
