import Choreographr.Vm.Layout
import Mathlib.Logic.Function.Basic

/-!
# The allocator of guest programs

A guest program has its heap from a first-fit allocator. Its holes are cells of a doubly
linked list, in the order of their addresses, and each is stored in the memory that is free.
-/

namespace Choreographr.Vm

/-- The words of eight bytes, by address. -/
abbrev Memory := Nat → Nat

structure Hole where
  next : Option Nat
  size : Nat
  prev : Option Nat

/-- A null pointer is the word 0. -/
def pointer (word : Nat) : Option Nat := if word = 0 then none else some word

def pointerWord (target : Option Nat) : Nat := target.getD 0

/-- The list and the memory that it is in. -/
structure HoleList where
  front : Option Nat
  memory : Memory

namespace HoleList

def hole (l : HoleList) (addr : Nat) : Hole where
  next := pointer (l.memory addr)
  size := l.memory (addr + 8)
  prev := pointer (l.memory (addr + 16))

def store (l : HoleList) (addr word : Nat) : HoleList :=
  { l with memory := Function.update l.memory addr word }

def setNext (l : HoleList) (addr : Nat) (target : Option Nat) : HoleList :=
  l.store addr (pointerWord target)

def setSize (l : HoleList) (addr size : Nat) : HoleList := l.store (addr + 8) size

def setPrev (l : HoleList) (addr : Nat) (target : Option Nat) : HoleList :=
  l.store (addr + 16) (pointerWord target)

def write (l : HoleList) (addr : Nat) (h : Hole) : HoleList :=
  ((l.setNext addr h.next).setSize addr h.size).setPrev addr h.prev

/-- The cell after `before` is the target; without a cell before it, it is the front. -/
def follow (l : HoleList) (before target : Option Nat) : HoleList :=
  match before with
  | some p => l.setNext p target
  | none => { l with front := target }

def precede (l : HoleList) (after target : Option Nat) : HoleList :=
  match after with
  | some n => l.setPrev n target
  | none => l

def init (l : HoleList) (addr size : Nat) : HoleList × Bool :=
  if size < Hole.minSize then ({ l with front := none }, false)
  else ({ l.write addr ⟨none, size, none⟩ with front := some addr }, true)

def remove (l : HoleList) (hole : Nat) : HoleList :=
  let prev := (l.hole hole).prev
  let next := (l.hole hole).next
  (l.follow prev next).precede next prev

/-- The cells between which the address belongs. -/
def findPlace (l : HoleList) (addr : Nat) :
    Nat → Option Nat → Option Nat → Option (Option Nat × Option Nat)
  | _, none, prev => some (prev, none)
  | 0, some _, _ => none
  | fuel + 1, some curr, prev =>
      if curr > addr then some (prev, some curr)
      else l.findPlace addr fuel (l.hole curr).next (some curr)

/-- A hole takes in the hole behind it, and the bytes between them. -/
def absorb (l : HoleList) (p h : Nat) : HoleList :=
  let newSize := wrappingSub (max (wrappingAdd p (l.hole p).size) (wrappingAdd h (l.hole h).size)) p
  let sized := l.setSize p newSize
  let linked := sized.setNext p (sized.hole h).next
  linked.precede (linked.hole h).next (some p)

/-- The gap between the holes is too small for a hole. -/
def adjoins (l : HoleList) (p h : Nat) : Bool :=
  wrappingAdd (wrappingAdd p (l.hole p).size) Hole.minSize > h

def mergePrev (l : HoleList) (prev : Option Nat) (hole : Nat) : HoleList × Nat :=
  match prev with
  | some p => if l.adjoins p hole then (l.absorb p hole, p) else (l, hole)
  | none => (l, hole)

def mergeNext (l : HoleList) (hole : Nat) : HoleList :=
  match (l.hole hole).next with
  | some n => if l.adjoins hole n then l.absorb hole n else l
  | none => l

def insert (l : HoleList) (fuel hole : Nat) : Option HoleList :=
  match l.findPlace hole fuel l.front none with
  | none => none
  | some (prev, current) =>
      let placed := (l.setPrev hole prev).setNext hole current
      let linked := (placed.follow prev (some hole)).precede current (some hole)
      let merged := linked.mergePrev prev hole
      some (merged.1.mergeNext merged.2)

/-- The memory is made a hole, if it is large enough for one. -/
def reclaim (l : HoleList) (fuel addr size : Nat) : Option HoleList :=
  if size ≥ Hole.minSize then (l.write addr ⟨none, size, none⟩).insert fuel addr else some l

def fitsAt (size align hole holeEnd : Nat) : Bool :=
  let aligned := alignUp hole align
  !(aligned < hole || aligned ≥ holeEnd || wrappingAdd aligned size > holeEnd)

/-- The walk of `allocateFirstFit` to the first hole that fits. -/
def firstFit (l : HoleList) (size align : Nat) : Nat → Option Nat → Option (Option Nat)
  | _, none => some none
  | 0, some _ => none
  | fuel + 1, some hole =>
      if fitsAt size align hole (wrappingAdd hole (l.hole hole).size) then some (some hole)
      else l.firstFit size align fuel (l.hole hole).next

/-- The block is cut out of the hole, and what is left of it goes back. -/
def carve (l : HoleList) (fuel size align hole : Nat) : Option (Nat × HoleList) :=
  let holeEnd := wrappingAdd hole (l.hole hole).size
  let aligned := alignUp hole align
  let allocEnd := wrappingAdd aligned size
  (((l.remove hole).reclaim fuel hole (wrappingSub aligned hole)).bind fun l =>
    l.reclaim fuel allocEnd (wrappingSub holeEnd allocEnd)).map fun l => (aligned, l)

/-- The result is `none` where the walk does not end within the fuel; a null pointer is
`some (none, _)`. -/
def allocateFirstFit (l : HoleList) (fuel : Nat) (layout : Layout) :
    Option (Option Nat × HoleList) :=
  match l.firstFit layout.room layout.effectiveAlign fuel l.front with
  | none => none
  | some none => some (none, l)
  | some (some hole) =>
      (l.carve fuel layout.room layout.effectiveAlign hole).map fun r => (some r.1, r.2)

/-- What a request leaves of the hole that it is served from, before the block and behind it.
There is nothing where no hole fits. -/
def leftovers (l : HoleList) (fuel : Nat) (layout : Layout) : List Nat :=
  match l.firstFit layout.room layout.effectiveAlign fuel l.front with
  | some (some hole) =>
      let aligned := alignUp hole layout.effectiveAlign
      [wrappingSub aligned hole,
        wrappingSub (wrappingAdd hole (l.hole hole).size) (wrappingAdd aligned layout.room)]
  | _ => []

def deallocate (l : HoleList) (fuel ptr : Nat) (layout : Layout) : Option HoleList :=
  (l.write ptr ⟨none, layout.room, none⟩).insert fuel ptr

def countHoles (l : HoleList) : Nat → Option Nat → Option Nat
  | _, none => some 0
  | 0, some _ => none
  | fuel + 1, some c => (l.countHoles fuel (l.hole c).next).map (1 + ·)

def holeCount (l : HoleList) (fuel : Nat) : Option Nat := l.countHoles fuel l.front

def sumSizes (l : HoleList) : Nat → Option Nat → Option Nat
  | _, none => some 0
  | 0, some _ => none
  | fuel + 1, some c => (l.sumSizes fuel (l.hole c).next).map ((l.hole c).size + ·)

def totalFree (l : HoleList) (fuel : Nat) : Option Nat := l.sumSizes fuel l.front

end HoleList

end Choreographr.Vm
