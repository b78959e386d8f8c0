import Choreographr.Lib.DoublyLinked
import Choreographr.Vm.HoleList

/-!
# The links in the memory

The fields of the holes are words of the memory. Where the holes are apart, a write to a
field of one is a change of its link and leaves every other field alone.
-/

namespace Choreographr.Vm

open Lib Links

/-- The links that the memory has, read at any address. -/
def HoleList.links (l : HoleList) : Links Nat where
  front := l.front
  next addr := (l.hole addr).next
  prev addr := (l.hole addr).prev

/-- Addresses that have room for a hole each, and none of them null. -/
structure Spread (cells : List Nat) : Prop where
  apart : ∀ x ∈ cells, ∀ y ∈ cells, x = y ∨ x + Hole.minSize ≤ y ∨ y + Hole.minSize ≤ x
  positive : ∀ x ∈ cells, 0 < x

/-- The address is in none of the cells. -/
def Outside (cells : List Nat) (w : Nat) : Prop := ∀ x ∈ cells, w < x ∨ x + Hole.minSize ≤ w

/-- The cells have these links and sizes, and all other words are those of `m`. -/
structure Shows (cells : List Nat) (m : Memory) (k : Links Nat) (f : Nat → Nat) (l : HoleList) :
    Prop where
  links : Agree cells l.links k
  sizes : ∀ y ∈ cells, (l.hole y).size = f y
  rest : ∀ w, Outside cells w → l.memory w = m w

theorem Shows.start (cells : List Nat) (l : HoleList) :
    Shows cells l.memory l.links (fun y => (l.hole y).size) l :=
  ⟨⟨rfl, fun _ _ => ⟨rfl, rfl⟩⟩, fun _ _ => rfl, fun _ _ => rfl⟩

theorem pointer_pointerWord {t : Option Nat} (h : t ≠ some 0) : pointer (pointerWord t) = t := by
  cases t with
  | none => rfl
  | some a => exact if_neg fun hZero => h (congrArg some hZero)

theorem memory_store (l : HoleList) (a v w : Nat) :
    (l.store a v).memory w = if w = a then v else l.memory w :=
  Function.update_apply l.memory a v w

section Writes

variable {cells : List Nat} {m : Memory} {k : Links Nat} {f : Nat → Nat} {l : HoleList}
  {a : Nat} {t : Option Nat}

theorem Spread.ne_zero (hCells : Spread cells) (ht : ∀ y, t = some y → y ∈ cells) : t ≠ some 0 :=
  fun hEq => absurd (hCells.positive 0 (ht 0 hEq)) (Nat.lt_irrefl 0)

theorem Shows.setNext (h : Shows cells m k f l) (hCells : Spread cells) (hA : a ∈ cells)
    (ht : ∀ y, t = some y → y ∈ cells) :
    Shows cells m (k.setNext (some a) t) f (l.setNext a t) := by
  have hRoom : Hole.minSize = 24 := rfl
  refine ⟨⟨h.links.front, fun y hY => ⟨?_, ?_⟩⟩, fun y hY => ?_, fun w hW => ?_⟩
  · show pointer ((l.store a (pointerWord t)).memory y) = _
    rw [memory_store, next_setNext]
    by_cases hEq : y = a
    · rw [if_pos hEq, if_pos (congrArg some hEq.symm), pointer_pointerWord (hCells.ne_zero ht)]
    · rw [if_neg hEq, if_neg fun hSome => hEq (Option.some.inj hSome).symm]
      exact (h.links.cell y hY).1
  · show pointer ((l.store a (pointerWord t)).memory (y + 16)) = _
    have hApart := hCells.apart y hY a hA
    rw [memory_store, prev_setNext, if_neg (by omega)]
    exact (h.links.cell y hY).2
  · show (l.store a (pointerWord t)).memory (y + 8) = _
    have hApart := hCells.apart y hY a hA
    rw [memory_store, if_neg (by omega)]
    exact h.sizes y hY
  · show (l.store a (pointerWord t)).memory w = _
    have hOut := hW a hA
    rw [memory_store, if_neg (by omega)]
    exact h.rest w hW

theorem Shows.setPrev (h : Shows cells m k f l) (hCells : Spread cells) (hA : a ∈ cells)
    (ht : ∀ y, t = some y → y ∈ cells) :
    Shows cells m (k.setPrev (some a) t) f (l.setPrev a t) := by
  have hRoom : Hole.minSize = 24 := rfl
  refine ⟨⟨h.links.front, fun y hY => ⟨?_, ?_⟩⟩, fun y hY => ?_, fun w hW => ?_⟩
  · show pointer ((l.store (a + 16) (pointerWord t)).memory y) = _
    have hApart := hCells.apart y hY a hA
    rw [memory_store, next_setPrev, if_neg (by omega)]
    exact (h.links.cell y hY).1
  · show pointer ((l.store (a + 16) (pointerWord t)).memory (y + 16)) = _
    rw [memory_store, prev_setPrev]
    by_cases hEq : y = a
    · rw [if_pos (by omega), if_pos (congrArg some hEq.symm),
        pointer_pointerWord (hCells.ne_zero ht)]
    · rw [if_neg (by omega), if_neg fun hSome => hEq (Option.some.inj hSome).symm]
      exact (h.links.cell y hY).2
  · show (l.store (a + 16) (pointerWord t)).memory (y + 8) = _
    have hApart := hCells.apart y hY a hA
    rw [memory_store, if_neg (by omega)]
    exact h.sizes y hY
  · show (l.store (a + 16) (pointerWord t)).memory w = _
    have hOut := hW a hA
    rw [memory_store, if_neg (by omega)]
    exact h.rest w hW

theorem Shows.setSize (h : Shows cells m k f l) (size : Nat) (hCells : Spread cells)
    (hA : a ∈ cells) : Shows cells m k (Function.update f a size) (l.setSize a size) := by
  have hRoom : Hole.minSize = 24 := rfl
  refine ⟨⟨h.links.front, fun y hY => ⟨?_, ?_⟩⟩, fun y hY => ?_, fun w hW => ?_⟩
  · show pointer ((l.store (a + 8) size).memory y) = _
    have hApart := hCells.apart y hY a hA
    rw [memory_store, if_neg (by omega)]
    exact (h.links.cell y hY).1
  · show pointer ((l.store (a + 8) size).memory (y + 16)) = _
    have hApart := hCells.apart y hY a hA
    rw [memory_store, if_neg (by omega)]
    exact (h.links.cell y hY).2
  · show (l.store (a + 8) size).memory (y + 8) = _
    rw [memory_store, Function.update_apply]
    by_cases hEq : y = a
    · rw [if_pos (by omega), if_pos hEq]
    · rw [if_neg (by omega), if_neg hEq]
      exact h.sizes y hY
  · show (l.store (a + 8) size).memory w = _
    have hOut := hW a hA
    rw [memory_store, if_neg (by omega)]
    exact h.rest w hW

variable {c : Option Nat}

theorem Shows.follow (h : Shows cells m k f l) (hCells : Spread cells)
    (hC : ∀ y, c = some y → y ∈ cells) (ht : ∀ y, t = some y → y ∈ cells) :
    Shows cells m (k.setNext c t) f (l.follow c t) := by
  cases c with
  | some a => exact h.setNext hCells (hC a rfl) ht
  | none => exact ⟨⟨rfl, h.links.cell⟩, h.sizes, h.rest⟩

theorem Shows.precede (h : Shows cells m k f l) (hCells : Spread cells)
    (hC : ∀ y, c = some y → y ∈ cells) (ht : ∀ y, t = some y → y ∈ cells) :
    Shows cells m (k.setPrev c t) f (l.precede c t) := by
  cases c with
  | some a => exact h.setPrev hCells (hC a rfl) ht
  | none => exact h

theorem Shows.write (h : Shows cells m k f l) (hole : Hole) (hCells : Spread cells)
    (hA : a ∈ cells) (hNext : hole.next = none) (hPrev : hole.prev = none) :
    Shows cells m ((k.setNext (some a) none).setPrev (some a) none)
      (Function.update f a hole.size) (l.write a hole) := by
  have hNone : ∀ y, (none : Option Nat) = some y → y ∈ cells := nofun
  unfold HoleList.write
  rw [hNext, hPrev]
  exact ((h.setNext hCells hA hNone).setSize hole.size hCells hA).setPrev hCells hA hNone

end Writes

end Choreographr.Vm
