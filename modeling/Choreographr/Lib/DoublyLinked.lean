import Mathlib.Data.List.Nodup
import Mathlib.Logic.Function.Basic

/-!
# Doubly linked lists

The links of cells as functions, and the list of the cells that they link. Taking a cell
out of the list or putting one into it changes the links of its neighbours only.
-/

namespace Choreographr.Lib

/-- The first cell, and the two links of every cell. -/
structure Links (κ : Type) where
  front : Option κ
  next : κ → Option κ
  prev : κ → Option κ

namespace Links

variable {κ : Type}

/-- The cells are linked in this order, between the cell `p` and the cell `n`. -/
def Segment (l : Links κ) : Option κ → List κ → Option κ → Prop
  | _, [], _ => True
  | p, x :: rest, n =>
      l.prev x = p ∧ l.next x = rest.head?.or n ∧ Segment l (some x) rest n

/-- These are the cells of the list. -/
structure Linked (l : Links κ) (xs : List κ) : Prop where
  front : l.front = xs.head?
  cells : l.Segment none xs none

/-- The list is read from the links of its cells. -/
structure Agree (xs : List κ) (l l' : Links κ) : Prop where
  front : l.front = l'.front
  cell : ∀ x ∈ xs, l.next x = l'.next x ∧ l.prev x = l'.prev x

variable {l l' : Links κ} {p n c t : Option κ} {xs a b : List κ} {x : κ}

theorem Segment.congr (h : l.Segment p xs n)
    (hAgree : ∀ x ∈ xs, l'.next x = l.next x ∧ l'.prev x = l.prev x) : l'.Segment p xs n := by
  induction xs generalizing p with
  | nil => trivial
  | cons x rest ih =>
    obtain ⟨hNext, hPrev⟩ := hAgree x List.mem_cons_self
    obtain ⟨h₁, h₂, hRest⟩ := h
    exact ⟨hPrev.trans h₁, hNext.trans h₂,
      ih hRest fun y hMem => hAgree y (List.mem_cons_of_mem x hMem)⟩

theorem Linked.congr (h : Linked l xs) (hAgree : Agree xs l' l) : Linked l' xs :=
  ⟨hAgree.front.trans h.front, h.cells.congr hAgree.cell⟩

theorem segment_append :
    l.Segment p (a ++ b) n ↔ l.Segment p a (b.head?.or n) ∧ l.Segment (a.getLast?.or p) b n := by
  induction a generalizing p with
  | nil => simp [Segment]
  | cons x rest ih =>
    have hHead : (rest ++ b).head?.or n = rest.head?.or (b.head?.or n) := by
      rw [List.head?_append, Option.or_assoc]
    have hLast : (x :: rest).getLast?.or p = rest.getLast?.or (some x) := by
      cases rest with
      | nil => rfl
      | cons y rest =>
        rw [List.getLast?_cons_cons, List.getLast?_cons, Option.some_or, Option.some_or]
    rw [hLast, List.cons_append]
    simp only [Segment, ih, hHead, and_assoc]

theorem segment_split :
    l.Segment p (a ++ x :: b) n ↔ l.Segment p a (some x) ∧ l.prev x = a.getLast?.or p ∧
      l.next x = b.head?.or n ∧ l.Segment (some x) b n := by
  rw [segment_append]
  rfl

theorem nodup_split (hNodup : (a ++ x :: b).Nodup) :
    a.Nodup ∧ b.Nodup ∧ x ∉ a ∧ x ∉ b ∧ List.Disjoint a b := by
  obtain ⟨hA, hRest, hApart⟩ := List.nodup_append'.mp hNodup
  obtain ⟨hX, hB⟩ := List.nodup_cons.mp hRest
  refine ⟨hA, hB, fun hMem => hApart hMem List.mem_cons_self, hX, ?_⟩
  exact fun y hY hY' => hApart hY (List.mem_cons_of_mem x hY')

theorem head_out (hApart : List.Disjoint a b) : ∀ y ∈ a, b.head? ≠ some y :=
  fun _ hY hHead => hApart hY (List.mem_of_head? hHead)

theorem last_out (hApart : List.Disjoint a b) : ∀ y ∈ b, a.getLast? ≠ some y :=
  fun _ hY hLast => hApart (List.mem_of_getLast? hLast) hY

variable [DecidableEq κ]

/-- Where the cell after `c` is reached from: from `c`, or from the front. -/
def setNext (l : Links κ) (c t : Option κ) : Links κ :=
  match c with
  | some y => { l with next := Function.update l.next y t }
  | none => { l with front := t }

def setPrev (l : Links κ) (c t : Option κ) : Links κ :=
  match c with
  | some y => { l with prev := Function.update l.prev y t }
  | none => l

/-- The neighbours of the cell are linked to each other. -/
def unlink (l : Links κ) (x : κ) : Links κ :=
  (l.setNext (l.prev x) (l.next x)).setPrev (l.next x) (l.prev x)

/-- The cell is linked between two neighbours. -/
def link (l : Links κ) (x : κ) (before after : Option κ) : Links κ :=
  ((((l.setPrev (some x) before).setNext (some x) after).setNext before (some x)).setPrev after
    (some x))

section Reads

variable (l : Links κ) (c t : Option κ) (y : κ)

theorem front_setNext : (l.setNext c t).front = if c = none then t else l.front := by
  cases c <;> rfl

theorem next_setNext : (l.setNext c t).next y = if c = some y then t else l.next y := by
  cases c with
  | none => rfl
  | some x =>
    show Function.update l.next x t y = _
    rw [Function.update_apply]
    simp only [Option.some.injEq, eq_comm]

@[simp] theorem prev_setNext : (l.setNext c t).prev y = l.prev y := by cases c <;> rfl

@[simp] theorem front_setPrev : (l.setPrev c t).front = l.front := by cases c <;> rfl

@[simp] theorem next_setPrev : (l.setPrev c t).next y = l.next y := by cases c <;> rfl

theorem prev_setPrev : (l.setPrev c t).prev y = if c = some y then t else l.prev y := by
  cases c with
  | none => rfl
  | some x =>
    show Function.update l.prev x t y = _
    rw [Function.update_apply]
    simp only [Option.some.injEq, eq_comm]

end Reads

theorem Segment.setNext (h : l.Segment p xs n) (hOut : ∀ y ∈ xs, c ≠ some y) :
    (l.setNext c t).Segment p xs n :=
  h.congr fun y hMem => ⟨by rw [next_setNext, if_neg (hOut y hMem)], prev_setNext l c t y⟩

theorem Segment.setPrev (h : l.Segment p xs n) (hOut : ∀ y ∈ xs, c ≠ some y) :
    (l.setPrev c t).Segment p xs n :=
  h.congr fun y hMem => ⟨next_setPrev l c t y, by rw [prev_setPrev, if_neg (hOut y hMem)]⟩

/-- The last cell gets another cell behind it. -/
theorem Segment.turnNext (h : l.Segment p xs n) (hNodup : xs.Nodup) :
    (l.setNext xs.getLast? t).Segment p xs t := by
  induction xs generalizing p with
  | nil => trivial
  | cons x rest ih =>
    obtain ⟨hPrev, hNext, hRest⟩ := h
    obtain ⟨hMem, hNodup⟩ := List.nodup_cons.mp hNodup
    cases rest with
    | nil =>
      refine ⟨hPrev, ?_, trivial⟩
      rw [next_setNext]
      exact if_pos rfl
    | cons y rest =>
      rw [List.getLast?_cons_cons]
      refine ⟨by rw [prev_setNext]; exact hPrev, ?_, ih hRest hNodup⟩
      rw [next_setNext, if_neg, hNext]
      · rfl
      · exact fun hLast => hMem (List.mem_of_getLast? hLast)

/-- The first cell gets another cell before it. -/
theorem Segment.turnPrev (h : l.Segment p xs n) (hNodup : xs.Nodup) :
    (l.setPrev xs.head? t).Segment t xs n := by
  cases xs with
  | nil => trivial
  | cons x rest =>
    obtain ⟨-, hNext, hRest⟩ := h
    obtain ⟨hMem, -⟩ := List.nodup_cons.mp hNodup
    refine ⟨?_, by rw [next_setPrev]; exact hNext, hRest.setPrev ?_⟩
    · rw [prev_setPrev]
      exact if_pos rfl
    · rintro y hY hEq
      cases hEq
      exact hMem hY

theorem Linked.unlink (h : Linked l (a ++ x :: b)) (hNodup : (a ++ x :: b).Nodup) :
    Linked (l.unlink x) (a ++ b) := by
  obtain ⟨hA, hPrev, hNext, hB⟩ := segment_split.mp h.cells
  obtain ⟨hNodupA, hNodupB, -, -, hApart⟩ := nodup_split hNodup
  rw [Option.or_none] at hPrev hNext
  unfold Links.unlink
  rw [hPrev, hNext]
  refine ⟨?_, segment_append.mpr ⟨?_, ?_⟩⟩
  · rw [front_setPrev, front_setNext, h.front]
    cases a <;> rfl
  · rw [Option.or_none]
    exact (hA.turnNext hNodupA).setPrev (head_out hApart)
  · rw [Option.or_none]
    exact (hB.setNext (last_out hApart)).turnPrev hNodupB

theorem Linked.link (h : Linked l (a ++ b)) (hNodup : (a ++ x :: b).Nodup) :
    Linked (l.link x a.getLast? b.head?) (a ++ x :: b) := by
  obtain ⟨hA, hB⟩ := segment_append.mp h.cells
  obtain ⟨hNodupA, hNodupB, hNotA, hNotB, hApart⟩ := nodup_split hNodup
  rw [Option.or_none] at hA hB
  have hOutA : ∀ y ∈ a, some x ≠ some y := by
    rintro y hY hEq
    cases hEq
    exact hNotA hY
  have hOutB : ∀ y ∈ b, some x ≠ some y := by
    rintro y hY hEq
    cases hEq
    exact hNotB hY
  have hLast : a.getLast? ≠ some x := fun hLast => hNotA (List.mem_of_getLast? hLast)
  have hHead : b.head? ≠ some x := fun hHead => hNotB (List.mem_of_head? hHead)
  unfold Links.link
  refine ⟨?_, segment_split.mpr ⟨?_, ?_, ?_, ?_⟩⟩
  · rw [front_setPrev, front_setNext, front_setNext, if_neg (Option.some_ne_none x), front_setPrev,
      h.front]
    cases a <;> rfl
  · exact (((hA.setPrev hOutA).setNext hOutA).turnNext hNodupA).setPrev (head_out hApart)
  · rw [prev_setPrev, if_neg hHead, prev_setNext, prev_setNext, prev_setPrev, if_pos rfl,
      Option.or_none]
  · rw [next_setPrev, next_setNext, if_neg hLast, next_setNext, if_pos rfl, Option.or_none]
  · exact (((hB.setPrev hOutB).setNext hOutB).setNext (last_out hApart)).turnPrev hNodupB

end Links

end Choreographr.Lib
