import Choreographr.Vm.Layout
import Mathlib.Algebra.BigOperators.Group.List.Basic
import Mathlib.Data.List.TakeWhile

/-!
# The free space of a heap

A heap as it is meant: its holes are spans of addresses in order, with gaps between them that
are large enough for a hole. What goes back is joined with what is close to it.
-/

namespace Choreographr.Vm

structure Span where
  start : Nat
  size : Nat
deriving DecidableEq

namespace Span

def stop (s : Span) : Nat := s.start + s.size

/-- The spans have no address in common. -/
def Apart (a b : Span) : Prop := a.stop ≤ b.start ∨ b.stop ≤ a.start

theorem Apart.symm {a b : Span} (h : a.Apart b) : b.Apart a := Or.symm h

/-- Large enough for a hole, of whole words, and in the heap from `lo` to `hi`. -/
structure Placed (lo hi : Nat) (s : Span) : Prop where
  lower : lo ≤ s.start
  upper : s.stop ≤ hi
  room : Hole.minSize ≤ s.size
  aligned : Hole.align ∣ s.start
  words : Hole.align ∣ s.size

/-- There is no room for a hole between the spans. -/
def adjoins (a b : Span) : Bool := a.stop + Hole.minSize > b.start

def join (a b : Span) : Span := ⟨a.start, b.stop - a.start⟩

/-- The first span is before the second, with room for a hole between them. -/
def Below (a b : Span) : Prop := a.stop + Hole.minSize ≤ b.start

theorem adjoins_eq_false {a b : Span} : a.adjoins b = false ↔ a.Below b := by
  simp [adjoins, Below]

theorem Below.apart {a b : Span} (h : a.Below b) : a.Apart b := by
  unfold Below at h
  exact Or.inl (by omega)

theorem Below.trans {a b c : Span} (h : a.Below b) (h' : b.Below c) : a.Below c := by
  unfold Below at *
  unfold stop at *
  omega

end Span

/-- The holes of a heap. -/
structure Spaced (lo hi : Nat) (spans : List Span) : Prop where
  placed : ∀ s ∈ spans, s.Placed lo hi
  below : spans.Pairwise Span.Below

def mergeBack (before : List Span) (s : Span) : List Span × Span :=
  match before.getLast? with
  | some p => if p.adjoins s then (before.dropLast, p.join s) else (before, s)
  | none => (before, s)

def mergeOn (s : Span) (after : List Span) : Span × List Span :=
  match after with
  | n :: rest => if s.adjoins n then (s.join n, rest) else (s, after)
  | [] => (s, [])

/-- The span goes back to the holes. -/
def putBack (spans : List Span) (s : Span) : List Span :=
  let back := mergeBack (spans.takeWhile fun h => h.start ≤ s.start) s
  let on := mergeOn back.2 (spans.dropWhile fun h => h.start ≤ s.start)
  back.1 ++ on.1 :: on.2

/-- All that goes back if it is large enough for a hole. -/
def reclaimed (spans : List Span) (s : Span) : List Span :=
  if s.size ≥ Hole.minSize then putBack spans s else spans

/-- The block at the first aligned address of the span. -/
def Layout.blockIn (layout : Layout) (s : Span) : Span :=
  ⟨alignUp s.start layout.effectiveAlign, layout.room⟩

def Layout.fitsIn (layout : Layout) (s : Span) : Bool := (layout.blockIn s).stop ≤ s.stop

/-- What is left of the span before the block, and behind it. -/
def Span.upTo (s b : Span) : Span := ⟨s.start, b.start - s.start⟩

def Span.behind (s b : Span) : Span := ⟨b.stop, s.stop - b.stop⟩

/-- The block is cut out of a hole that is no longer among the holes. -/
def cut (spans : List Span) (s b : Span) : List Span :=
  reclaimed (reclaimed spans (s.upTo b)) (s.behind b)

def total (spans : List Span) : Nat := (spans.map Span.size).sum

variable {lo hi : Nat} {spans before after rest : List Span} {s p n : Span}

theorem total_append (xs ys : List Span) : total (xs ++ ys) = total xs + total ys := by
  unfold total
  rw [List.map_append, List.sum_append]

theorem total_cons (x : Span) (xs : List Span) : total (x :: xs) = x.size + total xs := by
  unfold total
  rw [List.map_cons, List.sum_cons]

/-! ## Joining two spans -/

theorem Span.stop_join (h : p.stop ≤ s.start) : (p.join s).stop = s.stop := by
  show p.start + (s.start + s.size - p.start) = s.start + s.size
  unfold stop at h
  omega

theorem Span.Placed.join (hP : p.Placed lo hi) (hS : s.Placed lo hi) (hOrder : p.stop ≤ s.start) :
    (p.join s).Placed lo hi := by
  have hStop : (p.join s).stop = s.stop := stop_join hOrder
  refine ⟨hP.lower, hStop ▸ hS.upper, ?_, hP.aligned, ?_⟩
  · have hRoom := hS.room
    show Hole.minSize ≤ s.stop - p.start
    unfold stop at *
    omega
  · exact Nat.dvd_sub (Nat.dvd_add hS.aligned hS.words) hP.aligned

/-- A block that is apart from two spans is apart from their join, as the gap between them is
too small for it. -/
theorem Span.Apart.join {b : Span} (hOrder : p.stop ≤ s.start) (hAdjoins : p.adjoins s = true)
    (hRoom : Hole.minSize ≤ b.size) (hP : b.Apart p) (hS : b.Apart s) : b.Apart (p.join s) := by
  have hStop : (p.join s).stop = s.stop := stop_join hOrder
  have hGap : p.stop + Hole.minSize > s.start := of_decide_eq_true hAdjoins
  unfold Apart
  rw [hStop]
  show b.stop ≤ p.start ∨ s.stop ≤ b.start
  unfold Apart stop at *
  omega

/-! ## Where a span belongs among the holes -/

/-- The span has room in the list between the two parts. -/
structure Between (lo hi : Nat) (before : List Span) (s : Span) (after : List Span) : Prop where
  spaced : Spaced lo hi (before ++ after)
  placed : s.Placed lo hi
  left : ∀ h ∈ before, h.stop ≤ s.start
  right : ∀ h ∈ after, s.stop ≤ h.start

theorem Spaced.of_append (h : Spaced lo hi (before ++ after)) :
    Spaced lo hi before ∧ Spaced lo hi after ∧ ∀ x ∈ before, ∀ y ∈ after, x.Below y := by
  obtain ⟨hBefore, hAfter, hBelow⟩ := List.pairwise_append.mp h.below
  exact ⟨⟨fun x hMem => h.placed x (List.mem_append_left _ hMem), hBefore⟩,
    ⟨fun x hMem => h.placed x (List.mem_append_right _ hMem), hAfter⟩, hBelow⟩

theorem Spaced.append (hBefore : Spaced lo hi before) (hAfter : Spaced lo hi after)
    (hBelow : ∀ x ∈ before, ∀ y ∈ after, x.Below y) : Spaced lo hi (before ++ after) where
  placed x hMem := (List.mem_append.mp hMem).elim (hBefore.placed x) (hAfter.placed x)
  below := List.pairwise_append.mpr ⟨hBefore.below, hAfter.below, hBelow⟩

theorem Spaced.cons (hS : s.Placed lo hi) (hAfter : Spaced lo hi after)
    (hBelow : ∀ y ∈ after, s.Below y) : Spaced lo hi (s :: after) where
  placed := List.forall_mem_cons.mpr ⟨hS, hAfter.placed⟩
  below := List.pairwise_cons.mpr ⟨hBelow, hAfter.below⟩

theorem Spaced.erase (h : Spaced lo hi (before ++ s :: after)) :
    Spaced lo hi (before ++ after) := by
  obtain ⟨hBefore, hAfter, hBelow⟩ := h.of_append
  have hTail : Spaced lo hi ([s] ++ after) := hAfter
  exact hBefore.append hTail.of_append.2.1 fun x hX y hY =>
    hBelow x hX y (List.mem_cons_of_mem s hY)

theorem takeWhile_append_dropWhile_start (spans : List Span) (addr : Nat) :
    (spans.takeWhile fun x => x.start ≤ addr) ++ (spans.dropWhile fun x => x.start ≤ addr) =
      spans :=
  List.takeWhile_append_dropWhile

theorem between_takeWhile (h : Spaced lo hi spans) (hS : s.Placed lo hi)
    (hApart : ∀ x ∈ spans, s.Apart x) :
    Between lo hi (spans.takeWhile fun x => x.start ≤ s.start) s
      (spans.dropWhile fun x => x.start ≤ s.start) := by
  have hWhole := takeWhile_append_dropWhile_start spans s.start
  have hRoom : 0 < s.size := Nat.lt_of_lt_of_le (by decide) hS.room
  refine ⟨hWhole.symm ▸ h, hS, fun x hMem => ?_, fun x hMem => ?_⟩
  · have hTake := List.mem_takeWhile_imp hMem
    have hStart : x.start ≤ s.start := of_decide_eq_true hTake
    have hX := hApart x ((List.takeWhile_prefix _).subset hMem)
    unfold Span.Apart Span.stop at *
    omega
  · have hStart : s.start < x.start := by
      cases hDrop : spans.dropWhile fun x => x.start ≤ s.start with
      | nil => rw [hDrop] at hMem; cases hMem
      | cons y rest =>
        have hHead := List.head?_dropWhile_not (fun x : Span => decide (x.start ≤ s.start)) spans
        rw [hDrop] at hHead hMem hWhole
        have hY : s.start < y.start := by simpa using hHead
        rcases List.mem_cons.mp hMem with rfl | hRest
        · exact hY
        · have hBelow : y.Below x := by
            have hPairwise := (Spaced.of_append (hWhole.symm ▸ h)).2.1.below
            exact (List.pairwise_cons.mp hPairwise).1 x hRest
          unfold Span.Below Span.stop at hBelow
          omega
    have hX := hApart x ((List.dropWhile_suffix _).subset hMem)
    unfold Span.Apart Span.stop at *
    omega

theorem mergeBack_concat (init : List Span) (p s : Span) : mergeBack (init ++ [p]) s =
    if p.adjoins s then (init, p.join s) else (init ++ [p], s) := by
  unfold mergeBack
  rw [List.getLast?_concat, List.dropLast_concat]

theorem mergeBack_cases (before : List Span) (s : Span) :
    mergeBack before s = (before, s) ∧ (∀ p, before.getLast? = some p → p.adjoins s = false) ∨
      ∃ init p, before = init ++ [p] ∧ p.adjoins s = true ∧
        mergeBack before s = (init, p.join s) := by
  rcases List.eq_nil_or_concat before with rfl | ⟨init, p, rfl⟩
  · exact Or.inl ⟨rfl, fun p hLast => absurd hLast (by simp)⟩
  · rw [List.concat_eq_append]
    cases hAdjoins : p.adjoins s with
    | true => exact Or.inr ⟨init, p, rfl, hAdjoins, by rw [mergeBack_concat, hAdjoins]; rfl⟩
    | false =>
      refine Or.inl ⟨by rw [mergeBack_concat, hAdjoins]; rfl, fun q hLast => ?_⟩
      rw [List.getLast?_concat] at hLast
      cases hLast
      exact hAdjoins

theorem mergeOn_cases (s : Span) (after : List Span) :
    mergeOn s after = (s, after) ∧ (∀ n, after.head? = some n → s.adjoins n = false) ∨
      ∃ n rest, after = n :: rest ∧ s.adjoins n = true ∧ mergeOn s after = (s.join n, rest) := by
  cases after with
  | nil => exact Or.inl ⟨rfl, fun n hHead => absurd hHead (by simp)⟩
  | cons n rest =>
    have hMerge : mergeOn s (n :: rest) =
        if s.adjoins n then (s.join n, rest) else (s, n :: rest) := rfl
    cases hAdjoins : s.adjoins n with
    | true => exact Or.inr ⟨n, rest, rfl, hAdjoins, by rw [hMerge, hAdjoins]; rfl⟩
    | false =>
      refine Or.inl ⟨by rw [hMerge, hAdjoins]; rfl, fun q hHead => ?_⟩
      cases hHead
      exact hAdjoins

theorem Between.below_of_last (h : Between lo hi before s after)
    (hLast : ∀ p, before.getLast? = some p → p.adjoins s = false) : ∀ x ∈ before, x.Below s := by
  intro x hMem
  rcases List.eq_nil_or_concat before with rfl | ⟨init, p, rfl⟩
  · cases hMem
  · rw [List.concat_eq_append] at *
    have hP : p.Below s := Span.adjoins_eq_false.mp (hLast p List.getLast?_concat)
    rcases List.mem_append.mp hMem with hInit | hX
    · exact (h.spaced.of_append.1.of_append.2.2 x hInit p (List.mem_singleton_self p)).trans hP
    · rw [List.mem_singleton.mp hX]
      exact hP

theorem Between.mergeBack (h : Between lo hi before s after) :
    Between lo hi (mergeBack before s).1 (mergeBack before s).2 after ∧
      ∀ x ∈ (Vm.mergeBack before s).1, x.Below (Vm.mergeBack before s).2 := by
  rcases mergeBack_cases before s with ⟨hEq, hLast⟩ | ⟨init, p, rfl, hAdjoins, hEq⟩
  · rw [hEq]
    exact ⟨h, h.below_of_last hLast⟩
  · rw [hEq]
    have hSpaced := h.spaced
    rw [List.append_assoc, List.singleton_append] at hSpaced
    have hOrder : p.stop ≤ s.start := h.left p (by simp)
    have hP : p.Placed lo hi := hSpaced.placed p (by simp)
    have hBelow : ∀ x ∈ init, x.Below (p.join s) := fun x hMem =>
      hSpaced.of_append.2.2 x hMem p List.mem_cons_self
    refine ⟨⟨hSpaced.erase, hP.join h.placed hOrder, fun x hMem => ?_, fun x hMem => ?_⟩, hBelow⟩
    · exact Nat.le_trans (Nat.le_add_right _ _) (hBelow x hMem)
    · rw [Span.stop_join hOrder]
      exact h.right x hMem

theorem Between.mergeOn (h : Between lo hi before s after) (hBelow : ∀ x ∈ before, x.Below s) :
    Spaced lo hi (before ++ (mergeOn s after).1 :: (mergeOn s after).2) := by
  obtain ⟨hBefore, hAfter, hApart⟩ := h.spaced.of_append
  rcases mergeOn_cases s after with ⟨hEq, hHead⟩ | ⟨n, rest, rfl, hAdjoins, hEq⟩
  · rw [hEq]
    have hS : ∀ y ∈ after, s.Below y := by
      intro y hMem
      cases after with
      | nil => cases hMem
      | cons n rest =>
        have hN : s.Below n := Span.adjoins_eq_false.mp (hHead n rfl)
        rcases List.mem_cons.mp hMem with rfl | hRest
        · exact hN
        · exact hN.trans ((List.pairwise_cons.mp hAfter.below).1 y hRest)
    refine hBefore.append (hAfter.cons h.placed hS) fun x hX y hY => ?_
    rcases List.mem_cons.mp hY with rfl | hY
    · exact hBelow x hX
    · exact hApart x hX y hY
  · rw [hEq]
    have hOrder : s.stop ≤ n.start := h.right n List.mem_cons_self
    have hStop : (s.join n).stop = n.stop := Span.stop_join hOrder
    obtain ⟨hN, hRest⟩ := List.pairwise_cons.mp hAfter.below
    have hJoin : ∀ y ∈ rest, (s.join n).Below y := by
      intro y hMem
      unfold Span.Below
      rw [hStop]
      exact hN y hMem
    refine hBefore.append (Spaced.cons (h.placed.join (hAfter.placed n List.mem_cons_self) hOrder)
      ⟨fun y hMem => hAfter.placed y (List.mem_cons_of_mem n hMem), hRest⟩ hJoin)
      fun x hX y hY => ?_
    rcases List.mem_cons.mp hY with rfl | hY
    · exact hBelow x hX
    · exact hApart x hX y (List.mem_cons_of_mem n hY)

theorem putBack_spaced (h : Spaced lo hi spans) (hS : s.Placed lo hi)
    (hApart : ∀ x ∈ spans, s.Apart x) : Spaced lo hi (putBack spans s) := by
  obtain ⟨hBetween, hBelow⟩ := (between_takeWhile h hS hApart).mergeBack
  exact hBetween.mergeOn hBelow

theorem Span.size_join (hOrder : p.stop ≤ s.start) : p.size + s.size ≤ (p.join s).size := by
  show p.size + s.size ≤ s.start + s.size - p.start
  unfold stop at hOrder
  omega

/-- The span is joined with the holes that are near, and the gaps between them are too small
for a block. -/
structure Joins (near : List Span) (s joined : Span) : Prop where
  size : total near + s.size ≤ joined.size
  apart : ∀ b : Span, Hole.minSize ≤ b.size → b.Apart s → (∀ x ∈ near, b.Apart x) →
    b.Apart joined

theorem Joins.refl (s : Span) : Joins [] s s :=
  ⟨Nat.le_of_eq (Nat.zero_add _), fun _ _ hS _ => hS⟩

theorem exists_joins (hSpaced : Spaced lo hi spans) (hS : s.Placed lo hi)
    (hApart : ∀ x ∈ spans, s.Apart x) :
    ∃ init near rest joined, spans = init ++ near ++ rest ∧
      putBack spans s = init ++ joined :: rest ∧ Joins near s joined := by
  have h := between_takeWhile hSpaced hS hApart
  have hWhole := takeWhile_append_dropWhile_start spans s.start
  unfold putBack
  generalize spans.takeWhile _ = before at *
  generalize spans.dropWhile _ = after at *
  subst hWhole
  have hBack : ∃ near, before = (mergeBack before s).1 ++ near ∧
      Joins near s (mergeBack before s).2 := by
    rcases mergeBack_cases before s with ⟨hEq, -⟩ | ⟨init, p, rfl, hAdjoins, hEq⟩
    · rw [hEq]
      exact ⟨[], (List.append_nil _).symm, .refl s⟩
    · have hOver := h.left p (by simp)
      rw [hEq]
      exact ⟨[p], rfl, Span.size_join hOver, fun b hRoom hS hNear =>
        Span.Apart.join hOver hAdjoins hRoom (hNear p List.mem_cons_self) hS⟩
  obtain ⟨near, hBefore, hJoins⟩ := hBack
  have hUnder := h.mergeBack.1.right
  generalize mergeBack before s = back at *
  rcases mergeOn_cases back.2 after with ⟨hEq, -⟩ | ⟨n, rest, rfl, hAdjoins, hEq⟩
  · simp only [hEq]
    exact ⟨back.1, near, after, back.2, by rw [hBefore], rfl, hJoins⟩
  · have hOrder := hUnder n List.mem_cons_self
    simp only [hEq]
    refine ⟨back.1, near ++ [n], rest, back.2.join n, by rw [hBefore]; simp, rfl, ?_,
      fun b hRoom hS hNear => ?_⟩
    · have hSize := hJoins.size
      have hJoin := Span.size_join hOrder
      rw [total_append, total_cons, show total [] = 0 from rfl]
      omega
    · obtain ⟨hNear, hN⟩ := List.forall_mem_append.mp hNear
      exact Span.Apart.join hOrder hAdjoins hRoom (hJoins.apart b hRoom hS hNear)
        (hN n List.mem_cons_self)

theorem putBack_apart {b : Span} (h : Spaced lo hi spans) (hS : s.Placed lo hi)
    (hApart : ∀ x ∈ spans, s.Apart x) (hRoom : Hole.minSize ≤ b.size) (hB : b.Apart s)
    (hSpans : ∀ x ∈ spans, b.Apart x) : ∀ x ∈ putBack spans s, b.Apart x := by
  obtain ⟨init, near, rest, joined, rfl, hEq, hJoins⟩ := exists_joins h hS hApart
  rw [hEq]
  simp only [List.forall_mem_append, List.forall_mem_cons] at hSpans ⊢
  exact ⟨hSpans.1.1, hJoins.apart b hRoom hB hSpans.1.2, hSpans.2⟩

theorem le_total_putBack (h : Spaced lo hi spans) (hS : s.Placed lo hi)
    (hApart : ∀ x ∈ spans, s.Apart x) : total spans + s.size ≤ total (putBack spans s) := by
  obtain ⟨init, near, rest, joined, rfl, hEq, hJoins⟩ := exists_joins h hS hApart
  have hSize := hJoins.size
  rw [hEq, total_append, total_append, total_append, total_cons]
  omega

theorem length_putBack (h : Spaced lo hi spans) (hS : s.Placed lo hi)
    (hApart : ∀ x ∈ spans, s.Apart x) : (putBack spans s).length ≤ spans.length + 1 := by
  obtain ⟨init, near, rest, joined, rfl, hEq, -⟩ := exists_joins h hS hApart
  rw [hEq]
  simp only [List.length_append, List.length_cons]
  omega

/-! ## Cutting a block out of a hole -/

def Span.Inside (b s : Span) : Prop := s.start ≤ b.start ∧ b.stop ≤ s.stop

theorem Span.Apart.inside {b c : Span} (h : c.Apart s) (hInside : b.Inside s) : c.Apart b := by
  obtain ⟨hLower, hUpper⟩ := hInside
  unfold Apart at *
  omega

theorem reclaimed_spaced (h : Spaced lo hi spans)
    (hS : Hole.minSize ≤ s.size → s.Placed lo hi ∧ ∀ x ∈ spans, s.Apart x) :
    Spaced lo hi (reclaimed spans s) := by
  unfold reclaimed
  split
  · rename_i hRoom
    exact putBack_spaced h (hS hRoom).1 (hS hRoom).2
  · exact h

theorem reclaimed_apart {b : Span} (h : Spaced lo hi spans)
    (hS : Hole.minSize ≤ s.size → s.Placed lo hi ∧ ∀ x ∈ spans, s.Apart x)
    (hRoom : Hole.minSize ≤ b.size) (hB : b.Apart s) (hSpans : ∀ x ∈ spans, b.Apart x) :
    ∀ x ∈ reclaimed spans s, b.Apart x := by
  unfold reclaimed
  split
  · rename_i hSize
    exact putBack_apart h (hS hSize).1 (hS hSize).2 hRoom hB hSpans
  · exact hSpans

theorem le_total_reclaimed (h : Spaced lo hi spans)
    (hS : Hole.minSize ≤ s.size → s.Placed lo hi ∧ ∀ x ∈ spans, s.Apart x)
    (hWhole : s.size = 0 ∨ Hole.minSize ≤ s.size) :
    total spans + s.size ≤ total (reclaimed spans s) := by
  unfold reclaimed
  split
  · rename_i hSize
    exact le_total_putBack h (hS hSize).1 (hS hSize).2
  · rename_i hSize
    rw [hWhole.resolve_right hSize]
    exact Nat.le_refl _

section Cut

variable {b : Span}

/-- A block in a hole. -/
structure Cuts (lo hi : Nat) (before : List Span) (s : Span) (after : List Span) (b : Span) :
    Prop where
  spaced : Spaced lo hi (before ++ s :: after)
  inside : b.Inside s
  room : Hole.minSize ≤ b.size
  aligned : Hole.align ∣ b.start
  words : Hole.align ∣ b.size

theorem Cuts.hole (h : Cuts lo hi before s after b) : s.Placed lo hi :=
  h.spaced.placed s (by simp)

theorem Cuts.placed (h : Cuts lo hi before s after b) : b.Placed lo hi where
  lower := Nat.le_trans h.hole.lower h.inside.1
  upper := Nat.le_trans h.inside.2 h.hole.upper
  room := h.room
  aligned := h.aligned
  words := h.words

theorem Cuts.apart (h : Cuts lo hi before s after b) : ∀ x ∈ before ++ after, s.Apart x := by
  obtain ⟨-, hAfter, hBelow⟩ := h.spaced.of_append
  intro x hMem
  rcases List.mem_append.mp hMem with hX | hX
  · exact (hBelow x hX s List.mem_cons_self).apart.symm
  · exact ((List.pairwise_cons.mp hAfter.below).1 x hX).apart

theorem Cuts.upTo (h : Cuts lo hi before s after b) (hSize : Hole.minSize ≤ (s.upTo b).size) :
    (s.upTo b).Placed lo hi ∧ ∀ x ∈ before ++ after, (s.upTo b).Apart x := by
  obtain ⟨hLower, hUpper⟩ := h.inside
  have hStop : (s.upTo b).stop = b.start := by
    show s.start + (b.start - s.start) = b.start
    omega
  refine ⟨⟨h.hole.lower, ?_, hSize, h.hole.aligned, Nat.dvd_sub h.aligned h.hole.aligned⟩, ?_⟩
  · rw [hStop]
    exact Nat.le_trans (Nat.le_add_right _ _) h.placed.upper
  · have hInside : (s.upTo b).Inside s := by
      refine ⟨Nat.le_refl _, ?_⟩
      rw [hStop]
      unfold Span.stop at hUpper ⊢
      omega
    exact fun x hMem => ((h.apart x hMem).symm.inside hInside).symm

theorem Cuts.behind (h : Cuts lo hi before s after b) (hSize : Hole.minSize ≤ (s.behind b).size) :
    (s.behind b).Placed lo hi ∧
      ∀ x ∈ reclaimed (before ++ after) (s.upTo b), (s.behind b).Apart x := by
  obtain ⟨hLower, hUpper⟩ := h.inside
  have hStop : (s.behind b).stop = s.stop := by
    show b.stop + (s.stop - b.stop) = s.stop
    omega
  have hPlaced : (s.behind b).Placed lo hi := by
    refine ⟨?_, ?_, hSize, Nat.dvd_add h.aligned h.words, ?_⟩
    · exact Nat.le_trans h.placed.lower (Nat.le_add_right _ _)
    · rw [hStop]
      exact h.hole.upper
    · exact Nat.dvd_sub (Nat.dvd_add h.hole.aligned h.hole.words) (Nat.dvd_add h.aligned h.words)
  refine ⟨hPlaced, reclaimed_apart h.spaced.erase h.upTo hSize ?_ fun x hMem => ?_⟩
  · refine Or.inr ?_
    show s.start + (b.start - s.start) ≤ b.stop
    unfold Span.stop
    omega
  · have hInside : (s.behind b).Inside s := by
      refine ⟨?_, Nat.le_of_eq hStop⟩
      show s.start ≤ b.stop
      unfold Span.stop
      omega
    exact ((h.apart x hMem).symm.inside hInside).symm

theorem Cuts.cut_spaced (h : Cuts lo hi before s after b) :
    Spaced lo hi (cut (before ++ after) s b) :=
  reclaimed_spaced (reclaimed_spaced h.spaced.erase h.upTo) h.behind

theorem Cuts.cut_apart {c : Span} (h : Cuts lo hi before s after b) (hRoom : Hole.minSize ≤ c.size)
    (hUpTo : c.Apart (s.upTo b)) (hBehind : c.Apart (s.behind b))
    (hSpans : ∀ x ∈ before ++ after, c.Apart x) : ∀ x ∈ cut (before ++ after) s b, c.Apart x :=
  reclaimed_apart (reclaimed_spaced h.spaced.erase h.upTo) h.behind hRoom hBehind
    (reclaimed_apart h.spaced.erase h.upTo hRoom hUpTo hSpans)

theorem Cuts.cut_apart_self (h : Cuts lo hi before s after b) :
    ∀ x ∈ cut (before ++ after) s b, b.Apart x := by
  refine h.cut_apart h.room (Or.inr ?_) (Or.inl (Nat.le_refl _)) fun x hMem =>
    (Span.Apart.inside (h.apart x hMem).symm h.inside).symm
  have hLower := h.inside.1
  show s.start + (b.start - s.start) ≤ b.start
  omega

theorem Cuts.cut_apart_other {c : Span} (h : Cuts lo hi before s after b)
    (hRoom : Hole.minSize ≤ c.size) (hSpans : ∀ x ∈ before ++ s :: after, c.Apart x) :
    ∀ x ∈ cut (before ++ after) s b, c.Apart x := by
  obtain ⟨hLower, hUpper⟩ := h.inside
  have hS : c.Apart s := hSpans s (by simp)
  refine h.cut_apart hRoom (hS.inside ⟨Nat.le_refl _, ?_⟩) (hS.inside ⟨?_, ?_⟩) fun x hMem =>
    hSpans x (by rcases List.mem_append.mp hMem with hX | hX <;> simp [hX])
  · show s.start + (b.start - s.start) ≤ s.stop
    unfold Span.stop at *
    omega
  · show s.start ≤ b.stop
    unfold Span.stop
    omega
  · show b.stop + (s.stop - b.stop) ≤ s.stop
    omega

/-- Nothing is lost if what is left of the hole is large enough for holes. -/
theorem Cuts.le_total (h : Cuts lo hi before s after b)
    (hUpTo : (s.upTo b).size = 0 ∨ Hole.minSize ≤ (s.upTo b).size)
    (hBehind : (s.behind b).size = 0 ∨ Hole.minSize ≤ (s.behind b).size) :
    total (before ++ s :: after) ≤ total (cut (before ++ after) s b) + b.size := by
  have hFirst := le_total_reclaimed h.spaced.erase h.upTo hUpTo
  have hSecond := le_total_reclaimed (reclaimed_spaced h.spaced.erase h.upTo) h.behind hBehind
  obtain ⟨hLower, hUpper⟩ := h.inside
  have hSize : s.size = (s.upTo b).size + b.size + (s.behind b).size := by
    show s.size = (b.start - s.start) + b.size + (s.stop - b.stop)
    unfold Span.stop at *
    omega
  rw [total_append] at hFirst
  rw [total_append, total_cons]
  unfold cut
  omega

end Cut

theorem Span.Placed.start_lt (hS : s.Placed lo hi) (hHi : hi ≤ 2 ^ 63) : s.start < 2 ^ 63 := by
  have hUpper := hS.upper
  have hRoom := hS.room
  unfold stop Hole.minSize Hole.headerSize at *
  omega

theorem blockIn_start (hS : s.Placed lo hi) (hHi : hi ≤ 2 ^ 63) (layout : Layout) :
    s.start ≤ (layout.blockIn s).start ∧ layout.effectiveAlign ∣ (layout.blockIn s).start := by
  unfold Layout.blockIn
  rw [layout.effectiveAlign_eq]
  exact ⟨le_alignUp (hS.start_lt hHi) layout.align_bound,
    dvd_alignUp (hS.start_lt hHi) layout.align_bound⟩

theorem blockIn_inside {layout : Layout} (hS : s.Placed lo hi) (hHi : hi ≤ 2 ^ 63)
    (hFits : layout.fitsIn s = true) : (layout.blockIn s).Inside s :=
  ⟨(blockIn_start hS hHi layout).1, of_decide_eq_true hFits⟩

theorem cuts_blockIn {layout : Layout} (h : Spaced lo hi (before ++ s :: after)) (hHi : hi ≤ 2 ^ 63)
    (hFits : layout.fitsIn s = true) : Cuts lo hi before s after (layout.blockIn s) := by
  have hS : s.Placed lo hi := h.placed s (by simp)
  exact ⟨h, blockIn_inside hS hHi hFits, layout.room_spec.2.1,
    Nat.dvd_trans layout.hole_align_dvd (blockIn_start hS hHi layout).2, layout.room_spec.2.2.1⟩

end Choreographr.Vm
