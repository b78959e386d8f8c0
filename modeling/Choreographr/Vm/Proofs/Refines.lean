import Choreographr.Vm.Proofs.Cells
import Choreographr.Vm.Spans
import Mathlib.Data.List.Pairwise

/-!
# The allocator keeps the holes of a heap

What the pointers of the list do is what is meant: a hole that goes back is put among the
holes in order and joined with its neighbours, and a block is cut out of the first hole that
it fits into. Only words of the holes are written.
-/

namespace Choreographr.Vm

open Lib Links

/-- The addresses of the holes. -/
def starts (spans : List Span) : List Nat := spans.map Span.start

/-- The memory has this list of holes; outside the cells it is as it was. -/
structure Holds (cells : List Nat) (m : Memory) (l : HoleList) (spans : List Span) : Prop where
  sub : ∀ x ∈ starts spans, x ∈ cells
  linked : l.links.Linked (starts spans)
  sizes : ∀ s ∈ spans, (l.hole s.start).size = s.size
  rest : ∀ w, Outside cells w → l.memory w = m w

variable {lo hi : Nat} {cells : List Nat} {m : Memory} {l : HoleList}
  {spans before after : List Span}
  {s p q : Span}

theorem mem_starts {x : Span} (h : x ∈ spans) : x.start ∈ starts spans := List.mem_map_of_mem h

theorem starts_append (xs ys : List Span) : starts (xs ++ ys) = starts xs ++ starts ys :=
  List.map_append

theorem starts_sub {x : Nat} (h : x ∈ starts before ++ starts after) :
    x ∈ starts (before ++ s :: after) := by
  rw [starts_append]
  exact (List.mem_append.mp h).elim (List.mem_append_left _) fun hX =>
    List.mem_append_right _ (List.mem_cons_of_mem _ hX)

theorem Holds.shows (h : Holds cells m l spans) :
    Shows cells m l.links (fun y => (l.hole y).size) l :=
  ⟨⟨rfl, fun _ _ => ⟨rfl, rfl⟩⟩, fun _ _ => rfl, h.rest⟩

/-- Spans in order have room for their fields. -/
theorem spread_starts (hLo : 0 < lo) (hPlaced : ∀ s ∈ spans, s.Placed lo hi)
    (hOrder : spans.Pairwise fun a b => a.stop ≤ b.start) :
    Spread (starts spans) ∧ (starts spans).Nodup := by
  have hLess : spans.Pairwise fun a b => a.start + Hole.minSize ≤ b.start := by
    refine hOrder.imp_of_mem fun hA _ hStop => ?_
    have hRoom := (hPlaced _ hA).room
    unfold Span.stop at hStop
    omega
  have hStarts : (starts spans).Pairwise fun a b => a + Hole.minSize ≤ b :=
    List.pairwise_map.mpr hLess
  refine ⟨⟨fun x hX y hY => ?_, fun x hX => ?_⟩, hStarts.imp fun hLe => ?_⟩
  · by_cases hEq : x = y
    · exact Or.inl hEq
    · have hEither : (starts spans).Pairwise fun a b =>
          a + Hole.minSize ≤ b ∨ b + Hole.minSize ≤ a := hStarts.imp Or.inl
      have hSymm : Std.Symm fun a b : Nat => a + Hole.minSize ≤ b ∨ b + Hole.minSize ≤ a :=
        ⟨fun _ _ => Or.symm⟩
      exact Or.inr (hEither.forall hX hY hEq)
  · obtain ⟨a, hA, rfl⟩ := List.mem_map.mp hX
    exact Nat.lt_of_lt_of_le hLo (hPlaced a hA).lower
  · have hRoom : Hole.minSize = 24 := rfl
    omega

/-! ## Taking a hole out -/

theorem next_mem {a b : List Nat} {x : Nat} {k : Links Nat} (h : k.Linked (a ++ x :: b)) :
    k.prev x = a.getLast? ∧ k.next x = b.head? := by
  obtain ⟨-, hPrev, hNext, -⟩ := segment_split.mp h.cells
  rw [Option.or_none] at hPrev hNext
  exact ⟨hPrev, hNext⟩

theorem Holds.remove (h : Holds cells m l (before ++ s :: after)) (hCells : Spread cells)
    (hNodup : (starts (before ++ s :: after)).Nodup) :
    Holds cells m (l.remove s.start) (before ++ after) := by
  have hShows := h.shows
  have hLinked := h.linked
  rw [starts_append] at hLinked hNodup
  obtain ⟨hPrev, hNext⟩ := next_mem hLinked
  have hSub : ∀ x ∈ starts before ++ starts after, x ∈ cells := fun x hMem =>
    h.sub x (starts_sub hMem)
  have hPrevMem : ∀ y, l.links.prev s.start = some y → y ∈ cells := fun y hEq =>
    hSub y (List.mem_append_left _ (List.mem_of_getLast? (hPrev ▸ hEq)))
  have hNextMem : ∀ y, l.links.next s.start = some y → y ∈ cells := fun y hEq =>
    hSub y (List.mem_append_right _ (List.mem_of_head? (hNext ▸ hEq)))
  have hAfter := (hShows.follow hCells hPrevMem hNextMem).precede hCells hNextMem hPrevMem
  refine ⟨by rw [starts_append]; exact hSub, ?_, fun x hMem => ?_, hAfter.rest⟩
  · rw [starts_append]
    refine (hLinked.unlink hNodup).congr ⟨hAfter.links.front, fun x hMem => ?_⟩
    exact hAfter.links.cell x (hSub x hMem)
  · have hIn : x ∈ before ++ s :: after := by
      rcases List.mem_append.mp hMem with hX | hX <;> simp [hX]
    rw [← h.sizes x hIn]
    exact hAfter.sizes x.start (h.sub _ (mem_starts hIn))

/-! ## Putting a hole in -/

theorem readNext (hLinked : l.links.Linked (starts (before ++ s :: after))) :
    (l.hole s.start).prev = (starts before).getLast? ∧
      (l.hole s.start).next = (starts after).head? := by
  rw [starts_append] at hLinked
  exact next_mem hLinked

theorem segment_cons {x : Span} {rest : List Span} {prev : Option Nat}
    (h : l.links.Segment prev (starts (x :: rest)) none) :
    (l.hole x.start).next = (starts rest).head? ∧
      l.links.Segment (some x.start) (starts rest) none := by
  obtain ⟨-, hNext, hRest⟩ := h
  rw [Option.or_none] at hNext
  exact ⟨hNext, hRest⟩

/-- The walk stops between the holes before the address and those behind it. -/
theorem findPlace_eq (addr : Nat) {fuel : Nat} {prev : Option Nat}
    (h : l.links.Segment prev (starts spans) none) (hFuel : spans.length ≤ fuel) :
    l.findPlace addr fuel (starts spans).head? prev =
      some ((starts (spans.takeWhile fun x => x.start ≤ addr)).getLast?.or prev,
        (starts (spans.dropWhile fun x => x.start ≤ addr)).head?) := by
  induction spans generalizing fuel prev with
  | nil => cases fuel <;> rfl
  | cons x rest ih =>
    obtain ⟨hNext, hRest⟩ := segment_cons h
    cases fuel with
    | zero => cases hFuel
    | succ fuel =>
      show (if x.start > addr then some (prev, some x.start)
        else l.findPlace addr fuel (l.hole x.start).next (some x.start)) = _
      rw [hNext]
      by_cases hStart : x.start ≤ addr
      · rw [if_neg (by omega), List.takeWhile_cons_of_pos (by simpa using hStart),
          List.dropWhile_cons_of_pos (by simpa using hStart)]
        refine (ih hRest (Nat.le_of_succ_le_succ hFuel)).trans ?_
        congr 2
        cases hTake : rest.takeWhile fun x => x.start ≤ addr with
        | nil => rfl
        | cons y ys =>
          show _ = (starts (x :: y :: ys)).getLast?.or prev
          simp only [starts, List.map_cons, List.getLast?_cons_cons]
          cases hLast : (y.start :: ys.map Span.start).getLast? with
          | none => simp at hLast
          | some z => rfl
      · rw [if_pos (by omega), List.takeWhile_cons_of_neg (by simpa using hStart),
          List.dropWhile_cons_of_neg (by simpa using hStart)]
        rfl

theorem Holds.link (h : Holds cells m l (before ++ after)) (hCells : Spread cells)
    (hNodup : (starts (before ++ s :: after)).Nodup) (hS : s.start ∈ cells)
    (hSize : (l.hole s.start).size = s.size) :
    Holds cells m
      ((((l.setPrev s.start (starts before).getLast?).setNext s.start (starts after).head?).follow
        (starts before).getLast? (some s.start)).precede (starts after).head? (some s.start))
      (before ++ s :: after) := by
  have hShows := h.shows
  have hLinked := h.linked
  have hSub := h.sub
  rw [starts_append] at hLinked hSub hNodup
  have hBefore : ∀ y, (starts before).getLast? = some y → y ∈ cells := fun y hEq =>
    hSub y (List.mem_append_left _ (List.mem_of_getLast? hEq))
  have hAfter : ∀ y, (starts after).head? = some y → y ∈ cells := fun y hEq =>
    hSub y (List.mem_append_right _ (List.mem_of_head? hEq))
  have hSelf : ∀ y, some s.start = some y → y ∈ cells := fun y hEq => Option.some.inj hEq ▸ hS
  have hShown := (((hShows.setPrev hCells hS hBefore).setNext hCells hS hAfter).follow hCells
    hBefore hSelf).precede hCells hAfter hSelf
  have hIn : ∀ x ∈ starts (before ++ s :: after), x ∈ cells := by
    intro x hMem
    rw [starts_append] at hMem
    rcases List.mem_append.mp hMem with hX | hX
    · exact hSub x (List.mem_append_left _ hX)
    · rcases List.mem_cons.mp hX with rfl | hX
      · exact hS
      · exact hSub x (List.mem_append_right _ hX)
  refine ⟨hIn, ?_, fun x hMem => ?_, hShown.rest⟩
  · have hAgree : Agree (starts (before ++ s :: after)) _ _ :=
      ⟨hShown.links.front, fun x hMem => hShown.links.cell x (hIn x hMem)⟩
    rw [starts_append] at hAgree ⊢
    exact (hLinked.link hNodup).congr hAgree
  · refine (hShown.sizes x.start (hIn _ (mem_starts hMem))).trans ?_
    rcases List.mem_append.mp hMem with hX | hX
    · exact h.sizes x (List.mem_append_left _ hX)
    · rcases List.mem_cons.mp hX with rfl | hX
      · exact hSize
      · exact h.sizes x (List.mem_append_right _ hX)

/-! ## Joining two holes -/

theorem Holds.setSize (h : Holds cells m l (before ++ p :: after)) (hCells : Spread cells)
    (hNodup : (starts (before ++ p :: after)).Nodup) (size : Nat) :
    Holds cells m (l.setSize p.start size) (before ++ ⟨p.start, size⟩ :: after) := by
  have hStarts : starts (before ++ ⟨p.start, size⟩ :: after) = starts (before ++ p :: after) := by
    simp [starts]
  have hP : p.start ∈ cells := h.sub _ (mem_starts (by simp))
  have hShown := h.shows.setSize size hCells hP
  rw [starts_append] at hNodup
  obtain ⟨-, -, hBefore, hAfter, -⟩ := nodup_split hNodup
  have hSizes : ∀ x ∈ before ++ p :: after, x.start ≠ p.start →
      ((l.setSize p.start size).hole x.start).size = x.size := by
    intro x hMem hNe
    refine (hShown.sizes x.start (h.sub _ (mem_starts hMem))).trans ?_
    rw [Function.update_apply, if_neg hNe]
    exact h.sizes x hMem
  refine ⟨hStarts ▸ h.sub, ?_, fun x hMem => ?_, hShown.rest⟩
  · rw [hStarts]
    exact h.linked.congr ⟨hShown.links.front, fun x hMem => hShown.links.cell x (h.sub x hMem)⟩
  · rcases List.mem_append.mp hMem with hX | hX
    · exact hSizes x (by simp [hX]) fun hEq => hBefore (hEq ▸ mem_starts hX)
    · rcases List.mem_cons.mp hX with rfl | hX
      · exact (hShown.sizes p.start hP).trans (by rw [Function.update_apply, if_pos rfl])
      · exact hSizes x (by simp [hX]) fun hEq => hAfter (hEq ▸ mem_starts hX)

/-- The second hole is taken out, once the first has the size of both. -/
theorem Holds.absorb (h : Holds cells m l (before ++ p :: q :: after)) (hCells : Spread cells)
    (hNodup : (starts (before ++ p :: q :: after)).Nodup) (hOrder : p.stop ≤ q.start)
    (hBound : q.stop < 2 ^ 64) :
    Holds cells m (l.absorb p.start q.start) (before ++ p.join q :: after) := by
  have hNewSize : wrappingSub (max (wrappingAdd p.start (l.hole p.start).size)
      (wrappingAdd q.start (l.hole q.start).size)) p.start = (p.join q).size := by
    rw [h.sizes p (by simp), h.sizes q (by simp)]
    unfold Span.stop at hOrder hBound
    rw [wrappingAdd_eq (by omega), wrappingAdd_eq (by omega), Nat.max_eq_right (by omega),
      wrappingSub_eq (by omega) (by omega)]
    rfl
  set sized := l.setSize p.start (p.join q).size
  have hSized : Holds cells m sized ((before ++ [p.join q]) ++ q :: after) := by
    rw [List.append_assoc]
    exact h.setSize hCells hNodup (p.join q).size
  have hStarts : starts ((before ++ [p.join q]) ++ q :: after) =
      starts (before ++ p :: q :: after) := by simp [starts, Span.join]
  have hPrev : (sized.hole q.start).prev = some p.start := by
    rw [(readNext hSized.linked).1, starts_append]
    exact List.getLast?_concat
  have hNe : q.start ≠ p.start := by
    rw [starts_append] at hNodup
    exact fun hEq => (nodup_split hNodup).2.2.2.1 (hEq ▸ List.mem_cons_self)
  -- The link of the second hole is read again after the write to the first.
  have hRead : ∀ t, ((sized.setNext p.start t).hole q.start).next = (sized.hole q.start).next := by
    intro t
    show pointer ((sized.store p.start (pointerWord t)).memory q.start) = _
    rw [memory_store, if_neg hNe]
    rfl
  have hAbsorb : l.absorb p.start q.start = sized.remove q.start := by
    unfold HoleList.absorb HoleList.remove
    simp only [hNewSize, hPrev]
    show (sized.setNext p.start _).precede _ _ = (sized.setNext p.start _).precede _ _
    rw [hRead]
  rw [hAbsorb, show before ++ p.join q :: after = (before ++ [p.join q]) ++ after by simp]
  exact hSized.remove hCells (hStarts ▸ hNodup)

/-! ## A hole goes back -/

theorem Between.ordered (h : Between lo hi before s after) :
    (∀ x ∈ before ++ s :: after, x.Placed lo hi) ∧
      (before ++ s :: after).Pairwise fun a b => a.stop ≤ b.start := by
  obtain ⟨hBefore, hAfter, hBelow⟩ := h.spaced.of_append
  have hLe : ∀ {a b : Span}, a.Below b → a.stop ≤ b.start := fun hAB =>
    Nat.le_trans (Nat.le_add_right _ _) hAB
  constructor
  · intro x hMem
    rcases List.mem_append.mp hMem with hX | hX
    · exact hBefore.placed x hX
    · rcases List.mem_cons.mp hX with rfl | hX
      · exact h.placed
      · exact hAfter.placed x hX
  · refine List.pairwise_append.mpr ⟨hBefore.below.imp hLe,
      List.pairwise_cons.mpr ⟨h.right, hAfter.below.imp hLe⟩, fun x hX y hY => ?_⟩
    rcases List.mem_cons.mp hY with rfl | hY
    · exact h.left x hX
    · exact hLe (hBelow x hX y hY)

theorem adjoins_eq (hSize : (l.hole p.start).size = p.size)
    (hBound : p.stop + Hole.minSize < 2 ^ 64) :
    l.adjoins p.start q.start = p.adjoins q := by
  unfold HoleList.adjoins Span.adjoins
  rw [hSize, wrappingAdd_eq (a := p.start), wrappingAdd_eq]
  · rfl
  · exact hBound
  · exact Nat.lt_of_le_of_lt (Nat.le_add_right _ _) hBound

section Merge

variable (hLo : 0 < lo) (hHi : hi ≤ 2 ^ 63) (hCells : Spread cells)

include hHi in
theorem Span.Placed.bound (hP : p.Placed lo hi) : p.stop + Hole.minSize < 2 ^ 64 := by
  have hUpper := hP.upper
  have hRoom : Hole.minSize = 24 := rfl
  omega

include hLo hHi hCells

theorem Holds.mergePrev (hBetween : Between lo hi before s after)
    (h : Holds cells m l (before ++ s :: after)) :
    (l.mergePrev (starts before).getLast? s.start).2 = (mergeBack before s).2.start ∧
      Holds cells m (l.mergePrev (starts before).getLast? s.start).1
        ((mergeBack before s).1 ++ (mergeBack before s).2 :: after) := by
  obtain ⟨hPlaced, hOrder⟩ := hBetween.ordered
  rcases List.eq_nil_or_concat before with rfl | ⟨init, p, rfl⟩
  · exact ⟨rfl, h⟩
  rw [List.concat_eq_append] at *
  have hLast : (starts (init ++ [p])).getLast? = some p.start := by simp [starts]
  have hMerge : l.mergePrev (starts (init ++ [p])).getLast? s.start =
      if p.adjoins s then (l.absorb p.start s.start, p.start) else (l, s.start) := by
    rw [hLast, ← adjoins_eq (h.sizes p (by simp)) ((hPlaced p (by simp)).bound hHi)]
    rfl
  rw [hMerge, mergeBack_concat]
  cases p.adjoins s with
  | false => exact ⟨rfl, h⟩
  | true =>
    have hNodup := (spread_starts hLo hPlaced hOrder).2
    rw [List.append_assoc, List.singleton_append] at h hNodup
    exact ⟨rfl, h.absorb hCells hNodup (hBetween.left p (by simp))
      (Nat.lt_of_le_of_lt (Nat.le_add_right _ _) (hBetween.placed.bound hHi))⟩

theorem Holds.mergeNext (hBetween : Between lo hi before s after)
    (h : Holds cells m l (before ++ s :: after)) :
    Holds cells m (l.mergeNext s.start) (before ++ (mergeOn s after).1 :: (mergeOn s after).2) := by
  obtain ⟨hPlaced, hOrder⟩ := hBetween.ordered
  have hNext := (readNext h.linked).2
  unfold HoleList.mergeNext
  rw [hNext]
  cases after with
  | nil => exact h
  | cons n rest =>
    show Holds cells m (if l.adjoins s.start n.start then l.absorb s.start n.start else l)
      (before ++ (if s.adjoins n then (s.join n, rest) else (s, n :: rest)).1 ::
        (if s.adjoins n then (s.join n, rest) else (s, n :: rest)).2)
    rw [adjoins_eq (h.sizes s (by simp)) (hBetween.placed.bound hHi)]
    cases s.adjoins n with
    | false => exact h
    | true =>
      exact h.absorb hCells (spread_starts hLo hPlaced hOrder).2
        (hBetween.right n List.mem_cons_self)
        (Nat.lt_of_le_of_lt (Nat.le_add_right _ _) ((hPlaced n (by simp)).bound hHi))

theorem Holds.insert {fuel : Nat} (h : Holds cells m l spans) (hSpaced : Spaced lo hi spans)
    (hS : s.Placed lo hi) (hApart : ∀ x ∈ spans, s.Apart x) (hMem : s.start ∈ cells)
    (hSize : (l.hole s.start).size = s.size) (hFuel : spans.length ≤ fuel) :
    ∃ l', l.insert fuel s.start = some l' ∧ Holds cells m l' (putBack spans s) := by
  have hBetween := between_takeWhile hSpaced hS hApart
  have hFind : l.findPlace s.start fuel l.front none =
      some ((starts (spans.takeWhile fun x => x.start ≤ s.start)).getLast?,
        (starts (spans.dropWhile fun x => x.start ≤ s.start)).head?) := by
    have hFront : l.front = (starts spans).head? := h.linked.front
    have hPlace := findPlace_eq s.start h.linked.cells hFuel
    rw [Option.or_none] at hPlace
    rw [hFront]
    exact hPlace
  have hWhole := takeWhile_append_dropWhile_start spans s.start
  unfold HoleList.insert putBack
  rw [hFind]
  generalize spans.takeWhile _ = before at *
  generalize spans.dropWhile _ = after at *
  subst hWhole
  obtain ⟨hPlaced, hOrder⟩ := hBetween.ordered
  have hLinked := h.link hCells (spread_starts hLo hPlaced hOrder).2 hMem hSize
  obtain ⟨hStart, hMerged⟩ := hLinked.mergePrev hLo hHi hCells hBetween
  refine ⟨_, rfl, ?_⟩
  rw [hStart]
  exact hMerged.mergeNext hLo hHi hCells hBetween.mergeBack.1

end Merge

end Choreographr.Vm
