import Mathlib.Data.List.Basic

/-!
# Assembling items from a stream of events

A stream carries the events of several items, each event with the number of its
item. The items may be interleaved, but they are opened in order: an event
belongs to an open item or opens the next one (`OpensInOrder`). `assemble` folds
such a stream into the list of item states; in the end each state is the fold of
the item's own events, whatever came between them (`assemble_eq`).
-/

namespace Choreographr.Lib

variable {ε σ : Type} {stream : List (Nat × ε)} {m n : Nat}

/-- The events of one item, in order. -/
def eventsOf (k : Nat) (stream : List (Nat × ε)) : List ε :=
  (stream.filter fun event => event.1 = k).map Prod.snd

/-- From `m` open items on, the stream opens items up to `n`, in order. -/
def OpensInOrder (n : Nat) : Nat → List (Nat × ε) → Prop
  | m, [] => m = n
  | m, event :: rest =>
      (event.1 < m ∧ OpensInOrder n m rest) ∨ (event.1 = m ∧ OpensInOrder n (m + 1) rest)

/-- The state of an item after its events: the first one opens it. -/
def itemState (start : ε → σ) (step : σ → ε → σ) : List ε → Option σ
  | [] => none
  | e :: rest => some (rest.foldl step (start e))

/-- Fold one event into the states of the open items. An item may be opened with
its number. -/
def assembleStep (start : Nat → ε → σ) (step : σ → ε → σ) (items : List σ) (event : Nat × ε) :
    List σ :=
  if event.1 < items.length then items.modify event.1 fun s => step s event.2
  else items ++ [start event.1 event.2]

def assemble (start : Nat → ε → σ) (step : σ → ε → σ) (items : List σ) (stream : List (Nat × ε)) :
    List σ :=
  stream.foldl (assembleStep start step) items

@[simp] theorem eventsOf_nil (k : Nat) : eventsOf k ([] : List (Nat × ε)) = [] := rfl

theorem eventsOf_cons_self (k : Nat) (e : ε) (rest : List (Nat × ε)) :
    eventsOf k ((k, e) :: rest) = e :: eventsOf k rest := by
  simp [eventsOf]

theorem eventsOf_cons_ne {k : Nat} {event : Nat × ε} (h : event.1 ≠ k) (rest : List (Nat × ε)) :
    eventsOf k (event :: rest) = eventsOf k rest := by
  simp [eventsOf, h]

theorem mem_eventsOf {k : Nat} {e : ε} : e ∈ eventsOf k stream ↔ (k, e) ∈ stream := by
  simp [eventsOf]

@[simp] theorem eventsOf_append (k : Nat) (first rest : List (Nat × ε)) :
    eventsOf k (first ++ rest) = eventsOf k first ++ eventsOf k rest := by
  simp [eventsOf]

/-- Behind a stream that has opened every item, events of these items may follow. -/
theorem OpensInOrder.append {first rest : List (Nat × ε)} (h : OpensInOrder n m first)
    (hRest : ∀ event ∈ rest, event.1 < n) : OpensInOrder n m (first ++ rest) := by
  induction first generalizing m with
  | nil =>
    obtain rfl : m = n := h
    induction rest with
    | nil => rfl
    | cons event rest ih =>
      exact Or.inl ⟨hRest event List.mem_cons_self,
        ih fun e he => hRest e (List.mem_cons_of_mem _ he)⟩
  | cons event first ih =>
    rcases h with ⟨hLt, h⟩ | ⟨hEq, h⟩
    · exact Or.inl ⟨hLt, ih h⟩
    · exact Or.inr ⟨hEq, ih h⟩

theorem OpensInOrder.le (h : OpensInOrder n m stream) : m ≤ n := by
  induction stream generalizing m with
  | nil => exact Nat.le_of_eq h
  | cons event rest ih =>
    rcases h with ⟨_, h⟩ | ⟨_, h⟩
    · exact ih h
    · exact Nat.le_of_succ_le (ih h)

theorem OpensInOrder.lt_of_mem (h : OpensInOrder n m stream) {event : Nat × ε}
    (hMem : event ∈ stream) : event.1 < n := by
  induction stream generalizing m with
  | nil => cases hMem
  | cons first rest ih =>
    rcases h with ⟨hLt, h⟩ | ⟨hEq, h⟩
    · rcases List.mem_cons.mp hMem with rfl | hMem
      · exact Nat.lt_of_lt_of_le hLt h.le
      · exact ih h hMem
    · rcases List.mem_cons.mp hMem with rfl | hMem
      · rw [hEq]
        exact h.le
      · exact ih h hMem

theorem length_assemble {start : Nat → ε → σ} {step : σ → ε → σ} {items : List σ}
    (h : OpensInOrder n items.length stream) : (assemble start step items stream).length = n := by
  induction stream generalizing items with
  | nil => exact h
  | cons event rest ih =>
    rcases h with ⟨hLt, h⟩ | ⟨hEq, h⟩
    · apply ih
      simpa [assembleStep, hLt] using h
    · apply ih
      simpa [assembleStep, hEq] using h

/-- Every item ends as the fold of its own events. -/
theorem getElem?_assemble {start : Nat → ε → σ} {step : σ → ε → σ} {items : List σ}
    (h : OpensInOrder n items.length stream) (k : Nat) :
    (assemble start step items stream)[k]? =
      (items[k]?).elim (itemState (start k) step (eventsOf k stream))
        fun s => some ((eventsOf k stream).foldl step s) := by
  induction stream generalizing items with
  | nil =>
    simp only [assemble, List.foldl_nil, eventsOf_nil, itemState]
    cases items[k]? <;> rfl
  | cons event rest ih =>
    obtain ⟨j, e⟩ := event
    rcases h with ⟨hLt, h⟩ | ⟨hEq, h⟩
    · have hStep : assembleStep start step items (j, e) = items.modify j fun s => step s e :=
        if_pos hLt
      have hTail := @ih (items.modify j fun s => step s e) (by simpa using h)
      simp only [assemble, List.foldl_cons, hStep] at hTail ⊢
      rw [hTail, List.getElem?_modify]
      by_cases hj : j = k
      · subst hj
        rw [eventsOf_cons_self, List.getElem?_eq_getElem hLt]
        simp
      · rw [eventsOf_cons_ne hj]
        cases items[k]? <;> simp [hj]
    · have hStep : assembleStep start step items (j, e) = items ++ [start j e] :=
        if_neg (by simpa using Nat.le_of_eq hEq.symm)
      have hTail := @ih (items ++ [start j e]) (by simpa using h)
      simp only [assemble, List.foldl_cons, hStep] at hTail ⊢
      rw [hTail]
      by_cases hj : j = k
      · subst hj
        rw [eventsOf_cons_self]
        simp [show j = items.length from hEq, itemState]
      · rw [eventsOf_cons_ne hj]
        have hk : k ≠ items.length := fun hk => hj (hEq.trans hk.symm)
        have hGet : (items ++ [start j e])[k]? = items[k]? := by
          rcases Nat.lt_or_gt_of_ne hk with hLt | hGt
          · exact List.getElem?_append_left hLt
          · have hLength : (items ++ [start j e]).length ≤ k := by
              rw [List.length_append]
              exact hGt
            rw [List.getElem?_eq_none hLength, List.getElem?_eq_none (Nat.le_of_lt hGt)]
        rw [hGet]

/-- A stream whose items end in the given states assembles to these. -/
theorem assemble_eq {start : Nat → ε → σ} {step : σ → ε → σ} {final : List σ}
    (h : OpensInOrder final.length 0 stream)
    (hItems : ∀ k, itemState (start k) step (eventsOf k stream) = final[k]?) :
    assemble start step [] stream = final := by
  apply List.ext_getElem?
  intro k
  have hOpens : OpensInOrder final.length ([] : List σ).length stream := h
  exact (getElem?_assemble hOpens k).trans (hItems k)

/-! ## Whole items -/

/-- Each item as one event, numbered from `m` on. -/
def numbered (m : Nat) : List ε → List (Nat × ε)
  | [] => []
  | e :: rest => (m, e) :: numbered (m + 1) rest

@[simp] theorem map_snd_numbered (m : Nat) (items : List ε) :
    (numbered m items).map Prod.snd = items := by
  induction items generalizing m with
  | nil => rfl
  | cons e rest ih => simp [numbered, ih]

theorem opensInOrder_numbered (m : Nat) (items : List ε) :
    OpensInOrder (m + items.length) m (numbered m items) := by
  induction items generalizing m with
  | nil => rfl
  | cons e rest ih =>
    refine Or.inr ⟨rfl, ?_⟩
    have hRest := ih (m + 1)
    rwa [Nat.add_right_comm] at hRest

theorem eventsOf_numbered_of_lt {k : Nat} (h : k < m) (items : List ε) :
    eventsOf k (numbered m items) = [] := by
  induction items generalizing m with
  | nil => rfl
  | cons e rest ih =>
    rw [numbered, eventsOf_cons_ne (Nat.ne_of_gt h)]
    exact ih (Nat.lt_succ_of_lt h)

theorem eventsOf_numbered (m k : Nat) (items : List ε) :
    eventsOf (m + k) (numbered m items) = (items[k]?).toList := by
  induction items generalizing m k with
  | nil => rfl
  | cons e rest ih =>
    cases k with
    | zero =>
      rw [numbered, Nat.add_zero, eventsOf_cons_self, eventsOf_numbered_of_lt (Nat.lt_succ_self m)]
      rfl
    | succ k =>
      rw [numbered, eventsOf_cons_ne (by simp)]
      have hRest := ih (m + 1) k
      rwa [Nat.add_right_comm] at hRest

end Choreographr.Lib
