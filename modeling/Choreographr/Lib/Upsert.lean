import Mathlib.Data.List.Forall2
import Mathlib.Data.List.Nodup
import Mathlib.Data.List.Perm.Basic

/-!
# Updating a list of keyed entries from a table

A table names entries by key. For each of its keys, in table order, the first
entry of the list with that key is edited in place, and a missing entry is
created, edited and appended. The list may hold several entries with one key:
only the first of them is ever edited.
-/

namespace Choreographr.Lib

variable {α κ τ : Type} [DecidableEq κ] {key : α → κ} {k : κ} {f : α → α} {xs : List α}

/-! ## Editing one entry -/

/-- Edit the first entry with key `k`. -/
def modifyFirst (key : α → κ) (k : κ) (f : α → α) : List α → List α
  | [] => []
  | x :: xs => if key x = k then f x :: xs else x :: modifyFirst key k f xs

/-- Edit the first entry with key `k`, or append the edited `fresh` one. -/
def upsert (key : α → κ) (k : κ) (fresh : α) (f : α → α) (xs : List α) : List α :=
  if k ∈ xs.map key then modifyFirst key k f xs else xs ++ [f fresh]

def firstWith (key : α → κ) (k : κ) (xs : List α) : Option α := xs.find? fun x => key x = k

theorem modifyFirst_of_notMem (h : k ∉ xs.map key) : modifyFirst key k f xs = xs := by
  induction xs with
  | nil => rfl
  | cons x xs ih =>
    rw [List.map_cons, List.mem_cons, not_or] at h
    rw [modifyFirst, if_neg (Ne.symm h.1), ih h.2]

theorem map_modifyFirst (hKey : ∀ x, key (f x) = key x) (xs : List α) :
    (modifyFirst key k f xs).map key = xs.map key := by
  induction xs with
  | nil => rfl
  | cons x xs ih =>
    rw [modifyFirst]
    split
    · rw [List.map_cons, List.map_cons, hKey]
    · rw [List.map_cons, List.map_cons, ih]

theorem modifyFirst_append_of_mem {ys : List α} (h : k ∈ xs.map key) :
    modifyFirst key k f (xs ++ ys) = modifyFirst key k f xs ++ ys := by
  induction xs with
  | nil => cases h
  | cons x xs ih =>
    rw [List.cons_append, modifyFirst, modifyFirst]
    by_cases hHead : key x = k
    · rw [if_pos hHead, if_pos hHead, List.cons_append]
    · have hTail : k ∈ xs.map key := by
        rcases List.mem_cons.mp h with he | ht
        · exact absurd he.symm hHead
        · exact ht
      rw [if_neg hHead, if_neg hHead, ih hTail, List.cons_append]

theorem modifyFirst_comm {l : κ} {g : α → α} (hf : ∀ x, key (f x) = key x)
    (hg : ∀ x, key (g x) = key x) (hNe : k ≠ l) (xs : List α) :
    modifyFirst key l g (modifyFirst key k f xs) =
      modifyFirst key k f (modifyFirst key l g xs) := by
  induction xs with
  | nil => rfl
  | cons x xs ih =>
    by_cases hk : key x = k
    · have hl : key x ≠ l := fun h => hNe (hk.symm.trans h)
      simp only [modifyFirst, if_pos hk, if_neg hl, hf]
    · by_cases hl : key x = l
      · simp only [modifyFirst, if_neg hk, if_pos hl, hg]
      · simp only [modifyFirst, if_neg hk, if_neg hl, ih]

theorem firstWith_modifyFirst_self (hKey : ∀ x, key (f x) = key x) (xs : List α) :
    firstWith key k (modifyFirst key k f xs) = (firstWith key k xs).map f := by
  induction xs with
  | nil => rfl
  | cons x xs ih =>
    unfold firstWith at ih ⊢
    by_cases hk : key x = k
    · simp [modifyFirst, hk, hKey]
    · simp [modifyFirst, hk, ih]

theorem firstWith_modifyFirst_ne {l : κ} (hKey : ∀ x, key (f x) = key x) (hNe : l ≠ k) (xs : List α) :
    firstWith key l (modifyFirst key k f xs) = firstWith key l xs := by
  induction xs with
  | nil => rfl
  | cons x xs ih =>
    unfold firstWith at ih ⊢
    by_cases hk : key x = k
    · have hl : key x ≠ l := fun h => hNe (h.symm.trans hk)
      simp [modifyFirst, hk, hKey, Ne.symm hNe]
    · simp only [modifyFirst, if_neg hk, List.find?_cons, ih]

/-- An edit that leaves the first entry with its key as it is changes nothing. -/
theorem modifyFirst_eq_self (hFixed : ∀ x, firstWith key k xs = some x → f x = x) :
    modifyFirst key k f xs = xs := by
  induction xs with
  | nil => rfl
  | cons x xs ih =>
    rw [modifyFirst]
    by_cases hk : key x = k
    · rw [if_pos hk, hFixed x (by simp [firstWith, hk])]
    · rw [if_neg hk, ih]
      intro y hy
      exact hFixed y (by simpa [firstWith, hk] using hy)

theorem firstWith_eq_none : firstWith key k xs = none ↔ k ∉ xs.map key := by
  simp only [firstWith, List.find?_eq_none, decide_eq_true_eq, List.mem_map, not_exists, not_and]

theorem firstWith_append (xs ys : List α) :
    firstWith key k (xs ++ ys) = (firstWith key k xs).or (firstWith key k ys) :=
  List.find?_append

section Upsert

variable {fresh : α}

theorem firstWith_upsert_self (hKey : ∀ x, key (f x) = key x) (hFresh : key fresh = k)
    (xs : List α) :
    firstWith key k (upsert key k fresh f xs) =
      some (f ((firstWith key k xs).getD fresh)) := by
  unfold upsert
  split
  · next hMem =>
    rw [firstWith_modifyFirst_self hKey]
    cases hFirst : firstWith key k xs with
    | none => exact absurd hMem (firstWith_eq_none.mp hFirst)
    | some x => rfl
  · next hMem =>
    rw [firstWith_append, firstWith_eq_none.mpr hMem]
    simp [firstWith, hKey, hFresh]

theorem firstWith_upsert_ne (hKey : ∀ x, key (f x) = key x) (hFresh : key fresh = k) {l : κ}
    (hNe : l ≠ k) (xs : List α) :
    firstWith key l (upsert key k fresh f xs) = firstWith key l xs := by
  unfold upsert
  split
  · exact firstWith_modifyFirst_ne hKey hNe xs
  · have hNone : firstWith key l [f fresh] = none := by
      rw [firstWith_eq_none, List.map_singleton, hKey, hFresh]
      simpa using hNe
    rw [firstWith_append, hNone, Option.or_none]

/-- An update whose edit leaves the entry it finds as it is changes nothing. -/
theorem upsert_eq_self {x : α} (hFirst : firstWith key k xs = some x) (hFixed : f x = x) :
    upsert key k fresh f xs = xs := by
  have hMem : k ∈ xs.map key := by
    by_contra hNot
    rw [firstWith_eq_none.mpr hNot] at hFirst
    cases hFirst
  rw [upsert, if_pos hMem]
  apply modifyFirst_eq_self
  intro y hy
  rw [hFirst] at hy
  cases hy
  exact hFixed

end Upsert

/-! ## A whole table -/

/-- Update the list by every key of the table whose value is an edit; the
other keys are skipped. -/
def upsertAll (key : α → κ) (fresh : κ → α) (edit : τ → Option (α → α)) (table : List (κ × τ))
    (xs : List α) : List α :=
  table.foldl (fun xs e => (edit e.2).elim xs fun f => upsert key e.1 (fresh e.1) f xs) xs

theorem upsertAll_cons (fresh : κ → α) (edit : τ → Option (α → α)) (e : κ × τ)
    (table : List (κ × τ)) (xs : List α) :
    upsertAll key fresh edit (e :: table) xs = upsertAll key fresh edit table
      ((edit e.2).elim xs fun f => upsert key e.1 (fresh e.1) f xs) := rfl

/-- The edits alone, on the entries that are there. -/
def modifyAll (key : α → κ) (edit : τ → Option (α → α)) (table : List (κ × τ)) (xs : List α) :
    List α :=
  table.foldl (fun xs e => (edit e.2).elim xs fun f => modifyFirst key e.1 f xs) xs

/-- The entries the table creates in a list with the keys `present`. -/
def createdBy (fresh : κ → α) (edit : τ → Option (α → α)) (present : List κ)
    (table : List (κ × τ)) : List α :=
  (table.filter fun e => e.1 ∉ present).filterMap fun e => (edit e.2).map fun f => f (fresh e.1)

/-- What a table may do with one entry: leave it, or apply its own edit. -/
def EditedBy (key : α → κ) (edit : τ → Option (α → α)) (table : List (κ × τ)) (x y : α) : Prop :=
  y = x ∨ ∃ value f, (key x, value) ∈ table ∧ edit value = some f ∧ y = f x

section Table

variable {fresh : κ → α} {edit : τ → Option (α → α)} {table : List (κ × τ)}
  (hKey : ∀ value f, edit value = some f → ∀ x, key (f x) = key x)
  (hFresh : ∀ k, key (fresh k) = k)

include hKey in
theorem map_modifyAll (table : List (κ × τ)) (xs : List α) :
    (modifyAll key edit table xs).map key = xs.map key := by
  induction table generalizing xs with
  | nil => rfl
  | cons e table ih =>
    rw [modifyAll, List.foldl_cons, ← modifyAll, ih]
    cases hEdit : edit e.2 with
    | none => rfl
    | some f => exact map_modifyFirst (hKey e.2 f hEdit) xs

include hKey hFresh in
/-- Entries stay at their places, and the new ones follow in table order. -/
theorem upsertAll_eq (hNodup : (table.map Prod.fst).Nodup) (xs : List α) :
    upsertAll key fresh edit table xs =
      modifyAll key edit table xs ++ createdBy fresh edit (xs.map key) table := by
  -- `added` are the entries appended so far, whose keys the rest of the table does not name
  suffices h : ∀ (kept added : List α), (∀ e ∈ table, e.1 ∉ added.map key) →
      upsertAll key fresh edit table (kept ++ added) =
        modifyAll key edit table kept ++
          (added ++ createdBy fresh edit (kept.map key) table) by
    simpa using h xs [] (by simp)
  induction table with
  | nil =>
    intro kept added _
    simp [upsertAll, modifyAll, createdBy]
  | cons e table ih =>
    intro kept added hAdded
    rw [List.map_cons, List.nodup_cons] at hNodup
    obtain ⟨hHead, hTail⟩ := hNodup
    have hRest : ∀ e' ∈ table, e'.1 ∉ added.map key := fun e' hMem =>
      hAdded e' (List.mem_cons_of_mem e hMem)
    rw [upsertAll_cons, modifyAll, List.foldl_cons, ← modifyAll]
    cases hEdit : edit e.2 with
    | none =>
      have hSame : createdBy fresh edit (kept.map key) (e :: table) =
          createdBy fresh edit (kept.map key) table := by
        by_cases hMem : e.1 ∈ kept.map key
        · rw [createdBy, List.filter_cons_of_neg (by simpa using hMem), createdBy]
        · rw [createdBy, List.filter_cons_of_pos (by simpa using hMem), List.filterMap_cons, hEdit]
          rfl
      rw [hSame]
      exact ih hTail kept added hRest
    | some f =>
      have hf := hKey e.2 f hEdit
      simp only [Option.elim_some]
      by_cases hMem : e.1 ∈ kept.map key
      · have hUpsert : upsert key e.1 (fresh e.1) f (kept ++ added) =
            modifyFirst key e.1 f kept ++ added := by
          rw [upsert, if_pos (by rw [List.map_append]; exact List.mem_append_left _ hMem),
            modifyFirst_append_of_mem hMem]
        have hSame : createdBy fresh edit (kept.map key) (e :: table) =
            createdBy fresh edit (kept.map key) table := by
          rw [createdBy, List.filter_cons_of_neg (by simpa using hMem), createdBy]
        rw [hUpsert, hSame, ih hTail _ added hRest, map_modifyFirst hf]
      · have hOut : e.1 ∉ (kept ++ added).map key := by
          rw [List.map_append, List.mem_append, not_or]
          exact ⟨hMem, hAdded e List.mem_cons_self⟩
        have hUpsert : upsert key e.1 (fresh e.1) f (kept ++ added) =
            kept ++ (added ++ [f (fresh e.1)]) := by
          rw [upsert, if_neg hOut, List.append_assoc]
        have hCreated : createdBy fresh edit (kept.map key) (e :: table) =
            f (fresh e.1) :: createdBy fresh edit (kept.map key) table := by
          rw [createdBy, List.filter_cons_of_pos (by simpa using hMem), List.filterMap_cons, hEdit]
          rfl
        have hGrown : ∀ e' ∈ table, e'.1 ∉ (added ++ [f (fresh e.1)]).map key := by
          intro e' hMem' hIn
          rw [List.map_append, List.mem_append, List.map_singleton, List.mem_singleton, hf,
            hFresh] at hIn
          rcases hIn with hOld | hNew
          · exact hRest e' hMem' hOld
          · exact hHead (hNew ▸ List.mem_map_of_mem hMem')
        rw [hUpsert, ih hTail kept _ hGrown, hCreated, modifyFirst_of_notMem hMem]
        simp

theorem mem_createdBy {present : List κ} {y : α} :
    y ∈ createdBy fresh edit present table ↔
      ∃ k value f, (k, value) ∈ table ∧ k ∉ present ∧ edit value = some f ∧ y = f (fresh k) := by
  simp only [createdBy, List.mem_filterMap, List.mem_filter, decide_eq_true_eq,
    Option.map_eq_some_iff, Prod.exists]
  constructor
  · rintro ⟨k, value, ⟨hMem, hOut⟩, f, hEdit, rfl⟩
    exact ⟨k, value, f, hMem, hOut, hEdit, rfl⟩
  · rintro ⟨k, value, f, hMem, hOut, hEdit, rfl⟩
    exact ⟨k, value, ⟨hMem, hOut⟩, f, hEdit, rfl⟩

include hKey hFresh in
/-- What is created has keys of the table, in table order. -/
theorem map_createdBy_sublist (present : List κ) (table : List (κ × τ)) :
    ((createdBy fresh edit present table).map key).Sublist (table.map Prod.fst) := by
  induction table with
  | nil => exact List.Sublist.refl _
  | cons e table ih =>
    unfold createdBy at ih ⊢
    by_cases hMem : e.1 ∈ present
    · rw [List.filter_cons_of_neg (by simpa using hMem)]
      exact List.Sublist.cons _ ih
    · rw [List.filter_cons_of_pos (by simpa using hMem), List.filterMap_cons]
      cases hEdit : edit e.2 with
      | none => exact List.Sublist.cons _ ih
      | some f =>
        have hHead : key (f (fresh e.1)) = e.1 := by rw [hKey e.2 f hEdit, hFresh]
        simp only [Option.map_some, List.map_cons, hHead]
        exact List.Sublist.cons_cons _ ih

include hKey hFresh in
/-- Keys that were distinct stay distinct. -/
theorem nodup_upsertAll (hNodup : (table.map Prod.fst).Nodup) (hUnique : (xs.map key).Nodup) :
    ((upsertAll key fresh edit table xs).map key).Nodup := by
  rw [upsertAll_eq hKey hFresh hNodup, List.map_append, map_modifyAll hKey]
  refine List.Nodup.append hUnique ?_ ?_
  · exact (map_createdBy_sublist hKey hFresh (xs.map key) table).nodup hNodup
  · intro k hOld hNew
    obtain ⟨y, hMem, rfl⟩ := List.mem_map.mp hNew
    obtain ⟨k, value, f, _, hOut, hEdit, rfl⟩ := mem_createdBy.mp hMem
    rw [hKey value f hEdit, hFresh] at hOld
    exact hOut hOld

include hKey in
/-- Every entry that was there is left alone or edited once. -/
theorem forall₂_modifyAll (hNodup : (table.map Prod.fst).Nodup) (xs : List α) :
    List.Forall₂ (EditedBy key edit table) xs (modifyAll key edit table xs) := by
  induction table generalizing xs with
  | nil => exact List.forall₂_same.mpr fun x _ => Or.inl rfl
  | cons e table ih =>
    rw [List.map_cons, List.nodup_cons] at hNodup
    rw [modifyAll, List.foldl_cons, ← modifyAll]
    have hLift : ∀ x y, EditedBy key edit table x y → EditedBy key edit (e :: table) x y := by
      rintro x y (hSame | ⟨value, f, hMem, hEdit, hy⟩)
      · exact Or.inl hSame
      · exact Or.inr ⟨value, f, List.mem_cons_of_mem e hMem, hEdit, hy⟩
    cases hEdit : edit e.2 with
    | none => exact (ih hNodup.2 xs).imp hLift
    | some f =>
      have hf := hKey e.2 f hEdit
      have hStep : ∀ (ys : List α), List.Forall₂ (EditedBy key edit table)
            (modifyFirst key e.1 f xs) ys → List.Forall₂ (EditedBy key edit (e :: table)) xs ys := by
        induction xs with
        | nil =>
          intro ys h
          cases h
          exact List.Forall₂.nil
        | cons x xs ihXs =>
          intro ys h
          rw [modifyFirst] at h
          split at h
          · next hk =>
            cases h with
            | @cons _ y _ ys hHead hTail =>
              refine List.Forall₂.cons ?_ (hTail.imp hLift)
              rcases hHead with rfl | ⟨value, g, hMem, -, -⟩
              · refine Or.inr ⟨e.2, f, ?_, hEdit, rfl⟩
                rw [hk]
                exact List.mem_cons_self
              · -- the rest of the table does not name this key again
                rw [hf, hk] at hMem
                exact absurd (List.mem_map_of_mem (f := Prod.fst) hMem) hNodup.1
          · cases h with
            | @cons _ y _ ys hHead hTail => exact List.Forall₂.cons (hLift x y hHead) (ihXs ys hTail)
      exact hStep _ (ih hNodup.2 _)

include hKey in
theorem mem_modifyAll (hNodup : (table.map Prod.fst).Nodup) {y : α}
    (hMem : y ∈ modifyAll key edit table xs) : ∃ x ∈ xs, EditedBy key edit table x y := by
  have hAll := forall₂_modifyAll hKey hNodup xs
  generalize modifyAll key edit table xs = ys at hMem hAll
  induction hAll with
  | nil => cases hMem
  | @cons x z xs ys hHead hTail ih =>
    rcases List.mem_cons.mp hMem with rfl | hRest
    · exact ⟨x, List.mem_cons_self, hHead⟩
    · obtain ⟨w, hIn, hEdited⟩ := ih hRest
      exact ⟨w, List.mem_cons_of_mem x hIn, hEdited⟩

include hKey hFresh in
theorem firstWith_upsertAll_of_notMem (h : k ∉ table.map Prod.fst) (xs : List α) :
    firstWith key k (upsertAll key fresh edit table xs) = firstWith key k xs := by
  induction table generalizing xs with
  | nil => rfl
  | cons e table ih =>
    rw [List.map_cons, List.mem_cons, not_or] at h
    rw [upsertAll_cons, ih h.2]
    cases hEdit : edit e.2 with
    | none => rfl
    | some f => exact firstWith_upsert_ne (hKey e.2 f hEdit) (hFresh e.1) h.1 xs

include hKey hFresh in
/-- The entry a table leaves under a key it edits has been edited. -/
theorem firstWith_upsertAll (hNodup : (table.map Prod.fst).Nodup) {e : κ × τ} (hMem : e ∈ table)
    (hEdit : edit e.2 = some f) (xs : List α) :
    ∃ x, firstWith key e.1 (upsertAll key fresh edit table xs) = some (f x) := by
  induction table generalizing xs with
  | nil => cases hMem
  | cons head table ih =>
    rw [List.map_cons, List.nodup_cons] at hNodup
    rw [upsertAll_cons]
    rcases List.mem_cons.mp hMem with rfl | hTail
    · rw [firstWith_upsertAll_of_notMem hKey hFresh hNodup.1, hEdit]
      exact ⟨_, firstWith_upsert_self (hKey e.2 f hEdit) (hFresh e.1) xs⟩
    · exact ih hNodup.2 hTail _

include hKey hFresh in
/-- A table of idempotent edits changes nothing the second time. -/
theorem upsertAll_idem (hNodup : (table.map Prod.fst).Nodup)
    (hIdem : ∀ e ∈ table, ∀ f, edit e.2 = some f → ∀ x, f (f x) = f x) (xs : List α) :
    upsertAll key fresh edit table (upsertAll key fresh edit table xs) =
      upsertAll key fresh edit table xs := by
  have hFixed : ∀ (rest : List (κ × τ)), (∀ e ∈ rest, e ∈ table) →
      upsertAll key fresh edit rest (upsertAll key fresh edit table xs) =
        upsertAll key fresh edit table xs := by
    intro rest hRest
    induction rest with
    | nil => rfl
    | cons e rest ih =>
      have hMem := hRest e List.mem_cons_self
      rw [upsertAll_cons]
      have hStep : ((edit e.2).elim (upsertAll key fresh edit table xs) fun f =>
          upsert key e.1 (fresh e.1) f (upsertAll key fresh edit table xs)) =
          upsertAll key fresh edit table xs := by
        cases hEdit : edit e.2 with
        | none => rfl
        | some f =>
          obtain ⟨x, hFirst⟩ := firstWith_upsertAll hKey hFresh hNodup hMem hEdit xs
          exact upsert_eq_self hFirst (hIdem e hMem f hEdit x)
      rw [hStep]
      exact ih fun e' hMem' => hRest e' (List.mem_cons_of_mem e hMem')
  exact hFixed table fun _ h => h

include hKey hFresh in
/-- The order of the table decides only the order of what it appends. -/
theorem upsertAll_perm {other : List (κ × τ)} (hPerm : table.Perm other)
    (hNodup : (table.map Prod.fst).Nodup) (xs : List α) :
    ∃ kept added added', upsertAll key fresh edit table xs = kept ++ added ∧
      upsertAll key fresh edit other xs = kept ++ added' ∧ kept.length = xs.length ∧
      added.Perm added' := by
  have hOther : (other.map Prod.fst).Nodup := (hPerm.map Prod.fst).nodup_iff.mp hNodup
  have hKept : modifyAll key edit table xs = modifyAll key edit other xs := by
    refine hPerm.foldl_eq' ?_ xs
    intro d hd e he ys
    by_cases hSame : d.1 = e.1
    · rw [List.inj_on_of_nodup_map hNodup hd he hSame]
    · cases hD : edit d.2 with
      | none => rfl
      | some f =>
        cases hE : edit e.2 with
        | none => rfl
        | some g => exact modifyFirst_comm (hKey d.2 f hD) (hKey e.2 g hE) hSame ys
  refine ⟨modifyAll key edit table xs, createdBy fresh edit (xs.map key) table,
    createdBy fresh edit (xs.map key) other, upsertAll_eq hKey hFresh hNodup xs, ?_, ?_, ?_⟩
  · rw [hKept]
    exact upsertAll_eq hKey hFresh hOther xs
  · simpa using congrArg List.length (map_modifyAll hKey table xs)
  · exact (hPerm.filter _).filterMap _

end Table

end Choreographr.Lib
