import Mathlib.Data.List.Nodup
import Mathlib.Data.List.Perm.Basic

/-!
# Folding a keyed table over a record

Each entry of a table edits a record, and which fields it may touch is decided
by its key. `Footprint` states this once for a step function: every field
lists the keys that write it, an entry with another key keeps the field, and
the new value of a field depends on the entry and on the field's old value
only. A whole table then acts on a field through the entries that write it, so
a field written by one key is independent of the order of the table, and only
fields with several writers need an argument of their own.
-/

namespace Choreographr.Lib

/-- `agree φ` says that two records have the same field `φ`, and `writes φ` lists
the keys that may change it. -/
structure Footprint {M K V F : Type} (step : M → K × V → M) (writes : F → List K)
    (agree : F → M → M → Prop) : Prop where
  equiv : ∀ φ, Equivalence (agree φ)
  ext : ∀ m n, (∀ φ, agree φ m n) → m = n
  frame : ∀ φ m e, e.1 ∉ writes φ → agree φ (step m e) m
  local_ : ∀ φ m n e, agree φ m n → agree φ (step m e) (step n e)

namespace Footprint

variable {M K V F : Type} [DecidableEq K] {step : M → K × V → M} {writes : F → List K}
  {agree : F → M → M → Prop}

/-! ## One field of a whole table -/

omit [DecidableEq K] in
theorem foldl_local (hFoot : Footprint step writes agree) {φ : F} (table : List (K × V))
    {m n : M} (h : agree φ m n) : agree φ (table.foldl step m) (table.foldl step n) := by
  induction table generalizing m n with
  | nil => exact h
  | cons e table ih => exact ih (hFoot.local_ φ m n e h)

omit [DecidableEq K] in
/-- A field the table does not mention is unchanged. -/
theorem foldl_frame (hFoot : Footprint step writes agree) {φ : F} {table : List (K × V)}
    (h : ∀ e ∈ table, e.1 ∉ writes φ) (m : M) : agree φ (table.foldl step m) m := by
  induction table generalizing m with
  | nil => exact (hFoot.equiv φ).refl m
  | cons e table ih =>
    have hRest := ih (fun e' hMem => h e' (List.mem_cons_of_mem e hMem)) (step m e)
    exact (hFoot.equiv φ).trans hRest (hFoot.frame φ m e (h e List.mem_cons_self))

/-- A table acts on a field as its entries that write the field. -/
theorem foldl_agree_filter (hFoot : Footprint step writes agree) (φ : F) (table : List (K × V))
    (m : M) :
    agree φ (table.foldl step m) ((table.filter fun e => e.1 ∈ writes φ).foldl step m) := by
  induction table generalizing m with
  | nil => exact (hFoot.equiv φ).refl m
  | cons e table ih =>
    by_cases hMem : e.1 ∈ writes φ
    · rw [List.filter_cons_of_pos (by simpa using hMem)]
      exact ih (step m e)
    · rw [List.filter_cons_of_neg (by simpa using hMem)]
      have hSkip := hFoot.foldl_local table (hFoot.frame φ m e hMem)
      exact (hFoot.equiv φ).trans hSkip (ih m)

/-! ## The order of the table -/

/-- Two entries of the table with one key are one entry, so a field with one
writer sees at most one entry, whatever the order. -/
theorem filter_eq_of_perm {key : K} {table other : List (K × V)} (hPerm : table.Perm other)
    (hNodup : (table.map Prod.fst).Nodup) :
    (table.filter fun e => e.1 ∈ [key]) = other.filter fun e => e.1 ∈ [key] := by
  have hFilter := hPerm.filter (p := fun e => decide (e.1 ∈ [key]))
  have hKeys : ((table.filter fun e => e.1 ∈ [key]).map Prod.fst).Nodup :=
    (List.Sublist.map Prod.fst List.filter_sublist).nodup hNodup
  have hAll : ∀ e ∈ table.filter fun e => e.1 ∈ [key], e.1 = key := by
    intro e he
    simpa using (List.mem_filter.mp he).2
  rcases hList : table.filter fun e => e.1 ∈ [key] with _ | ⟨d, _ | ⟨e, rest⟩⟩
  · rw [hList] at hFilter ⊢
    exact hFilter.nil_eq
  · rw [hList] at hFilter ⊢
    exact List.singleton_perm.mp hFilter
  · rw [hList] at hKeys hAll
    have hSame : d.1 = e.1 := (hAll d (by simp)).trans (hAll e (by simp)).symm
    simp [hSame] at hKeys

/-- Entries that write a common field may be visited in either order. -/
def Commutes (step : M → K × V → M) (keys : List K) : Prop :=
  ∀ d e m, d.1 ∈ keys → e.1 ∈ keys → d.1 ≠ e.1 → step (step m d) e = step (step m e) d

/-- The order of the table does not matter as long as it is kept among the
writers of every field on which they do not commute. -/
theorem foldl_perm (hFoot : Footprint step writes agree) {table other : List (K × V)}
    (hPerm : table.Perm other) (hNodup : (table.map Prod.fst).Nodup)
    (hOrder : ∀ φ, Commutes step (writes φ) ∨
      (table.filter fun e => e.1 ∈ writes φ) = other.filter fun e => e.1 ∈ writes φ) (m : M) :
    table.foldl step m = other.foldl step m := by
  apply hFoot.ext
  intro φ
  have hTable := hFoot.foldl_agree_filter φ table m
  have hOther := (hFoot.equiv φ).symm (hFoot.foldl_agree_filter φ other m)
  have hMiddle : (table.filter fun e => e.1 ∈ writes φ).foldl step m =
      (other.filter fun e => e.1 ∈ writes φ).foldl step m := by
    rcases hOrder φ with hComm | hSame
    · refine (hPerm.filter _).foldl_eq' ?_ m
      intro d hd e he n
      obtain ⟨hdMem, hdKey⟩ := List.mem_filter.mp hd
      obtain ⟨heMem, heKey⟩ := List.mem_filter.mp he
      by_cases hKey : d.1 = e.1
      · rw [List.inj_on_of_nodup_map hNodup hdMem heMem hKey]
      · exact hComm d e n (by simpa using hdKey) (by simpa using heKey) hKey
    · rw [hSame]
  rw [hMiddle] at hTable
  exact (hFoot.equiv φ).trans hTable hOther

/-! ## The same table twice -/

omit [DecidableEq K] in
/-- The table's last word is unaffected by an earlier visit of its entries. -/
theorem foldl_absorb {table : List (K × V)}
    (hAbsorb : ∀ d ∈ table, ∀ e ∈ table, ∀ m, step (step (step m e) d) e = step (step m d) e)
    (hIdem : ∀ e ∈ table, ∀ m, step (step m e) e = step m e) (m : M) :
    table.foldl step (table.foldl step m) = table.foldl step m := by
  -- an entry visited before part of the table and again after it counts once
  have hOne : ∀ (rest : List (K × V)), (∀ d ∈ rest, d ∈ table) → ∀ e ∈ table, ∀ n,
      step (rest.foldl step (step n e)) e = step (rest.foldl step n) e := by
    intro rest hRest e he
    induction rest with
    | nil => exact hIdem e he
    | cons d rest ih =>
      intro n
      have hTail := ih fun d' hMem => hRest d' (List.mem_cons_of_mem d hMem)
      have hd := hRest d List.mem_cons_self
      rw [List.foldl_cons, List.foldl_cons, ← hTail, hAbsorb d hd e he, hTail]
  have hDrop : ∀ (done : List (K × V)), (∀ d ∈ done, d ∈ table) → ∀ n,
      table.foldl step (done.foldl step n) = table.foldl step n := by
    intro done hDone
    induction done with
    | nil => intro n; rfl
    | cons e done ih =>
      intro n
      rw [List.foldl_cons, ih fun d' hMem => hDone d' (List.mem_cons_of_mem e hMem)]
      obtain ⟨before, after, hSplit⟩ := List.append_of_mem (hDone e List.mem_cons_self)
      have hBefore : ∀ d ∈ before, d ∈ table := fun d hMem => by
        rw [hSplit]
        exact List.mem_append_left _ hMem
      rw [hSplit, List.foldl_append, List.foldl_append, List.foldl_cons, List.foldl_cons,
        hOne before hBefore e (hDone e List.mem_cons_self)]
  exact hDrop table (fun _ h => h) m

/-- What the entry leaves in a field is what it found or does not depend on it. -/
def Overwrites (step : M → K × V → M) (agree : F → M → M → Prop) (φ : F) (e : K × V) : Prop :=
  (∀ m, agree φ (step m e) m) ∨ ∀ m n, agree φ (step m e) (step n e)

omit [DecidableEq K] in
/-- One of two entries overwriting is enough for the later one to absorb an
earlier visit of itself. -/
theorem absorb_of_overwrites (hFoot : Footprint step writes agree) {φ : F} {d e : K × V}
    (hIdem : ∀ m, step (step m e) e = step m e)
    (h : Overwrites step agree φ d ∨ Overwrites step agree φ e) (m : M) :
    agree φ (step (step (step m e) d) e) (step (step m d) e) := by
  have hEquiv := hFoot.equiv φ
  rcases h with (hKeeps | hSets) | hKeeps | hSets
  · have hLeft := hFoot.local_ φ _ _ e (hKeeps (step m e))
    have hRight := hFoot.local_ φ _ _ e (hKeeps m)
    rw [hIdem] at hLeft
    exact hEquiv.trans hLeft (hEquiv.symm hRight)
  · exact hFoot.local_ φ _ _ e (hSets (step m e) m)
  · have hInner := hFoot.local_ φ _ _ d (hKeeps m)
    exact hEquiv.trans (hKeeps _) (hEquiv.trans hInner (hEquiv.symm (hKeeps _)))
  · exact hSets _ _

/-- Applying a table twice is applying it once, when each entry is idempotent
and of two writers of a field one overwrites it, unless they commute. -/
theorem foldl_idem (hFoot : Footprint step writes agree) {table : List (K × V)}
    (hNodup : (table.map Prod.fst).Nodup) (hIdem : ∀ e ∈ table, ∀ m, step (step m e) e = step m e)
    (hShared : ∀ φ, Commutes step (writes φ) ∨ ∀ d e, d.1 ∈ writes φ → e.1 ∈ writes φ →
      d.1 ≠ e.1 → Overwrites step agree φ d ∨ Overwrites step agree φ e) (m : M) :
    table.foldl step (table.foldl step m) = table.foldl step m := by
  refine foldl_absorb ?_ hIdem m
  intro d hd e he n
  apply hFoot.ext
  intro φ
  have hEquiv := hFoot.equiv φ
  by_cases hSame : d.1 = e.1
  · rw [List.inj_on_of_nodup_map hNodup hd he hSame, hIdem e he]
    exact hEquiv.refl _
  · by_cases heKey : e.1 ∈ writes φ
    · by_cases hdKey : d.1 ∈ writes φ
      · rcases hShared φ with hComm | hOver
        · rw [hComm d e (step n e) hdKey heKey hSame, hIdem e he, hComm d e n hdKey heKey hSame]
          exact hEquiv.refl _
        · exact hFoot.absorb_of_overwrites (hIdem e he) (hOver d e hdKey heKey hSame) n
      · have hLeft := hFoot.local_ φ _ _ e (hFoot.frame φ (step n e) d hdKey)
        have hRight := hFoot.local_ φ _ _ e (hFoot.frame φ n d hdKey)
        rw [hIdem e he] at hLeft
        exact hEquiv.trans hLeft (hEquiv.symm hRight)
    · have hLeft := hFoot.frame φ (step (step n e) d) e heKey
      have hInner := hFoot.local_ φ _ _ d (hFoot.frame φ n e heKey)
      have hRight := hFoot.frame φ (step n d) e heKey
      exact hEquiv.trans hLeft (hEquiv.trans hInner (hEquiv.symm hRight))

end Footprint

end Choreographr.Lib
