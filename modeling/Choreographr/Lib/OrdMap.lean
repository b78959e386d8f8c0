import Mathlib.Data.List.Sort
import Mathlib.Order.Basic

/-!
# Ordered maps as sorted entry lists

An ordered map is kept as the list of its entries in strictly increasing key
order, and the order is a field of the structure. Iteration, the last key and
a range scan are therefore reads of the list itself, while lookups are
characterised by membership (`get?_eq_some_iff`). Two maps with the same
lookups are equal (`ext_get?`), so most equalities between maps are proved on
lookups and never on lists.
-/

namespace Choreographr.Lib

/-- A finite map whose entries are listed in strictly increasing key order. -/
structure OrdMap (κ α : Type) [LinearOrder κ] where
  entries : List (κ × α)
  sorted : entries.Pairwise fun x y => x.1 < y.1

namespace OrdMap

variable {κ α : Type} [LinearOrder κ] {m : OrdMap κ α} {k : κ} {v : α} {entries : List (κ × α)}

instance [DecidableEq α] : DecidableEq (OrdMap κ α) := fun m n =>
  decidable_of_iff (m.entries = n.entries) (by
    cases m
    cases n
    simp)

def empty : OrdMap κ α := ⟨[], List.Pairwise.nil⟩

instance : Inhabited (OrdMap κ α) := ⟨empty⟩

def get? (m : OrdMap κ α) (k : κ) : Option α :=
  (m.entries.find? fun e => e.1 = k).map Prod.snd

def keys (m : OrdMap κ α) : List κ := m.entries.map Prod.fst

def values (m : OrdMap κ α) : List α := m.entries.map Prod.snd

def lastKey? (m : OrdMap κ α) : Option κ := m.keys.getLast?

theorem eq_of_entries {n : OrdMap κ α} (h : m.entries = n.entries) : m = n := by
  cases m
  cases n
  cases h
  rfl

/-- The entry with a given key is unique, so lookup is membership. -/
theorem get?_eq_some_iff : m.get? k = some v ↔ (k, v) ∈ m.entries := by
  rcases m with ⟨entries, hSorted⟩
  simp only [get?, Option.map_eq_some_iff, Prod.exists, exists_eq_right]
  constructor
  · rintro ⟨k', hFind⟩
    have hMem := List.mem_of_find?_eq_some hFind
    have hKey : k' = k := by simpa using List.find?_some hFind
    exact hKey ▸ hMem
  · intro hMem
    induction entries with
    | nil => cases hMem
    | cons e rest ih =>
      obtain ⟨hHead, hRest⟩ := List.pairwise_cons.mp hSorted
      rcases List.mem_cons.mp hMem with rfl | hTail
      · exact ⟨k, by simp⟩
      · have hNe : e.1 ≠ k := ne_of_lt (hHead _ hTail)
        obtain ⟨k', hFind⟩ := ih hRest hTail
        exact ⟨k', by simp [hNe, hFind]⟩

theorem get?_eq_none_iff : m.get? k = none ↔ k ∉ m.keys := by
  simp only [get?, keys, Option.map_eq_none_iff, List.find?_eq_none, decide_eq_true_eq,
    List.mem_map, not_exists, not_and]

theorem mem_keys_iff : k ∈ m.keys ↔ ∃ v, m.get? k = some v := by
  simp only [keys, List.mem_map, Prod.exists, exists_and_right, exists_eq_right,
    get?_eq_some_iff]

theorem keys_sorted (m : OrdMap κ α) : m.keys.Pairwise (· < ·) :=
  List.pairwise_map.mpr m.sorted

theorem keys_nodup (m : OrdMap κ α) : m.keys.Nodup :=
  m.keys_sorted.imp fun h => ne_of_lt h

/-- Maps are determined by their lookups. -/
theorem ext_get? {n : OrdMap κ α} (h : ∀ k, m.get? k = n.get? k) : m = n := by
  have : Std.Irrefl fun x y : κ × α => x.1 < y.1 := ⟨fun x => lt_irrefl x.1⟩
  have : IsTrans (κ × α) fun x y => x.1 < y.1 := ⟨fun _ _ _ hxy hyz => lt_trans hxy hyz⟩
  have : Std.Asymm fun x y : κ × α => x.1 < y.1 := ⟨fun _ _ hxy => lt_asymm hxy⟩
  apply eq_of_entries
  apply List.Pairwise.eq_of_mem_iff m.sorted n.sorted
  rintro ⟨k, v⟩
  rw [← get?_eq_some_iff, ← get?_eq_some_iff, h k]

@[simp] theorem get?_empty (k : κ) : (empty : OrdMap κ α).get? k = none := rfl

/-! ## Insertion -/

def insertEntry (k : κ) (v : α) : List (κ × α) → List (κ × α)
  | [] => [(k, v)]
  | e :: rest =>
      if k < e.1 then (k, v) :: e :: rest
      else if e.1 < k then e :: insertEntry k v rest
      else (k, v) :: rest

theorem mem_insertEntry {x : κ × α} (hx : x ∈ insertEntry k v entries) :
    x = (k, v) ∨ x ∈ entries := by
  induction entries with
  | nil => exact Or.inl (by simpa [insertEntry] using hx)
  | cons e rest ih =>
    simp only [insertEntry] at hx
    split at hx
    · simpa using hx
    · split at hx
      · rcases List.mem_cons.mp hx with rfl | hx
        · exact Or.inr (by simp)
        · rcases ih hx with h | h
          · exact Or.inl h
          · exact Or.inr (List.mem_cons_of_mem _ h)
      · rcases List.mem_cons.mp hx with h | h
        · exact Or.inl h
        · exact Or.inr (List.mem_cons_of_mem _ h)

theorem insertEntry_sorted (hSorted : entries.Pairwise fun x y => x.1 < y.1) :
    (insertEntry k v entries).Pairwise fun x y => x.1 < y.1 := by
  induction entries with
  | nil => simp [insertEntry]
  | cons e rest ih =>
    obtain ⟨hHead, hRest⟩ := List.pairwise_cons.mp hSorted
    simp only [insertEntry]
    split
    · rename_i hLt
      refine List.pairwise_cons.mpr ⟨?_, hSorted⟩
      intro y hy
      rcases List.mem_cons.mp hy with rfl | hy
      · exact hLt
      · exact lt_trans hLt (hHead y hy)
    · split
      · rename_i hGt
        refine List.pairwise_cons.mpr ⟨?_, ih hRest⟩
        intro y hy
        rcases mem_insertEntry hy with rfl | hy
        · exact hGt
        · exact hHead y hy
      · rename_i hNotLt hNotGt
        have hEq : e.1 = k := le_antisymm (not_lt.mp hNotLt) (not_lt.mp hNotGt)
        exact List.pairwise_cons.mpr ⟨fun y hy => hEq ▸ hHead y hy, hRest⟩

def insert (m : OrdMap κ α) (k : κ) (v : α) : OrdMap κ α :=
  ⟨insertEntry k v m.entries, insertEntry_sorted m.sorted⟩

theorem find?_insertEntry {k' : κ} (hSorted : entries.Pairwise fun x y => x.1 < y.1) :
    ((insertEntry k v entries).find? fun e => e.1 = k').map Prod.snd =
      if k' = k then some v else (entries.find? fun e => e.1 = k').map Prod.snd := by
  induction entries with
  | nil => by_cases h : k' = k <;> simp [insertEntry, h, eq_comm]
  | cons e rest ih =>
    obtain ⟨hHead, hRest⟩ := List.pairwise_cons.mp hSorted
    simp only [insertEntry]
    split
    · by_cases h : k' = k <;> simp [List.find?_cons, h, eq_comm]
    · split
      · rename_i hGt
        by_cases hKey : e.1 = k'
        · have hNe : k' ≠ k := hKey ▸ ne_of_lt hGt
          simp [hKey, hNe]
        · simp only [List.find?_cons, hKey, decide_false]
          exact ih hRest
      · rename_i hNotLt hNotGt
        have hEq : e.1 = k := le_antisymm (not_lt.mp hNotLt) (not_lt.mp hNotGt)
        by_cases h : k' = k
        · simp [h]
        · have hNe : k ≠ k' := fun hk => h hk.symm
          simp [h, hEq, hNe]

@[simp] theorem get?_insert (m : OrdMap κ α) (k k' : κ) (v : α) :
    (m.insert k v).get? k' = if k' = k then some v else m.get? k' :=
  find?_insertEntry m.sorted

/-- A key past every present key lands at the end. -/
theorem insert_entries_of_gt (hGt : ∀ k' ∈ m.keys, k' < k) :
    (m.insert k v).entries = m.entries ++ [(k, v)] := by
  rcases m with ⟨entries, hSorted⟩
  simp only [insert, keys] at hGt ⊢
  induction entries with
  | nil => rfl
  | cons e rest ih =>
    have hHead : e.1 < k := hGt e.1 (by simp)
    have hTail := ih (List.pairwise_cons.mp hSorted).2
      (fun k' hk' => hGt k' (List.mem_cons_of_mem _ hk'))
    simp [insertEntry, hHead, not_lt_of_gt hHead, hTail]

/-! ## Updating values in place -/

def mapVal (m : OrdMap κ α) (f : κ → α → α) : OrdMap κ α :=
  ⟨m.entries.map fun e => (e.1, f e.1 e.2), by
    simpa [List.pairwise_map] using m.sorted⟩

/-- Apply `f` to the value at `k`, if there is one. -/
def modify (m : OrdMap κ α) (k : κ) (f : α → α) : OrdMap κ α :=
  m.mapVal fun k' v => if k' = k then f v else v

@[simp] theorem keys_mapVal (m : OrdMap κ α) (f : κ → α → α) :
    (m.mapVal f).keys = m.keys := by
  simp [keys, mapVal]

@[simp] theorem get?_mapVal (m : OrdMap κ α) (f : κ → α → α) (k : κ) :
    (m.mapVal f).get? k = (m.get? k).map (f k) := by
  rcases m with ⟨entries, _⟩
  simp only [get?, mapVal, List.find?_map, Option.map_map]
  rw [Option.map_congr]
  · rfl
  · intro e he
    have hKey : e.1 = k := by simpa using List.find?_some he
    simp [hKey]

@[simp] theorem keys_modify (m : OrdMap κ α) (k : κ) (f : α → α) :
    (m.modify k f).keys = m.keys := keys_mapVal _ _

@[simp] theorem get?_modify (m : OrdMap κ α) (k k' : κ) (f : α → α) :
    (m.modify k f).get? k' = if k' = k then (m.get? k').map f else m.get? k' := by
  rw [modify, get?_mapVal]
  split
  · rfl
  · cases m.get? k' <;> rfl

theorem modify_id (m : OrdMap κ α) (k : κ) : (m.modify k fun v => v) = m := by
  apply ext_get?
  intro k'
  simp

theorem modify_modify (m : OrdMap κ α) (k : κ) (f g : α → α) :
    (m.modify k f).modify k g = m.modify k fun v => g (f v) := by
  apply ext_get?
  intro k'
  simp only [get?_modify]
  split
  · cases m.get? k' <;> rfl
  · rfl

/-- Modifying the last entry only rewrites that entry. -/
theorem modify_entries_of_last {init : List (κ × α)} (h : m.entries = init ++ [(k, v)]) (f : α → α) :
    (m.modify k f).entries = init ++ [(k, f v)] := by
  have hSorted := h ▸ m.sorted
  have hBefore : ∀ e ∈ init, e.1 ≠ k := fun e he =>
    ne_of_lt ((List.pairwise_append.mp hSorted).2.2 e he (k, v) (by simp))
  simp only [modify, mapVal, h, List.map_append, List.map_cons, List.map_nil, if_pos]
  congr 1
  nth_rewrite 2 [← List.map_id init]
  apply List.map_congr_left
  intro e he
  simp [hBefore e he]

/-! ## Selection and removal -/

/-- The entries that satisfy `p`, in the same order. -/
def filter (m : OrdMap κ α) (p : κ → α → Bool) : OrdMap κ α :=
  ⟨m.entries.filter fun e => p e.1 e.2, m.sorted.filter _⟩

def erase (m : OrdMap κ α) (k : κ) : OrdMap κ α := m.filter fun k' _ => k' ≠ k

theorem get?_filter_eq_some {p : κ → α → Bool} :
    (m.filter p).get? k = some v ↔ m.get? k = some v ∧ p k v := by
  simp [get?_eq_some_iff, filter]

@[simp] theorem get?_erase (m : OrdMap κ α) (k k' : κ) :
    (m.erase k).get? k' = if k' = k then none else m.get? k' := by
  apply Option.ext
  intro v
  rw [erase, get?_filter_eq_some]
  by_cases h : k' = k <;> simp [h]

/-! ## The last key -/

theorem mem_keys_of_lastKey? (h : m.lastKey? = some k) : k ∈ m.keys := List.mem_of_getLast? h

theorem le_lastKey? {k' : κ} (h : m.lastKey? = some k) (hk' : k' ∈ m.keys) : k' ≤ k := by
  obtain ⟨init, hInit⟩ := List.getLast?_eq_some_iff.mp h
  have hSorted := hInit ▸ m.keys_sorted
  rw [hInit] at hk'
  rcases List.mem_append.mp hk' with hk' | hk'
  · exact le_of_lt ((List.pairwise_append.mp hSorted).2.2 k' hk' k (by simp))
  · exact le_of_eq (by simpa using hk')

theorem lastKey?_eq_none_iff : m.lastKey? = none ↔ m.keys = [] := by
  simp [lastKey?]

@[simp] theorem lastKey?_mapVal (m : OrdMap κ α) (f : κ → α → α) :
    (m.mapVal f).lastKey? = m.lastKey? := by
  simp [lastKey?]

@[simp] theorem lastKey?_modify (m : OrdMap κ α) (k : κ) (f : α → α) :
    (m.modify k f).lastKey? = m.lastKey? := by
  simp [lastKey?]

theorem lastKey?_insert_of_gt (hGt : ∀ k' ∈ m.keys, k' < k) : (m.insert k v).lastKey? = some k := by
  simp [lastKey?, keys, insert_entries_of_gt hGt]

/-! ## Inserting many entries -/

/-- Insert every entry of a list, from left to right. -/
def insertAll (m : OrdMap κ α) (entries : List (κ × α)) : OrdMap κ α :=
  entries.foldl (fun acc e => acc.insert e.1 e.2) m

theorem get?_insertAll (hNodup : (entries.map Prod.fst).Nodup) (m : OrdMap κ α) (k : κ) :
    (m.insertAll entries).get? k =
      ((entries.find? fun e => e.1 = k).map Prod.snd).or (m.get? k) := by
  induction entries generalizing m with
  | nil => simp [insertAll]
  | cons e rest ih =>
    rw [List.map_cons, List.nodup_cons] at hNodup
    obtain ⟨hFresh, hRest⟩ := hNodup
    have hStep : m.insertAll (e :: rest) = (m.insert e.1 e.2).insertAll rest := rfl
    rw [hStep, ih hRest, get?_insert]
    by_cases hKey : e.1 = k
    · have hNone : (rest.find? fun e => e.1 = k) = none := by
        rw [List.find?_eq_none]
        intro y hy hyk
        exact hFresh (List.mem_map.mpr ⟨y, hy, by simpa [hKey] using hyk⟩)
      simp [hKey, hNone]
    · have hNe : k ≠ e.1 := fun h => hKey h.symm
      simp [hKey, hNe]

/-- After many insertions a key holds one of the inserted values, or it was not
among them and holds what it held before. -/
theorem get?_insertAll_cases (m : OrdMap κ α) (entries : List (κ × α)) (k : κ) :
    (∃ v, (k, v) ∈ entries ∧ (m.insertAll entries).get? k = some v) ∨
      ((∀ e ∈ entries, e.1 ≠ k) ∧ (m.insertAll entries).get? k = m.get? k) := by
  induction entries generalizing m with
  | nil =>
    right
    exact ⟨by simp, rfl⟩
  | cons e rest ih =>
    have hStep : m.insertAll (e :: rest) = (m.insert e.1 e.2).insertAll rest := rfl
    rw [hStep]
    rcases ih (m.insert e.1 e.2) with ⟨v, hMem, hGet⟩ | ⟨hNotMem, hGet⟩
    · left
      exact ⟨v, List.mem_cons_of_mem _ hMem, hGet⟩
    · by_cases hKey : e.1 = k
      · left
        refine ⟨e.2, ?_, ?_⟩
        · rw [← hKey]
          exact List.mem_cons_self
        · rw [hGet, get?_insert, if_pos hKey.symm]
      · right
        refine ⟨?_, ?_⟩
        · intro x hx
          rcases List.mem_cons.mp hx with rfl | hx
          · exact hKey
          · exact hNotMem x hx
        · rw [hGet, get?_insert, if_neg fun h => hKey h.symm]

theorem get?_insertAll_of_notMem (h : ∀ e ∈ entries, e.1 ≠ k) :
    (m.insertAll entries).get? k = m.get? k := by
  rcases get?_insertAll_cases m entries k with ⟨v, hMem, _⟩ | ⟨_, hGet⟩
  · exact absurd rfl (h _ hMem)
  · exact hGet

/-- Inserting into a map the entries of one that covers every present key
replaces the map. -/
theorem insertAll_entries_of_keys_subset {n : OrdMap κ α} (h : ∀ k ∈ m.keys, k ∈ n.keys) :
    m.insertAll n.entries = n := by
  apply ext_get?
  intro k
  rw [get?_insertAll n.keys_nodup]
  change (n.get? k).or (m.get? k) = n.get? k
  cases hn : n.get? k with
  | some v => rfl
  | none =>
    have hm : m.get? k = none :=
      get?_eq_none_iff.mpr fun hk => get?_eq_none_iff.mp hn (h k hk)
    simpa using hm

@[simp] theorem empty_insertAll_entries (m : OrdMap κ α) : empty.insertAll m.entries = m := by
  apply insertAll_entries_of_keys_subset
  intro k hk
  cases hk

/-! ## Range scans -/

/-- The entries with keys from `lo` up to, not including, `hi`. -/
def range (m : OrdMap κ α) (lo hi : κ) : OrdMap κ α :=
  m.filter fun k _ => lo ≤ k && k < hi

theorem get?_range_eq_some {lo hi : κ} :
    (m.range lo hi).get? k = some v ↔ m.get? k = some v ∧ lo ≤ k ∧ k < hi := by
  simp [range, get?_filter_eq_some]

theorem range_mapVal (m : OrdMap κ α) (f : κ → α → α) (lo hi : κ) :
    (m.mapVal f).range lo hi = (m.range lo hi).mapVal f := by
  apply ext_get?
  intro k
  apply Option.ext
  intro v
  simp only [get?_range_eq_some, get?_mapVal, Option.map_eq_some_iff]
  constructor
  · rintro ⟨⟨w, hw, rfl⟩, hBounds⟩
    exact ⟨w, ⟨hw, hBounds⟩, rfl⟩
  · rintro ⟨w, ⟨hw, hBounds⟩, rfl⟩
    exact ⟨⟨w, hw, rfl⟩, hBounds⟩

end OrdMap

end Choreographr.Lib
