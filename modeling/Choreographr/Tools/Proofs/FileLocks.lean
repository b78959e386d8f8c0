import Choreographr.Tools.FileLocks
import Choreographr.Lib.Counting
import Mathlib.Order.WithBot

/-!
# Exclusion and cleanliness of the file locks

A call that has reserved a key and not yet pruned it shares its mutex with the registry, so all
such calls of one key wait for the same mutex. Keys are taken in ascending order, which orders
the calls that wait for one another. An entry is left behind only when the last call that owns
the key finds a handle of a call that has pruned the key before it.
-/

namespace Choreographr.Tools

open Lib

variable {K : Type} {e : K × Nat} {lock n : Nat} {key : K}

/-! ## The registry -/

namespace FileLocks

/-- Keys and mutexes belong to each other, and the next mutex is new. -/
structure Ok (locks : FileLocks K) : Prop where
  keys : (locks.map.map Prod.fst).Nodup
  mutexes : (locks.map.map Prod.snd).Nodup
  bounded : ∀ e ∈ locks.map, e.2 < locks.next

theorem Ok.empty : ({} : FileLocks K).Ok := ⟨List.nodup_nil, List.nodup_nil, by simp⟩

variable {locks : FileLocks K} {key' : K} {lock' : Nat}

theorem Ok.mutex_eq (h : locks.Ok) (hMem : (key, lock) ∈ locks.map)
    (hMem' : (key, lock') ∈ locks.map) : lock = lock' :=
  congrArg Prod.snd (List.inj_on_of_nodup_map h.keys hMem hMem' rfl)

theorem Ok.key_eq (h : locks.Ok) (hMem : (key, lock) ∈ locks.map)
    (hMem' : (key', lock) ∈ locks.map) : key = key' :=
  congrArg Prod.fst (List.inj_on_of_nodup_map h.mutexes hMem hMem' rfl)

/-- What a reservation of some keys leaves. -/
structure Reserved (locks : FileLocks K) (keys : List K) (handles : List Nat)
    (locks' : FileLocks K) : Prop where
  ok : locks'.Ok
  keeps : ∀ e ∈ locks.map, e ∈ locks'.map
  length : handles.length = keys.length
  owned : ∀ e ∈ keys.zip handles, e ∈ locks'.map
  adds : ∀ e ∈ locks'.map, e ∈ locks.map ∨ e ∈ keys.zip handles

theorem nodup_zip {keys : List K} {handles : List Nat} (hLength : handles.length = keys.length)
    (hKeys : keys.Nodup) : (keys.zip handles).Nodup := by
  refine List.Nodup.of_map Prod.fst ?_
  rwa [List.map_fst_zip hLength.ge]

theorem Reserved.nodup {keys : List K} {handles : List Nat} {locks' : FileLocks K}
    (h : locks.Reserved keys handles locks') (hKeys : keys.Nodup) : handles.Nodup := by
  have hPairs : (keys.zip handles).Nodup := nodup_zip h.length hKeys
  have hHandles : (keys.zip handles).map Prod.snd = handles := List.map_snd_zip h.length.le
  rw [← hHandles]
  refine hPairs.map_on ?_
  rintro ⟨key, lock⟩ hE ⟨key', lock'⟩ hE' hEq
  obtain rfl : lock = lock' := hEq
  rw [h.ok.key_eq (h.owned _ hE) (h.owned _ hE')]

variable [LinearOrder K]

theorem mem_of_lookup (h : locks.map.lookup key = some lock) : (key, lock) ∈ locks.map := by
  obtain ⟨before, after, hSplit, -⟩ := List.lookup_eq_some_iff.mp h
  rw [hSplit]
  simp

theorem not_mem_of_lookup (h : locks.map.lookup key = none) :
    key ∉ locks.map.map Prod.fst := by
  intro hMem
  obtain ⟨e, hE, rfl⟩ := List.mem_map.mp hMem
  have hNe := List.lookup_eq_none_iff.mp h e hE
  simp at hNe

theorem Ok.lookup_eq (h : locks.Ok) (hMem : (key, lock) ∈ locks.map) :
    locks.map.lookup key = some lock := by
  cases hLookup : locks.map.lookup key with
  | none => exact absurd (List.mem_map_of_mem hMem) (not_mem_of_lookup hLookup)
  | some lock' => rw [h.mutex_eq (mem_of_lookup hLookup) hMem]

theorem Ok.remove (h : locks.Ok) (key : K) : (locks.remove key).Ok where
  keys := h.keys.sublist (List.filter_sublist.map Prod.fst)
  mutexes := h.mutexes.sublist (List.filter_sublist.map Prod.snd)
  bounded e hE := h.bounded e (List.mem_of_mem_filter hE)

theorem Ok.reserveKey (h : locks.Ok) (key : K) :
    locks.Reserved [key] [(locks.reserveKey key).1] (locks.reserveKey key).2 := by
  unfold FileLocks.reserveKey
  cases hLookup : locks.map.lookup key with
  | some lock =>
    refine ⟨h, fun e hE => hE, rfl, ?_, fun e hE => .inl hE⟩
    simpa using mem_of_lookup hLookup
  | none =>
    have hNew : ∀ e ∈ locks.map, e.2 ≠ locks.next := fun e hE => (h.bounded e hE).ne
    refine ⟨⟨?_, ?_, ?_⟩, ?_, rfl, ?_, ?_⟩
    · rw [List.map_append, List.map_singleton]
      exact List.nodup_append_comm.mp
        (List.nodup_cons.mpr ⟨not_mem_of_lookup hLookup, h.keys⟩)
    · rw [List.map_append, List.map_singleton]
      refine List.nodup_append_comm.mp (List.nodup_cons.mpr ⟨?_, h.mutexes⟩)
      intro hMem
      obtain ⟨e, hE, hEq⟩ := List.mem_map.mp hMem
      exact hNew e hE hEq
    · intro e hE
      rcases List.mem_append.mp hE with hOld | hLast
      · exact Nat.lt_succ_of_lt (h.bounded e hOld)
      · obtain rfl := List.mem_singleton.mp hLast
        exact Nat.lt_succ_self _
    · exact fun e hE => List.mem_append_left _ hE
    · simp
    · intro e hE
      rcases List.mem_append.mp hE with hOld | hLast
      · exact .inl hOld
      · exact .inr hLast

theorem Ok.reserve (h : locks.Ok) (keys : List K) :
    locks.Reserved keys (locks.reserve keys).1 (locks.reserve keys).2 := by
  induction keys generalizing locks with
  | nil => exact ⟨h, fun e hE => hE, rfl, by simp, fun e hE => .inl hE⟩
  | cons key rest ih =>
    have hFirst := h.reserveKey key
    have hRest := ih hFirst.ok
    refine ⟨hRest.ok, fun e hE => hRest.keeps e (hFirst.keeps e hE), ?_, ?_, ?_⟩
    · exact congrArg (· + 1) hRest.length
    · intro e hE
      rcases List.mem_cons.mp hE with rfl | hTail
      · exact hRest.keeps _ (hFirst.owned _ List.mem_cons_self)
      · exact hRest.owned e hTail
    · intro e hE
      rcases hRest.adds e hE with hOld | hTail
      · rcases hFirst.adds e hOld with hOld | hHead
        · exact .inl hOld
        · exact .inr (List.mem_cons.mpr (.inl (List.mem_singleton.mp hHead)))
      · exact .inr (List.mem_cons_of_mem _ hTail)

end FileLocks

/-! ## The keys of a call -/

section Keys

variable [LinearOrder K]

theorem sortedKeys_eq (keys : List K) :
    sortedKeys keys = (keys.insertionSort (· ≤ ·)).dedup :=
  (List.pairwise_insertionSort (· ≤ ·) keys).destutter_eq_dedup

theorem sortedKeys_pairwise (keys : List K) : (sortedKeys keys).Pairwise (· < ·) := by
  have hSorted : (sortedKeys keys).Pairwise (· ≤ ·) :=
    (List.pairwise_insertionSort (· ≤ ·) keys).sublist (List.destutter_sublist _ _)
  have hNodup : (sortedKeys keys).Pairwise (· ≠ ·) := by
    rw [sortedKeys_eq]
    exact List.nodup_dedup _
  refine (hSorted.and hNodup).imp ?_
  intro a b hBoth
  exact lt_of_le_of_ne hBoth.1 hBoth.2

end Keys

/-! ## The state of a call -/

namespace Call

variable {call : Call K} {map : List (K × Nat)}

theorem mem_zip_of_mem_unpruned (h : e ∈ call.unpruned) : e ∈ call.keys.zip call.handles := by
  unfold unpruned at h
  split at h
  · exact h
  · exact h
  · exact h
  · exact List.mem_of_mem_drop h
  · cases h

theorem live_of_unpruned (h : e ∈ call.unpruned) : e.2 ∈ call.live := by
  have hZip := (List.of_mem_zip (mem_zip_of_mem_unpruned h)).2
  unfold unpruned at h
  unfold live
  split at h <;> simp_all

theorem unpruned_of_awaited (h : call.awaited = some e) : e ∈ call.unpruned := by
  unfold awaited at h
  split at h <;> rename_i hPhase
  · simp only [unpruned, hPhase]
    exact List.mem_of_getElem? h
  · cases h

/-- Where a call stands among the calls that wait for one another: the calls that wait for the
map come first, then those that wait for a mutex by their keys, and the others last. -/
def rank (call : Call K) : WithBot (WithTop K) :=
  if call.wantsMap then ⊥ else call.awaited.elim ⊤ fun e => (e.1 : WithTop K)

theorem rank_of_wantsMap (h : call.wantsMap = true) : call.rank = ⊥ := if_pos h

theorem rank_of_awaited (h : call.awaited = some e) : call.rank = (e.1 : WithTop K) := by
  have hWants : call.wantsMap = false := by
    unfold awaited at h
    split at h <;> rename_i hPhase
    · simp [wantsMap, hPhase]
    · cases h
  rw [rank, hWants, h]
  rfl

theorem rank_of_hasMap (h : call.hasMap = true) : call.rank = ⊤ := by
  unfold hasMap at h
  split at h <;> rename_i hPhase
  · simp [rank, wantsMap, awaited, hPhase]
  · cases h

variable [LinearOrder K]

/-- The keys are in order, and the entries of the keys that are not yet pruned stand. -/
structure Ok (call : Call K) (map : List (K × Nat)) : Prop where
  sorted : call.keys.Pairwise (· < ·)
  reserved : call.phase ≠ .reserving →
    call.handles.length = call.keys.length ∧ call.handles.Nodup
  owned : ∀ e ∈ call.unpruned, e ∈ map

/-- A call has guards of keys only that it has yet to prune. -/
theorem unpruned_of_held (h : call.Ok map) (hHeld : lock ∈ call.held) :
    ∃ key, (key, lock) ∈ call.unpruned := by
  have hReserved : call.handles.length = call.keys.length := by
    refine (h.reserved ?_).1
    intro hPhase
    rw [held, hPhase] at hHeld
    cases hHeld
  have hMem : lock ∈ call.handles → ∃ key, (key, lock) ∈ call.keys.zip call.handles := by
    intro hMem
    have hSnd : (call.keys.zip call.handles).map Prod.snd = call.handles :=
      List.map_snd_zip hReserved.le
    rw [← hSnd] at hMem
    obtain ⟨e, hE, rfl⟩ := List.mem_map.mp hMem
    exact ⟨e.1, hE⟩
  unfold held at hHeld
  split at hHeld <;> rename_i hPhase
  · simp only [unpruned, hPhase]
    exact hMem (List.mem_of_mem_take hHeld)
  · simp only [unpruned, hPhase]
    exact hMem hHeld
  · simp only [unpruned, hPhase]
    exact hMem (List.mem_of_mem_drop hHeld)
  · cases hHeld

theorem Ok.unpruned_nodup (h : call.Ok map) : call.unpruned.Nodup := by
  by_cases hPhase : call.phase = .reserving
  · simp [unpruned, hPhase]
  have hZip : (call.keys.zip call.handles).Nodup :=
    FileLocks.nodup_zip (h.reserved hPhase).1 (h.sorted.imp fun hLt => hLt.ne)
  unfold unpruned
  split
  · exact hZip
  · exact hZip
  · exact hZip
  · exact hZip.sublist (List.drop_sublist _ _)
  · exact List.nodup_nil

theorem Ok.owns_of_running (h : call.Ok map) (hRunning : call.phase = .running)
    (hKey : key ∈ call.keys) : ∃ lock, (key, lock) ∈ call.unpruned ∧ lock ∈ call.held := by
  have hFst : (call.keys.zip call.handles).map Prod.fst = call.keys :=
    List.map_fst_zip (h.reserved (by simp [hRunning])).1.ge
  rw [← hFst] at hKey
  obtain ⟨e, hE, rfl⟩ := List.mem_map.mp hKey
  simp only [unpruned, held, hRunning]
  exact ⟨e.2, hE, (List.of_mem_zip hE).2⟩

/-- The keys whose mutexes come first are lower than those that follow. -/
theorem Ok.lt_of_taken (h : call.Ok map) (hPhase : call.phase ≠ .reserving)
    (hMem : (key, lock) ∈ call.keys.zip call.handles) (hTaken : lock ∈ call.handles.take n)
    (hNext : (call.keys.zip call.handles)[n]? = some e) : key < e.1 := by
  obtain ⟨m, hGet⟩ := List.mem_iff_getElem?.mp hMem
  obtain ⟨hKey, hLock⟩ := List.getElem?_zip_eq_some.mp hGet
  obtain ⟨hKey', -⟩ := List.getElem?_zip_eq_some.mp hNext
  obtain ⟨q, hQ⟩ := List.mem_iff_getElem?.mp hTaken
  rw [List.getElem?_take] at hQ
  split at hQ
  · rename_i hLt
    obtain rfl : q = m := by
      obtain ⟨hBound, -⟩ := List.getElem?_eq_some_iff.mp hQ
      exact (List.getElem?_inj hBound (h.reserved hPhase).2).mp (hQ.trans hLock.symm)
    obtain ⟨hM, rfl⟩ := List.getElem?_eq_some_iff.mp hKey
    obtain ⟨hN, hEq⟩ := List.getElem?_eq_some_iff.mp hKey'
    rw [← hEq]
    exact List.pairwise_iff_getElem.mp h.sorted q n hM hN hLt
  · cases hQ

/-- A call awaits a higher key than those it has a guard of. -/
theorem Ok.lt_rank (h : call.Ok map) (hOwns : (key, lock) ∈ call.unpruned)
    (hHeld : lock ∈ call.held) : ((key : WithTop K) : WithBot (WithTop K)) < call.rank := by
  have hTop : ((key : WithTop K) : WithBot (WithTop K)) < ⊤ :=
    WithBot.coe_lt_coe.mpr (WithTop.coe_lt_top key)
  unfold held at hHeld
  split at hHeld <;> rename_i hPhase
  · rename_i n
    cases hNext : (call.keys.zip call.handles)[n]? with
    | none => simpa [rank, wantsMap, awaited, hPhase, hNext] using hTop
    | some e =>
      rw [rank_of_awaited (by simpa [awaited, hPhase] using hNext)]
      have hLt := h.lt_of_taken (by simp [hPhase]) (mem_zip_of_mem_unpruned hOwns) hHeld hNext
      exact WithBot.coe_lt_coe.mpr (WithTop.coe_lt_coe.mpr hLt)
  · simpa [rank, wantsMap, awaited, hPhase] using hTop
  · rename_i n _
    have hLt : n < call.handles.length := by
      by_contra hGe
      rw [List.drop_of_length_le (Nat.le_of_not_lt hGe)] at hHeld
      cases hHeld
    simpa [rank, wantsMap, awaited, hPhase, Nat.not_le.mpr hLt] using hTop
  · cases hHeld

theorem Ok.setPhase (h : call.Ok map) {phase : Phase} (hPhase : call.phase ≠ .reserving)
    (hUnpruned : ({ call with phase } : Call K).unpruned = call.unpruned) :
    ({ call with phase } : Call K).Ok map where
  sorted := h.sorted
  reserved _ := h.reserved hPhase
  owned e hE := h.owned e (hUnpruned ▸ hE)

end Call

/-! ## Steps -/

namespace LockState

variable {s s' : LockState K} {i : Nat} {call : Call K} {panics : Bool}

/-- What a step does to the phase of a call, apart from reserving and pruning a key. -/
structure Moves (s : LockState K) (call : Call K) (phase : Phase) : Prop where
  reserved : call.phase ≠ .reserving
  unpruned : ({ call with phase } : Call K).unpruned = call.unpruned
  held : ∀ lock ∈ ({ call with phase } : Call K).held,
    lock ∈ call.held ∨ ∀ other ∈ s.calls, lock ∉ other.held

theorem free_of_tryLock (h : s.tryLock lock ≠ .wouldBlock) :
    ∀ other ∈ s.calls, lock ∉ other.held := by
  unfold tryLock at h
  split at h
  · exact absurd rfl h
  · rename_i hFree
    intro other hOther hHeld
    refine hFree (List.any_eq_true.mpr ⟨other, hOther, ?_⟩)
    simpa using hHeld

theorem Moves.of_held_subset {phase : Phase} (hPhase : call.phase ≠ .reserving)
    (hUnpruned : ({ call with phase } : Call K).unpruned = call.unpruned)
    (hHeld : ∀ lock ∈ ({ call with phase } : Call K).held, lock ∈ call.held) :
    s.Moves call phase :=
  ⟨hPhase, hUnpruned, fun lock hLock => .inl (hHeld lock hLock)⟩

theorem moves_lock (hPhase : call.phase = .acquiring n) (hGet : call.handles[n]? = some lock)
    (hFree : ∀ other ∈ s.calls, lock ∉ other.held) : s.Moves call (.acquiring (n + 1)) where
  reserved := by simp [hPhase]
  unpruned := by simp [Call.unpruned, hPhase]
  held taken hTaken := by
    simp only [Call.held, hPhase] at hTaken ⊢
    rw [List.take_add_one, hGet] at hTaken
    rcases List.mem_append.mp hTaken with hOld | hNew
    · exact .inl hOld
    · obtain rfl : taken = lock := by simpa using hNew
      exact .inr hFree

theorem setPhase_calls (hGet : s.calls[i]? = some call) (phase : Phase) :
    (s.setPhase i phase).calls = s.calls.set i { call with phase } := by
  rw [setPhase, List.modify_eq_set_getElem?, hGet]
  rfl

variable [LinearOrder K]

/-- All that a step of a call can do. -/
theorem stepCall_cases (h : s.stepCall i call panics = some s') :
    (call.phase = .reserving ∧ s' = s.reserve i call) ∨
    (∃ n key, call.phase = .pruning n ∧ call.keys[n]? = some key ∧
      s' = (s.pruneEntry key).setPhase i (.pruning (n + 1))) ∨
    ∃ phase poisoned, s.Moves call phase ∧ s' = { s.setPhase i phase with poisoned } := by
  unfold stepCall at h
  split at h <;> rename_i hPhase
  · split at h
    · cases h
    · cases h
      exact .inl ⟨hPhase, rfl⟩
  · rename_i n
    refine .inr (.inr ?_)
    split at h <;> rename_i hGet
    · cases h
      refine ⟨.running, s.poisoned, .of_held_subset (by simp [hPhase])
        (by simp [Call.unpruned, hPhase]) ?_, rfl⟩
      simp only [Call.held, hPhase]
      rw [List.take_of_length_le (List.getElem?_eq_none_iff.mp hGet)]
      exact fun lock hLock => hLock
    · rename_i lock
      refine ⟨.acquiring (n + 1), s.poisoned, moves_lock hPhase hGet (free_of_tryLock ?_), ?_⟩
      · intro hBlock
        rw [hBlock] at h
        cases h
      · split at h <;> cases h <;> rfl
  · cases h
    exact .inr (.inr ⟨.releasing 0 panics, s.poisoned, .of_held_subset (by simp [hPhase])
      (by simp [Call.unpruned, hPhase]) (by simp [Call.held, hPhase]), rfl⟩)
  · rename_i n panicked
    refine .inr (.inr ?_)
    split at h
    · rename_i lock hGet
      cases h
      refine ⟨.releasing (n + 1) panicked, _, .of_held_subset (by simp [hPhase])
        (by simp [Call.unpruned, hPhase]) ?_, rfl⟩
      simp only [Call.held, hPhase]
      exact fun lock hLock => List.drop_subset_drop_left _ (Nat.le_succ n) hLock
    · split at h
      · cases h
      · cases h
        exact ⟨.pruning 0, s.poisoned, .of_held_subset (by simp [hPhase])
          (by simp [Call.unpruned, hPhase]) (by simp [Call.held]), rfl⟩
  · rename_i n
    split at h <;> rename_i hGet
    · rename_i key
      cases h
      exact .inr (.inl ⟨n, key, hPhase, hGet, rfl⟩)
    · cases h
      refine .inr (.inr ⟨.dropping 0, s.poisoned, .of_held_subset (by simp [hPhase]) ?_
        (by simp [Call.held]), rfl⟩)
      have hLength : (call.keys.zip call.handles).length ≤ n :=
        (List.length_zip.trans_le (Nat.min_le_left ..)).trans (List.getElem?_eq_none_iff.mp hGet)
      simp [Call.unpruned, hPhase, List.drop_of_length_le hLength]
  · rename_i n
    refine .inr (.inr ?_)
    split at h <;> cases h
    · exact ⟨.dropping (n + 1), s.poisoned, .of_held_subset (by simp [hPhase])
        (by simp [Call.unpruned, hPhase]) (by simp [Call.held]), rfl⟩
    · exact ⟨.done, s.poisoned, .of_held_subset (by simp [hPhase])
        (by simp [Call.unpruned, hPhase]) (by simp [Call.held]), rfl⟩
  · cases h

/-! ## The invariant -/

structure Inv (s : LockState K) : Prop where
  registry : s.registry.Ok
  calls : ∀ call ∈ s.calls, call.Ok s.registry.map
  apart : ∀ (i j : Nat) call other, s.calls[i]? = some call → s.calls[j]? = some other → i ≠ j →
    call.held.Disjoint other.held

/-- Every entry has a call that has yet to prune it. -/
def Tended (s : LockState K) : Prop := ∀ e ∈ s.registry.map, ∃ call ∈ s.calls, e ∈ call.unpruned

/-- The rule for a step that replaces one call. -/
theorem Inv.replace (h : s.Inv) (hGet : s.calls[i]? = some call) {new : Call K}
    (hCalls : s'.calls = s.calls.set i new) (hRegistry : s'.registry.Ok)
    (hNew : new.Ok s'.registry.map)
    (hOthers : ∀ other ∈ s.calls.eraseIdx i, ∀ e ∈ other.unpruned, e ∈ s'.registry.map)
    (hHeld : ∀ lock ∈ new.held, lock ∈ call.held ∨ ∀ other ∈ s.calls, lock ∉ other.held) :
    s'.Inv where
  registry := hRegistry
  calls other hOther := by
    rw [hCalls] at hOther
    rcases mem_set_cases hOther with rfl | hOld
    · exact hNew
    · have hOk := h.calls other (List.mem_of_mem_eraseIdx hOld)
      exact ⟨hOk.sorted, hOk.reserved, hOthers other hOld⟩
  apart := by
    have hApart : ∀ (j : Nat) other, s.calls[j]? = some other → i ≠ j →
        new.held.Disjoint other.held := by
      intro j other hOther hNe lock hLock hLock'
      rcases hHeld lock hLock with hOld | hFree
      · exact h.apart i j call other hGet hOther hNe hOld hLock'
      · exact hFree other (List.mem_of_getElem? hOther) hLock'
    intro j k a b hA hB hNe
    rw [hCalls, List.getElem?_set] at hA hB
    split at hA
    · rename_i hEq
      split at hA
      · cases hA
        rw [if_neg (hEq.trans_ne hNe)] at hB
        exact hApart k b hB (hEq.trans_ne hNe)
      · cases hA
    · rename_i hEq
      split at hB
      · split at hB
        · cases hB
          exact (hApart j a hA hEq).symm
        · cases hB
      · exact h.apart j k a b hA hB hNe

theorem Inv.spawn (h : s.Inv) {keys : List K} (hKeys : keys.Pairwise (· < ·)) :
    (s.spawn keys).Inv where
  registry := h.registry
  calls other hOther := by
    rcases List.mem_append.mp hOther with hOld | hNew
    · exact h.calls other hOld
    · obtain rfl := List.mem_singleton.mp hNew
      exact ⟨hKeys, fun hPhase => absurd rfl hPhase, by simp [Call.unpruned]⟩
  apart j k a b hA hB hNe := by
    have hHeld : ∀ (j : Nat) a, (s.spawn keys).calls[j]? = some a →
        s.calls[j]? = some a ∨ a.held = [] := by
      intro j a hA
      rcases Nat.lt_or_ge j s.calls.length with hLt | hGe
      · exact .inl ((List.getElem?_append_left hLt).symm.trans hA)
      · replace hA := (List.getElem?_append_right hGe).symm.trans hA
        obtain rfl := List.mem_singleton.mp (List.mem_of_getElem? hA)
        exact .inr rfl
    rcases hHeld j a hA with hA | hA
    · rcases hHeld k b hB with hB | hB
      · exact h.apart j k a b hA hB hNe
      · simp [hB]
    · simp [hA]

theorem Inv.move (h : s.Inv) (hGet : s.calls[i]? = some call) {phase : Phase}
    (hMoves : s.Moves call phase) (poisoned : Nat → Bool) :
    Inv { s.setPhase i phase with poisoned } := by
  have hCall := h.calls call (List.mem_of_getElem? hGet)
  exact h.replace hGet (setPhase_calls hGet phase) h.registry
    (hCall.setPhase hMoves.reserved hMoves.unpruned)
    (fun other hOther e hE => (h.calls other (List.mem_of_mem_eraseIdx hOther)).owned e hE)
    hMoves.held

theorem Inv.reserve (h : s.Inv) (hGet : s.calls[i]? = some call) : (s.reserve i call).Inv := by
  have hCall := h.calls call (List.mem_of_getElem? hGet)
  have hReserved := h.registry.reserve call.keys
  refine h.replace hGet rfl hReserved.ok ⟨hCall.sorted, fun _ => ⟨hReserved.length, ?_⟩, ?_⟩ ?_ ?_
  · exact hReserved.nodup (hCall.sorted.imp fun hLt => hLt.ne)
  · exact hReserved.owned
  · intro other hOther e hE
    exact hReserved.keeps e ((h.calls other (List.mem_of_mem_eraseIdx hOther)).owned e hE)
  · simp [Call.held]

/-! ## Pruning -/

theorem pruned_entry (h : call.Ok s.registry.map) (hPhase : call.phase = .pruning n)
    (hKey : call.keys[n]? = some key) :
    ∃ lock, call.handles[n]? = some lock ∧
      call.unpruned = (key, lock) :: ({ call with phase := .pruning (n + 1) } : Call K).unpruned := by
  have hLength := (h.reserved (by simp [hPhase])).1
  obtain ⟨hLt, rfl⟩ := List.getElem?_eq_some_iff.mp hKey
  have hHandle : n < call.handles.length := hLength ▸ hLt
  refine ⟨call.handles[n], List.getElem?_eq_getElem hHandle, ?_⟩
  simp only [Call.unpruned, hPhase]
  rw [List.drop_eq_getElem_cons (by rw [List.length_zip]; omega), List.getElem_zip]

/-- A mutex that a call is pruning has two owners when no other call has a handle of it. -/
theorem strongCount_eq_two (h : s.Inv) (hGet : s.calls[i]? = some call)
    (hPhase : call.phase = .pruning n) (hEntry : (key, lock) ∈ s.registry.map)
    (hHandle : call.handles[n]? = some lock) :
    s.strongCount lock = 2 ↔ ∀ other ∈ s.calls.eraseIdx i, lock ∉ other.live := by
  have hCall := h.calls call (List.mem_of_getElem? hGet)
  have hEntries : s.registry.map.countP (fun e => e.2 = lock) = 1 := by
    have hMem : lock ∈ s.registry.map.map Prod.snd := List.mem_map_of_mem hEntry
    rw [← List.count_eq_one_of_mem h.registry.mutexes hMem, List.count, List.countP_map]
    congr
  have hOwn : call.live.count lock = 1 := by
    simp only [Call.live, hPhase]
    exact List.count_eq_one_of_mem (hCall.reserved (by simp [hPhase])).2
      (List.mem_of_getElem? hHandle)
  have hSum := sum_map_eraseIdx s.calls (fun call => call.live.count lock) hGet
  rw [strongCount, hEntries, ← hSum, hOwn]
  have hZero : ((s.calls.eraseIdx i).map fun call => call.live.count lock).sum = 0 ↔
      ∀ other ∈ s.calls.eraseIdx i, lock ∉ other.live := by
    rw [List.sum_eq_zero_iff_forall_eq_nat, List.forall_mem_map]
    simp only [List.count_eq_zero]
  rw [← hZero]
  omega

theorem pruneEntry_cases (h : s.Inv) (hGet : s.calls[i]? = some call)
    (hPhase : call.phase = .pruning n) (hEntry : (key, lock) ∈ s.registry.map)
    (hHandle : call.handles[n]? = some lock) :
    (s.pruneEntry key = { s with registry := s.registry.remove key } ∧
      ∀ other ∈ s.calls.eraseIdx i, lock ∉ other.live) ∨
    (s.pruneEntry key = s ∧ ∃ other ∈ s.calls.eraseIdx i, lock ∈ other.live) := by
  have hCount := strongCount_eq_two h hGet hPhase hEntry hHandle
  rw [pruneEntry, h.registry.lookup_eq hEntry]
  dsimp only
  split
  · rename_i hTwo
    exact .inl ⟨rfl, hCount.mp hTwo⟩
  · rename_i hMore
    rw [hCount] at hMore
    push Not at hMore
    exact .inr ⟨rfl, hMore⟩

theorem Inv.prune (h : s.Inv) (hGet : s.calls[i]? = some call) (hPhase : call.phase = .pruning n)
    (hKey : call.keys[n]? = some key) : ((s.pruneEntry key).setPhase i (.pruning (n + 1))).Inv := by
  have hCall := h.calls call (List.mem_of_getElem? hGet)
  obtain ⟨lock, hHandle, hUnpruned⟩ := pruned_entry hCall hPhase hKey
  have hOwned := hCall.owned
  rw [hUnpruned] at hOwned
  have hEntry := hOwned _ List.mem_cons_self
  have hHeld : ∀ l ∈ ({ call with phase := .pruning (n + 1) } : Call K).held,
      l ∈ call.held ∨ ∀ other ∈ s.calls, l ∉ other.held := by simp [Call.held]
  have hKept : ∀ e ∈ s.registry.map, e ≠ (key, lock) → e ∈ (s.registry.remove key).map := by
    intro e hE hNe
    refine List.mem_filter.mpr ⟨hE, decide_eq_true fun hKeys => hNe ?_⟩
    exact List.inj_on_of_nodup_map h.registry.keys hE hEntry hKeys
  rcases pruneEntry_cases h hGet hPhase hEntry hHandle with ⟨hEq, hNone⟩ | ⟨hEq, -⟩
  · rw [hEq]
    refine h.replace hGet (setPhase_calls (s := { s with registry := s.registry.remove key }) hGet _)
      (h.registry.remove key) ⟨hCall.sorted, fun _ => hCall.reserved (by simp [hPhase]), ?_⟩ ?_
      hHeld
    · intro e hE
      refine hKept e (hOwned e (List.mem_cons_of_mem _ hE)) ?_
      rintro rfl
      exact (List.nodup_cons.mp (hUnpruned ▸ hCall.unpruned_nodup)).1 hE
    · intro other hOther e hE
      have hOld := (h.calls other (List.mem_of_mem_eraseIdx hOther)).owned e hE
      refine hKept e hOld ?_
      rintro rfl
      exact hNone other hOther (Call.live_of_unpruned hE)
  · rw [hEq]
    refine h.replace hGet (setPhase_calls hGet _) h.registry
      ⟨hCall.sorted, fun _ => hCall.reserved (by simp [hPhase]), ?_⟩ ?_ hHeld
    · exact fun e hE => hOwned e (List.mem_cons_of_mem _ hE)
    · exact fun other hOther e hE => (h.calls other (List.mem_of_mem_eraseIdx hOther)).owned e hE

/-! ## Runs -/

theorem Inv.init : ({} : LockState K).Inv := ⟨.empty, by simp, by simp⟩

theorem Inv.next (h : s.Inv) {a : LockAction K} (hNext : s.next a = some s') : s'.Inv := by
  cases a with
  | withFileLock key =>
    cases hNext
    exact h.spawn (List.pairwise_singleton _ _)
  | withFileLocks keys =>
    cases hNext
    exact h.spawn (sortedKeys_pairwise keys)
  | step i panics =>
    obtain ⟨call, hGet, hStep⟩ := Option.bind_eq_some_iff.mp hNext
    rcases stepCall_cases hStep with ⟨-, rfl⟩ | ⟨n, key, hPhase, hKey, rfl⟩ | ⟨phase, q, hMoves, rfl⟩
    · exact h.reserve hGet
    · exact h.prune hGet hPhase hKey
    · exact h.move hGet hMoves q

theorem Inv.exclusive (h : s.Inv) : s.Exclusive := by
  intro i j call other hGet hGet' hNe hRunning hRunning' key hKey hKey'
  have hCall := h.calls call (List.mem_of_getElem? hGet)
  have hOther := h.calls other (List.mem_of_getElem? hGet')
  obtain ⟨lock, hOwns, hHeld⟩ := hCall.owns_of_running hRunning hKey
  obtain ⟨lock', hOwns', hHeld'⟩ := hOther.owns_of_running hRunning' hKey'
  obtain rfl : lock = lock' := h.registry.mutex_eq (hCall.owned _ hOwns) (hOther.owned _ hOwns')
  exact h.apart i j call other hGet hGet' hNe hHeld hHeld'

theorem Inv.rank_lt (h : s.Inv) {other : Call K} (hCall : call ∈ s.calls) (hOther : other ∈ s.calls)
    (hAwaited : call.awaited = some e) (hHeld : e.2 ∈ other.held) :
    ((e.1 : WithTop K) : WithBot (WithTop K)) < other.rank := by
  have hOk := h.calls other hOther
  obtain ⟨key, hOwns⟩ := Call.unpruned_of_held hOk hHeld
  obtain rfl : key = e.1 := by
    refine h.registry.key_eq (hOk.owned _ hOwns) ?_
    exact (h.calls call hCall).owned e (Call.unpruned_of_awaited hAwaited)
  exact hOk.lt_rank hOwns hHeld

theorem Inv.deadlockFree (h : s.Inv) : s.DeadlockFree := by
  intro i hCycle
  have hRank : ∀ j k, s.WaitsFor j k →
      (s.calls[j]?).elim ⊤ Call.rank < (s.calls[k]?).elim ⊤ Call.rank := by
    rintro j k ⟨call, other, hGet, hGet', hWaits⟩
    rw [hGet, hGet']
    rcases hWaits with ⟨e, hAwaited, hHeld⟩ | ⟨hWants, hHas⟩
    · have hLt := h.rank_lt (List.mem_of_getElem? hGet) (List.mem_of_getElem? hGet') hAwaited hHeld
      rwa [← Call.rank_of_awaited hAwaited] at hLt
    · change call.rank < other.rank
      rw [Call.rank_of_wantsMap hWants, Call.rank_of_hasMap hHas]
      exact bot_lt_top
  have hLift : Relation.TransGen (· < ·) ((s.calls[i]?).elim ⊤ Call.rank)
      ((s.calls[i]?).elim ⊤ Call.rank) := Relation.TransGen.lift _ hRank i i hCycle
  rw [Relation.transGen_eq_self] at hLift
  exact lt_irrefl _ hLift

/-! ## Entries that stay behind -/

omit [LinearOrder K] in
theorem Tended.cases (h : s.Tended) (hGet : s.calls[i]? = some call) (hE : e ∈ s.registry.map) :
    e ∈ call.unpruned ∨ ∃ other ∈ s.calls.eraseIdx i, e ∈ other.unpruned := by
  obtain ⟨other, hOther, hOwns⟩ := h e hE
  obtain ⟨j, hGet'⟩ := List.mem_iff_getElem?.mp hOther
  by_cases hEq : j = i
  · rw [hEq, hGet] at hGet'
    cases hGet'
    exact .inl hOwns
  · exact .inr ⟨other, List.mem_eraseIdx_iff_getElem?.mpr ⟨j, hEq, hGet'⟩, hOwns⟩

omit [LinearOrder K] in
theorem tended_of_set (hGet : s.calls[i]? = some call) {new : Call K}
    (hCalls : s'.calls = s.calls.set i new)
    (hMap : ∀ e ∈ s'.registry.map,
      e ∈ new.unpruned ∨ ∃ other ∈ s.calls.eraseIdx i, e ∈ other.unpruned) : s'.Tended := by
  intro e hE
  rw [hCalls]
  rcases hMap e hE with hOwns | ⟨other, hOther, hOwns⟩
  · exact ⟨new, List.mem_set (List.getElem?_eq_some_iff.mp hGet).1 new, hOwns⟩
  · obtain ⟨j, hNe, hGet'⟩ := List.mem_eraseIdx_iff_getElem?.mp hOther
    exact ⟨other, List.mem_of_getElem? ((List.getElem?_set_ne hNe.symm).trans hGet'), hOwns⟩

theorem Tended.reserve (hInv : s.Inv) (h : s.Tended) (hGet : s.calls[i]? = some call)
    (hPhase : call.phase = .reserving) : (s.reserve i call).Tended := by
  refine tended_of_set hGet rfl ?_
  intro e hE
  rcases (hInv.registry.reserve call.keys).adds e hE with hOld | hNew
  · rcases h.cases hGet hOld with hOwns | hOther
    · simp [Call.unpruned, hPhase] at hOwns
    · exact .inr hOther
  · exact .inl hNew

/-- The last call that owns a key prunes its entry, unless a handle has stayed behind. -/
theorem Tended.prune (hInv : s.Inv) (h : s.Tended) (hGet : s.calls[i]? = some call)
    (hPhase : call.phase = .pruning n) (hKey : call.keys[n]? = some key) {panics : Bool}
    (hClean : s.prunesCleanly (.step i panics) = true) :
    ((s.pruneEntry key).setPhase i (.pruning (n + 1))).Tended := by
  have hCall := hInv.calls call (List.mem_of_getElem? hGet)
  obtain ⟨lock, hHandle, hUnpruned⟩ := pruned_entry hCall hPhase hKey
  have hEntry : (key, lock) ∈ s.registry.map :=
    hCall.owned _ (hUnpruned ▸ List.mem_cons_self)
  have hCases : ∀ e ∈ s.registry.map, e ≠ (key, lock) →
      e ∈ ({ call with phase := .pruning (n + 1) } : Call K).unpruned ∨
        ∃ other ∈ s.calls.eraseIdx i, e ∈ other.unpruned := by
    intro e hE hNe
    rcases h.cases hGet hE with hOwns | hOther
    · rw [hUnpruned] at hOwns
      exact .inl ((List.mem_cons.mp hOwns).resolve_left hNe)
    · exact .inr hOther
  rcases pruneEntry_cases hInv hGet hPhase hEntry hHandle with ⟨hEq, -⟩ | ⟨hEq, hStale⟩
  · rw [hEq]
    refine tended_of_set hGet
      (setPhase_calls (s := { s with registry := s.registry.remove key }) hGet _) ?_
    intro e hE
    obtain ⟨hOld, hNe⟩ := List.mem_filter.mp hE
    exact hCases e hOld fun hEq => of_decide_eq_true hNe (congrArg Prod.fst hEq)
  · rw [hEq]
    refine tended_of_set hGet (setPhase_calls hGet _) ?_
    intro e hE
    by_cases hNe : e = (key, lock)
    · right
      rw [hNe]
      simp only [prunesCleanly, hGet, hPhase, hHandle, Bool.or_eq_true, List.any_eq_true,
        List.all_eq_true] at hClean
      rcases hClean with ⟨other, hOther, hOwns⟩ | hNone
      · obtain ⟨⟨key', _⟩, hMem, rfl⟩ := List.mem_map.mp (List.contains_iff_mem.mp hOwns)
        have hOther' := hInv.calls other (List.mem_of_mem_eraseIdx hOther)
        rw [hInv.registry.key_eq hEntry (hOther'.owned _ hMem)]
        exact ⟨other, hOther, hMem⟩
      · obtain ⟨other, hOther, hLive⟩ := hStale
        have hDropped := hNone other hOther
        simp [hLive] at hDropped
    · exact hCases e hE hNe

theorem Tended.next (hInv : s.Inv) (h : s.Tended) {a : LockAction K}
    (hClean : s.prunesCleanly a = true) (hNext : s.next a = some s') : s'.Tended := by
  have hSpawn : ∀ keys, (s.spawn keys).Tended := by
    intro keys e hE
    obtain ⟨other, hOther, hOwns⟩ := h e hE
    exact ⟨other, List.mem_append_left _ hOther, hOwns⟩
  cases a with
  | withFileLock key =>
    cases hNext
    exact hSpawn _
  | withFileLocks keys =>
    cases hNext
    exact hSpawn _
  | step i panics =>
    obtain ⟨call, hGet, hStep⟩ := Option.bind_eq_some_iff.mp hNext
    rcases stepCall_cases hStep with ⟨hPhase, rfl⟩ | ⟨n, key, hPhase, hKey, rfl⟩ |
      ⟨phase, q, hMoves, rfl⟩
    · exact h.reserve hInv hGet hPhase
    · exact h.prune hInv hGet hPhase hKey hClean
    · refine tended_of_set hGet (setPhase_calls hGet phase) ?_
      intro e hE
      rw [hMoves.unpruned]
      exact h.cases hGet hE

omit [LinearOrder K] in
theorem Tended.empty_of_idle (h : s.Tended) (hIdle : s.Idle) : s.registry.map = [] := by
  refine List.eq_nil_iff_forall_not_mem.mpr ?_
  intro e hE
  obtain ⟨call, hCall, hOwns⟩ := h e hE
  simp [Call.unpruned, hIdle call hCall] at hOwns

end LockState

section Runs

variable [LinearOrder K]

theorem lockMachine_step {s s' : LockState K} {a : LockAction K} {os : List Empty}
    (h : (lockMachine K).step s a = some (s', os)) : s.next a = some s' := by
  obtain ⟨s₁, hNext, hEq⟩ := Option.map_eq_some_iff.mp h
  cases hEq
  exact hNext

/-- Whatever the order of the steps, calls with a common key exclude each other and none wait in a
cycle; the registry is empty when no call is in progress, if no handle has outlived the last
prune of its key. -/
theorem fileLocks_exclusive_and_clean (as : List (LockAction K)) (s : LockState K)
    (os : List Empty) (hExec : (lockMachine K).exec {} as = some (s, os)) :
    s.Exclusive ∧ s.DeadlockFree ∧
      (((lockMachine K).guard fun s a => s.prunesCleanly a = true).exec {} as = some (s, os) →
        s.Idle → s.registry.map = []) := by
  have hInv := Machine.exec_state_invariant (P := LockState.Inv)
    (fun h hStep => h.next (lockMachine_step hStep)) .init hExec
  refine ⟨hInv.exclusive, hInv.deadlockFree, ?_⟩
  intro hGuarded hIdle
  have hBoth := Machine.exec_state_invariant (P := fun s : LockState K => s.Inv ∧ s.Tended)
    (fun h hStep => ?_) ⟨.init, by simp [LockState.Tended]⟩ hGuarded
  · exact hBoth.2.empty_of_idle hIdle
  · obtain ⟨hClean, hStep⟩ := Machine.guard_step_eq_some.mp hStep
    have hNext := lockMachine_step hStep
    exact ⟨h.1.next hNext, h.2.next h.1 hClean hNext⟩

end Runs

/-- Two calls, the second of which waits until the first is done. -/
def turnsRun : List (LockAction Nat) :=
  [LockAction.withFileLock 0, .withFileLock 0] ++ List.replicate 2 (LockAction.step 0 false) ++
    [LockAction.step 1 false] ++ List.replicate 8 (LockAction.step 0 true) ++ List.replicate 9 (LockAction.step 1 false)

/-- Both calls prune before either drops its handle. -/
def staleRun : List (LockAction Nat) :=
  [LockAction.withFileLock 0, .withFileLock 0, .step 0 false, .step 1 false] ++
    List.replicate 7 (LockAction.step 0 false) ++ List.replicate 7 (LockAction.step 1 false) ++
    List.replicate 2 (LockAction.step 0 false) ++ List.replicate 2 (LockAction.step 1 false)

theorem turnsRun_clean : ∃ s os, (lockMachine Nat).exec {} turnsRun = some (s, os) ∧
    s.Idle ∧ s.registry.map = [] := by
  have hCheck : ((lockMachine Nat).guard fun s a => s.prunesCleanly a = true).check {} turnsRun
      (fun s _ => decide s.Idle) = true := by
    decide
  obtain ⟨s, os, hGuarded, hIdle⟩ := Machine.exists_of_check hCheck
  have hExec := Machine.exec_of_guard hGuarded
  exact ⟨s, os, hExec, of_decide_eq_true hIdle,
    (fileLocks_exclusive_and_clean turnsRun s os hExec).2.2 hGuarded (of_decide_eq_true hIdle)⟩

/-- Each call sees the handle that the other is about to drop, and the entry stays. -/
theorem staleRun_leaks :
    ¬ ∀ (as : List (LockAction Nat)) s os, (lockMachine Nat).exec {} as = some (s, os) →
      s.Exclusive ∧ s.DeadlockFree ∧ (s.Idle → s.registry.map = []) := by
  intro hClaim
  have hCheck : (lockMachine Nat).check {} staleRun
      (fun s _ => decide (s.Idle ∧ s.registry.map = [(0, 0)])) = true := by
    decide
  obtain ⟨s, os, hExec, hTest⟩ := Machine.exists_of_check hCheck
  obtain ⟨hIdle, hEntry⟩ := of_decide_eq_true hTest
  rw [(hClaim staleRun s os hExec).2.2 hIdle] at hEntry
  cases hEntry

end Choreographr.Tools
