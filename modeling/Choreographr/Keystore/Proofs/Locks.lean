import Choreographr.Keystore.System
import Choreographr.Lib.Counting

/-!
# The refresh locks

The registry maps a key to one lock as long as a thread owns a handle of it: a handle is taken
under the registry's own lock, and pruning keeps the entries that have one. All threads of one
key therefore wait for the same token, and at most one of them holds it.
-/

namespace Choreographr.Keystore

open Lib

variable {cr : Crypto} {env : Outcome} {phase : Phase} {index lock : Nat} {r : Refresher}

theorem Phase.handle?_of_held? (h : phase.held? = some lock) : phase.handle? = some lock := by
  cases phase <;> first | exact h | cases h

namespace State

/-- The registry and the threads agree. -/
structure LocksOk (s : State) : Prop where
  mapped : ∀ (i : Nat) r lock, s.refreshers[i]? = some r → r.phase.handle? = some lock →
    s.locks.map r.account = some lock
  injective : ∀ key key' lock, s.locks.map key = some lock → s.locks.map key' = some lock →
    key = key'
  bounded : ∀ key lock, s.locks.map key = some lock → lock < s.locks.next
  busy : ∀ (i : Nat) r lock, s.refreshers[i]? = some r → r.phase.held? = some lock →
    s.locks.free lock = false
  single : ∀ (i j : Nat) r r' lock, s.refreshers[i]? = some r → s.refreshers[j]? = some r' →
    r.phase.held? = some lock → r'.phase.held? = some lock → i = j

variable {s s' : State}

theorem LocksOk.holder_unique (h : s.LocksOk) {i j : Nat} {r' : Refresher} {lock' : Nat}
    (hGet : s.refreshers[i]? = some r) (hGet' : s.refreshers[j]? = some r')
    (hHeld : r.phase.held? = some lock) (hHeld' : r'.phase.held? = some lock')
    (hAccount : r.account = r'.account) : i = j := by
  have hMap := h.mapped i r lock hGet (Phase.handle?_of_held? hHeld)
  have hMap' := h.mapped j r' lock' hGet' (Phase.handle?_of_held? hHeld')
  rw [hAccount, hMap'] at hMap
  cases hMap
  exact h.single i j r r' lock hGet hGet' hHeld hHeld'

/-- A thread owns no more than it did before. -/
def Shrinks (r r' : Refresher) : Prop :=
  r'.account = r.account ∧ (∀ lock, r'.phase.handle? = some lock → r.phase.handle? = some lock) ∧
    ∀ lock, r'.phase.held? = some lock → r.phase.held? = some lock

theorem Shrinks.refl (r : Refresher) : Shrinks r r := ⟨rfl, fun _ => id, fun _ => id⟩

theorem Shrinks.of_phase (hHandle : phase.handle? = r.phase.handle?)
    (hHeld : phase.held? = r.phase.held?) : Shrinks r { r with phase := phase } :=
  ⟨rfl, fun _ h => hHandle ▸ h, fun _ h => hHeld ▸ h⟩

theorem answerLoad_shrinks (r : Refresher) (load : TokenLoad) :
    Shrinks r (r.answerLoad load) := by
  unfold Refresher.answerLoad
  split
  · rename_i lock hPhase
    refine ⟨rfl, fun _ => ?_, fun _ => ?_⟩ <;>
    · rw [hPhase]
      exact id
  · exact .refl r

theorem answerSave_shrinks (r : Refresher) : Shrinks r r.answerSave := by
  unfold Refresher.answerSave
  split
  · rename_i lock _ hPhase
    refine ⟨rfl, fun _ => ?_, fun _ => ?_⟩ <;>
    · rw [hPhase]
      exact id
  · exact .refl r

/-- The rule for a step that leaves the registry alone and after which every thread owns what it
owned before, or nothing. -/
theorem LocksOk.shrink (h : s.LocksOk) (hLocks : s'.locks = s.locks)
    (hThreads : ∀ (i : Nat) r', s'.refreshers[i]? = some r' → r'.phase.handle? ≠ none →
      ∃ r, s.refreshers[i]? = some r ∧ Shrinks r r') : s'.LocksOk := by
  have hHeld : ∀ (i : Nat) r' lock, s'.refreshers[i]? = some r' → r'.phase.held? = some lock →
      ∃ r, s.refreshers[i]? = some r ∧ r.phase.held? = some lock := by
    intro i r' lock hGet hLock
    have hHandle := Phase.handle?_of_held? hLock
    obtain ⟨r, hOld, -, -, hKeeps⟩ := hThreads i r' hGet (by simp [hHandle])
    exact ⟨r, hOld, hKeeps lock hLock⟩
  constructor
  · intro i r' lock hGet hHandle
    obtain ⟨r, hOld, hAccount, hKeeps, -⟩ := hThreads i r' hGet (by simp [hHandle])
    rw [hLocks, hAccount]
    exact h.mapped i r lock hOld (hKeeps lock hHandle)
  · rw [hLocks]
    exact h.injective
  · rw [hLocks]
    exact h.bounded
  · intro i r' lock hGet hLock
    obtain ⟨r, hOld, hBefore⟩ := hHeld i r' lock hGet hLock
    rw [hLocks]
    exact h.busy i r lock hOld hBefore
  · intro i j r' r'' lock hGet hGet' hLock hLock'
    obtain ⟨r, hOld, hBefore⟩ := hHeld i r' lock hGet hLock
    obtain ⟨q, hOld', hBefore'⟩ := hHeld j r'' lock hGet' hLock'
    exact h.single i j r q lock hOld hOld' hBefore hBefore'

theorem LocksOk.setPhase (h : s.LocksOk) (hGet : s.refreshers[index]? = some r)
    (hHandle : phase.handle? = r.phase.handle?) (hHeld : phase.held? = r.phase.held?) :
    (s.setPhase index phase).LocksOk := by
  refine h.shrink rfl ?_
  intro i r' hGet' _
  obtain ⟨q, hOld, hEq⟩ := getElem?_modify_cases hGet'
  refine ⟨q, hOld, ?_⟩
  rcases hEq with rfl | ⟨rfl, rfl⟩
  · exact .refl r'
  · obtain rfl : q = r := Option.some.inj (hOld.symm.trans hGet)
    exact .of_phase hHandle hHeld

theorem LocksOk.congr (h : s.LocksOk) (hLocks : s'.locks = s.locks)
    (hThreads : s'.refreshers = s.refreshers) : s'.LocksOk :=
  h.shrink hLocks fun _ r hGet _ => ⟨r, hThreads ▸ hGet, .refl r⟩

theorem LocksOk.prune (h : s.LocksOk) : s.prune.LocksOk where
  mapped i r lock hGet hHandle := by
    have hMap := h.mapped i r lock hGet hHandle
    change (s.locks.map r.account).filter _ = some lock
    rw [hMap, Option.filter_some, if_pos]
    rw [List.any_eq_true]
    exact ⟨r, List.mem_of_getElem? hGet, by simp [hHandle]⟩
  injective key key' lock hMap hMap' :=
    h.injective key key' lock (Option.filter_eq_some_iff.mp hMap).1
      (Option.filter_eq_some_iff.mp hMap').1
  bounded key lock hMap := h.bounded key lock (Option.filter_eq_some_iff.mp hMap).1
  busy := h.busy
  single := h.single

theorem setPhase_cases {i : Nat} {r' : Refresher}
    (hGet : (s.setPhase index phase).refreshers[i]? = some r') :
    ∃ r, s.refreshers[i]? = some r ∧
      (index ≠ i ∧ r' = r ∨ index = i ∧ r' = { r with phase := phase }) := by
  have hThreads : (s.refreshers.modify index fun r => { r with phase := phase })[i]? = some r' :=
    hGet
  rw [List.getElem?_modify] at hThreads
  obtain ⟨r, hOld, hEq⟩ := Option.map_eq_some_iff.mp hThreads
  refine ⟨r, hOld, ?_⟩
  split at hEq
  · rename_i hIndex
    exact .inr ⟨hIndex, hEq.symm⟩
  · rename_i hIndex
    exact .inl ⟨hIndex, hEq.symm⟩

theorem setPhase_getElem? {i : Nat} (hOld : s.refreshers[i]? = some r) :
    (s.setPhase index phase).refreshers[i]? =
      some (if index = i then { r with phase := phase } else r) := by
  change (s.refreshers.modify index _)[i]? = _
  rw [List.getElem?_modify, hOld]
  rfl

/-- A thread takes a handle of the lock of its key. -/
theorem LocksOk.acquire (h : s.LocksOk) (hGet : s.refreshers[index]? = some r)
    (hPhase : r.phase = .acquire) :
    State.LocksOk { s.setPhase index (.waiting (s.locks.acquire r.account).2) with
      locks := (s.locks.acquire r.account).1 } := by
  have hOthers : ∀ (i : Nat) r' lock,
      (s.setPhase index (.waiting (s.locks.acquire r.account).2)).refreshers[i]? = some r' →
      r'.phase.held? = some lock → s.refreshers[i]? = some r' := by
    intro i r' lock hNew hHeld
    obtain ⟨q, hOld, ⟨-, rfl⟩ | ⟨-, rfl⟩⟩ := setPhase_cases hNew
    · exact hOld
    · cases hHeld
  have hSingle : ∀ (i j : Nat) r' r'' lock,
      (s.setPhase index (.waiting (s.locks.acquire r.account).2)).refreshers[i]? = some r' →
      (s.setPhase index (.waiting (s.locks.acquire r.account).2)).refreshers[j]? = some r'' →
      r'.phase.held? = some lock → r''.phase.held? = some lock → i = j :=
    fun i j r' r'' lock hNew hNew' hHeld hHeld' =>
      h.single i j r' r'' lock (hOthers i r' lock hNew hHeld) (hOthers j r'' lock hNew' hHeld')
        hHeld hHeld'
  cases hMap : s.locks.map r.account with
  | some lock =>
    have hAcquire : s.locks.acquire r.account = (s.locks, lock) := by simp [Locks.acquire, hMap]
    rw [hAcquire] at hOthers hSingle ⊢
    refine ⟨?_, h.injective, h.bounded, ?_, hSingle⟩
    · intro i r' lock' hNew hHandle
      obtain ⟨q, hOld, ⟨-, rfl⟩ | ⟨rfl, rfl⟩⟩ := setPhase_cases hNew
      · exact h.mapped i r' lock' hOld hHandle
      · obtain rfl : q = r := Option.some.inj (hOld.symm.trans hGet)
        cases hHandle
        exact hMap
    · exact fun i r' lock' hNew hHeld => h.busy i r' lock' (hOthers i r' lock' hNew hHeld) hHeld
  | none =>
    have hAcquire : s.locks.acquire r.account =
        ({ map := s.locks.map.insert r.account s.locks.next
           free := Function.update s.locks.free s.locks.next true
           next := s.locks.next + 1 }, s.locks.next) := by simp [Locks.acquire, hMap]
    rw [hAcquire] at hOthers hSingle ⊢
    refine ⟨?_, ?_, ?_, ?_, hSingle⟩
    · intro i r' lock' hNew hHandle
      obtain ⟨q, hOld, ⟨-, rfl⟩ | ⟨rfl, rfl⟩⟩ := setPhase_cases hNew
      · have hOldMap := h.mapped i r' lock' hOld hHandle
        have hNe : r'.account ≠ r.account := by
          intro hEq
          rw [hEq, hMap] at hOldMap
          cases hOldMap
        exact (Table.insert_of_ne _ hNe _).trans hOldMap
      · obtain rfl : q = r := Option.some.inj (hOld.symm.trans hGet)
        cases hHandle
        exact Table.insert_same _ _ _
    · intro key key' lock' hKey hKey'
      change s.locks.map.insert r.account s.locks.next key = some lock' at hKey
      change s.locks.map.insert r.account s.locks.next key' = some lock' at hKey'
      have hFresh : ∀ other, s.locks.map other ≠ some s.locks.next := fun other hOther =>
        absurd (h.bounded other _ hOther) (Nat.lt_irrefl _)
      by_cases hEq : key = r.account
      · by_cases hEq' : key' = r.account
        · rw [hEq, hEq']
        · subst hEq
          rw [Table.insert_same] at hKey
          rw [Table.insert_of_ne _ hEq', ← hKey] at hKey'
          exact absurd hKey' (hFresh key')
      · by_cases hEq' : key' = r.account
        · subst hEq'
          rw [Table.insert_same] at hKey'
          rw [Table.insert_of_ne _ hEq, ← hKey'] at hKey
          exact absurd hKey (hFresh key)
        · rw [Table.insert_of_ne _ hEq] at hKey
          rw [Table.insert_of_ne _ hEq'] at hKey'
          exact h.injective key key' lock' hKey hKey'
    · intro key lock' hKey
      change s.locks.map.insert r.account s.locks.next key = some lock' at hKey
      by_cases hEq : key = r.account
      · subst hEq
        rw [Table.insert_same] at hKey
        cases hKey
        exact Nat.lt_succ_self _
      · rw [Table.insert_of_ne _ hEq] at hKey
        exact Nat.lt_succ_of_lt (h.bounded key lock' hKey)
    · intro i r' lock' hNew hHeld
      have hOld := hOthers i r' lock' hNew hHeld
      have hBound := h.bounded _ _ (h.mapped i r' lock' hOld (Phase.handle?_of_held? hHeld))
      change Function.update s.locks.free s.locks.next true lock' = false
      rw [Function.update_of_ne (Nat.ne_of_lt hBound)]
      exact h.busy i r' lock' hOld hHeld

/-- A thread takes the token of its lock. -/
theorem LocksOk.take (h : s.LocksOk) (hGet : s.refreshers[index]? = some r)
    (hPhase : r.phase = .waiting lock) (hFree : s.locks.free lock = true)
    (hHandle : phase.handle? = some lock) (hHeld : phase.held? = some lock) :
    State.LocksOk { s.setPhase index phase with
      locks := { s.locks with free := Function.update s.locks.free lock false } } := by
  have hNobody : ∀ (i : Nat) q, s.refreshers[i]? = some q → q.phase.held? ≠ some lock := by
    intro i q hOld hLock
    rw [h.busy i q lock hOld hLock] at hFree
    cases hFree
  refine ⟨?_, h.injective, h.bounded, ?_, ?_⟩
  · intro i r' lock' hNew hLock
    obtain ⟨q, hOld, ⟨-, rfl⟩ | ⟨rfl, rfl⟩⟩ := setPhase_cases hNew
    · exact h.mapped i r' lock' hOld hLock
    · obtain rfl : q = r := Option.some.inj (hOld.symm.trans hGet)
      cases hHandle.symm.trans hLock
      exact h.mapped index q lock hOld (by rw [hPhase]; rfl)
  · intro i r' lock' hNew hLock
    by_cases hEq : lock' = lock
    · subst hEq
      exact Function.update_self _ _ _
    · change Function.update s.locks.free lock false lock' = false
      rw [Function.update_of_ne hEq]
      obtain ⟨q, hOld, ⟨-, rfl⟩ | ⟨rfl, rfl⟩⟩ := setPhase_cases hNew
      · exact h.busy i r' lock' hOld hLock
      · exact absurd (Option.some.inj (hLock.symm.trans hHeld)) hEq
  · intro i j r' r'' lock' hNew hNew' hLock hLock'
    obtain ⟨q, hOld, ⟨hI, rfl⟩ | ⟨rfl, rfl⟩⟩ := setPhase_cases hNew
    · obtain ⟨q', hOld', ⟨hJ, rfl⟩ | ⟨rfl, rfl⟩⟩ := setPhase_cases hNew'
      · exact h.single i j r' r'' lock' hOld hOld' hLock hLock'
      · cases hHeld.symm.trans hLock'
        exact absurd hLock (hNobody i r' hOld)
    · obtain ⟨q', hOld', ⟨hJ, rfl⟩ | ⟨rfl, rfl⟩⟩ := setPhase_cases hNew'
      · cases hHeld.symm.trans hLock
        exact absurd hLock' (hNobody j r'' hOld')
      · rfl

/-- A thread gives the token back, and keeps its handle for now. -/
theorem LocksOk.release (h : s.LocksOk) (hGet : s.refreshers[index]? = some r)
    (hPhase : r.phase = .release lock) :
    State.LocksOk { s.setPhase index (.unlocked lock) with
      locks := { s.locks with free := Function.update s.locks.free lock true } } := by
  have hOthers : ∀ (i : Nat) r' lock', (s.setPhase index (.unlocked lock)).refreshers[i]? = some r' →
      r'.phase.held? = some lock' → index ≠ i ∧ s.refreshers[i]? = some r' := by
    intro i r' lock' hNew hLock
    obtain ⟨q, hOld, ⟨hI, rfl⟩ | ⟨rfl, rfl⟩⟩ := setPhase_cases hNew
    · exact ⟨hI, hOld⟩
    · cases hLock
  refine ⟨?_, h.injective, h.bounded, ?_, ?_⟩
  · intro i r' lock' hNew hLock
    obtain ⟨q, hOld, ⟨-, rfl⟩ | ⟨rfl, rfl⟩⟩ := setPhase_cases hNew
    · exact h.mapped i r' lock' hOld hLock
    · obtain rfl : q = r := Option.some.inj (hOld.symm.trans hGet)
      cases hLock
      exact h.mapped index q lock hOld (by rw [hPhase]; rfl)
  · intro i r' lock' hNew hLock
    obtain ⟨hNe, hOld⟩ := hOthers i r' lock' hNew hLock
    have hEq : lock' ≠ lock := by
      rintro rfl
      exact hNe (h.single index i r r' lock' hGet hOld (by rw [hPhase]; rfl) hLock)
    change Function.update s.locks.free lock true lock' = false
    rw [Function.update_of_ne hEq]
    exact h.busy i r' lock' hOld hLock
  · intro i j r' r'' lock' hNew hNew' hLock hLock'
    exact h.single i j r' r'' lock' (hOthers i r' lock' hNew hLock).2
      (hOthers j r'' lock' hNew' hLock').2 hLock hLock'

theorem LocksOk.setDaemon (h : s.LocksOk) (d : Daemon) : State.LocksOk { s with daemon := d } :=
  h.congr rfl rfl

theorem LocksOk.send (h : s.LocksOk) (command : Command) : (s.send command).LocksOk :=
  h.congr rfl rfl

theorem LocksOk.issue (h : s.LocksOk) (key : String) (token : Option String) :
    (s.issue key token).LocksOk := by
  unfold State.issue
  split
  · exact h
  · exact h.congr rfl rfl

theorem LocksOk.advance (h : s.LocksOk) {result : ExchangeResult} {os : List Event}
    (hStep : s.advance index result = some (s', os)) : s'.LocksOk := by
  unfold State.advance at hStep
  split at hStep
  · cases hStep
  · rename_i r hGet
    split at hStep
    · rename_i hPhase
      cases hStep
      exact h.acquire hGet hPhase
    · rename_i lock hPhase
      split at hStep
      · rename_i hFree
        cases hStep
        refine h.take hGet hPhase hFree ?_ ?_
        · split <;> rfl
        · split <;> rfl
      · cases hStep
    · rename_i lock hPhase
      cases hStep
      exact (h.setPhase hGet (by rw [hPhase]; rfl) (by rw [hPhase]; rfl)).send _
    · cases hStep
    · rename_i lock load hPhase
      split at hStep
      · cases hStep
        exact h.setPhase hGet (by rw [hPhase]; rfl) (by rw [hPhase]; rfl)
      · cases hStep
        exact h.setPhase hGet (by rw [hPhase]; rfl) (by rw [hPhase]; rfl)
    · rename_i lock material hPhase
      split at hStep
      · cases hStep
        exact ((h.setPhase hGet (by rw [hPhase]; rfl) (by rw [hPhase]; rfl)).send _).issue _ _
      · cases hStep
        exact (h.setPhase hGet (by rw [hPhase]; rfl) (by rw [hPhase]; rfl)).send _
      · cases hStep
        exact (h.setPhase hGet (by rw [hPhase]; rfl) (by rw [hPhase]; rfl)).send _
      · cases hStep
        exact h.setPhase hGet (by rw [hPhase]; rfl) (by rw [hPhase]; rfl)
    · cases hStep
    · cases hStep
    · rename_i lock hPhase
      cases hStep
      exact h.release hGet hPhase
    · rename_i lock hPhase
      cases hStep
      refine h.shrink rfl ?_
      intro i r' hNew hHandle
      obtain ⟨q, hOld, ⟨-, rfl⟩ | ⟨rfl, rfl⟩⟩ := setPhase_cases hNew
      · exact ⟨r', hOld, .refl r'⟩
      · cases hEngine : r.provider <;> simp [hEngine, Phase.handle?] at hHandle
    · rename_i hPhase
      cases hStep
      exact (h.setPhase hGet (by rw [hPhase]; rfl) (by rw [hPhase]; rfl)).prune
    · cases hStep

theorem LocksOk.mapThreads (h : s.LocksOk) {f : Refresher → Refresher}
    (hLocks : s'.locks = s.locks) (hThreads : s'.refreshers = s.refreshers.map f)
    (hShrinks : ∀ r, Shrinks r (f r)) : s'.LocksOk := by
  refine h.shrink hLocks ?_
  intro i r' hNew _
  rw [hThreads, List.getElem?_map] at hNew
  obtain ⟨r, hOld, rfl⟩ := Option.map_eq_some_iff.mp hNew
  exact ⟨r, hOld, hShrinks r⟩

theorem LocksOk.noteReplaced (h : s.LocksOk) (account : String) :
    (s.noteReplaced account).LocksOk := by
  refine h.mapThreads rfl rfl ?_
  intro r
  split <;> exact ⟨rfl, fun _ => id, fun _ => id⟩

theorem LocksOk.modifyThread (h : s.LocksOk) {f : Refresher → Refresher}
    (hLocks : s'.locks = s.locks) (hThreads : s'.refreshers = s.refreshers.modify index f)
    (hShrinks : ∀ r, Shrinks r (f r)) : s'.LocksOk := by
  refine h.shrink hLocks ?_
  intro i r' hNew _
  rw [hThreads] at hNew
  obtain ⟨r, hOld, rfl | ⟨-, rfl⟩⟩ := getElem?_modify_cases hNew
  · exact ⟨r', hOld, .refl r'⟩
  · exact ⟨r, hOld, hShrinks r⟩

theorem LocksOk.handleCommand (h : s.LocksOk) {command : Command} {os : List Event}
    (hStep : s.handleCommand cr env command = (s', os)) : s'.LocksOk := by
  cases command with
  | unlock key =>
    simp only [State.handleCommand] at hStep
    split at hStep <;>
    · cases hStep
      exact h.congr rfl rfl
  | bind key =>
    simp only [State.handleCommand] at hStep
    split at hStep <;>
    · cases hStep
      exact h.congr rfl rfl
  | saveCredential service c =>
    simp only [State.handleCommand] at hStep
    split at hStep
    · cases hStep
      exact (h.setDaemon _).noteReplaced service
    · cases hStep
      exact h.congr rfl rfl
  | removeCredential service =>
    simp only [State.handleCommand] at hStep
    split at hStep
    · cases hStep
      exact (h.setDaemon _).noteReplaced service
    · cases hStep
      exact h.congr rfl rfl
  | loadOauthToken index account =>
    cases hStep
    exact h.modifyThread rfl rfl fun r => answerLoad_shrinks r _
  | saveOauthToken index save =>
    cases hStep
    exact h.modifyThread rfl rfl answerSave_shrinks
  | oauthSave key c expected =>
    simp only [State.handleCommand] at hStep
    split at hStep
    · cases hStep
      exact ((h.setDaemon _).noteReplaced key).prune
    · cases hStep
      exact h.congr rfl rfl
  | oauthClear key =>
    simp only [State.handleCommand] at hStep
    split at hStep
    · cases hStep
      exact ((h.setDaemon _).noteReplaced key).prune
    · cases hStep
      exact h.congr rfl rfl
  | _ =>
    cases hStep
    exact h.congr rfl rfl

theorem LocksOk.step (h : s.LocksOk) {a : Action} {os : List Event}
    (hStep : (machine cr).step s a = some (s', os)) : s'.LocksOk := by
  change s.step cr a = some (s', os) at hStep
  cases a with
  | post command =>
    obtain ⟨s₁, hPost, hEq⟩ := Option.map_eq_some_iff.mp hStep
    cases hEq
    cases command with
    | saveCredential service c =>
      cases hPost
      exact (h.send _).issue _ _
    | unlock key =>
      cases hPost
      exact h.send _
    | bind key =>
      cases hPost
      exact h.send _
    | lock =>
      cases hPost
      exact h.send _
    | removeCredential service =>
      cases hPost
      exact h.send _
    | _ => cases hPost
  | handle env =>
    change s.handle cr env = some (s', os) at hStep
    unfold State.handle at hStep
    split at hStep
    · cases hStep
    · rename_i command rest hInbox
      exact LocksOk.handleCommand (s := { s with inbox := rest }) (h.congr rfl rfl)
        (Option.some.inj hStep)
  | begin r =>
    cases hStep
    refine h.shrink rfl ?_
    intro i r' hNew hHandle
    change (s.refreshers ++ [{ r with phase := .acquire }])[i]? = some r' at hNew
    rcases getElem?_concat_cases hNew with hOld | ⟨-, rfl⟩
    · exact ⟨r', hOld, .refl r'⟩
    · exact absurd rfl hHandle
  | advance index result => exact h.advance hStep
  | dropGuard index =>
    obtain ⟨s₁, hDrop, hEq⟩ := Option.map_eq_some_iff.mp hStep
    cases hEq
    unfold State.dropGuard at hDrop
    split at hDrop
    · cases hDrop
    · rename_i r hGet
      split at hDrop
      · rename_i lock hPhase
        cases hDrop
        exact h.setPhase hGet (by rw [hPhase]; rfl) (by rw [hPhase]; rfl)
      · cases hDrop
  | mcpSave key c expected =>
    obtain ⟨s₁, hSave, hEq⟩ := Option.map_eq_some_iff.mp hStep
    cases hEq
    unfold State.mcpSave at hSave
    split at hSave
    · cases hSave
      exact ((h.setDaemon _).send _).issue _ _
    · cases hSave
  | mcpClear key =>
    cases hStep
    exact h.congr rfl rfl
  | mcpReject key token =>
    cases hStep
    exact h.congr rfl rfl

theorem locksOk_opened (binding : Option (List UInt8)) (blobs : Table (List UInt8))
    (accounts : List AccountConfig) : (opened cr binding blobs accounts).LocksOk where
  mapped i r lock hGet _ := by cases hGet
  injective key key' lock hMap _ := by cases hMap
  bounded key lock hMap := by cases hMap
  busy i r lock hGet _ := by cases hGet
  single i j r r' lock hGet _ _ _ := by cases hGet

end State

end Choreographr.Keystore
