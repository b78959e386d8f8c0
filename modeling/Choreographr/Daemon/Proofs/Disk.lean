import Choreographr.Daemon.State

/-!
# The rows of one session

What a write to one session's rows, a deletion and the purge at startup do to the
rows of a session and to its tombstone.
-/

namespace Choreographr.Daemon

open Session Lib

namespace Disk

variable {d : Disk} {sid other : Nat}

/-! ## Rows -/

theorem noRows_empty (sid : Nat) : empty.NoRows sid := by
  constructor <;> intros <;> rfl

theorem get?_filter_eq_none {κ α : Type} [LinearOrder κ] {m : OrdMap κ α} {p : κ → α → Bool} {k : κ}
    (h : m.get? k = none) : (m.filter p).get? k = none := by
  cases hGet : (m.filter p).get? k with
  | none => rfl
  | some v =>
    have hMem := (OrdMap.get?_filter_eq_some.mp hGet).1
    rw [h] at hMem
    cases hMem

theorem NoRows.writeSession (h : d.NoRows sid) (hNe : sid ≠ other) (r : SessionRecord) :
    (d.write other (.record r)).NoRows sid where
  record := by
    show (OrdMap.insert _ _ _).get? sid = none
    rw [OrdMap.get?_insert, if_neg hNe]
    exact h.record
  turns := h.turns
  attachments := h.attachments

theorem NoRows.writeAttachment (h : d.NoRows sid) (hNe : sid ≠ other) (turnId : Nat)
    (slot : String) (data : Bytes) : (d.write other (.attachment turnId slot data)).NoRows sid := by
  by_cases hData : data = []
  · have hSame : d.write other (.attachment turnId slot data) = d := by
      simp [write, Db.writeAttachment, hData]
    rw [hSame]
    exact h
  · have hEq : (d.write other (.attachment turnId slot data)).db =
        { d.db with attachments := d.db.attachments.insert (attachmentKey other turnId slot) data } :=
      by simp [write, Db.writeAttachment, hData]
    refine ⟨?_, ?_, ?_⟩
    · rw [hEq]
      exact h.record
    · rw [hEq]
      exact h.turns
    · intro turnId' slot'
      rw [hEq, OrdMap.get?_insert, if_neg]
      · exact h.attachments turnId' slot'
      · intro hKey
        exact hNe (attachmentKey_eq_iff.mp hKey).1

theorem NoRows.writeTurn (h : d.NoRows sid) (hNe : sid ≠ other) (turnId : Nat) (t : Turn) :
    (d.write other (.turn turnId t)).NoRows sid where
  record := h.record
  turns := by
    intro turnId'
    show (OrdMap.insert _ _ _).get? _ = none
    rw [OrdMap.get?_insert, if_neg]
    · exact h.turns turnId'
    · intro hKey
      exact hNe (turnKey_eq_iff.mp hKey).1
  attachments := by
    intro turnId' slot
    show (OrdMap.insertAll _ _).get? _ = none
    rw [OrdMap.get?_insertAll_of_notMem]
    · exact get?_filter_eq_none (h.attachments turnId' slot)
    · intro e he hKey
      obtain ⟨row, -, rfl⟩ := List.mem_map.mp he
      exact hNe (attachmentKey_eq_iff.mp hKey).1.symm

theorem NoRows.write (h : d.NoRows sid) (hNe : sid ≠ other) (row : RowWrite) :
    (d.write other row).NoRows sid := by
  cases row with
  | record r => exact h.writeSession hNe r
  | turn turnId t => exact h.writeTurn hNe turnId t
  | attachment turnId slot data => exact h.writeAttachment hNe turnId slot data

theorem record_write_eq_none (hNe : sid ≠ other) (h : d.db.sessions.get? sid = none)
    (row : RowWrite) : (d.write other row).db.sessions.get? sid = none := by
  cases row with
  | record r =>
    show (OrdMap.insert _ _ _).get? sid = none
    rw [OrdMap.get?_insert, if_neg hNe]
    exact h
  | turn turnId t => exact h
  | attachment turnId slot data =>
    show (d.db.writeAttachment other turnId slot data).sessions.get? sid = none
    unfold Db.writeAttachment
    split <;> exact h

theorem record_deleteSession_eq_none (h : d.db.sessions.get? sid = none) (other : Nat) :
    (d.deleteSession other).db.sessions.get? sid = none := by
  show (OrdMap.erase _ _).get? sid = none
  rw [OrdMap.get?_erase]
  split
  · rfl
  · exact h

theorem NoRows.deleteSession (h : d.NoRows sid) (other : Nat) :
    (d.deleteSession other).NoRows sid where
  record := record_deleteSession_eq_none h.record other
  turns := fun turnId => get?_filter_eq_none (h.turns turnId)
  attachments := fun turnId slot => get?_filter_eq_none (h.attachments turnId slot)

/-- The rows of a session between `(sid, 0, "")` and `(sid + 1, 0, "")`. -/
theorem attachmentKey_mem_session {turnId : Nat} {slot : String} (hBound : sid + 1 < 2 ^ 64) :
    attachmentKey sid 0 "" ≤ attachmentKey sid turnId slot ∧
      attachmentKey sid turnId slot < attachmentKey (saturatingSucc 64 sid) 0 "" := by
  have hSucc : saturatingSucc 64 sid = sid + 1 := by
    simp only [saturatingSucc]
    omega
  have hLe : ("" : String) ≤ slot := empty_string_le slot
  simp only [attachmentKey, hSucc, Prod.Lex.toLex_le_toLex, Prod.Lex.toLex_lt_toLex]
  constructor
  · right
    refine ⟨trivial, ?_⟩
    by_cases hTurn : 0 < turnId
    · left
      exact hTurn
    · right
      exact ⟨by omega, hLe⟩
  · left
    omega

/-- A deletion removes every row, if the id has a successor. -/
theorem noRows_deleteSession (hBound : sid + 1 < 2 ^ 64) : (d.deleteSession sid).NoRows sid where
  record := by
    show (OrdMap.erase _ _).get? sid = none
    rw [OrdMap.get?_erase, if_pos rfl]
  turns := by
    intro turnId
    cases hGet : (d.deleteSession sid).db.turns.get? (turnKey sid turnId) with
    | none => rfl
    | some t =>
      have hKept := (OrdMap.get?_filter_eq_some.mp hGet).2
      have hRange := (mem_session_turns (k := turnKey sid turnId) hBound).mpr rfl
      simp [hRange.1, hRange.2] at hKept
  attachments := by
    intro turnId slot
    cases hGet : (d.deleteSession sid).db.attachments.get? (attachmentKey sid turnId slot) with
    | none => rfl
    | some data =>
      have hKept := (OrdMap.get?_filter_eq_some.mp hGet).2
      have hRange := @attachmentKey_mem_session sid turnId slot hBound
      simp [hRange.1, hRange.2] at hKept

theorem NoRows.of_db_eq {d' : Disk} (h : d.NoRows sid) (hDb : d'.db = d.db) : d'.NoRows sid := by
  constructor
  · rw [hDb]
    exact h.record
  · rw [hDb]
    exact h.turns
  · rw [hDb]
    exact h.attachments

theorem record_updateSessionFlags_eq_none (h : d.db.sessions.get? sid = none) (other : Nat)
    (pinned : Bool) (archivedAt : Option Int) :
    (d.db.updateSessionFlags other pinned archivedAt).sessions.get? sid = none := by
  unfold Db.updateSessionFlags
  split
  · rename_i existing hExisting
    show (OrdMap.insert _ _ _).get? sid = none
    rw [OrdMap.get?_insert, if_neg]
    · exact h
    · rintro rfl
      rw [h] at hExisting
      cases hExisting
  · exact h

theorem NoRows.updateSessionFlags (h : d.NoRows sid) (other : Nat) (pinned : Bool)
    (archivedAt : Option Int) :
    ({ d with db := d.db.updateSessionFlags other pinned archivedAt } : Disk).NoRows sid where
  record := record_updateSessionFlags_eq_none h.record other pinned archivedAt
  turns := by
    unfold Db.updateSessionFlags
    split <;> exact h.turns
  attachments := by
    unfold Db.updateSessionFlags
    split <;> exact h.attachments

/-! ## Ids in range -/

/-- Only sessions whose id has a successor have rows. -/
def Bounded (d : Disk) : Prop := ∀ sid, sid + 1 < 2 ^ 64 ∨ d.NoRows sid

theorem Bounded.noRows_deleteSession (h : d.Bounded) (sid : Nat) :
    (d.deleteSession sid).NoRows sid := by
  rcases h sid with hBound | hNoRows
  · exact Disk.noRows_deleteSession hBound
  · exact hNoRows.deleteSession sid

theorem Bounded.deleteSession (h : d.Bounded) (sid : Nat) : (d.deleteSession sid).Bounded :=
  fun other => (h other).imp_right fun hNoRows => hNoRows.deleteSession sid

theorem Bounded.write (h : d.Bounded) (hSid : other + 1 < 2 ^ 64) (row : RowWrite) :
    (d.write other row).Bounded := by
  intro sid
  by_cases hEq : sid = other
  · left
    rw [hEq]
    exact hSid
  · exact (h sid).imp_right fun hNoRows => hNoRows.write hEq row

theorem Bounded.of_db_eq {d' : Disk} (h : d.Bounded) (hDb : d'.db = d.db) : d'.Bounded :=
  fun sid => (h sid).imp_right fun hNoRows => hNoRows.of_db_eq hDb

/-! ## Tombstones -/

@[simp] theorem hasTombstone_write (d : Disk) (sid other : Nat) (row : RowWrite) :
    (d.write other row).hasTombstone sid ↔ d.hasTombstone sid := by
  cases row <;> rfl

theorem hasTombstone_mark : (d.markSessionDeleted sid).hasTombstone sid := by
  show (OrdMap.insert _ _ _).get? sid = some ()
  rw [OrdMap.get?_insert, if_pos rfl]

theorem hasTombstone_mark_of (h : d.hasTombstone sid) :
    (d.markSessionDeleted other).hasTombstone sid := by
  show (OrdMap.insert _ _ _).get? sid = some ()
  rw [OrdMap.get?_insert]
  split
  · rfl
  · exact h

theorem hasTombstone_clear (h : d.hasTombstone sid) (hNe : sid ≠ other) :
    (d.clearSessionTombstone other).hasTombstone sid := by
  show (OrdMap.erase _ _).get? sid = some ()
  rw [OrdMap.get?_erase, if_neg hNe]
  exact h

/-! ## The purge at startup -/

theorem purge_foldl (ids : List Nat) (d : Disk) (h : d.Bounded) :
    (ids.foldl (fun d id => (d.deleteSession id).clearSessionTombstone id) d).Bounded ∧
      ∀ sid, sid ∈ ids ∨ d.NoRows sid →
        (ids.foldl (fun d id => (d.deleteSession id).clearSessionTombstone id) d).NoRows sid := by
  induction ids generalizing d with
  | nil => exact ⟨h, fun sid hSid => hSid.resolve_left (by simp)⟩
  | cons id rest ih =>
    have hNext : ((d.deleteSession id).clearSessionTombstone id).Bounded :=
      (h.deleteSession id).of_db_eq rfl
    obtain ⟨hBounded, hRows⟩ := ih _ hNext
    refine ⟨hBounded, fun sid hSid => hRows sid ?_⟩
    rcases hSid with hMem | hNoRows
    · rcases List.mem_cons.mp hMem with rfl | hMem
      · right
        exact (h.noRows_deleteSession sid).of_db_eq rfl
      · left
        exact hMem
    · right
      exact (hNoRows.deleteSession id).of_db_eq rfl

theorem Bounded.purge (h : d.Bounded) : d.purgeTombstonedSessions.Bounded :=
  (purge_foldl _ d h).1

theorem Bounded.noRows_purge (h : d.Bounded) (hSid : d.hasTombstone sid ∨ d.NoRows sid) :
    d.purgeTombstonedSessions.NoRows sid :=
  (purge_foldl _ d h).2 sid
    (hSid.imp_left fun hTombstone => OrdMap.mem_keys_iff.mpr ⟨(), hTombstone⟩)

end Disk

end Choreographr.Daemon
