import Choreographr.Session.Store

/-!
# What the session tables keep

Two facts about sequences of writes. A turn that is written reads back as it
was written, with no trace of an earlier image layout and no effect on other
rows (`turn_storage`). And the two writers of a session record, the session
thread with its whole-record writes and the daemon with its flag updates, never
overwrite each other's part (`record_after_writes`).
-/

namespace Choreographr.Session

open Lib

/-! ## Turns and their images -/

theorem readTurns_largest (db : Db) : db.readTurns (2 ^ 64 - 1) = [] := by
  have hRange : (db.turns.range (turnKey (2 ^ 64 - 1) 0)
      (turnKey (saturatingSucc 64 (2 ^ 64 - 1)) 0)) = OrdMap.empty := by
    apply OrdMap.ext_get?
    intro k
    rw [OrdMap.get?_empty, Option.eq_none_iff_forall_ne_some]
    intro v hv
    obtain ⟨_, hLow, hHigh⟩ := OrdMap.get?_range_eq_some.mp hv
    exact absurd (lt_of_le_of_lt hLow hHigh) (lt_irrefl _)
  rw [Db.readTurns, hRange]
  rfl

theorem mem_readTurns_writeTurn_of_ne {db : Db} {sid tid sid' tid' : Nat} {t t' : Turn}
    (hTid : tid < 2 ^ 32) (hSid' : sid' < 2 ^ 64) (hNe : ¬(sid' = sid ∧ tid' = tid)) :
    (tid', t') ∈ (db.writeTurn sid tid t).readTurns sid' ↔ (tid', t') ∈ db.readTurns sid' := by
  by_cases hLast : sid' + 1 < 2 ^ 64
  · rw [Db.mem_readTurns_iff hLast, Db.mem_readTurns_iff hLast,
      Db.readTurn_writeTurn_frame hTid hNe]
  · have hEq : sid' = 2 ^ 64 - 1 := by omega
    rw [hEq, readTurns_largest, readTurns_largest]

/-- Writing a turn and reading it back. Up to the largest ids, exactly that turn
is read unless two of its results share a call id and carry different bytes;
its slots hold its current images and nothing else; and for every id the rows
of other turns and sessions stay as they were. -/
theorem turn_storage (db : Db) (sid tid : Nat) (t : Turn) (hTid : tid < 2 ^ 32) :
    (sid + 1 < 2 ^ 64 → tid + 1 < 2 ^ 32 →
      ((∀ t', (tid, t') ∈ (db.writeTurn sid tid t).readTurns sid ↔ t' = t) ↔
        t.ResultImagesAgree)) ∧
    (tid + 1 < 2 ^ 32 → ∀ slot,
      (∀ data, (db.writeTurn sid tid t).slotData sid tid slot = some data →
        (slot, data) ∈ t.attachmentRows) ∧
      ((db.writeTurn sid tid t).slotData sid tid slot = none →
        ∀ data, (slot, data) ∉ t.attachmentRows)) ∧
    (db.writeTurn sid tid t).sessions = db.sessions ∧
    ∀ sid' < 2 ^ 64, ∀ tid', ¬(sid' = sid ∧ tid' = tid) →
      (db.writeTurn sid tid t).turns.get? (turnKey sid' tid') =
          db.turns.get? (turnKey sid' tid') ∧
        (∀ slot, (db.writeTurn sid tid t).slotData sid' tid' slot =
          db.slotData sid' tid' slot) ∧
        ∀ t', (tid', t') ∈ (db.writeTurn sid tid t).readTurns sid' ↔
          (tid', t') ∈ db.readTurns sid' := by
  refine ⟨?_, ?_, rfl, ?_⟩
  · intro hSid hTid
    simp only [Db.mem_readTurns_iff hSid]
    rw [← Db.readTurn_writeTurn_self_iff db sid hTid]
    constructor
    · intro h
      exact (h t).mpr rfl
    · intro h t'
      rw [h, Option.some.injEq, eq_comm]
  · intro hTid slot
    rcases Db.slotData_writeTurn_cases db sid t slot hTid with
      ⟨data, hRow, hSlot⟩ | ⟨hNone, hSlot⟩
    · rw [hSlot]
      constructor
      · intro d hd
        cases hd
        exact hRow
      · intro h
        cases h
    · rw [hSlot]
      constructor
      · intro d hd
        cases hd
      · intro _
        exact hNone
  · intro sid' hSid' tid' hNe
    exact ⟨Db.turns_writeTurn_of_ne hNe, Db.slotData_writeTurn_of_ne hTid hNe,
      fun t' => mem_readTurns_writeTurn_of_ne hTid hSid' hNe⟩

/-- A turn that shows images with the given bytes and has one result, with an
image, for each given call. -/
def imageTurn (displayed : List Bytes) (results : List (String × Bytes)) : Turn where
  displayedImages := displayed.map fun data => ⟨⟨"image/png", 1, 1, 1, none⟩, data, none⟩
  toolResults := results.map fun r =>
    ⟨r.1, "view", "", false, "", some ⟨"a.png", "image/png", 1, 1, r.2⟩⟩

/-- A turn is rewritten with its first image emptied and another one added. -/
theorem turn_storage_after_rewrite :
    (∀ t', (0, t') ∈ ((Db.empty.writeTurn 1 0 (imageTurn [[1]] [("call_1", [2])])).writeTurn 1 0
        (imageTurn [[], [3]] [("call_1", [4])])).readTurns 1 ↔
      t' = imageTurn [[], [3]] [("call_1", [4])]) ∧
    ((Db.empty.writeTurn 1 0 (imageTurn [[1]] [("call_1", [2])])).writeTurn 1 0
        (imageTurn [[], [3]] [("call_1", [4])])).slotData 1 0 (displaySlot 0) = none := by
  have hStorage := turn_storage (Db.empty.writeTurn 1 0 (imageTurn [[1]] [("call_1", [2])])) 1 0
    (imageTurn [[], [3]] [("call_1", [4])]) (by decide)
  refine ⟨(hStorage.1 (by decide) (by decide)).mpr (by decide), ?_⟩
  rw [Option.eq_none_iff_forall_ne_some]
  intro data hData
  obtain ⟨image, hImage, hEq, hNe⟩ :=
    Turn.mem_attachmentRows_display.mp ((hStorage.2.1 (by decide) _).1 data hData)
  cases hImage
  exact hNe hEq.symm

/-- The largest session id reads nothing back, the largest turn id keeps the
slots of an earlier layout, and results that share a call id share a slot. -/
theorem turn_storage_fails_at_largest_ids :
    (Db.empty.writeTurn (2 ^ 64 - 1) 0 (imageTurn [] [])).readTurns (2 ^ 64 - 1) = [] ∧
    (((Db.empty.writeTurn 1 (2 ^ 32 - 1) (imageTurn [[1]] [])).writeTurn 1 (2 ^ 32 - 1)
      (imageTurn [] [])).slotData 1 (2 ^ 32 - 1) (displaySlot 0) = some [1] ∧
      ((Db.empty.writeTurn 1 (2 ^ 32 - 1) (imageTurn [[1]] [])).writeTurn 1 (2 ^ 32 - 1)
        (imageTurn [[]] [])).readTurns 1 = [(2 ^ 32 - 1, imageTurn [[1]] [])]) ∧
    (Db.empty.writeTurn 1 0 (imageTurn [] [("call_1", [1]), ("call_1", [2])])).readTurns 1 =
      [(0, imageTurn [] [("call_1", [2]), ("call_1", [2])])] := by
  decide +kernel

/-! ## Records and their flags -/

/-- One write to the record of a session. -/
inductive RecordWrite where
  | session (record : SessionRecord)
  | flags (pinned : Bool) (archivedAt : Option Int)

namespace RecordWrite

def isFlags : RecordWrite → Bool
  | .flags _ _ => true
  | .session _ => false

def apply (sid : Nat) (db : Db) : RecordWrite → Db
  | .session record => db.writeSession sid record
  | .flags pinned archivedAt => db.updateSessionFlags sid pinned archivedAt

/-- The database after a sequence of writes to one session. Each write is one
transaction, so every interleaving of the writers is such a sequence. -/
def applyAll (sid : Nat) (db : Db) (writes : List RecordWrite) : Db :=
  writes.foldl (apply sid) db

end RecordWrite

/-- The part of a record that only the daemon sets. -/
def SessionRecord.flags (r : SessionRecord) : Bool × Option Int := (r.pinned, r.archivedAt)

/-- The part of a record that the session thread owns. -/
def SessionRecord.withoutFlags (r : SessionRecord) : SessionRecord :=
  { r with pinned := false, archivedAt := none }

def Db.record (db : Db) (sid : Nat) : Option SessionRecord := db.sessions.get? sid

section Flags

variable {sid : Nat} {db : Db}

theorem record_writeSession (sid : Nat) (db : Db) (record : SessionRecord) :
    ∃ stored, (db.writeSession sid record).record sid = some stored ∧
      stored.withoutFlags = record.withoutFlags ∧
      stored.flags = ((db.record sid).getD record).flags := by
  simp only [Db.record, Db.writeSession, OrdMap.get?_insert, if_true, Option.some.injEq,
    exists_eq_left']
  cases db.sessions.get? sid with
  | none => exact ⟨rfl, rfl⟩
  | some existing => exact ⟨rfl, rfl⟩

theorem record_updateSessionFlags {existing : SessionRecord} (h : db.record sid = some existing)
    (pinned : Bool) (archivedAt : Option Int) :
    ∃ stored, (db.updateSessionFlags sid pinned archivedAt).record sid = some stored ∧
      stored.withoutFlags = existing.withoutFlags ∧ stored.flags = (pinned, archivedAt) := by
  rw [Db.record] at h
  refine ⟨{ existing with pinned := pinned, archivedAt := archivedAt }, ?_, rfl, rfl⟩
  simp [Db.record, Db.updateSessionFlags, h]

/-- Whole-record writes keep the stored flags. -/
theorem flags_applyAll {writes : List RecordWrite} {existing : SessionRecord}
    (h : db.record sid = some existing) (hNone : ∀ w ∈ writes, w.isFlags = false) :
    ∃ stored, (RecordWrite.applyAll sid db writes).record sid = some stored ∧
      stored.flags = existing.flags := by
  induction writes generalizing db existing with
  | nil => exact ⟨existing, h, rfl⟩
  | cons w rest ih =>
    have hRest : ∀ w ∈ rest, w.isFlags = false := fun w hw => hNone w (List.mem_cons_of_mem _ hw)
    cases w with
    | flags pinned archivedAt => cases hNone _ List.mem_cons_self
    | session record =>
      obtain ⟨stored, hStored, _, hFlags⟩ := record_writeSession sid db record
      rw [h, Option.getD_some] at hFlags
      obtain ⟨last, hLast, hLastFlags⟩ := ih hStored hRest
      exact ⟨last, hLast, hLastFlags.trans hFlags⟩

/-- Flag updates keep the session thread's part. -/
theorem withoutFlags_applyAll {writes : List RecordWrite} {existing : SessionRecord}
    (h : db.record sid = some existing) (hAll : ∀ w ∈ writes, w.isFlags = true) :
    ∃ stored, (RecordWrite.applyAll sid db writes).record sid = some stored ∧
      stored.withoutFlags = existing.withoutFlags := by
  induction writes generalizing db existing with
  | nil => exact ⟨existing, h, rfl⟩
  | cons w rest ih =>
    have hRest : ∀ w ∈ rest, w.isFlags = true := fun w hw => hAll w (List.mem_cons_of_mem _ hw)
    cases w with
    | session record => cases hAll _ List.mem_cons_self
    | flags pinned archivedAt =>
      obtain ⟨stored, hStored, hFields, _⟩ := record_updateSessionFlags h pinned archivedAt
      obtain ⟨last, hLast, hLastFields⟩ := ih hStored hRest
      exact ⟨last, hLast, hLastFields.trans hFields⟩

end Flags

/-- After any sequence of writes from the two writers, the record carries the
fields of the latest whole-record write, and the flags of the latest update
that found a record; an update that finds none changes nothing. Without an
update the flags stay what they were. -/
theorem record_after_writes (db : Db) (sid : Nat) (writes : List RecordWrite) :
    (∀ before record after, writes = before ++ .session record :: after →
      (∀ w ∈ after, w.isFlags = true) →
      ∃ stored, (RecordWrite.applyAll sid db writes).record sid = some stored ∧
        stored.withoutFlags = record.withoutFlags) ∧
    (∀ before pinned archivedAt after, writes = before ++ .flags pinned archivedAt :: after →
      (∀ w ∈ after, w.isFlags = false) →
      (∀ existing, (RecordWrite.applyAll sid db before).record sid = some existing →
        ∃ stored, (RecordWrite.applyAll sid db writes).record sid = some stored ∧
          stored.flags = (pinned, archivedAt)) ∧
      ((RecordWrite.applyAll sid db before).record sid = none →
        RecordWrite.applyAll sid db writes = RecordWrite.applyAll sid db (before ++ after))) ∧
    (∀ existing, db.record sid = some existing → (∀ w ∈ writes, w.isFlags = false) →
      ∃ stored, (RecordWrite.applyAll sid db writes).record sid = some stored ∧
        stored.flags = existing.flags) := by
  refine ⟨?_, ?_, ?_⟩
  · rintro before record after rfl hAfter
    obtain ⟨stored, hStored, hFields, _⟩ := record_writeSession sid
      (RecordWrite.applyAll sid db before) record
    obtain ⟨last, hLast, hLastFields⟩ := withoutFlags_applyAll hStored hAfter
    rw [RecordWrite.applyAll, List.foldl_append]
    exact ⟨last, hLast, hLastFields.trans hFields⟩
  · rintro before pinned archivedAt after rfl hAfter
    constructor
    · intro existing hExisting
      obtain ⟨stored, hStored, _, hFlags⟩ := record_updateSessionFlags hExisting pinned archivedAt
      obtain ⟨last, hLast, hLastFlags⟩ := flags_applyAll hStored hAfter
      rw [RecordWrite.applyAll, List.foldl_append]
      exact ⟨last, hLast, hLastFlags.trans hFlags⟩
    · intro hNone
      have hSame : RecordWrite.apply sid (RecordWrite.applyAll sid db before)
          (.flags pinned archivedAt) = RecordWrite.applyAll sid db before := by
        rw [Db.record] at hNone
        simp only [RecordWrite.apply, Db.updateSessionFlags, hNone]
      simp only [RecordWrite.applyAll, List.foldl_append, List.foldl_cons] at hSame ⊢
      rw [hSame]
  · intro existing hExisting hNone
    exact flags_applyAll hExisting hNone

/-- A new session's record. -/
def sampleRecord : SessionRecord := SessionState.empty.toRecord

/-- An update before the first write finds no record and is lost. -/
theorem flags_lost_before_first_write :
    ((RecordWrite.applyAll 1 Db.empty [.flags true none, .session sampleRecord]).record 1).map
      SessionRecord.flags = some (false, none) := by
  decide +kernel

end Choreographr.Session
