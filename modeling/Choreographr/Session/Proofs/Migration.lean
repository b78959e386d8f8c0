import Choreographr.Session.Migration

/-!
# Migrations keep the turns

The migration rewrites every row that is not a frame (`upgradeRow`), so a
second application changes nothing, and a run that a crash cut short is
finished by the next one (`migration_safety`). A row keeps its turn unless the
turn is longer than what the reader of version 2 accepts.
-/

namespace Choreographr.Session

open Lib

variable {db : RawDb}

/-! ## Rows -/

/-- What the migration does to one row. -/
def upgradeRow (codec : TurnCodec) (row : Bytes) : Bytes :=
  if zstdFrameMagic.isPrefixOf row then row else codec.zstdEncode row

section Rows

variable {codec : TurnCodec}

theorem upgradeRow_upgradeRow (h : codec.Lawful) (row : Bytes) :
    upgradeRow codec (upgradeRow codec row) = upgradeRow codec row := by
  unfold upgradeRow
  by_cases hMagic : zstdFrameMagic.isPrefixOf row = true
  · simp only [hMagic, if_true]
  · simp only [hMagic, if_false, TurnCodec.zstdEncode, h.magic row, if_true, Bool.false_eq_true]

theorem zstdDecode_zstdEncode (h : codec.Lawful) (row : Bytes) :
    codec.zstdDecode (codec.zstdEncode row) =
      if maxTurnDecodedBytes < row.length then
        .error ("turn frame expands past " ++ maxTurnDecodedBytes.repr ++ " bytes; refusing")
      else .ok row := by
  unfold TurnCodec.zstdDecode TurnCodec.zstdDecodeWithLimit TurnCodec.zstdEncode
  rw [h.frameSize, h.decode]
  simp only [ne_eq, not_true_eq_false, if_false]

theorem decodeRowV2_zstdEncode (h : codec.Lawful) (row : Bytes) :
    codec.decodeRowV2 (codec.zstdEncode row) =
      if maxTurnDecodedBytes < row.length then none else codec.decodeRowV1 row := by
  rw [TurnCodec.decodeRowV2, zstdDecode_zstdEncode h]
  split
  · rfl
  · rfl

/-- A row that the migration carries over: it is not a frame yet, and it is
either short enough for the reader of version 2 or no turn at all. -/
def Carried (codec : TurnCodec) (row : Bytes) : Prop :=
  zstdFrameMagic.isPrefixOf row = false ∧
    (row.length ≤ maxTurnDecodedBytes ∨ codec.decodeRowV1 row = none)

theorem decodeRowV2_upgradeRow (h : codec.Lawful) {row : Bytes} (hCarried : Carried codec row) :
    codec.decodeRowV2 (upgradeRow codec row) = codec.decodeRowV1 row := by
  obtain ⟨hMagic, hFits⟩ := hCarried
  rw [upgradeRow, hMagic, if_neg Bool.false_ne_true, decodeRowV2_zstdEncode h]
  split
  · rename_i hLong
    rcases hFits with hFits | hNone
    · omega
    · exact hNone.symm
  · rfl

end Rows

/-! ## The table -/

/-- The database with every row rewritten. -/
def RawDb.upgraded (codec : TurnCodec) (db : RawDb) : RawDb :=
  { db with turns := db.turns.mapVal fun _ row => upgradeRow codec row }

section Table

variable {codec : TurnCodec}

theorem upgraded_upgraded (h : codec.Lawful) (db : RawDb) :
    (db.upgraded codec).upgraded codec = db.upgraded codec := by
  have hTurns : ((db.turns.mapVal fun _ row => upgradeRow codec row).mapVal
      fun _ row => upgradeRow codec row) = db.turns.mapVal fun _ row => upgradeRow codec row := by
    apply OrdMap.ext_get?
    intro k
    simp only [OrdMap.get?_mapVal, Option.map_map]
    congr 1
    funext row
    exact upgradeRow_upgradeRow h row
  simp only [RawDb.upgraded, hTurns]

/-- Re-encoding rows that are all there succeeds and touches no other row. -/
theorem reencodeTurns_eq {keys : List TurnKey} {turns : OrdMap TurnKey Bytes}
    (hNodup : keys.Nodup) (hKeys : ∀ k ∈ keys, k ∈ turns.keys) :
    reencodeTurns codec keys turns =
      .ok (turns.mapVal fun k row => if k ∈ keys then codec.zstdEncode row else row) := by
  induction keys generalizing turns with
  | nil =>
    have hSame : (turns.mapVal fun k row =>
        if k ∈ ([] : List TurnKey) then codec.zstdEncode row else row) = turns := by
      apply OrdMap.ext_get?
      intro k
      simp
    rw [hSame]
    rfl
  | cons key rest ih =>
    obtain ⟨hFresh, hRest⟩ := List.nodup_cons.mp hNodup
    obtain ⟨row, hRow⟩ := OrdMap.mem_keys_iff.mp (hKeys key List.mem_cons_self)
    have hPresent : ∀ k ∈ rest, k ∈ (turns.insert key (codec.zstdEncode row)).keys := by
      intro k hk
      obtain ⟨v, hv⟩ := OrdMap.mem_keys_iff.mp (hKeys k (List.mem_cons_of_mem _ hk))
      apply OrdMap.mem_keys_iff.mpr
      rw [OrdMap.get?_insert]
      split
      · exact ⟨_, rfl⟩
      · exact ⟨v, hv⟩
    have hStep : reencodeTurns codec (key :: rest) turns =
        reencodeTurns codec rest (turns.insert key (codec.zstdEncode row)) := by
      simp only [reencodeTurns, List.foldlM_cons, hRow]
      rfl
    rw [hStep, ih hRest hPresent]
    congr 1
    apply OrdMap.ext_get?
    intro k
    simp only [OrdMap.get?_mapVal, OrdMap.get?_insert, List.mem_cons]
    by_cases hKey : k = key
    · subst hKey
      simp [hFresh, hRow]
    · simp [hKey]

theorem mem_rawTurnKeys {turns : OrdMap TurnKey Bytes} {k : TurnKey} {row : Bytes}
    (h : turns.get? k = some row) :
    k ∈ rawTurnKeys turns ↔ zstdFrameMagic.isPrefixOf row = false := by
  have hRow := OrdMap.get?_eq_some_iff.mp h
  simp only [rawTurnKeys, List.mem_map, List.mem_filter, Bool.not_eq_true']
  constructor
  · rintro ⟨e, ⟨hMem, hMagic⟩, rfl⟩
    rw [OrdMap.get?_eq_some_iff.mpr (show (e.1, e.2) ∈ _ from hMem)] at h
    cases h
    exact hMagic
  · intro hMagic
    exact ⟨(k, row), ⟨hRow, hMagic⟩, rfl⟩

/-- The migration rewrites every row, or writes nothing because every row is a
frame. -/
theorem migrateTurnValuesToZstd_eq (db : RawDb) :
    migrateTurnValuesToZstd codec db =
      .ok (if rawTurnKeys db.turns = [] then none else some (db.upgraded codec)) := by
  have hNodup : (rawTurnKeys db.turns).Nodup :=
    List.Nodup.sublist (List.Sublist.map _ List.filter_sublist) db.turns.keys_nodup
  have hPresent : ∀ k ∈ rawTurnKeys db.turns, k ∈ db.turns.keys := by
    intro k hk
    obtain ⟨e, he, rfl⟩ := List.mem_map.mp hk
    exact List.mem_map.mpr ⟨e, List.mem_of_mem_filter he, rfl⟩
  have hTurns : (db.turns.mapVal fun k row =>
      if k ∈ rawTurnKeys db.turns then codec.zstdEncode row else row) =
        db.turns.mapVal fun _ row => upgradeRow codec row := by
    apply OrdMap.ext_get?
    intro k
    rw [OrdMap.get?_mapVal, OrdMap.get?_mapVal]
    cases hGet : db.turns.get? k with
    | none => rfl
    | some row =>
      simp only [Option.map_some, mem_rawTurnKeys hGet, upgradeRow]
      cases zstdFrameMagic.isPrefixOf row <;> rfl
  unfold migrateTurnValuesToZstd
  simp only [List.isEmpty_iff, reencodeTurns_eq hNodup hPresent, hTurns]
  split
  · rfl
  · rfl

theorem upgraded_eq_self (h : rawTurnKeys db.turns = []) : db.upgraded codec = db := by
  have hTurns : (db.turns.mapVal fun _ row => upgradeRow codec row) = db.turns := by
    apply OrdMap.ext_get?
    intro k
    rw [OrdMap.get?_mapVal]
    cases hGet : db.turns.get? k with
    | none => rfl
    | some row =>
      have hMagic : zstdFrameMagic.isPrefixOf row = true := by
        by_contra hNot
        have hMem := (mem_rawTurnKeys hGet).mpr (Bool.not_eq_true _ ▸ hNot)
        rw [h] at hMem
        cases hMem
      simp only [Option.map_some, upgradeRow, hMagic, if_true]
  rw [RawDb.upgraded, hTurns]

theorem session_of_scan {sid : Nat} {e : TurnKey × Bytes}
    (he : e ∈ (db.turns.range (turnKey sid 0) (turnKey (saturatingSucc 64 sid) 0)).entries) :
    (ofLex e.1).1 = sid ∧ db.turns.get? e.1 = some e.2 := by
  obtain ⟨hGet, hLow, hHigh⟩ := OrdMap.get?_range_eq_some.mp
    (OrdMap.get?_eq_some_iff.mpr (show (e.1, e.2) ∈ _ from he))
  refine ⟨?_, hGet⟩
  obtain ⟨⟨sid', tid'⟩, hKey⟩ := toLex.surjective e.1
  rw [← hKey] at hLow hHigh ⊢
  simp only [turnKey, saturatingSucc, Prod.Lex.toLex_le_toLex, Prod.Lex.toLex_lt_toLex] at hLow hHigh
  simp only [ofLex_toLex]
  omega

theorem readTurns_upgraded (h : codec.Lawful) {sid : Nat} (version : Nat)
    (hRows : ∀ k row, (ofLex k).1 = sid → db.turns.get? k = some row → Carried codec row) :
    ((db.upgraded codec).stampSchemaVersion version).readTurns codec.decodeRowV2 sid =
      db.readTurns codec.decodeRowV1 sid := by
  simp only [RawDb.readTurns, RawDb.stampSchemaVersion, RawDb.upgraded, OrdMap.range_mapVal]
  rw [OrdMap.mapVal, List.filterMap_map]
  apply List.filterMap_congr
  intro e he
  obtain ⟨hSid, hGet⟩ := session_of_scan he
  simp only [Function.comp_apply, decodeRowV2_upgradeRow h (hRows e.1 e.2 hSid hGet)]

end Table

/-! ## Runs of the runner -/

/-- The runner refuses before it writes, or a migration fails, or the database
ends with the target version. -/
theorem applyMigrations_result (target : Nat) (chain : List Migration) (db : RawDb) :
    ((applyMigrations target chain db).result = .ok () ∧
        (db.after (applyMigrations target chain db).events).schemaVersion = some target) ∨
      ∃ m ∈ chain, ∃ db' e, m.run db' = .error e := by
  induction chain generalizing db with
  | nil =>
    left
    exact ⟨rfl, rfl⟩
  | cons m rest ih =>
    unfold applyMigrations
    split
    · rename_i e hRun
      right
      exact ⟨m, List.mem_cons_self, db, e, hRun⟩
    · rename_i hRun
      rcases ih db with ⟨hResult, hVersion⟩ | ⟨m', hm', hFail⟩
      · left
        exact ⟨hResult, hVersion⟩
      · right
        exact ⟨m', List.mem_cons_of_mem _ hm', hFail⟩
    · rename_i db' hRun
      rcases ih db' with ⟨hResult, hVersion⟩ | ⟨m', hm', hFail⟩
      · left
        exact ⟨hResult, hVersion⟩
      · right
        exact ⟨m', List.mem_cons_of_mem _ hm', hFail⟩

theorem after_backup (db : RawDb) (source : Nat) (skip : Bool) (events : List MigrationEvent) :
    db.after ((if skip then [] else [MigrationEvent.backup source]) ++ events) =
      db.after events := by
  cases skip <;> rfl

theorem runMigrationsTo_result (target : Nat) (chain : List Migration) (db : RawDb) :
    ((runMigrationsTo target chain db).events = [] ∧
        ∃ e, (runMigrationsTo target chain db).result = .error e) ∨
      ((runMigrationsTo target chain db).result = .ok () ∧
        (db.after (runMigrationsTo target chain db).events).currentSchemaVersion = target) ∨
      ∃ m ∈ chain, ∃ db' e, m.run db' = .error e := by
  unfold runMigrationsTo
  simp only
  split
  · left
    exact ⟨rfl, _, rfl⟩
  · split
    · left
      exact ⟨rfl, _, rfl⟩
    · split
      · rename_i hSame
        right
        left
        exact ⟨rfl, hSame⟩
      · split
        · left
          exact ⟨rfl, _, rfl⟩
        · right
          rcases applyMigrations_result target
            (chain.filter fun m : Migration => db.currentSchemaVersion ≤ m.source) db with
            ⟨hResult, hVersion⟩ | ⟨m, hm, hFail⟩
          · left
            refine ⟨hResult, ?_⟩
            rw [after_backup, RawDb.currentSchemaVersion, hVersion]
            rfl
          · right
            exact ⟨m, List.mem_of_mem_filter hm, hFail⟩

section Production

variable {codec : TurnCodec}

theorem runMigrations_refuses
    (h : db.currentSchemaVersion = 0 ∨ schemaVersion < db.currentSchemaVersion) :
    (runMigrations codec db).events = [] ∧ ∃ e, (runMigrations codec db).result = .error e := by
  unfold runMigrations runMigrationsTo
  simp only
  split
  · exact ⟨rfl, _, rfl⟩
  · rename_i hNotNewer
    rcases h with hZero | hNewer
    · rw [if_pos ⟨hZero, by decide⟩]
      exact ⟨rfl, _, rfl⟩
    · exact absurd hNewer hNotNewer

theorem runMigrations_current (h : db.currentSchemaVersion = schemaVersion) :
    runMigrations codec db = ⟨[], .ok ()⟩ := by
  unfold runMigrations runMigrationsTo
  simp only [h]
  rfl

theorem runMigrations_writes_nothing (h : db.currentSchemaVersion ≠ 1) :
    (runMigrations codec db).events = [] := by
  by_cases hTwo : db.currentSchemaVersion = schemaVersion
  · rw [runMigrations_current hTwo]
  · have hVersion : schemaVersion = 2 := rfl
    exact (runMigrations_refuses (by omega)).1

/-- The whole run on a database of version 1. -/
theorem runMigrations_v1 (h : db.currentSchemaVersion = 1) :
    runMigrations codec db =
      ⟨[MigrationEvent.backup 1, MigrationEvent.apply 1] ++
        (if rawTurnKeys db.turns = [] then [] else [MigrationEvent.commit (db.upgraded codec)]) ++
        [MigrationEvent.commit ((db.upgraded codec).stampSchemaVersion schemaVersion)],
        .ok ()⟩ := by
  have hApply : applyMigrations schemaVersion (migrations codec) db =
      ⟨.apply 1 :: ((if rawTurnKeys db.turns = [] then [] else [.commit (db.upgraded codec)]) ++
        [.commit ((db.upgraded codec).stampSchemaVersion schemaVersion)]), .ok ()⟩ := by
    simp only [migrations, applyMigrations, migrateTurnValuesToZstd_eq]
    by_cases hKeys : rawTurnKeys db.turns = []
    · simp only [hKeys, if_true, upgraded_eq_self hKeys, List.nil_append]
    · simp only [hKeys, if_false, List.singleton_append]
  have hChain : (migrations codec).filter (fun m : Migration => 1 ≤ m.source) =
      migrations codec := rfl
  unfold runMigrations runMigrationsTo
  simp only [h, hChain, hApply]
  rfl

theorem migrationBackupVersion_eq (db : RawDb) :
    migrationBackupVersion codec db = if db.currentSchemaVersion = 1 then some 1 else none := by
  unfold migrationBackupVersion
  simp only
  by_cases hOne : db.currentSchemaVersion = 1
  · simp only [hOne]
    rfl
  · have hGate : db.currentSchemaVersion = 0 ∨ schemaVersion ≤ db.currentSchemaVersion ∨
        (migrations codec).isEmpty = true := by
      have hTwo : schemaVersion = 2 := rfl
      omega
    rw [if_pos hGate, if_neg hOne]

/-- The reader that belongs to a version. -/
def TurnCodec.decodeRow (codec : TurnCodec) (version : Nat) : Bytes → Option Turn :=
  if version < 2 then codec.decodeRowV1 else codec.decodeRowV2

/-- The state in which a complete run leaves the database. -/
def RawDb.migrated (codec : TurnCodec) (db : RawDb) : RawDb :=
  db.after (runMigrations codec db).events

theorem migrated_v1 (h : db.currentSchemaVersion = 1) :
    db.migrated codec = (db.upgraded codec).stampSchemaVersion schemaVersion := by
  rw [RawDb.migrated, runMigrations_v1 h]
  split <;> rfl

/-- A run on version 1 that is cut short leaves the database as it was, or all
of its rows rewritten under the old version, or it was not cut short. -/
theorem crash_states (codec : TurnCodec) (h : db.currentSchemaVersion = 1) (n : Nat) :
    db.after ((runMigrations codec db).events.take n) = db ∨
      db.after ((runMigrations codec db).events.take n) = db.upgraded codec ∨
      db.after ((runMigrations codec db).events.take n) =
        (db.upgraded codec).stampSchemaVersion schemaVersion := by
  rw [runMigrations_v1 h]
  by_cases hKeys : rawTurnKeys db.turns = []
  · simp only [hKeys, if_true, List.append_nil, List.cons_append, List.nil_append]
    rcases n with _ | _ | _ | n
    · exact Or.inl rfl
    · exact Or.inl rfl
    · exact Or.inl rfl
    · right
      right
      simp only [List.take_succ_cons, List.take_nil]
      rfl
  · simp only [hKeys, if_false, List.cons_append, List.nil_append]
    rcases n with _ | _ | _ | _ | n
    · exact Or.inl rfl
    · exact Or.inl rfl
    · exact Or.inl rfl
    · right
      left
      rfl
    · right
      right
      simp only [List.take_succ_cons, List.take_nil]
      rfl

/-- Running again after a crash ends like one complete run. -/
theorem rerun_after_crash (hCodec : codec.Lawful) (db : RawDb) (n : Nat) :
    (db.after ((runMigrations codec db).events.take n)).migrated codec = db.migrated codec ∧
      (runMigrations codec (db.after ((runMigrations codec db).events.take n))).result =
        (runMigrations codec db).result := by
  by_cases hOne : db.currentSchemaVersion = 1
  · have hUpgraded : (db.upgraded codec).currentSchemaVersion = 1 := hOne
    have hStamped : ((db.upgraded codec).stampSchemaVersion
        schemaVersion).currentSchemaVersion = schemaVersion := rfl
    rcases crash_states codec hOne n with hState | hState | hState
    · rw [hState]
      exact ⟨rfl, rfl⟩
    · rw [hState, migrated_v1 hOne, migrated_v1 hUpgraded, upgraded_upgraded hCodec,
        runMigrations_v1 hOne, runMigrations_v1 hUpgraded]
      exact ⟨rfl, rfl⟩
    · rw [hState, migrated_v1 hOne, runMigrations_v1 hOne, RawDb.migrated,
        runMigrations_current hStamped]
      exact ⟨rfl, rfl⟩
  · rw [runMigrations_writes_nothing hOne, List.take_nil]
    exact ⟨rfl, rfl⟩

theorem backup_mem_events_iff (db : RawDb) (version : Nat) :
    .backup version ∈ (runMigrations codec db).events ↔
      migrationBackupVersion codec db = some version := by
  rw [migrationBackupVersion_eq]
  by_cases hOne : db.currentSchemaVersion = 1
  · rw [runMigrations_v1 hOne, if_pos hOne]
    by_cases hKeys : rawTurnKeys db.turns = []
    · simp [hKeys, eq_comm]
    · simp [hKeys, eq_comm]
  · rw [if_neg hOne, runMigrations_writes_nothing hOne]
    simp

theorem apply_mem_events_iff (db : RawDb) :
    (∃ source, .apply source ∈ (runMigrations codec db).events) ↔
      (migrationBackupVersion codec db).isSome = true := by
  rw [migrationBackupVersion_eq]
  by_cases hOne : db.currentSchemaVersion = 1
  · rw [runMigrations_v1 hOne, if_pos hOne]
    exact iff_of_true ⟨1, by simp⟩ rfl
  · rw [if_neg hOne, runMigrations_writes_nothing hOne]
    simp

/-- A supported database ends with the version of this binary and the turns it
had. -/
theorem runMigrations_keeps_turns (hCodec : codec.Lawful)
    (h : db.currentSchemaVersion = 1 ∨ db.currentSchemaVersion = schemaVersion) :
    (runMigrations codec db).result = .ok () ∧
      (db.migrated codec).schemaVersion = some schemaVersion ∧
      (db.migrated codec).attachments = db.attachments ∧
      ∀ sid, (db.currentSchemaVersion = 1 → ∀ k row, (ofLex k).1 = sid →
          db.turns.get? k = some row → Carried codec row) →
        (db.migrated codec).readTurns (codec.decodeRow schemaVersion) sid =
          db.readTurns (codec.decodeRow db.currentSchemaVersion) sid := by
  rcases h with hOne | hTwo
  · rw [migrated_v1 hOne, runMigrations_v1 hOne]
    refine ⟨rfl, rfl, rfl, ?_⟩
    intro sid hRows
    rw [hOne]
    exact readTurns_upgraded hCodec schemaVersion (hRows hOne)
  · have hMigrated : db.migrated codec = db := by
      rw [RawDb.migrated, runMigrations_current hTwo]
      rfl
    rw [hMigrated, runMigrations_current hTwo]
    refine ⟨rfl, ?_, rfl, ?_⟩
    · rw [RawDb.currentSchemaVersion] at hTwo
      cases hStored : db.schemaVersion with
      | none => rw [hStored] at hTwo; cases hTwo
      | some version =>
        rw [hStored] at hTwo
        exact congrArg some hTwo
    · intro sid _
      rw [hTwo]

end Production

/-- The runner on every database. Whatever the target and the chain, it refuses
before it writes, or some migration fails, or it ends at the target version.
With the chain of this binary it refuses a database without a version or from
the future; every other one ends at its version, with the turns it had in every
session whose rows are carried over; a run cut short at any point is finished by
the next one; and a backup is asked for exactly when a migration is applied. -/
theorem migration_safety {codec : TurnCodec} (hCodec : codec.Lawful) (db : RawDb) :
    (∀ target chain,
      ((runMigrationsTo target chain db).events = [] ∧
          ∃ e, (runMigrationsTo target chain db).result = .error e) ∨
        ((runMigrationsTo target chain db).result = .ok () ∧
          (db.after (runMigrationsTo target chain db).events).currentSchemaVersion = target) ∨
        ∃ m ∈ chain, ∃ db' e, m.run db' = .error e) ∧
    (db.currentSchemaVersion = 0 ∨ schemaVersion < db.currentSchemaVersion →
      (runMigrations codec db).events = [] ∧
        ∃ e, (runMigrations codec db).result = .error e) ∧
    (db.currentSchemaVersion = 1 ∨ db.currentSchemaVersion = schemaVersion →
      (runMigrations codec db).result = .ok () ∧
        (db.migrated codec).schemaVersion = some schemaVersion ∧
        (db.migrated codec).attachments = db.attachments ∧
        ∀ sid, (db.currentSchemaVersion = 1 → ∀ k row, (ofLex k).1 = sid →
            db.turns.get? k = some row → Carried codec row) →
          (db.migrated codec).readTurns (codec.decodeRow schemaVersion) sid =
            db.readTurns (codec.decodeRow db.currentSchemaVersion) sid) ∧
    (∀ n, (db.after ((runMigrations codec db).events.take n)).migrated codec =
          db.migrated codec ∧
        (runMigrations codec (db.after ((runMigrations codec db).events.take n))).result =
          (runMigrations codec db).result) ∧
    (∀ version, .backup version ∈ (runMigrations codec db).events ↔
      migrationBackupVersion codec db = some version) ∧
    ((∃ source, .apply source ∈ (runMigrations codec db).events) ↔
      (migrationBackupVersion codec db).isSome = true) :=
  ⟨fun target chain => runMigrationsTo_result target chain db, runMigrations_refuses,
    runMigrations_keeps_turns hCodec, rerun_after_crash hCodec db, backup_mem_events_iff db,
    apply_mem_events_iff db⟩

/-- Frames that store their content as it is, and turns that are the map with
thirteen fields. -/
def storedFrames : TurnCodec where
  fromSlice row := if row.head? = some 0x8D then .ok {} else .error "not a turn"
  compressSlice payload := zstdFrameMagic ++ payload
  findFrameCompressedSize blob :=
    if zstdFrameMagic.isPrefixOf blob then .ok blob.length else .error "BadMagicNumber"
  streamingDecoder blob := .ok (blob.drop zstdFrameMagic.length)

theorem storedFrames_lawful : storedFrames.Lawful where
  magic raw := by
    rw [storedFrames, List.isPrefixOf_iff_prefix]
    exact List.prefix_append _ _
  frameSize raw := by
    have hMagic : zstdFrameMagic.isPrefixOf (zstdFrameMagic ++ raw) = true := by
      rw [List.isPrefixOf_iff_prefix]
      exact List.prefix_append _ _
    simp only [storedFrames, hMagic, if_true]
  decode raw := by
    simp only [storedFrames, List.drop_left]

/-- A database of version 1 with one row. -/
def oneRowDb (row : Bytes) : RawDb where
  schemaVersion := some 1
  turns := OrdMap.empty.insert (turnKey 1 0) row
  attachments := OrdMap.empty

/-- A short turn is carried over, and a crash after the rewrite changes
nothing. -/
theorem migration_safety_short_row :
    ((oneRowDb [0x8D]).migrated storedFrames).schemaVersion = some 2 ∧
      ((oneRowDb [0x8D]).migrated storedFrames).readTurns (storedFrames.decodeRow 2) 1 =
        [(0, {})] ∧
      ((oneRowDb [0x8D]).after ((runMigrations storedFrames (oneRowDb [0x8D])).events.take 3)).migrated
        storedFrames = (oneRowDb [0x8D]).migrated storedFrames := by
  obtain ⟨_, _, hKeeps, hCrash, _⟩ := migration_safety storedFrames_lawful (oneRowDb [0x8D])
  obtain ⟨_, hVersion, _, hTurns⟩ := hKeeps (Or.inl rfl)
  refine ⟨hVersion, ?_, (hCrash 3).1⟩
  refine (hTurns 1 ?_).trans (by decide +kernel)
  intro _ k row _ hGet
  simp only [oneRowDb, OrdMap.get?_insert, OrdMap.get?_empty] at hGet
  split at hGet
  · cases hGet
    exact ⟨rfl, Or.inl (by decide)⟩
  · cases hGet

theorem readTurns_oneRow (decode : Bytes → Option Turn) (row : Bytes) (version : Option Nat) :
    ({ oneRowDb row with schemaVersion := version } : RawDb).readTurns decode 1 =
      ((decode row).map fun t => (0, t.reattach fun _ => none)).toList := by
  have hScan : ((oneRowDb row).turns.range (turnKey 1 0)
      (turnKey (saturatingSucc 64 1) 0)).entries = [(turnKey 1 0, row)] := rfl
  simp only [RawDb.readTurns]
  rw [show ({ oneRowDb row with schemaVersion := version } : RawDb).turns =
    (oneRowDb row).turns from rfl, hScan]
  cases hDecode : decode row with
  | none => simp [hDecode]
  | some t =>
    simp only [List.filterMap_cons, hDecode, Option.map_some, List.filterMap_nil,
      Option.toList_some]
    rfl

/-- A turn of one byte more than the reader of version 2 accepts. -/
def longRow : Bytes := 0x8D :: List.replicate maxTurnDecodedBytes 0

/-- The turn is read from version 1 and no longer read after the migration. -/
theorem migration_loses_long_turn :
    (oneRowDb longRow).readTurns (storedFrames.decodeRow 1) 1 = [(0, {})] ∧
      (runMigrations storedFrames (oneRowDb longRow)).result = .ok () ∧
      ((oneRowDb longRow).migrated storedFrames).schemaVersion = some 2 ∧
      ((oneRowDb longRow).migrated storedFrames).readTurns (storedFrames.decodeRow 2) 1 = [] := by
  have hOne : (oneRowDb longRow).currentSchemaVersion = 1 := rfl
  have hLength : maxTurnDecodedBytes < longRow.length := by
    rw [longRow, List.length_cons, List.length_replicate]
    exact Nat.lt_succ_self _
  have hUpgrade : upgradeRow storedFrames longRow = storedFrames.zstdEncode longRow := by
    have hMagic : zstdFrameMagic.isPrefixOf longRow = false := rfl
    rw [upgradeRow, hMagic, if_neg Bool.false_ne_true]
  have hMigrated : (oneRowDb longRow).migrated storedFrames =
      { oneRowDb (storedFrames.zstdEncode longRow) with schemaVersion := some 2 } := by
    rw [migrated_v1 hOne, ← hUpgrade]
    rfl
  refine ⟨?_, ?_, ?_, ?_⟩
  · exact readTurns_oneRow _ _ (some 1)
  · rw [runMigrations_v1 hOne]
  · rw [hMigrated]
  · rw [hMigrated, readTurns_oneRow, show storedFrames.decodeRow 2 = storedFrames.decodeRowV2 from
      rfl, decodeRowV2_zstdEncode storedFrames_lawful, if_pos hLength]
    rfl

end Choreographr.Session
