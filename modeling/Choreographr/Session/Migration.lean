import Choreographr.Session.Store

/-!
# Schema versions and migrations

The turns table as bytes, the schema version that the `meta` table holds, and
the runner that brings an older database up to the version of this binary.
Version 1 stored a turn as MessagePack, version 2 stores the same bytes in one
zstd frame, and the only migration rewrites every row from the one to the
other in a single transaction.

A run is the list of what it does to the disk, in order (`MigrationEvent`), and
its result. A crash leaves the state after some prefix of that list.

The MessagePack and zstd libraries are a parameter (`TurnCodec`), with what the
code relies on as `TurnCodec.Lawful`.
-/

namespace Choreographr.Session

open Lib

/-! ## The codec of a row -/

/-- The library functions behind a row. -/
structure TurnCodec where
  /-- `rmp_serde::from_slice::<Turn>`. -/
  fromSlice : Bytes → Except String Turn
  /-- `compress_slice_to_vec`. -/
  compressSlice : Bytes → Bytes
  /-- The length of the first frame of a blob. -/
  findFrameCompressedSize : Bytes → Except String Nat
  /-- Everything a `StreamingDecoder` yields for a blob. -/
  streamingDecoder : Bytes → Except String Bytes

def zstdFrameMagic : Bytes := [0x28, 0xB5, 0x2F, 0xFD]

def maxTurnDecodedBytes : Nat := 256 * 1024 * 1024

namespace TurnCodec

/-- A compressed blob is one frame that starts with the magic and decodes to
what was compressed. -/
structure Lawful (codec : TurnCodec) : Prop where
  magic : ∀ raw, zstdFrameMagic.isPrefixOf (codec.compressSlice raw) = true
  frameSize : ∀ raw, codec.findFrameCompressedSize (codec.compressSlice raw) =
    .ok (codec.compressSlice raw).length
  decode : ∀ raw, codec.streamingDecoder (codec.compressSlice raw) = .ok raw

def zstdEncode (codec : TurnCodec) (payload : Bytes) : Bytes := codec.compressSlice payload

/-- Decode a blob that is exactly one frame of at most `limit` bytes. The
decoder is read up to `limit + 1` bytes, so a longer one is refused. -/
def zstdDecodeWithLimit (codec : TurnCodec) (blob : Bytes) (limit : Nat) :
    Except String Bytes :=
  match codec.findFrameCompressedSize blob with
  | .error e => .error ("zstd decode turn (frame size): " ++ e)
  | .ok frameLen =>
      if frameLen ≠ blob.length then
        .error ("turn row is not exactly one zstd frame: first frame spans " ++ frameLen.repr ++
          " of " ++ blob.length.repr ++ " bytes")
      else
        match codec.streamingDecoder blob with
        | .error e => .error ("zstd decode turn: " ++ e)
        | .ok buf =>
            if limit < buf.length then
              .error ("turn frame expands past " ++ limit.repr ++ " bytes; refusing")
            else .ok buf

def zstdDecode (codec : TurnCodec) (blob : Bytes) : Except String Bytes :=
  codec.zstdDecodeWithLimit blob maxTurnDecodedBytes

/-- A row of version 1, if it is a turn. -/
def decodeRowV1 (codec : TurnCodec) (row : Bytes) : Option Turn := (codec.fromSlice row).toOption

/-- A row of version 2, if it is a turn. -/
def decodeRowV2 (codec : TurnCodec) (row : Bytes) : Option Turn :=
  (codec.zstdDecode row).toOption.bind fun buf => (codec.fromSlice buf).toOption

end TurnCodec

/-! ## The database file -/

/-- The tables that a migration reads or writes, and the attachments beside
them. -/
structure RawDb where
  schemaVersion : Option Nat
  turns : OrdMap TurnKey Bytes
  attachments : OrdMap AttachmentKey Bytes
deriving DecidableEq

namespace RawDb

/-- Zero stands for a database without a version. -/
def currentSchemaVersion (db : RawDb) : Nat := db.schemaVersion.getD 0

def stampSchemaVersion (db : RawDb) (version : Nat) : RawDb :=
  { db with schemaVersion := some version }

/-- `read_turns` with the given row decoder; rows that do not decode are
skipped. -/
def readTurns (decode : Bytes → Option Turn) (db : RawDb) (sessionId : Nat) : List (Nat × Turn) :=
  (db.turns.range (turnKey sessionId 0)
      (turnKey (saturatingSucc 64 sessionId) 0)).entries.filterMap fun e =>
    (decode e.2).map fun t =>
      ((ofLex e.1).2, t.reattach fun slot =>
        db.attachments.get? (attachmentKey sessionId (ofLex e.1).2 slot))

end RawDb

/-! ## The migration from version 1 to version 2 -/

/-- The keys of the rows that are not yet frames. -/
def rawTurnKeys (turns : OrdMap TurnKey Bytes) : List TurnKey :=
  (turns.entries.filter fun e => !zstdFrameMagic.isPrefixOf e.2).map Prod.fst

/-- Re-encode the named rows, one after the other. -/
def reencodeTurns (codec : TurnCodec) (keys : List TurnKey) (turns : OrdMap TurnKey Bytes) :
    Except String (OrdMap TurnKey Bytes) :=
  keys.foldlM (fun turns key =>
    match turns.get? key with
    | none =>
        .error ("turn vanished during migration: (" ++ (ofLex key).1.repr ++ ", " ++
          (ofLex key).2.repr ++ ")")
    | some raw => .ok (turns.insert key (codec.zstdEncode raw))) turns

/-- The new database, if anything is written. -/
def migrateTurnValuesToZstd (codec : TurnCodec) (db : RawDb) : Except String (Option RawDb) :=
  let keys := rawTurnKeys db.turns
  if keys.isEmpty then .ok none
  else (reencodeTurns codec keys db.turns).map fun turns => some { db with turns := turns }

/-! ## The runner -/

/-- One migration, from version `from` to the next. It writes at most one
transaction. -/
structure Migration where
  source : Nat
  run : RawDb → Except String (Option RawDb)

def schemaVersion : Nat := 2

def migrations (codec : TurnCodec) : List Migration := [⟨1, migrateTurnValuesToZstd codec⟩]

inductive MigrationEvent where
  /-- The file is copied to the backup named after this version. -/
  | backup (source : Nat)
  /-- The migration from this version is started. -/
  | apply (source : Nat)
  /-- A transaction leaves the database in this state. -/
  | commit (db : RawDb)
deriving DecidableEq

structure MigrationRun where
  events : List MigrationEvent
  result : Except String Unit

/-- The database after the given events. -/
def RawDb.after (db : RawDb) : List MigrationEvent → RawDb
  | [] => db
  | .commit db' :: rest => RawDb.after db' rest
  | _ :: rest => RawDb.after db rest

/-- Apply the migrations in order, then stamp the target version. -/
def applyMigrations (target : Nat) : List Migration → RawDb → MigrationRun
  | [], db => ⟨[.commit (db.stampSchemaVersion target)], .ok ()⟩
  | m :: rest, db =>
      match m.run db with
      | .error e => ⟨[.apply m.source], .error e⟩
      | .ok none =>
          let tail := applyMigrations target rest db
          ⟨.apply m.source :: tail.events, tail.result⟩
      | .ok (some db') =>
          let tail := applyMigrations target rest db'
          ⟨.apply m.source :: .commit db' :: tail.events, tail.result⟩

/-- The versions that a chain up to `target` has to start from. -/
def expectedSources (target : Nat) : List Nat := List.range' 1 (target - 1)

def listDebug (xs : List Nat) : String := "[" ++ String.intercalate ", " (xs.map Nat.repr) ++ "]"

def runMigrationsTo (target : Nat) (migrations : List Migration) (db : RawDb) : MigrationRun :=
  let current := db.currentSchemaVersion
  if target < current then
    ⟨[], .error ("database schema version " ++ current.repr ++
      " is newer than this binary supports (" ++ target.repr ++
      "); upgrade choreographr before continuing")⟩
  else if current = 0 ∧ 1 < target then
    ⟨[], .error
      "database has no schema version (pre-release data); recreate it or restore a backup"⟩
  else if current = target then ⟨[], .ok ()⟩
  else
    let expected := expectedSources target
    let provided := migrations.map Migration.source
    if provided ≠ expected then
      ⟨[], .error ("migration chain is not contiguous: has " ++ listDebug provided ++
        ", needs " ++ listDebug expected)⟩
    else
      let applied := applyMigrations target
        (migrations.filter fun m : Migration => current ≤ m.source) db
      ⟨(if migrations.isEmpty then [] else [.backup current]) ++ applied.events, applied.result⟩

/-- The runner with the chain and the version of this binary. -/
def runMigrations (codec : TurnCodec) (db : RawDb) : MigrationRun :=
  runMigrationsTo schemaVersion (migrations codec) db

/-- The version to name a backup after, if one is to be made before the file
is opened for migration. -/
def migrationBackupVersion (codec : TurnCodec) (db : RawDb) : Option Nat :=
  let current := db.currentSchemaVersion
  if current = 0 ∨ schemaVersion ≤ current ∨ (migrations codec).isEmpty = true then none
  else if (migrations codec).map Migration.source ≠ expectedSources schemaVersion then none
  else some current

end Choreographr.Session
