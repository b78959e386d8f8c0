import Choreographr.Session.Kv

/-!
# The key-value store is an ordered map for each session

`mapRun` runs the operations on an ordered map for each session, apart from the
others. The table refines it (`ownKeys`): each operation gives the result of the maps
and leaves the table with the keys of the maps. There are two exceptions: the id after the
largest session id does not fit, so the forms without an upper bound see nothing of that
session; and a read finds no table before the first write.
-/

namespace Choreographr.Session

open Lib

/-! ## Maps -/

/-- An ordered map for each session. -/
abbrev KvMaps := KvSession → OrdMap ByteKey Bytes

/-- The keys from `start` to `stop`. Without `stop` a session's keys are seen if the
forms without an upper bound reach it. -/
def sees (reaches : KvSession → Bool) (sid : KvSession) (start : String) (stop : Option String)
    (k : ByteKey) : Bool :=
  decide (⟨start⟩ ≤ k) && stop.elim (reaches sid) fun stop => decide (k < ⟨stop⟩)

/-- The key starts with the text. -/
def startsWith (start : String) (k : ByteKey) : Bool := decide ((ByteKey.mk start).bytes <+: k.bytes)

def mapRun (reaches : KvSession → Bool) (m : KvMaps) : KvCommand → KvMaps × KvResult
  | .set sid key value => (Function.update m sid ((m sid).insert ⟨key⟩ value), .done)
  | .get sid key => (m, .value ((m sid).get? ⟨key⟩))
  | .delete sid key =>
      (Function.update m sid ((m sid).erase ⟨key⟩), .removed ((m sid).get? ⟨key⟩).isSome)
  | .deleteRange sid start stop =>
      (Function.update m sid ((m sid).filter fun k _ => !sees reaches sid start stop k),
        .count ((m sid).filter fun k _ => sees reaches sid start stop k).entries.length)
  | .getRange sid start stop =>
      (m, .entries (((m sid).filter fun k _ => sees reaches sid start stop k).entries.map
        fun e => (e.1.text, e.2)))
  | .list sid start stop =>
      (m, .keys (((m sid).filter fun k _ => sees reaches sid (start.getD "") stop k).keys.map
        ByteKey.text))
  | .count sid none => (m, .count ((m sid).filter fun _ _ => reaches sid).entries.length)
  | .count sid (some start) =>
      (m, .count ((m sid).filter fun k _ => startsWith start k).entries.length)

def mapAfter (reaches : KvSession → Bool) (commands : List KvCommand) : KvMaps :=
  commands.foldl (fun m command => (mapRun reaches m command).1) fun _ => OrdMap.empty

/-- There is a larger session id. -/
def belowLast (sid : KvSession) : Bool := sid.val + 1 < 2 ^ 64

/-! ## The keys of one session -/

def ownEntry (e : KvKey × Bytes) : ByteKey × Bytes := ((ofLex e.1).2, e.2)

/-- The pairs that the table has for a session. -/
def ownKeys (t : SessionKv) (sid : KvSession) : OrdMap ByteKey Bytes where
  entries := (t.entries.filter fun e => (ofLex e.1).1 = sid).map ownEntry
  sorted := by
    rw [List.pairwise_map]
    refine ((t.sorted.filter _).imp_of_mem ?_)
    intro x y hx hy hLt
    have hx' := of_decide_eq_true (List.mem_filter.mp hx).2
    have hy' := of_decide_eq_true (List.mem_filter.mp hy).2
    rcases Prod.Lex.lt_iff.mp hLt with hLess | ⟨-, hLess⟩
    · rw [hx', hy'] at hLess
      exact absurd hLess (lt_irrefl sid)
    · exact hLess

variable {t : SessionKv} {sid : KvSession} {k : ByteKey}

theorem get?_ownKeys (t : SessionKv) (sid : KvSession) (k : ByteKey) :
    (ownKeys t sid).get? k = t.get? (toLex (sid, k)) := by
  apply Option.ext
  intro v
  rw [OrdMap.get?_eq_some_iff, OrdMap.get?_eq_some_iff]
  constructor
  · intro hMem
    obtain ⟨⟨key, v'⟩, hEntry, hEq⟩ := List.mem_map.mp hMem
    obtain ⟨hIn, hOwn⟩ := List.mem_filter.mp hEntry
    cases hEq
    have hKey : key = toLex (sid, (ofLex key).2) := by
      rw [← of_decide_eq_true hOwn]
      rfl
    rw [← hKey]
    exact hIn
  · intro hMem
    exact List.mem_map.mpr ⟨_, List.mem_filter.mpr ⟨hMem, by simp⟩, rfl⟩

theorem filter_ownKeys {p : KvKey → Bool} {q : ByteKey → Bool}
    (h : ∀ key : KvKey, p key = (decide ((ofLex key).1 = sid) && q (ofLex key).2)) :
    (t.filter fun key _ => p key).entries.map ownEntry =
      ((ownKeys t sid).filter fun key _ => q key).entries := by
  unfold OrdMap.filter ownKeys
  dsimp only
  rw [List.filter_map, List.filter_filter]
  congr 1
  apply List.filter_congr
  intro e _
  rw [h, Bool.and_comm]
  rfl

/-! ## Bounds -/

section Bounds

variable {start stop : String} {key : KvKey}

theorem mem_kvRange_iff : (kvKey sid start ≤ key ∧ key < kvKey sid stop) ↔
    (ofLex key).1 = sid ∧ ⟨start⟩ ≤ (ofLex key).2 ∧ (ofLex key).2 < ⟨stop⟩ := by
  rw [Prod.Lex.le_iff, Prod.Lex.lt_iff]
  constructor
  · rintro ⟨hLow | ⟨hLow, hStart⟩, hHigh | ⟨hHigh, hStop⟩⟩
    · exact absurd hLow (lt_asymm hHigh)
    · exact absurd hHigh.symm (ne_of_lt hLow)
    · exact absurd hLow (ne_of_gt hHigh)
    · exact ⟨hHigh, hStart, hStop⟩
  · rintro ⟨hOwn, hStart, hStop⟩
    exact ⟨.inr ⟨hOwn.symm, hStart⟩, .inr ⟨hOwn, hStop⟩⟩

/-- A range to the end of a session's keys. -/
theorem mem_kvRange_end_iff :
    (kvKey sid start ≤ key ∧ key < kvKey (sessionRangeEnd sid) "") ↔
      (ofLex key).1 = sid ∧ ⟨start⟩ ≤ (ofLex key).2 ∧ belowLast sid = true := by
  rw [Prod.Lex.le_iff, Prod.Lex.lt_iff]
  have hEmpty : ¬ (ofLex key).2 < (⟨""⟩ : ByteKey) := not_lt.mpr (ByteKey.empty_le _)
  unfold kvKey sessionRangeEnd belowLast
  by_cases hRoom : sid.val + 1 < 2 ^ 64
  · rw [dif_pos hRoom]
    constructor
    · rintro ⟨hLow | ⟨hLow, hStart⟩, hHigh | ⟨-, hStop⟩⟩
      · have hBelow : sid.val < (ofLex key).1.val := hLow
        have hAbove : (ofLex key).1.val < sid.val + 1 := hHigh
        omega
      · exact absurd hStop hEmpty
      · exact ⟨hLow.symm, hStart, decide_eq_true hRoom⟩
      · exact absurd hStop hEmpty
    · rintro ⟨hOwn, hStart, -⟩
      refine ⟨.inr ⟨hOwn.symm, hStart⟩, .inl ?_⟩
      show (ofLex key).1.val < sid.val + 1
      rw [hOwn]
      exact Nat.lt_succ_self _
  · rw [dif_neg hRoom]
    constructor
    · rintro ⟨hLow | ⟨hLow, -⟩, hHigh | ⟨-, hStop⟩⟩
      · exact absurd hLow (lt_asymm hHigh)
      · exact absurd hStop hEmpty
      · exact absurd hLow (ne_of_gt hHigh)
      · exact absurd hStop hEmpty
    · rintro ⟨-, -, hBelow⟩
      exact absurd (of_decide_eq_true hBelow) hRoom

/-- A scan for the keys that start with a text sees those that go on below the
replacement character. -/
theorem mem_kvScan_iff :
    (kvKey sid start ≤ key ∧ key < kvKey sid (kvScanEnd start)) ↔
      (ofLex key).1 = sid ∧ ∃ rest, (ofLex key).2.bytes = (ByteKey.mk start).bytes ++ rest ∧
        rest < [0xEF, 0xBF, 0xBD] := by
  have hEnd : (ByteKey.mk (kvScanEnd start)).bytes =
      (ByteKey.mk start).bytes ++ [0xEF, 0xBF, 0xBD] := by
    rw [kvScanEnd, ByteKey.bytes_append]
    rfl
  rw [mem_kvRange_iff, ByteKey.le_iff, ByteKey.lt_iff, hEnd, between_append_iff]

end Bounds

/-! ## Operations -/

theorem kvRange_eq_filter (t : SessionKv) (sid : KvSession) (start : String)
    (stop : Option String) :
    kvRange t sid start stop = t.filter fun key _ =>
      decide ((ofLex key).1 = sid) && sees belowLast sid start stop (ofLex key).2 := by
  have hTest : ∀ key : KvKey, ∀ hi : KvKey, ((kvKey sid start ≤ key ∧ key < hi) ↔
      (ofLex key).1 = sid ∧ sees belowLast sid start stop (ofLex key).2 = true) →
      (decide (kvKey sid start ≤ key) && decide (key < hi)) =
        (decide ((ofLex key).1 = sid) && sees belowLast sid start stop (ofLex key).2) := by
    intro key hi h
    rw [Bool.eq_iff_iff, Bool.and_eq_true, Bool.and_eq_true, decide_eq_true_iff,
      decide_eq_true_iff, decide_eq_true_iff]
    exact h
  cases stop with
  | some stop =>
    unfold kvRange OrdMap.range
    dsimp only
    congr 1
    funext key _
    apply hTest
    rw [mem_kvRange_iff]
    simp [sees]
  | none =>
    unfold kvRange OrdMap.range
    dsimp only
    congr 1
    funext key _
    apply hTest
    rw [mem_kvRange_end_iff]
    simp [sees]

theorem entries_kvRange (t : SessionKv) (sid : KvSession) (start : String) (stop : Option String) :
    (kvRange t sid start stop).entries.map ownEntry =
      ((ownKeys t sid).filter fun k _ => sees belowLast sid start stop k).entries := by
  rw [kvRange_eq_filter]
  exact filter_ownKeys fun _ => rfl

theorem length_kvRange (t : SessionKv) (sid : KvSession) (start : String) (stop : Option String) :
    (kvRange t sid start stop).entries.length =
      ((ownKeys t sid).filter fun k _ => sees belowLast sid start stop k).entries.length := by
  rw [← entries_kvRange, List.length_map]

theorem mem_keys_kvRange_iff {start : String} {stop : Option String} {key : KvKey} :
    key ∈ (kvRange t sid start stop).keys ↔ (t.get? key).isSome = true ∧ (ofLex key).1 = sid ∧
      sees belowLast sid start stop (ofLex key).2 = true := by
  rw [kvRange_eq_filter, OrdMap.mem_keys_iff, Option.isSome_iff_exists]
  simp only [OrdMap.get?_filter_eq_some, Bool.and_eq_true, decide_eq_true_eq]
  exact exists_and_right

theorem get?_foldl_erase (keys : List KvKey) (t : SessionKv) (key : KvKey) :
    (keys.foldl OrdMap.erase t).get? key = if key ∈ keys then none else t.get? key := by
  induction keys generalizing t with
  | nil => simp
  | cons k rest ih =>
    rw [List.foldl_cons, ih, OrdMap.get?_erase]
    by_cases hRest : key ∈ rest
    · simp [hRest]
    · by_cases hHead : key = k <;> simp [hRest, hHead]

theorem kvList_eq (t : SessionKv) (sid : KvSession) (start stop : Option String) :
    kvList (some t) sid start stop =
      .ok ((kvRange t sid (start.getD "") stop).keys.map fun k => (ofLex k).2.text) := by
  cases start <;> cases stop <;> rfl

theorem ownKeys_update {t' : SessionKv} {m : OrdMap ByteKey Bytes}
    (hSelf : ∀ k, t'.get? (toLex (sid, k)) = m.get? k)
    (hOther : ∀ key : KvKey, (ofLex key).1 ≠ sid → t'.get? key = t.get? key) :
    ownKeys t' = Function.update (ownKeys t) sid m := by
  funext sid'
  apply OrdMap.ext_get?
  intro k
  rw [get?_ownKeys]
  by_cases hEq : sid' = sid
  · subst hEq
    rw [Function.update_self, hSelf]
  · rw [Function.update_of_ne hEq, get?_ownKeys]
    exact hOther _ hEq

theorem ownKeys_insert (t : SessionKv) (sid : KvSession) (key : String) (value : Bytes) :
    ownKeys (t.insert (kvKey sid key) value) =
      Function.update (ownKeys t) sid ((ownKeys t sid).insert ⟨key⟩ value) := by
  apply ownKeys_update
  · intro k
    rw [OrdMap.get?_insert, OrdMap.get?_insert, get?_ownKeys]
    simp [kvKey]
  · intro other hOther
    have hNe : other ≠ kvKey sid key := fun hEq => hOther (by rw [hEq]; rfl)
    rw [OrdMap.get?_insert, if_neg hNe]

theorem ownKeys_erase (t : SessionKv) (sid : KvSession) (key : String) :
    ownKeys (t.erase (kvKey sid key)) =
      Function.update (ownKeys t) sid ((ownKeys t sid).erase ⟨key⟩) := by
  apply ownKeys_update
  · intro k
    rw [OrdMap.get?_erase, OrdMap.get?_erase, get?_ownKeys]
    simp [kvKey]
  · intro other hOther
    have hNe : other ≠ kvKey sid key := fun hEq => hOther (by rw [hEq]; rfl)
    rw [OrdMap.get?_erase, if_neg hNe]

theorem ownKeys_eraseRange (t : SessionKv) (sid : KvSession) (start : String)
    (stop : Option String) :
    ownKeys ((kvRange t sid start stop).keys.foldl OrdMap.erase t) =
      Function.update (ownKeys t) sid
        ((ownKeys t sid).filter fun k _ => !sees belowLast sid start stop k) := by
  apply ownKeys_update
  · intro k
    rw [get?_foldl_erase]
    apply Option.ext
    intro v
    rw [OrdMap.get?_filter_eq_some, get?_ownKeys, Bool.not_eq_true']
    cases hSees : sees belowLast sid start stop k with
    | true =>
      have hKeys : t.get? (toLex (sid, k)) = some v →
          toLex (sid, k) ∈ (kvRange t sid start stop).keys := by
        intro hGet
        exact mem_keys_kvRange_iff.mpr ⟨by rw [hGet]; rfl, rfl, hSees⟩
      constructor
      · intro hLeft
        split at hLeft
        · cases hLeft
        · rename_i hNotMem
          exact absurd (hKeys hLeft) hNotMem
      · rintro ⟨-, hFalse⟩
        cases hFalse
    | false =>
      have hNotMem : toLex (sid, k) ∉ (kvRange t sid start stop).keys := by
        intro hMem
        have hTrue : sees belowLast sid start stop k = true := (mem_keys_kvRange_iff.mp hMem).2.2
        rw [hSees] at hTrue
        cases hTrue
      rw [if_neg hNotMem]
      simp
  · intro other hOther
    have hNotMem : other ∉ (kvRange t sid start stop).keys := fun hMem =>
      hOther (mem_keys_kvRange_iff.mp hMem).2.1
    rw [get?_foldl_erase, if_neg hNotMem]

/-- No key that the command counts goes on, after the text it is to start with, from the
replacement character on. -/
def PlainCount (m : KvMaps) : KvCommand → Prop
  | .count sid (some start) => ∀ k ∈ (m sid).keys, ∀ rest,
      k.bytes = (ByteKey.mk start).bytes ++ rest → rest < [0xEF, 0xBF, 0xBD]
  | _ => True

theorem length_kvScan {start : String}
    (hPlain : PlainCount (ownKeys t) (.count sid (some start))) :
    (kvRange t sid start (some (kvScanEnd start))).entries.length =
      ((ownKeys t sid).filter fun k _ => startsWith start k).entries.length := by
  rw [length_kvRange]
  congr 1
  apply List.filter_congr
  intro e he
  have hKey : e.1 ∈ (ownKeys t sid).keys := List.mem_map.mpr ⟨e, he, rfl⟩
  have hBetween := @mem_kvScan_iff sid start (toLex (sid, e.1))
  rw [mem_kvRange_iff] at hBetween
  show sees belowLast sid start (some (kvScanEnd start)) e.1 = startsWith start e.1
  rw [Bool.eq_iff_iff, sees, Bool.and_eq_true, decide_eq_true_iff, Option.elim_some,
    decide_eq_true_iff, startsWith, decide_eq_true_iff]
  constructor
  · intro hSeen
    obtain ⟨-, rest, hRest, -⟩ := hBetween.mp ⟨rfl, hSeen⟩
    exact ⟨rest, hRest.symm⟩
  · rintro ⟨rest, hRest⟩
    exact (hBetween.mpr ⟨rfl, rest, hRest.symm, hPlain e.1 hKey rest hRest.symm⟩).2

/-- The operation opens the table for writing. -/
def KvCommand.writes : KvCommand → Bool
  | .set .. => true
  | .delete .. => true
  | .deleteRange .. => true
  | _ => false

theorem ownKeys_kvRun (db : KvTable) (command : KvCommand) :
    ownKeys (openForWrite (kvRun db command).1) =
      (mapRun belowLast (ownKeys (openForWrite db)) command).1 := by
  cases command with
  | set sid key value => exact ownKeys_insert _ sid key value
  | delete sid key => exact ownKeys_erase _ sid key
  | deleteRange sid start stop => exact ownKeys_eraseRange _ sid start stop
  | count sid start => cases start <;> rfl
  | _ => rfl

theorem kvRun_write (db : KvTable) {command : KvCommand} (h : command.writes = true) :
    (kvRun db command).2 = .ok (mapRun belowLast (ownKeys (openForWrite db)) command).2 := by
  cases command with
  | set sid key value => rfl
  | delete sid key =>
    rw [kvRun, mapRun, kvDelete, get?_ownKeys]
    rfl
  | deleteRange sid start stop =>
    rw [kvRun, mapRun, kvDeleteRange, ← length_kvRange, OrdMap.keys, List.length_map]
  | _ => cases h

/-- So is the result of a read of the table. -/
theorem kvRun_read (t : SessionKv) {command : KvCommand} (h : command.writes = false)
    (hPlain : PlainCount (ownKeys t) command) :
    (kvRun (some t) command).2 = .ok (mapRun belowLast (ownKeys t) command).2 := by
  cases command with
  | get sid key =>
    rw [mapRun, get?_ownKeys]
    rfl
  | getRange sid start stop =>
    rw [mapRun, ← entries_kvRange, List.map_map]
    rfl
  | list sid start stop =>
    rw [kvRun, mapRun, kvList_eq, OrdMap.keys, OrdMap.keys, ← entries_kvRange, List.map_map,
      List.map_map, List.map_map]
    rfl
  | count sid start =>
    cases start with
    | none =>
      have hAll : (fun (k : ByteKey) (_ : Bytes) => sees belowLast sid "" none k) =
          fun _ _ => belowLast sid := by
        funext k _
        simp [sees, ByteKey.empty_le]
      rw [mapRun, ← hAll, ← length_kvRange]
      rfl
    | some start =>
      rw [mapRun, ← length_kvScan hPlain]
      rfl
  | _ => cases h

/-! ## Sequences of operations -/

theorem ownKeys_kvAfter (commands : List KvCommand) :
    ownKeys (openForWrite (kvAfter commands)) = mapAfter belowLast commands := by
  have hEmpty : ownKeys (openForWrite none) = fun _ => OrdMap.empty := rfl
  unfold kvAfter mapAfter
  rw [← hEmpty]
  generalize (none : KvTable) = db
  induction commands generalizing db with
  | nil => rfl
  | cons command rest ih => rw [List.foldl_cons, List.foldl_cons, ih, ownKeys_kvRun]

theorem isSome_kvAfter (commands : List KvCommand) :
    (kvAfter commands).isSome = commands.any KvCommand.writes := by
  have hFrom : ∀ db : KvTable, (commands.foldl (fun db command => (kvRun db command).1) db).isSome =
      (db.isSome || commands.any KvCommand.writes) := by
    induction commands with
    | nil => simp
    | cons command rest ih =>
      intro db
      rw [List.foldl_cons, ih, List.any_cons, ← Bool.or_assoc]
      congr 1
      cases command <;> simp [kvRun, kvSet, kvDelete, kvDeleteRange, KvCommand.writes]
  exact hFrom none

/-- After any sequence of operations the maps have the keys of the table, and each further
operation has the result that the maps have, when it is a write or a write came before it; a
read before the first write fails, as there is no table. A count of the keys that start with a
text is left out where such a key goes on from the replacement character on. -/
theorem kv_store_refines_maps (commands : List KvCommand) (command : KvCommand) :
    ownKeys (openForWrite (kvAfter commands)) = mapAfter belowLast commands ∧
      ((commands ++ [command]).any KvCommand.writes = true →
        PlainCount (mapAfter belowLast commands) command →
          (kvRun (kvAfter commands) command).2 =
            .ok (mapRun belowLast (mapAfter belowLast commands) command).2) ∧
      ((commands ++ [command]).any KvCommand.writes = false →
        (kvRun (kvAfter commands) command).2 =
          .error "redb open session_kv: Table 'session_kv' does not exist") := by
  have hKeys := ownKeys_kvAfter commands
  have hTable := isSome_kvAfter commands
  rw [List.any_append, List.any_cons, List.any_nil, Bool.or_false, ← hTable]
  refine ⟨hKeys, fun hWrites hPlain => ?_, fun hNone => ?_⟩
  · rw [← hKeys] at hPlain ⊢
    cases hCommand : command.writes with
    | true => exact kvRun_write _ hCommand
    | false =>
      rw [hCommand, Bool.or_false] at hWrites
      obtain ⟨t, ht⟩ := Option.isSome_iff_exists.mp hWrites
      rw [ht] at hPlain ⊢
      exact kvRun_read t hCommand hPlain
  · obtain ⟨hNoTable, hReads⟩ := Bool.or_eq_false_iff.mp hNone
    rw [Option.isSome_eq_false_iff, Option.isNone_iff_eq_none] at hNoTable
    rw [hNoTable]
    cases command <;> first | rfl | cases hReads

theorem kv_store_refines_maps_two_keys :
    (kvRun (kvAfter [.set 7 "note/a" [1], .set 8 "note/b" [2]]) (.count 7 (some "note/"))).2 =
      .ok (.count 1) := by
  have hPlain : PlainCount (mapAfter belowLast [.set 7 "note/a" [1], .set 8 "note/b" [2]])
      (.count 7 (some "note/")) := by
    intro k hk rest hRest
    have hKeys : (mapAfter belowLast [.set 7 "note/a" [1], .set 8 "note/b" [2]] 7).keys =
        [⟨"note/a"⟩] := by
      decide +kernel
    rw [hKeys, List.mem_singleton] at hk
    have hBytes : (ByteKey.mk "note/a").bytes = (ByteKey.mk "note/").bytes ++ [97] := by
      decide +kernel
    rw [hk, hBytes] at hRest
    rw [← List.append_cancel_left hRest]
    decide
  refine ((kv_store_refines_maps _ _).2.1 rfl hPlain).trans ?_
  decide +kernel

/-- The forms without an upper bound see nothing of the largest session id, and there is nothing
to read before the first write. -/
theorem kv_count_misses_largest_session :
    (kvRun (kvAfter [.set (Fin.last _) "a" [1]]) (.count (Fin.last _) none)).2 = .ok (.count 0) ∧
      (mapRun (fun _ => true) (mapAfter (fun _ => true) [.set (Fin.last _) "a" [1]])
        (.count (Fin.last _) none)).2 = .count 1 ∧
      (kvRun (kvAfter []) (.get 7 "a")).2 =
        .error "redb open session_kv: Table 'session_kv' does not exist" ∧
      (mapRun (fun _ => true) (mapAfter (fun _ => true) []) (.get 7 "a")).2 = .value none := by
  decide +kernel

end Choreographr.Session
