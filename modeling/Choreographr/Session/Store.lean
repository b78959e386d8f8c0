import Choreographr.Session.State
import Mathlib.Data.Prod.Lex
import Mathlib.Data.String.Basic

/-!
# The session tables

Turns are stored without their image bytes under `(session id, turn id)`; the
bytes go to the attachments table under `(session id, turn id, slot)`, where a
slot names either a displayed image by position or a tool-result image by call
id. Reading scans the turns of one session and puts the bytes back wherever
they are missing.

The slots of a turn are keyed by call id, so the bytes come back to the right
record exactly when no two results with one call id carry different bytes
(`readTurn_writeTurn_self_iff`), and no other turn is affected
(`readTurn_writeTurn_frame`).

Every write of this module succeeds. The codecs between a turn and its bytes
are taken as exact, so a row holds the byte-less turn itself. A MessagePack
array has fewer than `2 ^ 32` elements, so the position of a displayed image
always fits the 32 bits of its slot.
-/

namespace Choreographr.Session

open Lib

variable {sid sid' tid tid' : Nat} {slot : String} {t : Turn} {data : Bytes} {db : Db}

abbrev TurnKey := Nat ×ₗ Nat

abbrev AttachmentKey := Nat ×ₗ (Nat ×ₗ String)

def turnKey (sessionId turnId : Nat) : TurnKey := toLex (sessionId, turnId)

def attachmentKey (sessionId turnId : Nat) (slot : String) : AttachmentKey :=
  toLex (sessionId, toLex (turnId, slot))

structure Db where
  sessions : OrdMap Nat SessionRecord
  turns : OrdMap TurnKey Turn
  attachments : OrdMap AttachmentKey Bytes
deriving DecidableEq

/-- `saturating_add(1)` on an integer of the given width. -/
def saturatingSucc (width n : Nat) : Nat := min (n + 1) (2 ^ width - 1)

def displaySlot (index : Nat) : String := "d" ++ index.repr

def resultSlot (callId : String) : String := "r" ++ callId

namespace Turn

/-- The stored form of a turn: every image byte field emptied. -/
def strip (t : Turn) : Turn :=
  { t with
    displayedImages := t.displayedImages.map fun i => { i with data := [] }
    toolResults := t.toolResults.map fun r =>
      { r with image := r.image.map fun i => { i with data := [] } } }

/-- The attachment rows of a turn: one per non-empty image. -/
def attachmentRows (t : Turn) : List (String × Bytes) :=
  (t.displayedImages.zipIdx.filterMap fun p =>
      if p.1.data = [] then none else some (displaySlot p.2, p.1.data)) ++
    t.toolResults.filterMap fun r =>
      match r.image with
      | none => none
      | some i => if i.data = [] then none else some (resultSlot r.callId, i.data)

/-- Put back the bytes of every image that has none. -/
def reattach (slot : String → Option Bytes) (t : Turn) : Turn :=
  { t with
    displayedImages := t.displayedImages.zipIdx.map fun p =>
      if p.1.data = [] then { p.1 with data := (slot (displaySlot p.2)).getD [] } else p.1
    toolResults := t.toolResults.map fun r =>
      { r with
        image := r.image.map fun i =>
          if i.data = [] then { i with data := (slot (resultSlot r.callId)).getD [] } else i } }

/-- Among the results with one call id only the first carries an image. -/
def OneImagePerCall (t : Turn) : Prop :=
  t.toolResults.Pairwise fun r r' => r.callId = r'.callId → r'.image = none

end Turn

namespace Db

def empty : Db := ⟨OrdMap.empty, OrdMap.empty, OrdMap.empty⟩

/-- Overwrite a session's record, keeping the stored flags that only the
daemon sets. -/
def writeSession (db : Db) (sessionId : Nat) (record : SessionRecord) : Db :=
  let record :=
    match db.sessions.get? sessionId with
    | some existing =>
        { record with pinned := existing.pinned, archivedAt := existing.archivedAt }
    | none => record
  { db with sessions := db.sessions.insert sessionId record }

/-- Change the flags that only the daemon sets. Without a record there is
nothing to change. -/
def updateSessionFlags (db : Db) (sessionId : Nat) (pinned : Bool) (archivedAt : Option Int) : Db :=
  match db.sessions.get? sessionId with
  | some existing =>
      { db with
        sessions := db.sessions.insert sessionId
          { existing with pinned := pinned, archivedAt := archivedAt } }
  | none => db

def turnAttachments (db : Db) (sessionId turnId : Nat) : OrdMap AttachmentKey Bytes :=
  db.attachments.range (attachmentKey sessionId turnId "")
    (attachmentKey sessionId (saturatingSucc 32 turnId) "")

/-- Drop the slots of a turn, then insert its current images. -/
def writeTurnAttachments (db : Db) (sessionId turnId : Nat) (t : Turn) : Db :=
  let stale := db.turnAttachments sessionId turnId
  let cleared := db.attachments.filter fun k _ => (stale.get? k).isNone
  { db with
    attachments := cleared.insertAll
      (t.attachmentRows.map fun row => (attachmentKey sessionId turnId row.1, row.2)) }

/-- Store a turn and exactly its current images. -/
def writeTurn (db : Db) (sessionId turnId : Nat) (t : Turn) : Db :=
  let db := db.writeTurnAttachments sessionId turnId t
  { db with turns := db.turns.insert (turnKey sessionId turnId) t.strip }

/-- Store one image slot on its own. Empty bytes are not stored. -/
def writeAttachment (db : Db) (sessionId turnId : Nat) (slot : String) (data : Bytes) : Db :=
  if data = [] then db
  else { db with attachments := db.attachments.insert (attachmentKey sessionId turnId slot) data }

def slotData (db : Db) (sessionId turnId : Nat) (slot : String) : Option Bytes :=
  db.attachments.get? (attachmentKey sessionId turnId slot)

/-- The turns of a session in turn-id order. -/
def readTurns (db : Db) (sessionId : Nat) : List (Nat × Turn) :=
  (db.turns.range (turnKey sessionId 0)
      (turnKey (saturatingSucc 64 sessionId) 0)).entries.map fun e =>
    ((ofLex e.1).2, e.2.reattach (db.slotData sessionId (ofLex e.1).2))

/-- One turn as `readTurns` returns it. -/
def readTurn (db : Db) (sessionId turnId : Nat) : Option Turn :=
  (db.turns.get? (turnKey sessionId turnId)).map
    (Turn.reattach (db.slotData sessionId turnId))

end Db

/-! ## Slots and keys -/

theorem repr_inj {i j : Nat} (h : i.repr = j.repr) : i = j := by
  have hDigits : Nat.toDigits 10 i = Nat.toDigits 10 j := by
    rw [← Nat.toList_repr, ← Nat.toList_repr, h]
  have hValue := congrArg (fun cs => Nat.ofDigitChars 10 cs 0) hDigits
  simpa using hValue

theorem displaySlot_inj {i j : Nat} (h : displaySlot i = displaySlot j) : i = j := by
  have hChars := congrArg String.toList h
  simp only [displaySlot, String.toList_append, List.append_cancel_left_eq] at hChars
  exact repr_inj (String.toList_injective hChars)

theorem resultSlot_inj {c d : String} (h : resultSlot c = resultSlot d) : c = d := by
  have hChars := congrArg String.toList h
  simp only [resultSlot, String.toList_append, List.append_cancel_left_eq] at hChars
  exact String.toList_injective hChars

theorem displaySlot_ne_resultSlot (i : Nat) (c : String) : displaySlot i ≠ resultSlot c := by
  intro h
  have hChars := congrArg String.toList h
  simp [displaySlot, resultSlot] at hChars

theorem attachmentKey_eq_iff {slot' : String} :
    attachmentKey sid tid slot = attachmentKey sid' tid' slot' ↔
      sid = sid' ∧ tid = tid' ∧ slot = slot' := by
  simp [attachmentKey]

theorem turnKey_eq_iff : turnKey sid tid = turnKey sid' tid' ↔ sid = sid' ∧ tid = tid' := by
  simp [turnKey]

theorem empty_string_le (s : String) : "" ≤ s := by
  rw [String.le_iff_toList_le, ← not_lt]
  exact List.not_lt_nil _

theorem mem_turn_slots (hBound : tid + 1 < 2 ^ 32) :
    (attachmentKey sid tid "" ≤ attachmentKey sid' tid' slot ∧
        attachmentKey sid' tid' slot < attachmentKey sid (saturatingSucc 32 tid) "") ↔
      sid' = sid ∧ tid' = tid := by
  have hSucc : saturatingSucc 32 tid = tid + 1 := by
    simp only [saturatingSucc]
    omega
  have hNotLt : ¬slot < "" := not_lt.mpr (empty_string_le slot)
  simp only [attachmentKey, hSucc, Prod.Lex.toLex_le_toLex, Prod.Lex.toLex_lt_toLex,
    hNotLt, empty_string_le, and_true, and_false, or_false]
  omega

theorem turn_slots_subset (hBound : tid < 2 ^ 32)
    (h : attachmentKey sid tid "" ≤ attachmentKey sid' tid' slot ∧
      attachmentKey sid' tid' slot < attachmentKey sid (saturatingSucc 32 tid) "") :
    sid' = sid ∧ tid' = tid := by
  by_cases hLast : tid + 1 < 2 ^ 32
  · exact (mem_turn_slots hLast).mp h
  · have hSucc : saturatingSucc 32 tid = tid := by
      simp only [saturatingSucc]
      omega
    rw [hSucc] at h
    exact absurd (lt_of_le_of_lt h.1 h.2) (lt_irrefl _)

theorem mem_session_turns {k : TurnKey} (hBound : sid + 1 < 2 ^ 64) :
    (turnKey sid 0 ≤ k ∧ k < turnKey (saturatingSucc 64 sid) 0) ↔ (ofLex k).1 = sid := by
  have hSucc : saturatingSucc 64 sid = sid + 1 := by
    simp only [saturatingSucc]
    omega
  obtain ⟨⟨sid', tid'⟩, rfl⟩ := toLex.surjective k
  simp only [turnKey, hSucc, Prod.Lex.toLex_le_toLex, Prod.Lex.toLex_lt_toLex, ofLex_toLex]
  omega

/-! ## Writing one turn and reading it back -/

namespace Turn

theorem mem_attachmentRows_display {i : Nat} :
    (displaySlot i, data) ∈ t.attachmentRows ↔
      ∃ image, t.displayedImages[i]? = some image ∧ image.data = data ∧ data ≠ [] := by
  simp only [attachmentRows, List.mem_append, List.mem_filterMap]
  constructor
  · rintro (⟨⟨image, j⟩, hMem, hRow⟩ | ⟨r, _, hRow⟩)
    · split at hRow
      · cases hRow
      · rename_i hNe
        simp only [Option.some.injEq, Prod.mk.injEq] at hRow
        obtain ⟨hSlot, rfl⟩ := hRow
        have hIndex := displaySlot_inj hSlot
        subst hIndex
        exact ⟨image, List.mk_mem_zipIdx_iff_getElem?.mp hMem, rfl, hNe⟩
    · split at hRow
      · cases hRow
      · split at hRow
        · cases hRow
        · simp only [Option.some.injEq, Prod.mk.injEq] at hRow
          exact absurd hRow.1.symm (displaySlot_ne_resultSlot i r.callId)
  · rintro ⟨image, hGet, rfl, hNe⟩
    exact Or.inl ⟨(image, i), List.mk_mem_zipIdx_iff_getElem?.mpr hGet, by simp [hNe]⟩

theorem mem_attachmentRows_result {c : String} :
    (resultSlot c, data) ∈ t.attachmentRows ↔
      ∃ r ∈ t.toolResults, r.callId = c ∧
        ∃ image, r.image = some image ∧ image.data = data ∧ data ≠ [] := by
  simp only [attachmentRows, List.mem_append, List.mem_filterMap]
  constructor
  · rintro (⟨⟨image, j⟩, _, hRow⟩ | ⟨r, hMem, hRow⟩)
    · split at hRow
      · cases hRow
      · simp only [Option.some.injEq, Prod.mk.injEq] at hRow
        exact absurd hRow.1 (displaySlot_ne_resultSlot j c)
    · split at hRow
      · cases hRow
      · rename_i image hImage
        split at hRow
        · cases hRow
        · rename_i hNe
          simp only [Option.some.injEq, Prod.mk.injEq] at hRow
          obtain ⟨hSlot, rfl⟩ := hRow
          exact ⟨r, hMem, resultSlot_inj hSlot, image, hImage, rfl, hNe⟩
  · rintro ⟨r, hMem, rfl, image, hImage, rfl, hNe⟩
    exact Or.inr ⟨r, hMem, by simp [hImage, hNe]⟩

theorem OneImagePerCall.eq_of_images (h : t.OneImagePerCall) {r r' : ToolResultRecord}
    (hr : r ∈ t.toolResults) (hr' : r' ∈ t.toolResults) (hId : r.callId = r'.callId)
    (hImage : r.image ≠ none) (hImage' : r'.image ≠ none) : r = r' := by
  obtain ⟨i, hi, rfl⟩ := List.getElem_of_mem hr
  obtain ⟨j, hj, rfl⟩ := List.getElem_of_mem hr'
  have hPair := List.pairwise_iff_getElem.mp h
  rcases Nat.lt_trichotomy i j with hLt | hEq | hGt
  · exact absurd (hPair i j hi hj hLt hId) hImage'
  · subst hEq
    rfl
  · exact absurd (hPair j i hj hi hGt hId.symm) hImage

/-- Results with one call id that carry an image carry the same bytes. -/
def ResultImagesAgree (t : Turn) : Prop :=
  ∀ r ∈ t.toolResults, ∀ r' ∈ t.toolResults, r.callId = r'.callId →
    ∀ image ∈ r.image, ∀ image' ∈ r'.image, image.data = image'.data

instance (t : Turn) : Decidable t.ResultImagesAgree :=
  inferInstanceAs (Decidable (∀ r ∈ t.toolResults, ∀ r' ∈ t.toolResults, r.callId = r'.callId →
    ∀ image ∈ r.image, ∀ image' ∈ r'.image, image.data = image'.data))

theorem OneImagePerCall.resultImagesAgree (h : t.OneImagePerCall) : t.ResultImagesAgree := by
  intro r hr r' hr' hId image hImage image' hImage'
  rw [Option.mem_def] at hImage hImage'
  have hSame := h.eq_of_images hr hr' hId (by simp [hImage]) (by simp [hImage'])
  subst hSame
  rw [hImage] at hImage'
  cases hImage'
  rfl

/-- A stored turn gets its bytes back exactly when each of its images finds its
own bytes under its slot. -/
theorem reattach_strip_iff {slot : String → Option Bytes} :
    t.strip.reattach slot = t ↔
      (∀ i image, t.displayedImages[i]? = some image →
        (slot (displaySlot i)).getD [] = image.data) ∧
      ∀ r ∈ t.toolResults, ∀ image ∈ r.image,
        (slot (resultSlot r.callId)).getD [] = image.data := by
  have hDisplayed : (t.strip.reattach slot).displayedImages =
      t.displayedImages.zipIdx.map fun p =>
        { p.1 with data := (slot (displaySlot p.2)).getD [] } := by
    apply List.ext_getElem?
    intro i
    simp only [reattach, strip, List.getElem?_map, List.getElem?_zipIdx]
    cases t.displayedImages[i]? <;> simp
  have hResults : (t.strip.reattach slot).toolResults =
      t.toolResults.map fun r =>
        { r with
          image := r.image.map fun i => { i with data := (slot (resultSlot r.callId)).getD [] } } := by
    simp only [reattach, strip, List.map_map]
    apply List.map_congr_left
    intro r _
    cases hImage : r.image with
    | none => simp [hImage]
    | some image => simp [hImage]
  constructor
  · intro h
    rw [h] at hDisplayed hResults
    constructor
    · intro i image hGet
      have hImage := congrArg (·[i]?) hDisplayed
      simp only [List.getElem?_map, List.getElem?_zipIdx, hGet, Option.map_some,
        Option.some.injEq, Nat.zero_add] at hImage
      exact (congrArg DisplayedImageRecord.data hImage).symm
    · intro r hr image hImage
      have hSame := List.map_inj_left.mp (hResults.symm.trans (List.map_id _).symm) r hr
      have hData := congrArg ToolResultRecord.image hSame
      rw [Option.mem_def] at hImage
      simp only [id_eq, hImage, Option.map_some, Option.some.injEq] at hData
      exact congrArg ImageReference.data hData
  · rintro ⟨hImages, hResultImages⟩
    have hDisplayedSame : (t.strip.reattach slot).displayedImages = t.displayedImages := by
      rw [hDisplayed]
      apply List.ext_getElem?
      intro i
      simp only [List.getElem?_map, List.getElem?_zipIdx]
      cases hGet : t.displayedImages[i]? with
      | none => rfl
      | some image =>
        simp [hImages i image hGet]
    have hResultsSame : (t.strip.reattach slot).toolResults = t.toolResults := by
      rw [hResults]
      nth_rewrite 2 [← List.map_id t.toolResults]
      apply List.map_congr_left
      intro r hr
      cases hImage : r.image with
      | none =>
        rw [Option.map_none, ← hImage]
        rfl
      | some image =>
        rw [Option.map_some, hResultImages r hr image hImage, ← hImage]
        rfl
    calc t.strip.reattach slot
        = { t.strip.reattach slot with
            displayedImages := t.displayedImages, toolResults := t.toolResults } := by
          rw [← hDisplayedSame, ← hResultsSame]
      _ = t := rfl

end Turn

namespace Db

/-- Writing a turn leaves in each of its slots one of its current images, or
nothing. -/
theorem slotData_writeTurn_cases (db : Db) (sid : Nat) (t : Turn) (slot : String)
    (hBound : tid + 1 < 2 ^ 32) :
    (∃ data, (slot, data) ∈ t.attachmentRows ∧
        (db.writeTurn sid tid t).slotData sid tid slot = some data) ∨
      ((∀ data, (slot, data) ∉ t.attachmentRows) ∧
        (db.writeTurn sid tid t).slotData sid tid slot = none) := by
  have hCleared : (db.attachments.filter fun k _ =>
      ((db.turnAttachments sid tid).get? k).isNone).get? (attachmentKey sid tid slot) = none := by
    rw [Option.eq_none_iff_forall_ne_some]
    intro v hv
    obtain ⟨hGet, hNone⟩ := OrdMap.get?_filter_eq_some.mp hv
    have hStale : (db.turnAttachments sid tid).get? (attachmentKey sid tid slot) = some v :=
      OrdMap.get?_range_eq_some.mpr ⟨hGet, (mem_turn_slots hBound).mpr ⟨rfl, rfl⟩⟩
    rw [hStale] at hNone
    cases hNone
  simp only [slotData, writeTurn, writeTurnAttachments]
  rcases OrdMap.get?_insertAll_cases (db.attachments.filter fun k _ =>
      ((db.turnAttachments sid tid).get? k).isNone)
    (t.attachmentRows.map fun row => (attachmentKey sid tid row.1, row.2))
    (attachmentKey sid tid slot) with ⟨data, hMem, hGet⟩ | ⟨hNotMem, hGet⟩
  · left
    obtain ⟨row, hRow, hEq⟩ := List.mem_map.mp hMem
    simp only [Prod.mk.injEq] at hEq
    obtain ⟨hKey, rfl⟩ := hEq
    obtain ⟨_, _, rfl⟩ := attachmentKey_eq_iff.mp hKey
    exact ⟨row.2, hRow, hGet⟩
  · right
    refine ⟨?_, hGet.trans hCleared⟩
    intro data hRow
    exact hNotMem _ (List.mem_map.mpr ⟨(slot, data), hRow, rfl⟩) rfl

theorem getD_slotData_writeTurn (hBound : tid + 1 < 2 ^ 32)
    (hMem : data ≠ [] → (slot, data) ∈ t.attachmentRows)
    (hOnly : ∀ d, (slot, d) ∈ t.attachmentRows → d = data) :
    ((db.writeTurn sid tid t).slotData sid tid slot).getD [] = data := by
  rcases slotData_writeTurn_cases db sid t slot hBound with
    ⟨d, hRow, hSlot⟩ | ⟨hNone, hSlot⟩
  · rw [hSlot, Option.getD_some]
    exact hOnly d hRow
  · rw [hSlot, Option.getD_none]
    by_contra hNe
    exact hNone data (hMem fun hNil => hNe hNil.symm)

/-- The images of a written turn find their bytes unless two results share a
call id and disagree. -/
theorem readTurn_writeTurn_self_iff (db : Db) (sid : Nat) (hBound : tid + 1 < 2 ^ 32) :
    (db.writeTurn sid tid t).readTurn sid tid = some t ↔ t.ResultImagesAgree := by
  have hRow : (db.writeTurn sid tid t).turns.get? (turnKey sid tid) = some t.strip := by
    simp only [writeTurn, OrdMap.get?_insert, if_true]
  rw [readTurn, hRow, Option.map_some, Option.some.injEq, Turn.reattach_strip_iff]
  constructor
  · rintro ⟨_, hResults⟩ r hr r' hr' hId image hImage image' hImage'
    have hSlot := hResults r hr image hImage
    rw [hId, hResults r' hr' image' hImage'] at hSlot
    exact hSlot.symm
  · intro hAgree
    constructor
    · intro i image hGet
      apply getD_slotData_writeTurn hBound
      · intro hNe
        exact Turn.mem_attachmentRows_display.mpr ⟨image, hGet, rfl, hNe⟩
      · intro d hd
        obtain ⟨image', hGet', rfl, _⟩ := Turn.mem_attachmentRows_display.mp hd
        rw [hGet] at hGet'
        cases hGet'
        rfl
    · intro r hr image hImage
      apply getD_slotData_writeTurn hBound
      · intro hNe
        exact Turn.mem_attachmentRows_result.mpr ⟨r, hr, rfl, image, hImage, rfl, hNe⟩
      · intro d hd
        obtain ⟨r', hr', hId, image', hImage', rfl, _⟩ := Turn.mem_attachmentRows_result.mp hd
        exact hAgree r' hr' r hr hId image' hImage' image hImage

theorem readTurn_writeTurn_self (hBound : tid + 1 < 2 ^ 32) (h : t.OneImagePerCall) :
    (db.writeTurn sid tid t).readTurn sid tid = some t :=
  (readTurn_writeTurn_self_iff db sid hBound).mpr h.resultImagesAgree

/-- The slots of other turns and other sessions are left alone, whatever the
ids. -/
theorem slotData_writeTurn_of_ne (hBound : tid < 2 ^ 32) (hNe : ¬(sid' = sid ∧ tid' = tid))
    (slot : String) :
    (db.writeTurn sid tid t).slotData sid' tid' slot = db.slotData sid' tid' slot := by
  simp only [slotData, writeTurn, writeTurnAttachments]
  rw [OrdMap.get?_insertAll_of_notMem]
  · apply Option.ext
    intro v
    rw [OrdMap.get?_filter_eq_some]
    constructor
    · rintro ⟨hGet, _⟩
      exact hGet
    · intro hGet
      refine ⟨hGet, ?_⟩
      rw [Option.isNone_iff_eq_none, Option.eq_none_iff_forall_ne_some]
      intro w hw
      obtain ⟨_, hRange⟩ := OrdMap.get?_range_eq_some.mp hw
      exact hNe (turn_slots_subset hBound hRange)
  · intro e he hKey
    obtain ⟨row, _, rfl⟩ := List.mem_map.mp he
    obtain ⟨hSid, hTid, _⟩ := attachmentKey_eq_iff.mp hKey
    exact hNe ⟨hSid.symm, hTid.symm⟩

theorem turns_writeTurn_of_ne (hNe : ¬(sid' = sid ∧ tid' = tid)) :
    (db.writeTurn sid tid t).turns.get? (turnKey sid' tid') = db.turns.get? (turnKey sid' tid') := by
  have hKey : turnKey sid' tid' ≠ turnKey sid tid := fun h => hNe (turnKey_eq_iff.mp h)
  simp only [writeTurn, writeTurnAttachments, OrdMap.get?_insert, if_neg hKey]

theorem readTurn_writeTurn_frame (hBound : tid < 2 ^ 32) (hNe : ¬(sid' = sid ∧ tid' = tid)) :
    (db.writeTurn sid tid t).readTurn sid' tid' = db.readTurn sid' tid' := by
  have hSlots : (db.writeTurn sid tid t).slotData sid' tid' = db.slotData sid' tid' := by
    funext slot
    exact slotData_writeTurn_of_ne hBound hNe slot
  rw [readTurn, readTurn, hSlots, turns_writeTurn_of_ne hNe]

theorem readTurn_writeTurn_of_ne (hBound : tid + 1 < 2 ^ 32) (hNe : tid' ≠ tid) :
    (db.writeTurn sid tid t).readTurn sid tid' = db.readTurn sid tid' :=
  readTurn_writeTurn_frame (by omega) fun h => hNe h.2

/-- A single image slot belongs to one turn. -/
theorem readTurn_writeAttachment_of_ne (hNe : tid' ≠ tid) :
    (db.writeAttachment sid tid slot data).readTurn sid tid' = db.readTurn sid tid' := by
  rw [writeAttachment]
  split
  · rfl
  · have hSlots : ({ db with attachments :=
        db.attachments.insert (attachmentKey sid tid slot) data } : Db).slotData sid tid' =
          db.slotData sid tid' := by
      funext slot'
      have hKey : attachmentKey sid tid' slot' ≠ attachmentKey sid tid slot :=
        fun h => hNe (attachmentKey_eq_iff.mp h).2.1
      simp only [slotData, OrdMap.get?_insert, if_neg hKey]
    rw [readTurn, readTurn, hSlots]

theorem readTurn_writeAttachment_eq_none :
    (db.writeAttachment sid tid slot data).readTurn sid tid' = none ↔
      db.readTurn sid tid' = none := by
  rw [writeAttachment]
  split
  · rfl
  · simp [readTurn]

@[simp] theorem readTurn_writeSession (db : Db) (sid tid sid' : Nat) (r : SessionRecord) :
    (db.writeSession sid' r).readTurn sid tid = db.readTurn sid tid := rfl

theorem scan_session (hBound : sid + 1 < 2 ^ 64) {e : TurnKey × Turn}
    (he : e ∈ (db.turns.range (turnKey sid 0) (turnKey (saturatingSucc 64 sid) 0)).entries) :
    (ofLex e.1).1 = sid := by
  have hGet := OrdMap.get?_eq_some_iff.mpr (show (e.1, e.2) ∈ _ from he)
  exact (mem_session_turns hBound).mp (OrdMap.get?_range_eq_some.mp hGet).2

/-- A scan returns exactly the rows of the session. -/
theorem mem_readTurns_iff (hBound : sid + 1 < 2 ^ 64) :
    (tid, t) ∈ db.readTurns sid ↔ db.readTurn sid tid = some t := by
  rw [readTurn, Option.map_eq_some_iff, readTurns, List.mem_map]
  constructor
  · rintro ⟨e, he, hRow⟩
    obtain ⟨⟨sid', tid'⟩, hKey⟩ := toLex.surjective e.1
    have hSid := scan_session hBound he
    rw [← hKey] at hSid hRow
    simp only [ofLex_toLex] at hSid hRow
    subst hSid
    cases hRow
    have hGet := OrdMap.get?_eq_some_iff.mpr (show (e.1, e.2) ∈ _ from he)
    refine ⟨e.2, ?_, rfl⟩
    rw [turnKey, hKey]
    exact (OrdMap.get?_range_eq_some.mp hGet).1
  · rintro ⟨row, hRow, rfl⟩
    refine ⟨(turnKey sid tid, row), ?_, rfl⟩
    exact OrdMap.get?_eq_some_iff.mp
      (OrdMap.get?_range_eq_some.mpr ⟨hRow, (mem_session_turns hBound).mpr rfl⟩)

theorem readTurns_sorted (hBound : sid + 1 < 2 ^ 64) :
    (db.readTurns sid).Pairwise fun x y => x.1 < y.1 := by
  rw [readTurns, List.pairwise_map]
  refine List.Pairwise.imp_of_mem ?_ (OrdMap.sorted _)
  intro x y hx hy hLt
  have hx := scan_session hBound hx
  have hy := scan_session hBound hy
  rcases Prod.Lex.lt_iff.mp hLt with hFst | ⟨_, hSnd⟩
  · omega
  · exact hSnd

theorem readTurns_eq_entries {m : Turns} (hBound : sid + 1 < 2 ^ 64)
    (h : ∀ tid, db.readTurn sid tid = m.get? tid) : db.readTurns sid = m.entries := by
  have hIrrefl : Std.Irrefl fun x y : Nat × Turn => x.1 < y.1 := ⟨fun x => lt_irrefl x.1⟩
  have hAsymm : Std.Asymm fun x y : Nat × Turn => x.1 < y.1 := ⟨fun _ _ hxy => lt_asymm hxy⟩
  apply List.Pairwise.eq_of_mem_iff (readTurns_sorted hBound) m.sorted
  rintro ⟨tid, t⟩
  rw [mem_readTurns_iff hBound, h tid, OrdMap.get?_eq_some_iff]

/-- Loading the rows of a session gives the map they were read from. -/
theorem get?_load (hBound : sid + 1 < 2 ^ 64) (tid : Nat) :
    (OrdMap.empty.insertAll (db.readTurns sid)).get? tid = db.readTurn sid tid := by
  have hNodup : ((db.readTurns sid).map Prod.fst).Nodup := by
    rw [List.Nodup, List.pairwise_map]
    exact (readTurns_sorted hBound).imp fun h => ne_of_lt h
  rw [OrdMap.get?_insertAll hNodup]
  cases hFind : (db.readTurns sid).find? fun e => e.1 = tid with
  | none =>
    rw [List.find?_eq_none] at hFind
    symm
    rw [Option.map_none, Option.none_or, OrdMap.get?_empty, Option.eq_none_iff_forall_ne_some]
    intro t ht
    exact hFind _ ((mem_readTurns_iff hBound).mpr ht) (by simp)
  | some e =>
    have hKey : e.1 = tid := by simpa using List.find?_some hFind
    have hMem := List.mem_of_find?_eq_some hFind
    subst hKey
    rw [Option.map_some, Option.some_or, (mem_readTurns_iff hBound).mp hMem]

end Db

end Choreographr.Session
