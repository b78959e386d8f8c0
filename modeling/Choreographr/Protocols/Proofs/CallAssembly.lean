import Choreographr.Protocols.Proofs.ResponsesStream

/-!
# Calls that are named by either id

An event of a streamed call may carry the id of its item, the call id, or both.
The accumulator files a call under the first id it learns. An event that carries
both ids moves the entry to the item's id, and from then on either id finds it.
Before that event an entry is found only by the id it is filed under, so the
events up to there have to name the call by the same id (`Steady`).
-/

namespace Choreographr.Protocols

open Session Lib

variable {j : Nat} {ref : CallRef} {event : ResponsesStreamEvent}

/-! ## The events of a call -/

namespace ResponsesStreamEvent

/-- How the event names its call. -/
def named : ResponsesStreamEvent → Option CallRef
  | .functionCallItem itemId callId _ _ _ => CallRef.of itemId callId
  | .functionCallArgumentsDelta call _ => some call
  | .functionCallArgumentsDone call _ _ => some call
  | _ => none

/-- The event carries both ids of its call. -/
def linksIds : ResponsesStreamEvent → Bool
  | .functionCallItem itemId callId _ _ _ => itemId.isSome && callId.isSome
  | _ => false

end ResponsesStreamEvent

/-- Ids that an item event of the call may carry. -/
structure CallItem.Carried (c : CallItem) (itemId callId : Option String) : Prop where
  item : ∀ id, itemId = some id → c.itemId = some id
  call : ∀ id, callId = some id → c.callId = id
  present : itemId.isSome ∨ callId.isSome

/-- The events of a call: its item is added, its arguments come in pieces and then
whole, and its item is done. The added item may lack an id, its name and its caller;
the item that is done has the call id. -/
structure CallEvents (c : CallItem) where
  addedItemId : Option String
  addedCallId : Option String
  addedName : Option String
  addedCaller : Option ToolCallCaller
  pieces : List (CallRef × String)
  argumentsRef : CallRef
  argumentsName : Option String
  doneItemId : Option String
  doneCaller : Option ToolCallCaller
  added_carried : c.Carried addedItemId addedCallId
  pieces_named : ∀ piece ∈ pieces, c.NamedBy piece.1
  arguments_named : c.NamedBy argumentsRef
  done_carried : c.Carried doneItemId (some c.callId)
  /-- The caller that was reported last. -/
  caller_eq : doneCaller.or addedCaller = c.caller

namespace CallEvents

variable {c : CallItem}

def added (v : CallEvents c) : ResponsesStreamEvent :=
  .functionCallItem v.addedItemId v.addedCallId v.addedName "" v.addedCaller

def argumentsDone (v : CallEvents c) : ResponsesStreamEvent :=
  .functionCallArgumentsDone v.argumentsRef c.arguments v.argumentsName

def itemDone (v : CallEvents c) : ResponsesStreamEvent :=
  .functionCallItem v.doneItemId (some c.callId) (some c.name) c.arguments v.doneCaller

def later (v : CallEvents c) : List ResponsesStreamEvent :=
  (v.pieces.map fun piece => .functionCallArgumentsDelta piece.1 piece.2) ++
    [v.argumentsDone, v.itemDone]

def events (v : CallEvents c) : List ResponsesStreamEvent := v.added :: v.later

end CallEvents

/-- Up to the first event that carries both ids, the events name the call alike. -/
def Steady (events : List ResponsesStreamEvent) : Prop :=
  ∃ ref, ∀ event ∈ events.takeWhile fun event => !event.linksIds, event.named = some ref

/-! ## The entry of a call -/

/-- What a later event does to the entry of its call. An event with both ids moves
an entry that is filed under the call id. -/
def proceed (e : String × AccCall) : ResponsesStreamEvent → String × AccCall
  | .functionCallItem (some itemId) (some callId) name arguments caller =>
      (if e.1 = callId then itemId else e.1,
        AccCalls.nameCall (some callId) name arguments caller e.2)
  | event => continueCall e event

/-- The event belongs to the call. -/
def CallItem.Own (c : CallItem) : ResponsesStreamEvent → Prop
  | .functionCallItem itemId callId _ _ _ => c.Carried itemId callId
  | .functionCallArgumentsDelta call _ => c.NamedBy call
  | .functionCallArgumentsDone call _ _ => c.NamedBy call
  | _ => False

/-- The reference finds the entry. -/
def Finds (e : String × AccCall) : CallRef → Prop
  | .item itemId => e.1 = itemId
  | .call callId => e.1 = callId ∨ e.2.callId = some callId

/-- The event finds the entry, or moves it to where it looks for it. -/
def Reaches (e : String × AccCall) (event : ResponsesStreamEvent) : Prop :=
  match event with
  | .functionCallItem (some itemId) (some callId) _ _ _ => e.1 = itemId ∨ e.1 = callId
  | _ => ∃ ref, event.named = some ref ∧ Finds e ref

/-- Every event finds the entry as the events before it have left it. -/
def AllReach (e : String × AccCall) : List ResponsesStreamEvent → Prop
  | [] => True
  | event :: rest => Reaches e event ∧ AllReach (proceed e event) rest

/-- The accumulator holds the calls that are open, each under an id of its own. -/
structure Tracking (items : List CallItem) (s : AccCalls) : Prop where
  next : s.nextIndex = s.byId.length
  length : s.byId.length ≤ items.length
  key : ∀ (k : Nat) c e, items[k]? = some c → s.byId[k]? = some e → e.1 ∈ c.identities
  callId : ∀ (k : Nat) c e id, items[k]? = some c → s.byId[k]? = some e →
    e.2.callId = some id → c.callId = id

namespace Tracking

variable {items : List CallItem} {s : AccCalls} {k : Nat} {c : CallItem} {e : String × AccCall}

theorem getElem?_item (h : Tracking items s) (hj : s.byId[j]? = some e) :
    ∃ c, items[j]? = some c := by
  have hLt := (List.getElem?_eq_some_iff.mp hj).1
  exact ⟨_, List.getElem?_eq_getElem (Nat.lt_of_lt_of_le hLt h.length)⟩

theorem eq_of_key (h : Tracking items s) (hIds : OwnIdentities items) (hc : items[k]? = some c)
    (hj : s.byId[j]? = some e) (hKey : e.1 ∈ c.identities) : j = k := by
  obtain ⟨c', hc'⟩ := h.getElem?_item hj
  exact hIds j k c' c e.1 hc' hc (h.key j c' e hc' hj) hKey

theorem eq_of_callId (h : Tracking items s) (hIds : OwnIdentities items) (hc : items[k]? = some c)
    (hj : s.byId[j]? = some e) (hCall : e.2.callId = some c.callId) : j = k := by
  obtain ⟨c', hc'⟩ := h.getElem?_item hj
  have hSame := h.callId j c' e c.callId hc' hj hCall
  exact hIds j k c' c c.callId hc' hc (hSame ▸ c'.callId_mem) c.callId_mem

theorem containsKey_of_get (hj : s.byId[j]? = some e) : s.containsKey e.1 = true := by
  rw [AccCalls.containsKey, List.any_eq_true]
  exact ⟨e, List.mem_of_getElem? hj, by simp⟩

theorem containsKey_eq_false (h : Tracking items s) (hIds : OwnIdentities items)
    (hc : items[k]? = some c) {id : String} (hId : id ∈ c.identities)
    (hFree : ∀ e, s.byId[k]? = some e → e.1 ≠ id) : s.containsKey id = false := by
  rw [AccCalls.containsKey, List.any_eq_false]
  intro e he hKey
  obtain ⟨j, hj⟩ := List.mem_iff_getElem?.mp he
  have hSame : e.1 = id := of_decide_eq_true hKey
  obtain rfl := h.eq_of_key hIds hc hj (hSame ▸ hId)
  exact hFree e hj hSame

/-- Mapping the entries under an id of an open call changes its entry only. -/
theorem map_eq_modify (h : Tracking items s) (hIds : OwnIdentities items)
    (hc : items[k]? = some c) (hk : s.byId[k]? = some e) (f : String × AccCall → String × AccCall) :
    (s.byId.map fun e' => if e'.1 = e.1 then f e' else e') = s.byId.modify k f := by
  have hKey := h.key k c e hc hk
  apply List.ext_getElem?
  intro j
  rw [List.getElem?_map, List.getElem?_modify]
  cases hj : s.byId[j]? with
  | none => rfl
  | some e' =>
    by_cases hEq : k = j
    · subst hEq
      rw [hk] at hj
      cases hj
      simp
    · have hNe : e'.1 ≠ e.1 := fun hSame => hEq (h.eq_of_key hIds hc hj (hSame ▸ hKey)).symm
      simp [hNe, hEq]

theorem entry_eq (h : Tracking items s) (hIds : OwnIdentities items) (hc : items[k]? = some c)
    (hk : s.byId[k]? = some e) (update : AccCall → AccCall) :
    s.entry e.1 update =
      .ok { s with byId := s.byId.modify k fun e => (e.1, update e.2) } := by
  have hMap := h.map_eq_modify hIds hc hk fun e => (e.1, update e.2)
  simp only [AccCalls.entry, containsKey_of_get hk, if_true, hMap]

/-- A reference that finds the entry names its slot. -/
theorem slotKey_eq (h : Tracking items s) (hIds : OwnIdentities items) (hc : items[k]? = some c)
    (hk : s.byId[k]? = some e) (hRef : c.NamedBy ref) (hFinds : Finds e ref) :
    s.slotKey ref = e.1 := by
  cases ref with
  | item itemId => exact hFinds.symm
  | call callId =>
    obtain rfl : c.callId = callId := hRef
    cases hFind : s.byId.find? fun e' => e'.2.callId = some c.callId with
    | some e' =>
      obtain ⟨j, hj⟩ := List.mem_iff_getElem?.mp (List.mem_of_find?_eq_some hFind)
      have hCall : e'.2.callId = some c.callId := by simpa using List.find?_some hFind
      obtain rfl := h.eq_of_callId hIds hc hj hCall
      rw [hk] at hj
      cases hj
      simp only [AccCalls.slotKey, hFind]
    | none =>
      have hNone := List.find?_eq_none.mp hFind e (List.mem_of_getElem? hk)
      simp only [decide_eq_true_eq] at hNone
      simp only [AccCalls.slotKey, hFind]
      exact (hFinds.resolve_right hNone).symm

/-- Changing the entry of a call keeps the others. -/
theorem modify (h : Tracking items s) (hc : items[k]? = some c) (hk : s.byId[k]? = some e)
    {f : String × AccCall → String × AccCall} (hKey : (f e).1 ∈ c.identities)
    (hCall : ∀ id, (f e).2.callId = some id → c.callId = id) :
    Tracking items { s with byId := s.byId.modify k f } where
  next := by simpa using h.next
  length := by simpa using h.length
  key := by
    intro j c' e' hc' hj
    obtain ⟨old, hOld, rfl | ⟨rfl, rfl⟩⟩ := getElem?_modify_cases hj
    · exact h.key j c' e' hc' hOld
    · rw [hc] at hc'
      rw [hk] at hOld
      cases hc'
      cases hOld
      exact hKey
  callId := by
    intro j c' e' id hc' hj hId
    obtain ⟨old, hOld, rfl | ⟨rfl, rfl⟩⟩ := getElem?_modify_cases hj
    · exact h.callId j c' e' id hc' hOld hId
    · rw [hc] at hc'
      rw [hk] at hOld
      cases hc'
      cases hOld
      exact hCall id hId

/-- An entry under either id of its call is moved to the id of the item. -/
theorem rekey_eq (h : Tracking items s) (hIds : OwnIdentities items) (hc : items[k]? = some c)
    (hk : s.byId[k]? = some e) {itemId : String} (hItem : c.itemId = some itemId)
    (hUnder : e.1 = itemId ∨ e.1 = c.callId) :
    s.rekey itemId c.callId =
      { s with byId := s.byId.modify k fun e => (if e.1 = c.callId then itemId else e.1, e.2) } := by
  have hMem : itemId ∈ c.identities := by simp [CallItem.identities, hItem]
  by_cases hAt : e.1 = itemId
  · have hContains : s.containsKey itemId = true := hAt ▸ containsKey_of_get hk
    have hSame : s.byId.modify k (fun e => (if e.1 = c.callId then itemId else e.1, e.2)) =
        s.byId := by
      apply List.ext_getElem?
      intro j
      rw [List.getElem?_modify]
      cases hj : s.byId[j]? with
      | none => rfl
      | some e' =>
        by_cases hEq : k = j
        · subst hEq
          rw [hk] at hj
          cases hj
          simp [← hAt]
        · simp [hEq]
    rw [AccCalls.rekey, if_pos hContains, hSame]
  · have hCallId := hUnder.resolve_left hAt
    have hFree : s.containsKey itemId = false := by
      refine h.containsKey_eq_false hIds hc hMem fun e' hk' => ?_
      rw [hk] at hk'
      cases hk'
      exact hAt
    have hMap := h.map_eq_modify hIds hc hk fun e => (itemId, e.2)
    have hBoth : s.byId.modify k (fun e => (itemId, e.2)) =
        s.byId.modify k fun e => (if e.1 = c.callId then itemId else e.1, e.2) := by
      apply List.ext_getElem?
      intro j
      rw [List.getElem?_modify, List.getElem?_modify]
      by_cases hEq : k = j
      · subst hEq
        rw [hk]
        simp [hCallId]
      · simp [hEq]
    rw [AccCalls.rekey, if_neg (by simp [hFree]), ← hCallId, hMap, hBoth, hCallId]

theorem slot_eq (h : Tracking items s) (hIds : OwnIdentities items) (hc : items[k]? = some c)
    (hk : s.byId[k]? = some e) (hRef : c.NamedBy ref) (hFinds : Finds e ref)
    (update : AccCall → AccCall) :
    s.slot ref update = .ok { s with byId := s.byId.modify k fun e => (e.1, update e.2) } := by
  rw [AccCalls.slot, h.slotKey_eq hIds hc hk hRef hFinds, h.entry_eq hIds hc hk]

/-- A later event of a call changes the entry of that call only. -/
theorem absorb_reaches (h : Tracking items s) (hIds : OwnIdentities items) (hc : items[k]? = some c)
    (hNamed : c.Named) (hk : s.byId[k]? = some e) (hOwn : c.Own event) (hReach : Reaches e event) :
    s.absorb event = .ok { s with byId := s.byId.modify k fun e => proceed e event } := by
  cases event with
  | functionCallItem itemId callId name arguments caller =>
    have hCarried : c.Carried itemId callId := hOwn
    cases itemId with
    | none =>
      cases callId with
      | none => cases hCarried.present <;> contradiction
      | some callId =>
        obtain rfl := hCarried.call callId rfl
        have hOf : CallRef.of none (some c.callId) = some (.call c.callId) := by
          simp [CallRef.of, Option.filter, hNamed.callId]
        obtain ⟨ref, hEvent, hFinds⟩ := hReach
        have hRef : some ref = some (.call c.callId) := hEvent.symm.trans hOf
        cases hRef
        simp only [AccCalls.absorb, hOf]
        have hRef : c.NamedBy (.call c.callId) := rfl
        exact h.slot_eq hIds hc hk hRef hFinds _
    | some itemId =>
      have hItem := hCarried.item itemId rfl
      have hNonempty : itemId ≠ "" := fun hEmpty => hNamed.itemId (hEmpty ▸ hItem)
      have hOf : ∀ callId, CallRef.of (some itemId) callId = some (.item itemId) := by
        intro callId
        simp [CallRef.of, Option.filter, hNonempty]
      simp only [AccCalls.absorb, hOf]
      cases callId with
      | none =>
        obtain ⟨ref, hEvent, hFinds⟩ := hReach
        have hRef : some ref = some (.item itemId) := hEvent.symm.trans (hOf none)
        cases hRef
        have hRef : c.NamedBy (.item itemId) := hItem
        exact h.slot_eq hIds hc hk hRef hFinds _
      | some callId =>
        obtain rfl := hCarried.call callId rfl
        have hMoved : (if e.1 = c.callId then itemId else e.1) = itemId := by
          rcases hReach with hAt | hAt
          · simp [hAt]
          · exact if_pos hAt
        have hTracks := h.modify hc hk
          (f := fun e => (if e.1 = c.callId then itemId else e.1, e.2))
          (by simp [hMoved, CallItem.identities, hItem]) (fun id hId => h.callId k c e id hc hk hId)
        have hAfter : (s.byId.modify k fun e => (if e.1 = c.callId then itemId else e.1, e.2))[k]? =
            some (if e.1 = c.callId then itemId else e.1, e.2) := by
          rw [List.getElem?_modify_eq, hk]
          rfl
        have hRef : c.NamedBy (.item itemId) := hItem
        have hSlot := hTracks.slot_eq hIds hc hAfter hRef hMoved
          (AccCalls.nameCall (some c.callId) name arguments caller)
        simp only [h.rekey_eq hIds hc hk hItem hReach]
        rw [hSlot, List.modify_modify_eq]
        rfl
  | functionCallArgumentsDelta call delta =>
    obtain ⟨ref, hEvent, hFinds⟩ := hReach
    cases hEvent
    exact h.slot_eq hIds hc hk hOwn hFinds _
  | functionCallArgumentsDone call arguments name =>
    obtain ⟨ref, hEvent, hFinds⟩ := hReach
    cases hEvent
    exact h.slot_eq hIds hc hk hOwn hFinds _
  | _ => exact absurd hOwn id

theorem free_of_new (h : Tracking items s) (hIds : OwnIdentities items)
    (hc : items[s.byId.length]? = some c) {id : String} (hId : id ∈ c.identities) :
    s.containsKey id = false := by
  refine h.containsKey_eq_false hIds hc hId fun e he => ?_
  have hLt := (List.getElem?_eq_some_iff.mp he).1
  exact absurd hLt (Nat.lt_irrefl _)

/-- The slot of a call that is not open is minted under the id that names it. -/
theorem slot_new (h : Tracking items s) (hIds : OwnIdentities items)
    (hc : items[s.byId.length]? = some c) {id : String} (hRef : c.NamedBy ref)
    (hId : ref = .item id ∨ ref = .call id) (update : AccCall → AccCall) :
    s.slot ref update =
      if maxToolCalls ≤ s.byId.length then
        .error (.io ("too many tool calls (max " ++ toString maxToolCalls ++ ")"))
      else
        .ok { byId := s.byId ++ [(id, update { index := s.byId.length })]
              nextIndex := s.nextIndex + 1 } := by
  have hKey : s.slotKey ref = id ∧ id ∈ c.identities := by
    rcases hId with rfl | rfl
    · have hItem : c.itemId = some id := hRef
      exact ⟨rfl, by simp [CallItem.identities, hItem]⟩
    · obtain rfl : c.callId = id := hRef
      have hFind : (s.byId.find? fun e => e.2.callId = some c.callId) = none := by
        rw [List.find?_eq_none]
        intro e he hMatch
        obtain ⟨j, hj⟩ := List.mem_iff_getElem?.mp he
        have hEq := h.eq_of_callId hIds hc hj (of_decide_eq_true hMatch)
        have hLt := (List.getElem?_eq_some_iff.mp hj).1
        omega
      exact ⟨by simp [AccCalls.slotKey, hFind], c.callId_mem⟩
  rw [AccCalls.slot, hKey.1, AccCalls.entry, if_neg (by simp [h.free_of_new hIds hc hKey.2]),
    h.next]

/-- The added item of the next call opens its entry, up to the cap. -/
theorem absorb_opens (h : Tracking items s) (hIds : OwnIdentities items)
    (hc : items[s.byId.length]? = some c) (hNamed : c.Named) {itemId callId name : Option String}
    {arguments : String} {caller : Option ToolCallCaller} (hCarried : c.Carried itemId callId) :
    s.absorb (.functionCallItem itemId callId name arguments caller) =
      if maxToolCalls ≤ s.byId.length then
        .error (.io ("too many tool calls (max " ++ toString maxToolCalls ++ ")"))
      else
        .ok { byId := s.byId ++ [openCall s.byId.length
                (.functionCallItem itemId callId name arguments caller)]
              nextIndex := s.nextIndex + 1 } := by
  cases itemId with
  | none =>
    cases callId with
    | none => cases hCarried.present <;> contradiction
    | some callId =>
      obtain rfl := hCarried.call callId rfl
      have hOf : CallRef.of none (some c.callId) = some (.call c.callId) := by
        simp [CallRef.of, Option.filter, hNamed.callId]
      have hRef : c.NamedBy (.call c.callId) := rfl
      simp only [AccCalls.absorb, hOf]
      exact h.slot_new hIds hc hRef (Or.inr rfl) _
  | some itemId =>
    have hItem := hCarried.item itemId rfl
    have hNonempty : itemId ≠ "" := fun hEmpty => hNamed.itemId (hEmpty ▸ hItem)
    have hOf : CallRef.of (some itemId) callId = some (.item itemId) := by
      simp [CallRef.of, Option.filter, hNonempty]
    have hRekey : ∀ callId, c.callId = callId → s.rekey itemId callId = s := by
      rintro callId rfl
      exact rekey_of_free (h.free_of_new hIds hc c.callId_mem) itemId
    have hRef : c.NamedBy (.item itemId) := hItem
    simp only [AccCalls.absorb, hOf]
    cases callId with
    | none => exact h.slot_new hIds hc hRef (Or.inl rfl) _
    | some callId =>
      simp only [hRekey callId (hCarried.call callId rfl)]
      exact h.slot_new hIds hc hRef (Or.inl rfl) _

theorem append (h : Tracking items s) (hc : items[s.byId.length]? = some c)
    (hKey : e.1 ∈ c.identities) (hCall : ∀ id, e.2.callId = some id → c.callId = id) :
    Tracking items { byId := s.byId ++ [e], nextIndex := s.nextIndex + 1 } where
  next := by simp [h.next]
  length := by
    have hLt := (List.getElem?_eq_some_iff.mp hc).1
    rw [List.length_append, List.length_singleton]
    exact hLt
  key := by
    intro j c' e' hc' hj
    rcases getElem?_concat_cases hj with hOld | ⟨rfl, rfl⟩
    · exact h.key j c' e' hc' hOld
    · rw [hc] at hc'
      cases hc'
      exact hKey
  callId := by
    intro j c' e' id hc' hj hId
    rcases getElem?_concat_cases hj with hOld | ⟨rfl, rfl⟩
    · exact h.callId j c' e' id hc' hOld hId
    · rw [hc] at hc'
      cases hc'
      exact hCall id hId

theorem openCall_own {k : Nat} {itemId callId name : Option String} {arguments : String}
    {caller : Option ToolCallCaller} (hCarried : c.Carried itemId callId) :
    (openCall k (.functionCallItem itemId callId name arguments caller)).1 ∈ c.identities ∧
      ∀ id, (openCall k (.functionCallItem itemId callId name arguments caller)).2.callId =
        some id → c.callId = id := by
  constructor
  · cases itemId with
    | some itemId => simp [openCall, CallItem.identities, hCarried.item itemId rfl]
    | none =>
      cases callId with
      | some callId => simp [openCall, CallItem.identities, hCarried.call callId rfl]
      | none => cases hCarried.present <;> contradiction
  · intro id hId
    simp only [openCall, AccCalls.nameCall, Option.or_none] at hId
    exact hCarried.call id hId

theorem proceed_own (hOwn : c.Own event) (hKey : e.1 ∈ c.identities)
    (hCall : ∀ id, e.2.callId = some id → c.callId = id) :
    (proceed e event).1 ∈ c.identities ∧
      ∀ id, (proceed e event).2.callId = some id → c.callId = id := by
  cases event with
  | functionCallItem itemId callId name arguments caller =>
    have hCarried : c.Carried itemId callId := hOwn
    have hNamed : ∀ id, (callId.or e.2.callId) = some id → c.callId = id := by
      intro id hId
      rcases Option.or_eq_some_iff.mp hId with hCarries | ⟨-, hOld⟩
      · exact hCarried.call id hCarries
      · exact hCall id hOld
    cases itemId with
    | none => exact ⟨hKey, hNamed⟩
    | some itemId =>
      cases callId with
      | none => exact ⟨hKey, hNamed⟩
      | some callId =>
        refine ⟨?_, hNamed⟩
        change (if e.1 = callId then itemId else e.1) ∈ c.identities
        split
        · simp [CallItem.identities, hCarried.item itemId rfl]
        · exact hKey
  | functionCallArgumentsDelta call delta => exact ⟨hKey, hCall⟩
  | functionCallArgumentsDone call arguments name => exact ⟨hKey, hCall⟩
  | _ => exact absurd hOwn id

/-- The call events of a stream assemble the entries of the calls, up to the cap. -/
theorem foldlM_absorb {stream : List (Nat × ResponsesStreamEvent)} (h : Tracking items s)
    (hIds : OwnIdentities items) (hNamed : ∀ c ∈ items, c.Named)
    (hRoom : s.byId.length ≤ maxToolCalls)
    (hOpens : OpensInOrder items.length s.byId.length stream)
    (hLater : ∀ (k : Nat) c e, items[k]? = some c → s.byId[k]? = some e →
      AllReach e (eventsOf k stream) ∧ ∀ event ∈ eventsOf k stream, c.Own event)
    (hFirst : ∀ (k : Nat) c, items[k]? = some c → s.byId.length ≤ k →
      ∃ itemId callId name arguments caller rest, c.Carried itemId callId ∧
        eventsOf k stream = .functionCallItem itemId callId name arguments caller :: rest ∧
        AllReach (openCall k (.functionCallItem itemId callId name arguments caller)) rest ∧
        ∀ event ∈ rest, c.Own event) :
    (stream.map Prod.snd).foldlM AccCalls.absorb s =
      if maxToolCalls < items.length then
        .error (.io ("too many tool calls (max " ++ toString maxToolCalls ++ ")"))
      else .ok ⟨assemble openCall proceed s.byId stream, items.length⟩ := by
  induction stream generalizing s with
  | nil =>
    have hAll : s.byId.length = items.length := hOpens
    rw [if_neg (by omega), ← hAll, ← h.next]
    rfl
  | cons item rest ih =>
    obtain ⟨k, event⟩ := item
    obtain ⟨c, hc⟩ : ∃ c, items[k]? = some c :=
      ⟨_, List.getElem?_eq_getElem (hOpens.lt_of_mem List.mem_cons_self)⟩
    have hc' := hNamed c (List.mem_of_getElem? hc)
    rw [List.map_cons, List.foldlM_cons, assemble, List.foldl_cons]
    rcases hOpens with ⟨hk, hOpens⟩ | ⟨hk, hOpens⟩
    · have hGet : s.byId[k]? = some s.byId[k] := List.getElem?_eq_getElem hk
      obtain ⟨hReach, hOwn⟩ := hLater k c _ hc hGet
      rw [eventsOf_cons_self] at hReach hOwn
      have hEvent := hOwn event List.mem_cons_self
      obtain ⟨hKey, hCall⟩ := proceed_own hEvent (h.key k c _ hc hGet)
        (fun id hId => h.callId k c _ id hc hGet hId)
      have hStep : assembleStep openCall proceed s.byId (k, event) =
          s.byId.modify k fun e => proceed e event := if_pos hk
      rw [h.absorb_reaches hIds hc hc' hGet hEvent hReach.1, hStep]
      apply ih (h.modify hc hGet hKey hCall)
      · simpa using hRoom
      · simpa using hOpens
      · intro j c' e' hj hj'
        rw [List.getElem?_modify, Option.map_eq_map, Option.map_eq_some_iff] at hj'
        obtain ⟨old, hOld, rfl⟩ := hj'
        by_cases hEq : k = j
        · subst hEq
          rw [hc] at hj
          rw [hGet] at hOld
          cases hj
          cases hOld
          rw [if_pos rfl]
          exact ⟨hReach.2, fun e he => hOwn e (List.mem_cons_of_mem _ he)⟩
        · rw [if_neg hEq]
          have hBefore := hLater j c' old hj hOld
          rwa [eventsOf_cons_ne hEq] at hBefore
      · intro j c' hj hNew
        rw [List.length_modify] at hNew
        have hNe : k ≠ j := by
          have hLt : k < s.byId.length := hk
          omega
        have hBefore := hFirst j c' hj hNew
        rwa [eventsOf_cons_ne hNe] at hBefore
    · replace hk : k = s.byId.length := hk
      subst hk
      obtain ⟨itemId, callId, name, arguments, caller, more, hCarried, hEvents, hReach, hOwn⟩ :=
        hFirst _ c hc (Nat.le_refl _)
      rw [eventsOf_cons_self] at hEvents
      obtain ⟨rfl, rfl⟩ := List.cons.inj hEvents
      have hLt : s.byId.length < items.length := (List.getElem?_eq_some_iff.mp hc).1
      rw [h.absorb_opens hIds hc hc' hCarried]
      by_cases hFull : maxToolCalls ≤ s.byId.length
      · rw [if_pos hFull, if_pos (by omega)]
        rfl
      · rw [if_neg hFull]
        obtain ⟨hKey, hCall⟩ :=
          @openCall_own c s.byId.length itemId callId name arguments caller hCarried
        have hStep : assembleStep openCall proceed s.byId
            (s.byId.length, .functionCallItem itemId callId name arguments caller) =
            s.byId ++ [openCall s.byId.length
              (.functionCallItem itemId callId name arguments caller)] :=
          if_neg (Nat.lt_irrefl _)
        rw [hStep]
        apply ih (h.append hc hKey hCall)
        · rw [List.length_append, List.length_singleton]
          omega
        · simpa using hOpens
        · intro j c' e' hj hj'
          rcases getElem?_concat_cases hj' with hOld | ⟨rfl, rfl⟩
          · have hNe : s.byId.length ≠ j := by
              have hBound := (List.getElem?_eq_some_iff.mp hOld).1
              omega
            have hBefore := hLater j c' e' hj hOld
            rwa [eventsOf_cons_ne hNe] at hBefore
          · rw [hc] at hj
            cases hj
            exact ⟨hReach, hOwn⟩
        · intro j c' hj hNew
          rw [List.length_append, List.length_singleton] at hNew
          have hNe : s.byId.length ≠ j := by omega
          have hBefore := hFirst j c' hj (by omega)
          rwa [eventsOf_cons_ne hNe] at hBefore

end Tracking

/-! ## Steady events -/

section Steady

variable {c : CallItem} {e : String × AccCall} {events : List ResponsesStreamEvent}

/-- The entry is under the id of the item and carries the call id. -/
structure Linked (c : CallItem) (e : String × AccCall) : Prop where
  itemId : c.itemId = some e.1
  callId : e.2.callId = some c.callId

/-- The entry is under the id that the reference gives. -/
def FiledUnder (e : String × AccCall) : CallRef → Prop
  | .item itemId => e.1 = itemId
  | .call callId => e.1 = callId

theorem Linked.finds (h : Linked c e) (hRef : c.NamedBy ref) : Finds e ref := by
  cases ref with
  | item itemId =>
    have hItem : c.itemId = some itemId := hRef
    exact Option.some.inj (h.itemId.symm.trans hItem)
  | call callId =>
    obtain rfl : c.callId = callId := hRef
    exact Or.inr h.callId

theorem CallItem.Carried.of_namedBy {itemId callId : Option String} (h : c.Carried itemId callId)
    (hRef : CallRef.of itemId callId = some ref) : c.NamedBy ref := by
  rcases Option.or_eq_some_iff.mp hRef with hItem | ⟨-, hCall⟩
  · obtain ⟨id, hId, rfl⟩ := Option.map_eq_some_iff.mp hItem
    exact h.item id (Option.filter_eq_some_iff.mp hId).1
  · obtain ⟨id, hId, rfl⟩ := Option.map_eq_some_iff.mp hCall
    exact h.call id (Option.filter_eq_some_iff.mp hId).1

theorem CallItem.Own.namedBy (h : c.Own event) (hRef : event.named = some ref) : c.NamedBy ref := by
  cases event with
  | functionCallItem itemId callId name arguments caller =>
    have hCarried : c.Carried itemId callId := h
    exact hCarried.of_namedBy hRef
  | functionCallArgumentsDelta call delta =>
    cases hRef
    exact h
  | functionCallArgumentsDone call arguments name =>
    cases hRef
    exact h
  | _ => cases hRef

/-- An event of the call names it. -/
theorem CallItem.Own.named (h : c.Own event) (hNamed : c.Named) :
    ∃ ref, event.named = some ref := by
  cases event with
  | functionCallItem itemId callId name arguments caller =>
    have hCarried : c.Carried itemId callId := h
    cases itemId with
    | some itemId =>
      have hNonempty : itemId ≠ "" :=
        fun hEmpty => hNamed.itemId (hEmpty ▸ hCarried.item itemId rfl)
      exact ⟨.item itemId, by simp [ResponsesStreamEvent.named, CallRef.of, Option.filter, hNonempty]⟩
    | none =>
      cases callId with
      | none => cases hCarried.present <;> contradiction
      | some callId =>
        have hNonempty : callId ≠ "" := hCarried.call callId rfl ▸ hNamed.callId
        exact ⟨.call callId,
          by simp [ResponsesStreamEvent.named, CallRef.of, Option.filter, hNonempty]⟩
  | functionCallArgumentsDelta call delta => exact ⟨call, rfl⟩
  | functionCallArgumentsDone call arguments name => exact ⟨call, rfl⟩
  | _ => exact absurd h id

/-- A linked entry stays linked, and every event of its call reaches it. -/
theorem Linked.step (h : Linked c e) (hNamed : c.Named) (hOwn : c.Own event) :
    Reaches e event ∧ Linked c (proceed e event) := by
  obtain ⟨ref, hRef⟩ := hOwn.named hNamed
  have hFinds := h.finds (hOwn.namedBy hRef)
  cases event with
  | functionCallItem itemId callId name arguments caller =>
    have hCarried : c.Carried itemId callId := hOwn
    have hCall : (callId.or e.2.callId) = some c.callId := by
      cases callId with
      | none => exact h.callId
      | some callId => exact congrArg some (hCarried.call callId rfl).symm
    cases itemId with
    | none => exact ⟨⟨ref, hRef, hFinds⟩, h.itemId, hCall⟩
    | some itemId =>
      have hAt : itemId = e.1 := Option.some.inj ((hCarried.item itemId rfl).symm.trans h.itemId)
      cases callId with
      | none => exact ⟨⟨ref, hRef, hFinds⟩, h.itemId, hCall⟩
      | some callId =>
        refine ⟨Or.inl hAt.symm, ?_, hCall⟩
        change c.itemId = some (if e.1 = callId then itemId else e.1)
        rw [hAt, ite_self]
        exact h.itemId
  | functionCallArgumentsDelta call delta => exact ⟨⟨ref, hRef, hFinds⟩, h.itemId, h.callId⟩
  | functionCallArgumentsDone call arguments name =>
    exact ⟨⟨ref, hRef, hFinds⟩, h.itemId, h.callId⟩
  | _ => exact absurd hOwn id

theorem Linked.allReach (h : Linked c e) (hNamed : c.Named)
    (hOwn : ∀ event ∈ events, c.Own event) : AllReach e events := by
  induction events generalizing e with
  | nil => trivial
  | cons event rest ih =>
    obtain ⟨hReach, hNext⟩ := h.step hNamed (hOwn event List.mem_cons_self)
    exact ⟨hReach, ih hNext fun e he => hOwn e (List.mem_cons_of_mem _ he)⟩

/-- An event with both ids reaches the entry of its call and links it. -/
theorem linked_of_linksIds (hOwn : c.Own event) (hLinks : event.linksIds = true)
    (hRef : c.NamedBy ref) (hAt : FiledUnder e ref) :
    Reaches e event ∧ Linked c (proceed e event) := by
  cases event with
  | functionCallItem itemId callId name arguments caller =>
    have hCarried : c.Carried itemId callId := hOwn
    obtain ⟨hSome, hSome'⟩ := Bool.and_eq_true_iff.mp hLinks
    obtain ⟨itemId, rfl⟩ := Option.isSome_iff_exists.mp hSome
    obtain ⟨callId, rfl⟩ := Option.isSome_iff_exists.mp hSome'
    have hItem := hCarried.item itemId rfl
    have hCall := hCarried.call callId rfl
    have hUnder : e.1 = itemId ∨ e.1 = callId := by
      cases ref with
      | item id =>
        have hId : c.itemId = some id := hRef
        exact Or.inl (hAt.trans (Option.some.inj (hId.symm.trans hItem)))
      | call id =>
        have hId : c.callId = id := hRef
        exact Or.inr (hAt.trans (hId.symm.trans hCall))
    refine ⟨hUnder, ?_, congrArg some hCall.symm⟩
    change c.itemId = some (if e.1 = callId then itemId else e.1)
    rw [hItem]
    rcases hUnder with hEq | hEq
    · rw [hEq, ite_self]
    · rw [if_pos hEq]
  | _ => cases hLinks

/-- An event that names the call as its entry is filed leaves it there. -/
theorem filedUnder_step (hLinks : event.linksIds = false) (hRef : event.named = some ref)
    (hAt : FiledUnder e ref) : Reaches e event ∧ FiledUnder (proceed e event) ref := by
  have hFinds : Finds e ref := by
    cases ref with
    | item itemId => exact hAt
    | call callId => exact Or.inl hAt
  have hStays : ∀ e' : String × AccCall, e'.1 = e.1 → FiledUnder e' ref := by
    intro e' hSame
    cases ref <;> exact hSame.trans hAt
  cases event with
  | functionCallItem itemId callId name arguments caller =>
    cases itemId with
    | none => exact ⟨⟨ref, hRef, hFinds⟩, hStays _ rfl⟩
    | some itemId =>
      cases callId with
      | none => exact ⟨⟨ref, hRef, hFinds⟩, hStays _ rfl⟩
      | some callId => cases hLinks
  | functionCallArgumentsDelta call delta => exact ⟨⟨ref, hRef, hFinds⟩, hStays _ rfl⟩
  | functionCallArgumentsDone call arguments name => exact ⟨⟨ref, hRef, hFinds⟩, hStays _ rfl⟩
  | _ => cases hRef

theorem allReach_of_steady (hNamed : c.Named) (hRef : c.NamedBy ref) (hAt : FiledUnder e ref)
    (hOwn : ∀ event ∈ events, c.Own event)
    (hSteady : ∀ event ∈ events.takeWhile fun event => !event.linksIds,
      event.named = some ref) : AllReach e events := by
  induction events generalizing e with
  | nil => trivial
  | cons event rest ih =>
    have hRest : ∀ event ∈ rest, c.Own event := fun e he => hOwn e (List.mem_cons_of_mem _ he)
    cases hLinks : event.linksIds with
    | true =>
      obtain ⟨hReach, hLinked⟩ :=
        linked_of_linksIds (hOwn event List.mem_cons_self) hLinks hRef hAt
      exact ⟨hReach, hLinked.allReach hNamed hRest⟩
    | false =>
      rw [List.takeWhile_cons_of_pos (by simp [hLinks])] at hSteady
      obtain ⟨hReach, hStays⟩ := filedUnder_step hLinks (hSteady event List.mem_cons_self) hAt
      exact ⟨hReach, ih hStays hRest fun e he => hSteady e (List.mem_cons_of_mem _ he)⟩

end Steady

/-! ## Whole calls -/

namespace CallEvents

variable {c : CallItem}

theorem own_later (v : CallEvents c) : ∀ event ∈ v.later, c.Own event := by
  intro event hEvent
  rcases List.mem_append.mp hEvent with hPiece | hEnd
  · obtain ⟨piece, hMem, rfl⟩ := List.mem_map.mp hPiece
    exact v.pieces_named piece hMem
  · rcases List.mem_cons.mp hEnd with rfl | hLast
    · exact v.arguments_named
    · rw [List.mem_singleton.mp hLast]
      exact v.done_carried

/-- Steady events all reach the entry that the first of them opens. -/
theorem allReach (v : CallEvents c) (hNamed : c.Named) (hSteady : Steady v.events) (k : Nat) :
    AllReach (openCall k v.added) v.later := by
  obtain ⟨ref, hSteady⟩ := hSteady
  cases hLinks : v.added.linksIds with
  | true =>
    obtain ⟨hSome, hSome'⟩ := Bool.and_eq_true_iff.mp hLinks
    obtain ⟨itemId, hItem⟩ := Option.isSome_iff_exists.mp hSome
    obtain ⟨callId, hCall⟩ := Option.isSome_iff_exists.mp hSome'
    have hLinked : Linked c (openCall k v.added) := by
      constructor
      · simp [openCall, added, hItem, v.added_carried.item itemId hItem]
      · simp [openCall, added, AccCalls.nameCall, hCall, v.added_carried.call callId hCall]
    exact hLinked.allReach hNamed v.own_later
  | false =>
    rw [events, List.takeWhile_cons_of_pos (by simp [hLinks])] at hSteady
    have hRef : CallRef.of v.addedItemId v.addedCallId = some ref :=
      hSteady v.added List.mem_cons_self
    have hAt : FiledUnder (openCall k v.added) ref := by
      rcases Option.or_eq_some_iff.mp hRef with hItem | ⟨hNone, hCall⟩
      · obtain ⟨id, hId, rfl⟩ := Option.map_eq_some_iff.mp hItem
        have hSome := (Option.filter_eq_some_iff.mp hId).1
        simp [FiledUnder, openCall, added, hSome]
      · obtain ⟨id, hId, rfl⟩ := Option.map_eq_some_iff.mp hCall
        have hSome := (Option.filter_eq_some_iff.mp hId).1
        have hNoItem : v.addedItemId = none := by
          rw [Option.map_eq_none_iff, Option.filter_eq_none_iff] at hNone
          cases hItem : v.addedItemId with
          | none => rfl
          | some itemId =>
            have hEmpty : itemId = "" := by simpa using hNone itemId hItem
            exact absurd (hEmpty ▸ v.added_carried.item itemId hItem) hNamed.itemId
        simp [FiledUnder, openCall, added, hSome, hNoItem]
    exact allReach_of_steady hNamed (v.added_carried.of_namedBy hRef) hAt v.own_later
      fun event hMem => hSteady event (List.mem_cons_of_mem _ hMem)

theorem proceed_snd (e : String × AccCall) (event : ResponsesStreamEvent) :
    (proceed e event).2 = (continueCall e event).2 := by
  unfold proceed
  split <;> rfl

theorem foldl_pieces_rest (pieces : List (CallRef × String)) (e : String × AccCall) :
    let events := pieces.map fun piece =>
      ResponsesStreamEvent.functionCallArgumentsDelta piece.1 piece.2
    (events.foldl proceed e).2.caller = e.2.caller ∧ (events.foldl proceed e).2.index = e.2.index := by
  induction pieces generalizing e with
  | nil => exact ⟨rfl, rfl⟩
  | cons piece rest ih => exact ih (proceed e (.functionCallArgumentsDelta piece.1 piece.2))

/-- The events of a call end in an entry that gives the call. -/
theorem itemState_eq (v : CallEvents c) (k : Nat) :
    ∃ e, itemState (openCall k) proceed v.events = some e ∧ e.2 = (c.entry k).2 := by
  refine ⟨_, rfl, ?_⟩
  obtain ⟨hCaller, hIndex⟩ := foldl_pieces_rest v.pieces (openCall k v.added)
  rw [later, List.foldl_append]
  generalize ((v.pieces.map fun piece =>
    ResponsesStreamEvent.functionCallArgumentsDelta piece.1 piece.2).foldl proceed
      (openCall k v.added)) = e at hCaller hIndex ⊢
  rw [List.foldl_cons, List.foldl_cons, List.foldl_nil, proceed_snd]
  have hCallerEq : v.doneCaller.or e.2.caller = c.caller := by
    have hOpen : (openCall k v.added).2.caller = v.addedCaller := Option.or_none
    rw [hCaller, hOpen, v.caller_eq]
  have hArguments : (if c.arguments = "" then c.arguments else c.arguments) = c.arguments :=
    ite_self _
  have hOpened : e.2.index = k := hIndex
  simp only [continueCall, itemDone, argumentsDone, proceed, AccCalls.nameCall,
    AccCalls.completeCall, CallItem.entry, hCallerEq, hArguments, hOpened, Option.some_or]

end CallEvents

theorem ownIdentities_of_nodup {calls : List CallItem}
    (h : (calls.flatMap CallItem.identities).Nodup) : OwnIdentities calls := by
  intro i j c c' id hi hj hc hc'
  rw [List.nodup_flatMap, List.pairwise_iff_getElem] at h
  obtain ⟨hLt, rfl⟩ := List.getElem?_eq_some_iff.mp hi
  obtain ⟨hLt', rfl⟩ := List.getElem?_eq_some_iff.mp hj
  rcases Nat.lt_trichotomy i j with hBefore | hEq | hBehind
  · exact absurd hc' (h.2 i j hLt hLt' hBefore hc)
  · exact hEq
  · exact absurd hc (h.2 j i hLt' hLt hBehind hc')

/-- A fragmentation of the calls: an interleaving of the steady events of each of them. -/
structure CallStream (calls : List CallItem) (stream : List (Nat × ResponsesStreamEvent)) :
    Prop where
  identities : OwnIdentities calls
  named : ∀ c ∈ calls, c.Named
  opens : OpensInOrder calls.length 0 stream
  events : ∀ (k : Nat) c, calls[k]? = some c →
    ∃ v : CallEvents c, eventsOf k stream = v.events ∧ Steady v.events

theorem CallStream.foldlM_absorb {calls : List CallItem}
    {stream : List (Nat × ResponsesStreamEvent)} (h : CallStream calls stream) :
    (stream.map Prod.snd).foldlM AccCalls.absorb {} =
      if maxToolCalls < calls.length then
        .error (.io ("too many tool calls (max " ++ toString maxToolCalls ++ ")"))
      else .ok ⟨assemble openCall proceed [] stream, calls.length⟩ := by
  have hStart : Tracking calls {} := ⟨rfl, Nat.zero_le _, by simp, by simp⟩
  refine hStart.foldlM_absorb h.identities h.named (Nat.zero_le _) h.opens (by simp) ?_
  intro k c hc _
  obtain ⟨v, hStream, hSteady⟩ := h.events k c hc
  exact ⟨_, _, _, _, _, _, v.added_carried, hStream,
    v.allReach (h.named c (List.mem_of_getElem? hc)) hSteady k, v.own_later⟩

/-- Every interleaving of the steady events of up to 128 calls gives each call once, in
the order in which the stream opens them. A stream of more calls is refused. -/
theorem calls_assembled {calls : List CallItem} {stream : List (Nat × ResponsesStreamEvent)}
    (h : CallStream calls stream) :
    ((stream.map Prod.snd).foldlM AccCalls.absorb {}).map AccCalls.finish =
      if maxToolCalls < calls.length then
        .error (.io ("too many tool calls (max " ++ toString maxToolCalls ++ ")"))
      else .ok (calls.map CallItem.toCall, 0) := by
  rw [h.foldlM_absorb]
  split
  · rfl
  · -- each entry gives its call, and the entries stand in the order of their indices
    have hEntries : ∀ k : Nat, ((assemble openCall proceed [] stream)[k]?).map Prod.snd =
        (calls[k]?).map fun c => (c.entry k).2 := by
      intro k
      rw [@getElem?_assemble _ _ _ _ _ _ [] h.opens k]
      cases hc : calls[k]? with
      | some c =>
        obtain ⟨v, hStream, -⟩ := h.events k c hc
        obtain ⟨e, hState, hEq⟩ := v.itemState_eq k
        simp [hStream, hState, hEq]
      | none =>
        have hNone : eventsOf k stream = [] := by
          rw [List.eq_nil_iff_forall_not_mem]
          intro e he
          have hLt := h.opens.lt_of_mem (mem_eventsOf.mp he)
          rw [List.getElem?_eq_getElem hLt] at hc
          cases hc
        simp [hNone, itemState]
    have hIndices : ∀ (k : Nat) e, (assemble openCall proceed [] stream)[k]? = some e →
        e.2.index = k := by
      intro k e he
      have hEntry := hEntries k
      rw [he] at hEntry
      obtain ⟨c, -, hEq⟩ := Option.map_eq_some_iff.mp hEntry.symm
      exact congrArg AccCall.index hEq.symm
    have hOrdered := @intoOrdered_eq _ calls.length hIndices
    have hCalls : (assemble openCall proceed [] stream).map AccCalls.finishCall =
        calls.map fun c => some c.toCall := by
      apply List.ext_getElem?
      intro k
      have hEntry := hEntries k
      rw [List.getElem?_map, List.getElem?_map]
      cases hc : calls[k]? with
      | none =>
        rw [hc] at hEntry
        rw [Option.map_eq_none_iff.mp hEntry]
        rfl
      | some c =>
        rw [hc] at hEntry
        obtain ⟨e, he, hEq⟩ := Option.map_eq_some_iff.mp hEntry
        have hName := (h.named c (List.mem_of_getElem? hc)).name
        rw [he, Option.map_some, Option.map_some, AccCalls.finishCall, hEq]
        simp [CallItem.entry, CallItem.toCall, Option.filter, hName]
    have hFinished : (assemble openCall proceed [] stream).filterMap AccCalls.finishCall =
        calls.map CallItem.toCall := by
      have hSplit : ((assemble openCall proceed [] stream).map AccCalls.finishCall).filterMap id =
          (assemble openCall proceed [] stream).filterMap AccCalls.finishCall :=
        List.filterMap_map
      rw [← hSplit, hCalls, List.filterMap_map]
      exact congrFun (List.filterMap_eq_map (f := CallItem.toCall)) calls
    have hLength : (assemble openCall proceed [] stream).length = calls.length :=
      @length_assemble _ _ _ _ _ _ [] h.opens
    simp only [Except.map, AccCalls.finish, hOrdered, hFinished, List.length_map, hLength,
      Nat.sub_self]

/-! ## Two calls, a call that is split, and one call too many -/

def readCall : CallItem := ⟨some "item1", "call1", "read", "ab", none⟩
def listCall : CallItem := ⟨some "item2", "call2", "list", "cd", some ⟨"program", "p"⟩⟩

/-- The call id comes first, and the item's id only with the item that is done. -/
def readEvents : CallEvents readCall where
  addedItemId := none
  addedCallId := some "call1"
  addedName := some "read"
  addedCaller := none
  pieces := [(.call "call1", "a"), (.call "call1", "b")]
  argumentsRef := .call "call1"
  argumentsName := none
  doneItemId := some "item1"
  doneCaller := none
  added_carried := ⟨by simp, by simp [readCall], Or.inr rfl⟩
  pieces_named := by simp [CallItem.NamedBy, readCall]
  arguments_named := rfl
  done_carried := ⟨by simp [readCall], by simp, Or.inl rfl⟩
  caller_eq := rfl

/-- The added item lacks the call id and the caller. -/
def listEvents : CallEvents listCall where
  addedItemId := some "item2"
  addedCallId := none
  addedName := none
  addedCaller := none
  pieces := [(.item "item2", "cd")]
  argumentsRef := .item "item2"
  argumentsName := none
  doneItemId := some "item2"
  doneCaller := some ⟨"program", "p"⟩
  added_carried := ⟨by simp [listCall], by simp, Or.inl rfl⟩
  pieces_named := by simp [CallItem.NamedBy, listCall]
  arguments_named := rfl
  done_carried := ⟨by simp [listCall], by simp, Or.inl rfl⟩
  caller_eq := rfl

/-- The events of the two calls, interleaved. -/
def twoCallStream : List (Nat × ResponsesStreamEvent) :=
  (readEvents.events.zip listEvents.events).flatMap (fun pair => [(0, pair.1), (1, pair.2)]) ++
    [(0, readEvents.itemDone)]

theorem calls_assembled_two :
    ((twoCallStream.map Prod.snd).foldlM AccCalls.absorb {}).map AccCalls.finish =
      .ok ([readCall.toCall, listCall.toCall], 0) := by
  have h : CallStream [readCall, listCall] twoCallStream := by
    refine ⟨ownIdentities_of_nodup (by decide), ?_, ?_, ?_⟩
    · intro c hc
      rcases List.mem_cons.mp hc with rfl | hc
      · exact ⟨by decide, by decide, by decide⟩
      · rw [List.mem_singleton.mp hc]
        exact ⟨by decide, by decide, by decide⟩
    · simp [twoCallStream, OpensInOrder, CallEvents.events, CallEvents.later, readEvents,
        listEvents]
    · intro k c hc
      rcases k with _ | _ | k
      · cases hc
        exact ⟨readEvents, rfl, .call "call1", by decide⟩
      · cases hc
        exact ⟨listEvents, rfl, .item "item2", by decide⟩
      · cases hc
  exact calls_assembled h

/-- The item of the call is added without its call id, and then the call id alone
names the arguments. -/
def mixedEvents : CallEvents readCall where
  addedItemId := some "item1"
  addedCallId := none
  addedName := some "read"
  addedCaller := none
  pieces := [(.call "call1", "ab")]
  argumentsRef := .call "call1"
  argumentsName := none
  doneItemId := some "item1"
  doneCaller := none
  added_carried := ⟨by simp [readCall], by simp, Or.inl rfl⟩
  pieces_named := by simp [CallItem.NamedBy, readCall]
  arguments_named := rfl
  done_carried := ⟨by simp [readCall], by simp, Or.inl rfl⟩
  caller_eq := rfl

/-- Call number `k`, with ids of its own. -/
def manyCall (k : Nat) : CallItem :=
  ⟨some (String.ofList (List.replicate (k + 1) 'i')), String.ofList (List.replicate (k + 1) 'c'),
    "read", "", none⟩

/-- The events of call number `k`, which all carry the id of its item. -/
def manyEvents (k : Nat) : CallEvents (manyCall k) where
  addedItemId := (manyCall k).itemId
  addedCallId := some (manyCall k).callId
  addedName := some "read"
  addedCaller := none
  pieces := []
  argumentsRef := .call (manyCall k).callId
  argumentsName := none
  doneItemId := (manyCall k).itemId
  doneCaller := none
  added_carried := ⟨fun _ h => h, by simp, Or.inl rfl⟩
  pieces_named := by simp
  arguments_named := rfl
  done_carried := ⟨fun _ h => h, by simp, Or.inl rfl⟩
  caller_eq := rfl

/-- All items are added, then all arguments come, and then all items are done. -/
def manyCallStream (n : Nat) : List (Nat × ResponsesStreamEvent) :=
  numbered 0 ((List.range n).map fun k => (manyEvents k).added) ++
    (numbered 0 ((List.range n).map fun k => (manyEvents k).argumentsDone) ++
      numbered 0 ((List.range n).map fun k => (manyEvents k).itemDone))

theorem ofList_replicate_inj {a b : Char} {m n : Nat}
    (h : String.ofList (List.replicate (m + 1) a) = String.ofList (List.replicate (n + 1) b)) :
    a = b ∧ m = n := by
  have hList := congrArg String.toList h
  rw [String.toList_ofList, String.toList_ofList] at hList
  have hLength := congrArg List.length hList
  simp only [List.length_replicate] at hLength
  exact ⟨(List.cons.inj hList).1, by omega⟩

theorem callStream_many (n : Nat) :
    CallStream ((List.range n).map manyCall) (manyCallStream n) where
  identities := by
    intro i j c c' id hi hj hc hc'
    rw [List.getElem?_map, Option.map_eq_some_iff] at hi hj
    obtain ⟨i, hi', rfl⟩ := hi
    obtain ⟨j, hj', rfl⟩ := hj
    obtain ⟨hLt, rfl⟩ := List.getElem?_eq_some_iff.mp hi'
    obtain ⟨hLt', rfl⟩ := List.getElem?_eq_some_iff.mp hj'
    simp only [List.getElem_range, CallItem.identities, manyCall, Option.toList_some,
      List.cons_append, List.nil_append, List.mem_cons, List.not_mem_nil, or_false] at hc hc'
    rcases hc with rfl | rfl <;> rcases hc' with hSame | hSame <;>
      exact (ofList_replicate_inj hSame).2
  named := by
    intro c hc
    obtain ⟨k, -, rfl⟩ := List.mem_map.mp hc
    refine ⟨fun h => ?_, fun h => ?_, by simp [manyCall]⟩
    · have hList := congrArg String.toList (Option.some.inj h)
      simp at hList
    · have hList := congrArg String.toList h
      simp [manyCall] at hList
  opens := by
    have hAdded := opensInOrder_numbered 0 ((List.range n).map fun k => (manyEvents k).added)
    simp only [List.length_map, List.length_range, Nat.zero_add] at hAdded ⊢
    have hBound : ∀ (f : Nat → ResponsesStreamEvent) event,
        event ∈ numbered 0 ((List.range n).map f) → event.1 < n := by
      intro f event hEvent
      have hLt := (opensInOrder_numbered 0 ((List.range n).map f)).lt_of_mem hEvent
      rwa [List.length_map, List.length_range, Nat.zero_add] at hLt
    refine hAdded.append fun event hEvent => ?_
    rcases List.mem_append.mp hEvent with hMem | hMem
    · exact hBound _ event hMem
    · exact hBound _ event hMem
  events := by
    intro k c hc
    rw [List.getElem?_map, Option.map_eq_some_iff] at hc
    obtain ⟨j, hj, rfl⟩ := hc
    obtain ⟨hLt, hAt⟩ := List.getElem?_eq_some_iff.mp hj
    rw [List.getElem_range] at hAt
    subst hAt
    rw [List.length_range] at hLt
    have hEvents : ∀ f : Nat → ResponsesStreamEvent,
        eventsOf k (numbered 0 ((List.range n).map f)) = [f k] := by
      intro f
      have h := eventsOf_numbered 0 k ((List.range n).map f)
      rw [Nat.zero_add] at h
      rw [h, List.getElem?_map, hj]
      rfl
    refine ⟨manyEvents k, ?_, .call (manyCall k).callId, ?_⟩
    · rw [manyCallStream, eventsOf_append, eventsOf_append, hEvents, hEvents, hEvents]
      rfl
    · rw [CallEvents.events, List.takeWhile_cons_of_neg (by simp [CallEvents.added,
        manyEvents, manyCall, ResponsesStreamEvent.linksIds])]
      simp

/-- A call that is named by its item and then by its call id is split: a phantom call
without a name holds a copy of its arguments. And 129 calls are refused. -/
theorem phantom_call_and_call_cap :
    (mixedEvents.events.foldlM AccCalls.absorb {}).map AccCalls.finish =
        .ok ([readCall.toCall], 1) ∧
      CallStream ((List.range 129).map manyCall) (manyCallStream 129) ∧
      ((manyCallStream 129).map Prod.snd).foldlM AccCalls.absorb {} =
        .error (.io ("too many tool calls (max " ++ toString maxToolCalls ++ ")")) := by
  refine ⟨?_, callStream_many 129, ?_⟩
  · have hRun : mixedEvents.events.foldlM AccCalls.absorb {} = .ok ⟨[
        ("item1", ⟨some "call1", some "read", "ab", none, 0⟩),
        ("call1", ⟨none, none, "ab", none, 1⟩)], 2⟩ := by rfl
    have hIndices : ∀ (k : Nat) e, [
        ("item1", (⟨some "call1", some "read", "ab", none, 0⟩ : AccCall)),
        ("call1", ⟨none, none, "ab", none, 1⟩)][k]? = some e → e.2.index = k := by
      intro k e he
      rcases k with _ | _ | k
      · cases he
        rfl
      · cases he
        rfl
      · cases he
    have hOrdered := @intoOrdered_eq _ 2 hIndices
    rw [hRun, Except.map, AccCalls.finish, hOrdered]
    rfl
  · have hRun := (callStream_many 129).foldlM_absorb
    rwa [if_pos (by simp [maxToolCalls])] at hRun

end Choreographr.Protocols
