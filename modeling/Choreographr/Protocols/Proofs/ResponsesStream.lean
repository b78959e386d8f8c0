import Choreographr.Protocols.Proofs.ChatStream

/-!
# Streamed Responses replies

The loop keeps its channels apart (`handleAll_eq`): texts are appended, reasoning
items are merged by id and call events go to `AccCalls`. The items of a reply come
out of the merge in their order and complete, and so do its calls out of the
accumulator; the rest is the assembly both paths share.
-/

namespace Choreographr.Protocols

open Session Lib

variable {event : ResponsesStreamEvent}

/-! ## Reasoning items -/

theorem mergeReasoningItem_of_open {collected : List Json} {value : Json} {k : Nat} {id : String}
    (hk : k < collected.length) (hValue : stringField value "id" = some id)
    (hAt : stringField collected[k] "id" = some id)
    (hOther : ∀ j (hj : j < k), stringField collected[j] "id" ≠ some id) :
    mergeReasoningItem collected value = collected.modify k fun _ => value := by
  have hFind : collected.findIdx? (fun other => stringField other "id" = some id) = some k := by
    rw [List.findIdx?_eq_some_iff_getElem]
    refine ⟨hk, by simpa using hAt, ?_⟩
    intro j hj
    simpa using hOther j hj
  simp only [mergeReasoningItem, hValue, hFind, List.set_eq_modify]

theorem mergeReasoningItem_of_new {collected : List Json} {value : Json}
    (h : ∀ id, stringField value "id" = some id →
      ∀ other ∈ collected, stringField other "id" ≠ some id) :
    mergeReasoningItem collected value = collected ++ [value] := by
  unfold mergeReasoningItem
  cases hValue : stringField value "id" with
  | none => rfl
  | some id =>
    have hFind : collected.findIdx? (fun other => stringField other "id" = some id) = none := by
      rw [List.findIdx?_eq_none_iff]
      intro other hOther
      simpa using h id hValue other hOther
    simp only [hFind]

/-- The stream collects one entry for each item, under its id. -/
theorem foldl_mergeReasoningItem {items : List Json} {stream : List (Nat × Json)}
    {collected : List Json} (hOpens : OpensInOrder items.length collected.length stream)
    (hCollected : ∀ (k : Nat) item value, items[k]? = some item → collected[k]? = some value →
      stringField value "id" = stringField item "id")
    (hIds : ∀ (i j : Nat) item item' id, items[i]? = some item → items[j]? = some item' →
      stringField item "id" = some id → stringField item' "id" = some id → i = j)
    (hValues : ∀ (k : Nat) item, items[k]? = some item → ∀ value ∈ eventsOf k stream,
      stringField value "id" = stringField item "id")
    (hOnce : ∀ (k : Nat) item, items[k]? = some item → stringField item "id" = none →
      (eventsOf k stream).length ≤ 1 ∧ (k < collected.length → eventsOf k stream = [])) :
    (stream.map Prod.snd).foldl mergeReasoningItem collected =
      assemble (fun _ => id) (fun _ value => value) collected stream := by
  induction stream generalizing collected with
  | nil => rfl
  | cons event rest ih =>
    obtain ⟨k, value⟩ := event
    have hLt : k < items.length := hOpens.lt_of_mem List.mem_cons_self
    have hItem : items[k]? = some items[k] := List.getElem?_eq_getElem hLt
    have hValue : stringField value "id" = stringField items[k] "id" := by
      apply hValues k _ hItem
      rw [eventsOf_cons_self]
      exact List.mem_cons_self
    have hRestValues : ∀ (j : Nat) item, items[j]? = some item → ∀ v ∈ eventsOf j rest,
        stringField v "id" = stringField item "id" := by
      intro j item hj v hv
      apply hValues j item hj v
      rw [mem_eventsOf] at hv ⊢
      exact List.mem_cons_of_mem _ hv
    have hSelf : stringField items[k] "id" = none → eventsOf k rest = [] := by
      intro hNone
      have hOne := (hOnce k _ hItem hNone).1
      rw [eventsOf_cons_self, List.length_cons] at hOne
      exact List.eq_nil_of_length_eq_zero (by omega)
    rw [List.map_cons, List.foldl_cons, assemble, List.foldl_cons]
    rcases hOpens with ⟨hk, hOpens⟩ | ⟨hk, hOpens⟩
    · have hSome : ∃ id, stringField items[k] "id" = some id := by
        rw [← Option.isSome_iff_exists, Option.isSome_iff_ne_none]
        intro hNone
        have hNil := (hOnce k _ hItem hNone).2 hk
        rw [eventsOf_cons_self] at hNil
        cases hNil
      obtain ⟨name, hId⟩ := hSome
      have hAt : stringField collected[k] "id" = some name :=
        (hCollected k _ _ hItem (List.getElem?_eq_getElem hk)).trans hId
      have hOther : ∀ j (hj : j < k), stringField collected[j] "id" ≠ some name := by
        intro j hj hSame
        have hItem' : items[j]? = some items[j] := List.getElem?_eq_getElem (Nat.lt_trans hj hLt)
        have hOld := hCollected j _ _ hItem' (List.getElem?_eq_getElem (Nat.lt_trans hj hk))
        have hEq := hIds j k _ _ name hItem' hItem (hOld.symm.trans hSame) hId
        omega
      have hStep : assembleStep (fun _ => id) (fun _ value => value) collected (k, value) =
          collected.modify k fun _ => value := if_pos hk
      rw [mergeReasoningItem_of_open hk (hValue.trans hId) hAt hOther, hStep]
      apply ih
      · simpa using hOpens
      · intro j item v hj hv
        obtain ⟨old, hOld, rfl | ⟨rfl, rfl⟩⟩ := getElem?_modify_cases hv
        · exact hCollected j item v hj hOld
        · rw [hItem] at hj
          cases hj
          exact hValue
      · exact hRestValues
      · intro j item hj hNone
        obtain ⟨hOne, hOpen⟩ := hOnce j item hj hNone
        by_cases hEq : k = j
        · subst hEq
          rw [hItem] at hj
          cases hj
          simp [hSelf hNone]
        · rw [eventsOf_cons_ne hEq] at hOne hOpen
          rw [List.length_modify]
          exact ⟨hOne, hOpen⟩
    · replace hk : k = collected.length := hk
      have hNew : ∀ id, stringField value "id" = some id →
          ∀ other ∈ collected, stringField other "id" ≠ some id := by
        intro id hId other hOther hSame
        obtain ⟨j, hj, rfl⟩ := List.mem_iff_getElem.mp hOther
        have hjk : j < k := by omega
        have hItem' : items[j]? = some items[j] := List.getElem?_eq_getElem (Nat.lt_trans hjk hLt)
        have hOld := hCollected j _ _ hItem' (List.getElem?_eq_getElem hj)
        have hEq := hIds j k _ _ id hItem' hItem (hOld.symm.trans hSame) (hValue.symm.trans hId)
        omega
      have hStep : assembleStep (fun _ => id) (fun _ value => value) collected (k, value) =
          collected ++ [value] := if_neg (by simpa using Nat.le_of_eq hk.symm)
      rw [mergeReasoningItem_of_new hNew, hStep]
      apply ih
      · simpa using hOpens
      · intro j item v hj hv
        rcases getElem?_concat_cases hv with hOld | ⟨rfl, rfl⟩
        · exact hCollected j item v hj hOld
        · rw [← hk, hItem] at hj
          cases hj
          exact hValue
      · exact hRestValues
      · intro j item hj hNone
        obtain ⟨hOne, hOpen⟩ := hOnce j item hj hNone
        by_cases hEq : k = j
        · subst hEq
          rw [hItem] at hj
          cases hj
          simp [hSelf hNone]
        · rw [eventsOf_cons_ne hEq] at hOne hOpen
          refine ⟨hOne, ?_⟩
          intro hLt'
          rw [List.length_append, List.length_singleton] at hLt'
          exact hOpen (by omega)

theorem foldl_const_eq_getLast {α : Type} (first : α) (rest : List α) :
    some (rest.foldl (fun _ value => value) first) = (first :: rest).getLast? := by
  induction rest generalizing first with
  | nil => rfl
  | cons value rest ih =>
    rw [List.foldl_cons, ih]
    simp

section ResponsesFragments

variable {reply : ResponsesResponse} {events : List ResponsesStreamEvent}
  {reasoning : List (Nat × Json)} {calls : List (Nat × ResponsesStreamEvent)}

/-- The stream collects the reasoning items of the reply. -/
theorem ResponsesFragments.reasoningItems_eq (h : ResponsesFragments reply events reasoning calls) :
    (events.filterMap ResponsesStreamEvent.reasoningValue).foldl mergeReasoningItem [] =
      reply.reasoningItems := by
  rw [h.reasoning_eq, foldl_mergeReasoningItem h.reasoning_opens (by simp) h.reasoning_ids
    (fun k raw hRaw => (h.reasoning_item k raw hRaw).2.1)]
  · apply assemble_eq h.reasoning_opens
    intro k
    cases hRaw : reply.reasoningItems[k]? with
    | some raw =>
      obtain ⟨hLast, _, _⟩ := h.reasoning_item k raw hRaw
      cases hEvents : eventsOf k reasoning with
      | nil => simp [hEvents] at hLast
      | cons first rest =>
        rw [hEvents, ← foldl_const_eq_getLast] at hLast
        exact hLast
    | none =>
      have hNone : eventsOf k reasoning = [] := by
        rw [List.eq_nil_iff_forall_not_mem]
        intro e he
        have hLt := h.reasoning_opens.lt_of_mem (mem_eventsOf.mp he)
        rw [List.getElem?_eq_getElem hLt] at hRaw
        cases hRaw
      rw [hNone]
      rfl
  · intro k raw hRaw hNone
    have hOne := (h.reasoning_item k raw hRaw).2.2 hNone
    exact ⟨Nat.le_of_eq hOne, by simp⟩

end ResponsesFragments

/-! ## Calls -/

namespace CallItem

/-- The identity a call is filed under. -/
def key (c : CallItem) : String := c.itemId.getD c.callId

theorem key_mem (c : CallItem) : c.key ∈ c.identities := by
  unfold key identities
  cases c.itemId <;> simp

theorem callId_mem (c : CallItem) : c.callId ∈ c.identities := by
  simp [identities]

/-- Ids that are not empty. -/
structure Named (c : CallItem) : Prop where
  itemId : c.itemId ≠ some ""
  callId : c.callId ≠ ""
  name : c.name ≠ ""

/-- The reference an output item of the call gives. -/
def ref (c : CallItem) : CallRef := (c.itemId.map CallRef.item).getD (.call c.callId)

theorem ref_namedBy (c : CallItem) : c.NamedBy c.ref := by
  unfold ref
  cases h : c.itemId with
  | none => rfl
  | some itemId => exact h

theorem Named.of_eq {c : CallItem} (h : c.Named) :
    CallRef.of c.itemId (some c.callId) = some c.ref := by
  have hItem := h.itemId
  unfold CallRef.of ref
  cases hId : c.itemId with
  | none => simp [Option.filter, h.callId]
  | some itemId =>
    have hNonempty : itemId ≠ "" := by
      rintro rfl
      exact hItem hId
    simp [Option.filter, hNonempty]

end CallItem

/-- What a later event does to the entry of its call. -/
def continueCall (e : String × AccCall) : ResponsesStreamEvent → String × AccCall
  | .functionCallItem _ callId name arguments caller =>
      (e.1, AccCalls.nameCall callId name arguments caller e.2)
  | .functionCallArgumentsDelta _ delta =>
      (e.1, { e.2 with arguments := e.2.arguments ++ delta })
  | .functionCallArgumentsDone _ arguments name =>
      (e.1, AccCalls.completeCall arguments name e.2)
  | _ => e

@[simp] theorem continueCall_fst (e : String × AccCall) (event : ResponsesStreamEvent) :
    (continueCall e event).1 = e.1 := by
  cases event <;> rfl

/-- The entry an output item opens, at place `k`. -/
def openCall (k : Nat) : ResponsesStreamEvent → String × AccCall
  | .functionCallItem itemId callId name arguments caller =>
      ((itemId.or callId).getD "", AccCalls.nameCall callId name arguments caller { index := k })
  | _ => ("", { index := k })

/-- An event of the call after its item was announced. -/
def CallItem.Follows (c : CallItem) (event : ResponsesStreamEvent) : Prop :=
  event = c.done ∨ (∃ ref delta, c.NamedBy ref ∧ event = .functionCallArgumentsDelta ref delta) ∨
    ∃ ref arguments name, c.NamedBy ref ∧ event = .functionCallArgumentsDone ref arguments name

/-- No id names two calls. -/
def OwnIdentities (items : List CallItem) : Prop :=
  ∀ (i j : Nat) c c' id, items[i]? = some c → items[j]? = some c' → id ∈ c.identities →
    id ∈ c'.identities → i = j

/-- The accumulator holds the calls announced so far, each under its identity. -/
structure Accumulating (items : List CallItem) (s : AccCalls) : Prop where
  next : s.nextIndex = s.byId.length
  length : s.byId.length ≤ items.length
  key : ∀ (k : Nat) c e, items[k]? = some c → s.byId[k]? = some e → e.1 = c.key
  callId : ∀ (k : Nat) c e, items[k]? = some c → s.byId[k]? = some e →
    e.2.callId = some c.callId

theorem rekey_of_free {s : AccCalls} {callId : String} (h : s.containsKey callId = false)
    (itemId : String) : s.rekey itemId callId = s := by
  rw [AccCalls.containsKey, List.any_eq_false] at h
  have hMap : (s.byId.map fun e => if e.1 = callId then (itemId, e.2) else e) = s.byId := by
    nth_rewrite 2 [← List.map_id s.byId]
    apply List.map_congr_left
    intro e he
    have hNe : e.1 ≠ callId := by simpa using h e he
    simp [hNe]
  rw [AccCalls.rekey, hMap, ite_self]

namespace Accumulating

variable {items : List CallItem} {s : AccCalls} {k : Nat} {c : CallItem}

theorem getElem?_item (h : Accumulating items s) {e : String × AccCall} (hk : s.byId[k]? = some e) :
    ∃ c, items[k]? = some c := by
  have hLt := (List.getElem?_eq_some_iff.mp hk).1
  exact ⟨_, List.getElem?_eq_getElem (Nat.lt_of_lt_of_le hLt h.length)⟩

theorem eq_of_key (h : Accumulating items s) (hIds : OwnIdentities items) (hc : items[k]? = some c)
    {j : Nat} {e : String × AccCall} (hj : s.byId[j]? = some e) (hKey : e.1 ∈ c.identities) :
    j = k := by
  obtain ⟨c', hc'⟩ := h.getElem?_item hj
  rw [h.key j c' e hc' hj] at hKey
  exact hIds j k c' c c'.key hc' hc c'.key_mem hKey

theorem eq_of_callId (h : Accumulating items s) (hIds : OwnIdentities items)
    (hc : items[k]? = some c) {j : Nat} {e : String × AccCall} (hj : s.byId[j]? = some e)
    (hCall : e.2.callId = some c.callId) : j = k := by
  obtain ⟨c', hc'⟩ := h.getElem?_item hj
  have hSame : c'.callId = c.callId := Option.some.inj ((h.callId j c' e hc' hj).symm.trans hCall)
  exact hIds j k c' c c.callId hc' hc (hSame ▸ c'.callId_mem) c.callId_mem

theorem containsKey_eq_false (h : Accumulating items s) (hIds : OwnIdentities items)
    (hc : items[k]? = some c) (hk : s.byId.length ≤ k) {id : String} (hId : id ∈ c.identities) :
    s.containsKey id = false := by
  rw [AccCalls.containsKey, List.any_eq_false]
  intro e he hKey
  obtain ⟨j, hj, rfl⟩ := List.mem_iff_getElem.mp he
  have hEq := h.eq_of_key hIds hc (List.getElem?_eq_getElem hj)
    (by simpa using (of_decide_eq_true hKey) ▸ hId)
  omega

/-- Updating the slot of an open call changes its entry. -/
theorem entry_eq (h : Accumulating items s) (hIds : OwnIdentities items) (hc : items[k]? = some c)
    (hk : k < s.byId.length) (update : AccCall → AccCall) :
    s.entry c.key update =
      .ok { s with byId := s.byId.modify k fun e => (e.1, update e.2) } := by
  have hGet : s.byId[k]? = some s.byId[k] := List.getElem?_eq_getElem hk
  have hContains : s.containsKey c.key = true := by
    rw [AccCalls.containsKey, List.any_eq_true]
    exact ⟨s.byId[k], List.getElem_mem hk, by simpa using h.key k c _ hc hGet⟩
  have hMap : (s.byId.map fun e => if e.1 = c.key then (e.1, update e.2) else e) =
      s.byId.modify k fun e => (e.1, update e.2) := by
    apply List.ext_getElem?
    intro j
    rw [List.getElem?_map, List.getElem?_modify]
    cases hj : s.byId[j]? with
    | none => rfl
    | some e =>
      by_cases hEq : k = j
      · subst hEq
        simp [h.key k c e hc hj]
      · have hNe : e.1 ≠ c.key := by
          intro hKey
          exact hEq (h.eq_of_key hIds hc hj (hKey ▸ c.key_mem)).symm
        simp [hNe, hEq]
  simp only [AccCalls.entry, hContains, if_true, hMap]

/-- An event that names an open call finds its slot. -/
theorem slotKey_eq (h : Accumulating items s) (hIds : OwnIdentities items)
    (hc : items[k]? = some c) (hk : k < s.byId.length) {ref : CallRef} (hRef : c.NamedBy ref) :
    s.slotKey ref = c.key := by
  cases ref with
  | item itemId =>
    have hItem : c.itemId = some itemId := hRef
    simp [AccCalls.slotKey, CallItem.key, hItem]
  | call callId =>
    have hCall : c.callId = callId := hRef
    subst hCall
    have hGet : s.byId[k]? = some s.byId[k] := List.getElem?_eq_getElem hk
    have hSome : (s.byId.find? fun e => e.2.callId = some c.callId).isSome := by
      rw [List.find?_isSome]
      exact ⟨s.byId[k], List.getElem_mem hk, by simpa using h.callId k c _ hc hGet⟩
    obtain ⟨e, he⟩ := Option.isSome_iff_exists.mp hSome
    have hMatch : e.2.callId = some c.callId := by simpa using List.find?_some he
    obtain ⟨j, hj⟩ := List.mem_iff_getElem?.mp (List.mem_of_find?_eq_some he)
    obtain rfl := h.eq_of_callId hIds hc hj hMatch
    simp only [AccCalls.slotKey, he]
    exact h.key j c e hc hj

/-- An item goes to the slot of its call, where no slot is moved for it. -/
theorem absorb_item (hNamed : c.Named)
    (hRekey : ∀ itemId, c.itemId = some itemId → s.rekey itemId c.callId = s)
    (name : Option String) (arguments : String) (caller : Option ToolCallCaller) :
    s.absorb (.functionCallItem c.itemId (some c.callId) name arguments caller) =
      s.entry (s.slotKey c.ref) (AccCalls.nameCall (some c.callId) name arguments caller) := by
  simp only [AccCalls.absorb, hNamed.of_eq]
  unfold CallItem.ref
  cases hItem : c.itemId with
  | none => rfl
  | some itemId =>
    simp only [Option.map_some, Option.getD_some, hRekey itemId hItem]
    rfl

/-- A later event of a call changes the entry of that call only. -/
theorem absorb_follows (h : Accumulating items s) (hIds : OwnIdentities items)
    (hc : items[k]? = some c) (hNamed : c.Named) (hk : k < s.byId.length) (hEvent : c.Follows event) :
    s.absorb event =
      .ok { s with byId := s.byId.modify k fun e => continueCall e event } := by
  rcases hEvent with rfl | ⟨ref, delta, hRef, rfl⟩ | ⟨ref, arguments, name, hRef, rfl⟩
  · have hSlot := h.slotKey_eq hIds hc hk c.ref_namedBy
    have hEntry := h.entry_eq hIds hc hk
      (AccCalls.nameCall (some c.callId) (some c.name) c.arguments c.caller)
    have hRekey : ∀ itemId, c.itemId = some itemId → s.rekey itemId c.callId = s := by
      intro itemId hItem
      have hContains : s.containsKey itemId = true := by
        rw [AccCalls.containsKey, List.any_eq_true]
        have hKey := h.key k c _ hc (List.getElem?_eq_getElem hk)
        exact ⟨s.byId[k], List.getElem_mem hk, by simpa [CallItem.key, hItem] using hKey⟩
      simp [AccCalls.rekey, hContains]
    rw [CallItem.done, absorb_item hNamed hRekey, hSlot, hEntry]
    rfl
  · rw [AccCalls.absorb, AccCalls.slot, h.slotKey_eq hIds hc hk hRef, h.entry_eq hIds hc hk]
    rfl
  · rw [AccCalls.absorb, AccCalls.slot, h.slotKey_eq hIds hc hk hRef, h.entry_eq hIds hc hk]
    rfl

/-- The announcement of the next call opens its entry. -/
theorem absorb_added (h : Accumulating items s) (hIds : OwnIdentities items)
    (hc : items[s.byId.length]? = some c) (hNamed : c.Named)
    (hRoom : s.byId.length < maxToolCalls) :
    s.absorb c.added =
      .ok { byId := s.byId ++ [openCall s.byId.length c.added], nextIndex := s.nextIndex + 1 } := by
  have hFresh : ∀ id ∈ c.identities, s.containsKey id = false :=
    fun id hId => h.containsKey_eq_false hIds hc (Nat.le_refl _) hId
  have hRekey : ∀ itemId, c.itemId = some itemId → s.rekey itemId c.callId = s :=
    fun itemId _ => rekey_of_free (hFresh c.callId c.callId_mem) itemId
  have hSlot : s.slotKey c.ref = c.key := by
    unfold CallItem.ref CallItem.key
    cases hItem : c.itemId with
    | some itemId => rfl
    | none =>
      have hFind : (s.byId.find? fun e => e.2.callId = some c.callId) = none := by
        rw [List.find?_eq_none]
        intro e he hMatch
        obtain ⟨j, hj⟩ := List.mem_iff_getElem?.mp he
        have hEq := h.eq_of_callId hIds hc hj (of_decide_eq_true hMatch)
        have hLt := (List.getElem?_eq_some_iff.mp hj).1
        omega
      simp [AccCalls.slotKey, hFind]
  have hEntry : ∀ update, s.entry c.key update =
      .ok { byId := s.byId ++ [(c.key, update { index := s.byId.length })]
            nextIndex := s.nextIndex + 1 } := by
    intro update
    have hFull : ¬maxToolCalls ≤ s.byId.length := Nat.not_le_of_lt hRoom
    simp only [AccCalls.entry, hFresh c.key c.key_mem, hFull, if_false, Bool.false_eq_true, h.next]
  have hOpen : ((c.itemId.or (some c.callId)).getD "") = c.key := by
    unfold CallItem.key
    cases c.itemId <;> rfl
  rw [CallItem.added, absorb_item hNamed hRekey, hSlot, hEntry]
  simp only [openCall, hOpen]

theorem modify (h : Accumulating items s) (hc : items[k]? = some c) (hEvent : c.Follows event) :
    Accumulating items { s with byId := s.byId.modify k fun e => continueCall e event } where
  next := by simpa using h.next
  length := by simpa using h.length
  key := by
    intro j c' e hc' hj
    obtain ⟨old, hOld, rfl | ⟨-, rfl⟩⟩ := getElem?_modify_cases hj
    · exact h.key j c' e hc' hOld
    · simpa using h.key j c' old hc' hOld
  callId := by
    intro j c' e hc' hj
    obtain ⟨old, hOld, rfl | ⟨rfl, rfl⟩⟩ := getElem?_modify_cases hj
    · exact h.callId j c' e hc' hOld
    · have hCall := h.callId k c' old hc' hOld
      rw [hc] at hc'
      cases hc'
      rcases hEvent with rfl | ⟨_, _, _, rfl⟩ | ⟨_, _, _, _, rfl⟩
      · rfl
      · exact hCall
      · exact hCall

theorem append (h : Accumulating items s) (hc : items[s.byId.length]? = some c) :
    Accumulating items
      { byId := s.byId ++ [openCall s.byId.length c.added], nextIndex := s.nextIndex + 1 } where
  next := by simp [h.next]
  length := by
    have hLt := (List.getElem?_eq_some_iff.mp hc).1
    rw [List.length_append, List.length_singleton]
    exact hLt
  key := by
    intro j c' e hc' hj
    rcases getElem?_concat_cases hj with hOld | ⟨rfl, rfl⟩
    · exact h.key j c' e hc' hOld
    · rw [hc] at hc'
      cases hc'
      unfold CallItem.key
      cases hItem : c.itemId <;> simp [openCall, CallItem.added, hItem]
  callId := by
    intro j c' e hc' hj
    rcases getElem?_concat_cases hj with hOld | ⟨rfl, rfl⟩
    · exact h.callId j c' e hc' hOld
    · rw [hc] at hc'
      cases hc'
      rfl

/-- The call events of a stream assemble the entries of the calls. -/
theorem foldlM_absorb {stream : List (Nat × ResponsesStreamEvent)} (h : Accumulating items s)
    (hIds : OwnIdentities items) (hNamed : ∀ c ∈ items, c.Named)
    (hRoom : items.length ≤ maxToolCalls)
    (hOpens : OpensInOrder items.length s.byId.length stream)
    (hLater : ∀ (k : Nat) c, items[k]? = some c → k < s.byId.length →
      ∀ event ∈ eventsOf k stream, c.Follows event)
    (hFirst : ∀ (k : Nat) c, items[k]? = some c → s.byId.length ≤ k →
      ∃ rest, eventsOf k stream = c.added :: rest ∧ ∀ event ∈ rest, c.Follows event) :
    ∃ s', (stream.map Prod.snd).foldlM AccCalls.absorb s = .ok s' ∧
      s'.byId = assemble openCall continueCall s.byId stream := by
  induction stream generalizing s with
  | nil => exact ⟨s, rfl, rfl⟩
  | cons item rest ih =>
    obtain ⟨k, event⟩ := item
    obtain ⟨c, hc⟩ : ∃ c, items[k]? = some c :=
      ⟨_, List.getElem?_eq_getElem (hOpens.lt_of_mem List.mem_cons_self)⟩
    rw [List.map_cons, List.foldlM_cons, assemble, List.foldl_cons]
    rcases hOpens with ⟨hk, hOpens⟩ | ⟨hk, hOpens⟩
    · have hEvent : c.Follows event := by
        apply hLater k c hc hk
        rw [eventsOf_cons_self]
        exact List.mem_cons_self
      have hStep : assembleStep openCall continueCall s.byId (k, event) =
          s.byId.modify k fun e => continueCall e event := if_pos hk
      rw [h.absorb_follows hIds hc (hNamed c (List.mem_of_getElem? hc)) hk hEvent, hStep]
      apply ih (h.modify hc hEvent)
      · simpa using hOpens
      · intro j c' hc' hj e he
        apply hLater j c' hc' (by simpa using hj)
        rw [mem_eventsOf] at he ⊢
        exact List.mem_cons_of_mem _ he
      · intro j c' hc' hj
        rw [List.length_modify] at hj
        have hNe : k ≠ j := by
          have hLt : k < s.byId.length := hk
          omega
        have hOld := hFirst j c' hc' hj
        rwa [eventsOf_cons_ne hNe] at hOld
    · replace hk : k = s.byId.length := hk
      subst hk
      obtain ⟨more, hEvents, hMore⟩ := hFirst _ c hc (Nat.le_refl _)
      rw [eventsOf_cons_self] at hEvents
      obtain ⟨rfl, hTail⟩ := List.cons.inj hEvents
      have hLt : s.byId.length < items.length := (List.getElem?_eq_some_iff.mp hc).1
      have hStep : assembleStep openCall continueCall s.byId (s.byId.length, c.added) =
          s.byId ++ [openCall s.byId.length c.added] := if_neg (Nat.lt_irrefl _)
      rw [h.absorb_added hIds hc (hNamed c (List.mem_of_getElem? hc))
        (Nat.lt_of_lt_of_le hLt hRoom), hStep]
      apply ih (h.append hc)
      · simpa using hOpens
      · intro j c' hc' hj e he
        rw [List.length_append, List.length_singleton] at hj
        rcases Nat.lt_succ_iff_lt_or_eq.mp hj with hj | rfl
        · apply hLater j c' hc' hj
          rw [mem_eventsOf] at he ⊢
          exact List.mem_cons_of_mem _ he
        · rw [hc] at hc'
          cases hc'
          rw [hTail] at he
          exact hMore e he
      · intro j c' hc' hj
        rw [List.length_append, List.length_singleton] at hj
        have hNe : s.byId.length ≠ j := by omega
        have hOld := hFirst j c' hc' (by omega)
        rwa [eventsOf_cons_ne hNe] at hOld

end Accumulating

/-- The entry of a call that has arrived. -/
def CallItem.entry (c : CallItem) (k : Nat) : String × AccCall :=
  (c.key, {
    callId := some c.callId
    name := some c.name
    arguments := c.arguments
    caller := c.caller
    index := k })

section CallScript

variable {c : CallItem} {events closing : List ResponsesStreamEvent}
  {pieces : List (CallRef × String)} {k : Nat}

/-- An entry of the call, with the arguments so far. -/
def CallItem.entryWith (c : CallItem) (k : Nat) (arguments : String) : String × AccCall :=
  (c.key, { (c.entry k).2 with arguments := arguments })

theorem foldl_pieces (pieces : List (CallRef × String)) (text : String) :
    (pieces.map fun piece =>
        ResponsesStreamEvent.functionCallArgumentsDelta piece.1 piece.2).foldl continueCall
        (c.entryWith k text) =
      c.entryWith k (text ++ String.join (pieces.map Prod.snd)) := by
  induction pieces generalizing text with
  | nil => simp
  | cons piece rest ih =>
    have hStep : continueCall (c.entryWith k text)
        (.functionCallArgumentsDelta piece.1 piece.2) = c.entryWith k (text ++ piece.2) := rfl
    rw [List.map_cons, List.foldl_cons, hStep, ih]
    simp [String.append_assoc]

/-- An event with the complete arguments completes the entry. -/
theorem continueCall_complete {text : String} (hEvent : event = c.done ∨
      ∃ ref name, c.NamedBy ref ∧ event = .functionCallArgumentsDone ref c.arguments name)
    (hText : text = "" ∨ text = c.arguments) :
    continueCall (c.entryWith k text) event = c.entry k := by
  rcases hEvent with rfl | ⟨ref, name, _, rfl⟩
  · have hArguments : (if c.arguments = "" then text else c.arguments) = c.arguments := by
      split
      · rename_i hEmpty
        rcases hText with rfl | rfl
        · exact hEmpty.symm
        · rfl
      · rfl
    have hCaller : c.caller.or c.caller = c.caller := by simp
    simp only [continueCall, CallItem.done, AccCalls.nameCall, CallItem.entryWith, CallItem.entry,
      hArguments, Option.some_or, hCaller]
  · rfl

/-- The events of a call bring its entry. -/
theorem CallScript.itemState_eq (h : CallScript c events pieces closing) (k : Nat) :
    itemState (openCall k) continueCall events = some (c.entry k) := by
  have hOpen : openCall k c.added = c.entryWith k "" := by
    have hKey : (c.itemId.or (some c.callId)).getD "" = c.key := by
      unfold CallItem.key
      cases c.itemId <;> rfl
    simp only [openCall, CallItem.added, hKey, CallItem.entryWith, CallItem.entry,
      AccCalls.nameCall, Option.or_none, if_true]
  have hEntry : c.entryWith k c.arguments = c.entry k := rfl
  have hClosed : ∀ (closing : List ResponsesStreamEvent) (text : String),
      (∀ event ∈ closing, event = c.done ∨
        ∃ ref name, c.NamedBy ref ∧ event = .functionCallArgumentsDone ref c.arguments name) →
      (text = c.arguments ∨ text = "" ∧ closing ≠ []) →
      closing.foldl continueCall (c.entryWith k text) = c.entry k := by
    intro closing
    induction closing with
    | nil =>
      rintro text _ (rfl | ⟨_, hNil⟩)
      · exact hEntry
      · exact absurd rfl hNil
    | cons event rest ih =>
      intro text hEvents hText
      have hStep := continueCall_complete (hEvents event List.mem_cons_self) (k := k)
        (hText.elim Or.inr fun hEmpty => Or.inl hEmpty.1)
      rw [List.foldl_cons, hStep, ← hEntry]
      exact ih c.arguments (fun e he => hEvents e (List.mem_cons_of_mem event he)) (Or.inl rfl)
  rw [h.events_eq, List.cons_append, itemState, List.foldl_append, hOpen, foldl_pieces,
    String.empty_append, hClosed closing _ h.complete]
  rcases h.arguments with hJoin | ⟨rfl, hSome⟩
  · exact Or.inl hJoin
  · exact Or.inr ⟨rfl, hSome⟩

theorem CallScript.eq_cons (h : CallScript c events pieces closing) :
    ∃ rest, events = c.added :: rest ∧ ∀ event ∈ rest, c.Follows event := by
  refine ⟨_, h.events_eq, ?_⟩
  intro event hEvent
  rcases List.mem_append.mp hEvent with hEvent | hEvent
  · obtain ⟨piece, hPiece, rfl⟩ := List.mem_map.mp hEvent
    exact Or.inr (Or.inl ⟨piece.1, piece.2, h.pieces_named piece hPiece, rfl⟩)
  · rcases h.complete event hEvent with rfl | ⟨ref, name, hRef, rfl⟩
    · exact Or.inl rfl
    · exact Or.inr (Or.inr ⟨ref, c.arguments, name, hRef, rfl⟩)

end CallScript

/-! ## The loop -/

theorem itemId_ne_empty {raw : Json} {c : CallItem} (h : callItem raw = some c) :
    c.itemId ≠ some "" := by
  unfold callItem at h
  split at h
  · cases h
    intro hEmpty
    obtain ⟨_, hNonempty⟩ := Option.filter_eq_some_iff.mp hEmpty
    simp at hNonempty
  · cases h

theorem intoOrdered_eq {entries : List (String × AccCall)} {next : Nat}
    (h : ∀ (k : Nat) e, entries[k]? = some e → e.2.index = k) :
    (⟨entries, next⟩ : AccCalls).intoOrdered = entries := by
  apply List.mergeSort_of_pairwise
  rw [List.pairwise_iff_getElem]
  intro i j hi hj hij
  have hLeft := h i _ (List.getElem?_eq_getElem hi)
  have hRight := h j _ (List.getElem?_eq_getElem hj)
  simp only [hLeft, hRight, decide_eq_true_eq]
  omega

section ResponsesFragments

variable {reply : ResponsesResponse} {events : List ResponsesStreamEvent}
  {reasoning : List (Nat × Json)} {calls : List (Nat × ResponsesStreamEvent)}

/-- The stream's calls are the calls of the reply. -/
theorem ResponsesFragments.calls_eq_finish (h : ResponsesFragments reply events reasoning calls)
    (hRoom : reply.callItems.length ≤ maxToolCalls) :
    ∃ s, (calls.map Prod.snd).foldlM AccCalls.absorb {} = .ok s ∧
      s.finish = (reply.callItems.map CallItem.toCall, 0) := by
  have hNamed : ∀ c ∈ reply.callItems, c.Named := by
    intro c hc
    obtain ⟨raw, _, hRaw⟩ := List.mem_filterMap.mp hc
    obtain ⟨hName, hCallId⟩ := h.call_named c hc
    exact ⟨itemId_ne_empty hRaw, hCallId, hName⟩
  have hStart : Accumulating reply.callItems {} := ⟨rfl, Nat.zero_le _, by simp, by simp⟩
  obtain ⟨s, hRun, hById⟩ := hStart.foldlM_absorb h.call_identities hNamed hRoom h.calls_opens
    (by simp) (by
      intro k c hc _
      obtain ⟨pieces, closing, hScript⟩ := h.call k c hc
      exact hScript.eq_cons)
  refine ⟨s, hRun, ?_⟩
  have hEntries : s.byId = reply.callItems.mapIdx fun k c => c.entry k := by
    rw [hById]
    apply assemble_eq
    · rw [List.length_mapIdx]
      exact h.calls_opens
    · intro k
      rw [List.getElem?_mapIdx]
      cases hc : reply.callItems[k]? with
      | some c =>
        obtain ⟨pieces, closing, hScript⟩ := h.call k c hc
        exact hScript.itemState_eq k
      | none =>
        have hNone : eventsOf k calls = [] := by
          rw [List.eq_nil_iff_forall_not_mem]
          intro e he
          have hLt := h.calls_opens.lt_of_mem (mem_eventsOf.mp he)
          rw [List.getElem?_eq_getElem hLt] at hc
          cases hc
        rw [hNone]
        rfl
  have hOrdered : s.intoOrdered = reply.callItems.mapIdx fun k c => c.entry k := by
    have hIndices : ∀ (k : Nat) e, s.byId[k]? = some e → e.2.index = k := by
      intro k e he
      rw [hEntries, List.getElem?_mapIdx, Option.map_eq_some_iff] at he
      obtain ⟨c, _, rfl⟩ := he
      rfl
    rw [← hEntries]
    exact intoOrdered_eq hIndices
  have hCalls : (reply.callItems.mapIdx fun k c => c.entry k).filterMap AccCalls.finishCall =
      reply.callItems.map CallItem.toCall := by
    rw [List.mapIdx_eq_zipIdx_map, List.filterMap_map]
    nth_rewrite 2 [← List.zipIdx_map_fst 0 reply.callItems]
    rw [List.map_map, ← List.filterMap_eq_map]
    apply List.filterMap_congr
    rintro ⟨c, k⟩ hMem
    have hName := (hNamed c (List.fst_mem_of_mem_zipIdx hMem)).name
    simp [AccCalls.finishCall, CallItem.entry, CallItem.toCall, Option.filter, hName]
  simp only [AccCalls.finish, hOrdered, hCalls]
  simp

end ResponsesFragments

namespace ResponsesStreamState

/-- What a body of events leaves: its texts appended, its reasoning items merged
and the calls it brought. -/
def after (s : ResponsesStreamState) (events : List ResponsesStreamEvent) (calls : AccCalls) :
    ResponsesStreamState :=
  { s with
    fullContent := s.fullContent ++ String.join (events.filterMap ResponsesStreamEvent.text)
    fullReasoning := s.fullReasoning ++
      String.join (events.filterMap ResponsesStreamEvent.summary)
    reasoningItems := (events.filterMap ResponsesStreamEvent.reasoningValue).foldl
      mergeReasoningItem s.reasoningItems
    accCalls := calls }

theorem after_cons (s : ResponsesStreamState) (event : ResponsesStreamEvent)
    (events : List ResponsesStreamEvent) (calls calls' : AccCalls) :
    (s.after [event] calls).after events calls' = s.after (event :: events) calls' := by
  have hSplit : event :: events = [event] ++ events := rfl
  rw [hSplit]
  simp only [after, List.filterMap_append, String.join_append, List.foldl_append,
    String.append_assoc]

theorem handle_of_body (s : ResponsesStreamState) {calls : AccCalls}
    (hEvent : event.isTerminal = false) (hCalls : s.accCalls.absorb event = .ok calls) :
    s.handle event = .ok (s.after [event] calls, false) := by
  cases event with
  | responseCompleted | responseFailed | responseIncomplete => cases hEvent
  | functionCallItem | functionCallArgumentsDelta | functionCallArgumentsDone =>
    simp [handle, hCalls, after, List.filterMap, ResponsesStreamEvent.text, ResponsesStreamEvent.summary,
      ResponsesStreamEvent.reasoningValue, Except.map]
  | textDelta | textDone | reasoningItem | reasoningSummaryText | programCodeDelta
  | programCodeDone | programOutputDone =>
    cases hCalls
    simp [handle, after, List.filterMap, ResponsesStreamEvent.text, ResponsesStreamEvent.summary,
      ResponsesStreamEvent.reasoningValue]

theorem absorb_of_not_call (calls : AccCalls) (h : event.isCallEvent = false) :
    calls.absorb event = .ok calls := by
  cases event <;> first | rfl | cases h

/-- The loop over the body of a stream. -/
theorem run_append (lib : JsonLib) {parsed : List (Option ResponsesStreamEvent)}
    {body : List String} (s : ResponsesStreamState) {calls : AccCalls} (rest : List String)
    (hParsed : body.map (parseResponsesStreamEvent lib) = parsed.map .ok)
    (hBody : ∀ event ∈ parsed.filterMap id, event.isTerminal = false)
    (hCalls : ((parsed.filterMap id).filter ResponsesStreamEvent.isCallEvent).foldlM
      AccCalls.absorb s.accCalls = .ok calls) :
    s.run lib (body ++ rest) = (s.after (parsed.filterMap id) calls).run lib rest := by
  induction parsed generalizing body s with
  | nil =>
    obtain rfl := List.map_eq_nil_iff.mp hParsed
    cases hCalls
    simp [after]
  | cons event parsed ih =>
    obtain ⟨data, body, rfl, hData, hTail⟩ := List.map_eq_cons_iff.mp hParsed
    rw [List.cons_append, run, hData]
    cases event with
    | none => exact ih s hTail hBody hCalls
    | some event =>
      have hEvent : event.isTerminal = false := hBody event List.mem_cons_self
      have hRest : ∀ e ∈ parsed.filterMap id, e.isTerminal = false := by
        intro e he
        exact hBody e (List.mem_cons_of_mem event he)
      obtain ⟨mid, hMid, hLater⟩ : ∃ mid, s.accCalls.absorb event = .ok mid ∧
          ((parsed.filterMap id).filter ResponsesStreamEvent.isCallEvent).foldlM
            AccCalls.absorb mid = .ok calls := by
        rw [List.filterMap_cons_some (show id (some event) = some event from rfl),
          List.filter_cons] at hCalls
        by_cases hCall : event.isCallEvent = true
        · rw [if_pos hCall, List.foldlM_cons] at hCalls
          cases hMid : s.accCalls.absorb event with
          | error err =>
            rw [hMid] at hCalls
            cases hCalls
          | ok mid =>
            rw [hMid] at hCalls
            exact ⟨mid, rfl, hCalls⟩
        · rw [if_neg hCall] at hCalls
          exact ⟨s.accCalls, absorb_of_not_call _ (by simpa using hCall), hCalls⟩
      simp only [handle_of_body s hEvent hMid]
      rw [ih _ hTail hRest hLater, after_cons]
      rfl

end ResponsesStreamState

/-! ## The whole reply -/

/-- The display text of the reasoning of a reply: a space between the entries of
an item. -/
def ResponsesResponse.spacedSummary (r : ResponsesResponse) : String :=
  String.join (r.output.map fun raw => " ".intercalate (ResponsesResponse.itemSummary raw))

/-- What reading one more item adds. -/
theorem ReplyParts.absorb_eq (parts : ReplyParts) {raw : Json}
    (h : (responseOutputItemFromValue raw).isSome) :
    parts.absorb raw = .ok {
      fullText := parts.fullText ++ ResponsesResponse.itemText raw
      fullReasoning := parts.fullReasoning ++
        " ".intercalate (ResponsesResponse.itemSummary raw)
      toolCalls := parts.toolCalls ++ ((callItem raw).map CallItem.toCall).toList
      reasoningItems := parts.reasoningItems ++ [raw].filter isReasoningItem } := by
  obtain ⟨item, hItem⟩ := Option.isSome_iff_exists.mp h
  cases item with
  | reasoning summary =>
    have hText : (extractReasoningText summary).getD "" =
        " ".intercalate (summary.filterMap summaryEntryText) := by
      unfold extractReasoningText
      cases summary.filterMap summaryEntryText <;> rfl
    simp [ReplyParts.absorb, hItem, hText, ResponsesResponse.itemText,
      ResponsesResponse.itemSummary, callItem, isReasoningItem]
  | message | functionCall | program | programOutput | unknown =>
    simp [ReplyParts.absorb, hItem, ResponsesResponse.itemText, ResponsesResponse.itemSummary,
      callItem, isReasoningItem, CallItem.toCall]

theorem foldlM_absorb_eq (output : List Json)
    (h : ∀ raw ∈ output, (responseOutputItemFromValue raw).isSome) (parts : ReplyParts) :
    output.foldlM ReplyParts.absorb parts = .ok {
      fullText := parts.fullText ++ String.join (output.map ResponsesResponse.itemText)
      fullReasoning := parts.fullReasoning ++ String.join
        (output.map fun raw => " ".intercalate (ResponsesResponse.itemSummary raw))
      toolCalls := parts.toolCalls ++ (output.filterMap callItem).map CallItem.toCall
      reasoningItems := parts.reasoningItems ++ output.filter isReasoningItem } := by
  induction output generalizing parts with
  | nil =>
    simp
    rfl
  | cons raw rest ih =>
    have hRest : ∀ r ∈ rest, (responseOutputItemFromValue r).isSome :=
      fun r hr => h r (List.mem_cons_of_mem raw hr)
    rw [List.foldlM_cons, ReplyParts.absorb_eq parts (h raw List.mem_cons_self)]
    show rest.foldlM ReplyParts.absorb _ = _
    rw [ih hRest]
    have hSplit : raw :: rest = [raw] ++ rest := rfl
    have hCalls : ((callItem raw).map CallItem.toCall).toList =
        ([raw].filterMap callItem).map CallItem.toCall := by
      cases hCall : callItem raw <;> simp [List.filterMap, hCall]
    rw [hSplit]
    simp only [hCalls, List.map_append, List.filterMap_append, List.filter_append,
      String.join_append, String.append_assoc, List.append_assoc]
    simp

/-! ## Agreement -/

/-- The display text of the reasoning is the only part it reaches, as long as
there is reasoning in both or in neither. -/
theorem assembleTurn_withReasoning (lib : JsonLib) (parts : TurnParts) (reasoning : Option String) :
    assembleTurn lib { parts with reasoning := reasoning } =
      (assembleTurn lib parts).map (ChatTurnResult.withReasoning reasoning) := by
  simp only [assembleTurn, TurnParts.answer]
  split
  · rfl
  · split
    · split <;> rfl
    · split
      · rfl
      · split <;> rfl

theorem assembleTurn_mapError (lib : JsonLib) (parts : TurnParts) :
    (assembleTurn lib parts).mapError OpenAiError.streamed = assembleTurn lib parts := by
  simp only [assembleTurn]
  split
  · rfl
  · split
    · split <;> rfl
    · split
      · rfl
      · split <;> rfl

namespace ResponsesResponse

variable {reply : ResponsesResponse}

theorem itemSummary_eq_nil {raw : Json} (h : isReasoningItem raw = false) : itemSummary raw = [] := by
  unfold itemSummary
  unfold isReasoningItem at h
  split
  · rename_i hItem
    rw [hItem] at h
    cases h
  · rfl

/-- A reply without reasoning items has no reasoning to show. -/
theorem summaries_eq_empty (h : reply.reasoningItems = []) :
    reply.summaryText = "" ∧ reply.spacedSummary = "" := by
  have hItems : ∀ raw ∈ reply.output, itemSummary raw = [] := by
    intro raw hRaw
    apply itemSummary_eq_nil
    simpa using (List.filter_eq_nil_iff.mp h) raw hRaw
  have hFlat : reply.output.flatMap itemSummary = [] := List.flatMap_eq_nil_iff.mpr hItems
  have hSpaced : reply.output.map (fun raw => " ".intercalate (itemSummary raw)) =
      reply.output.map fun _ => "" := by
    apply List.map_congr_left
    intro raw hRaw
    rw [hItems raw hRaw]
    rfl
  refine ⟨by rw [summaryText, hFlat]; rfl, ?_⟩
  rw [spacedSummary, hSpaced]
  induction reply.output with
  | nil => rfl
  | cons raw rest ih => simpa using ih

theorem producedReasoning_eq :
    (!reply.reasoningItems.isEmpty || decide (reply.summaryText ≠ "")) =
      (!reply.reasoningItems.isEmpty || decide (reply.spacedSummary ≠ "")) := by
  cases h : reply.reasoningItems with
  | nil =>
    obtain ⟨hPlain, hSpaced⟩ := summaries_eq_empty h
    rw [hPlain, hSpaced]
  | cons => rfl

/-- The display text of streamed reasoning: the summary texts, run together. -/
def streamedReasoning (reply : ResponsesResponse) : Option String :=
  if reply.summaryText = "" then none else some reply.summaryText

/-- The parts of a turn, with the display text of its reasoning. -/
def turnParts (lib : JsonLib) (reply : ResponsesResponse) (reasoning : String)
    (truncated : Bool) : TurnParts where
  content := if reply.answerText = "" then none else some reply.answerText
  toolCalls := reply.callItems.map CallItem.toCall
  unnamedCalls := 0
  reasoning := if reasoning = "" then none else some reasoning
  reasoningArtifact := responsesItemsArtifact lib reply.reasoningItems
  producedReasoning := !reply.reasoningItems.isEmpty || reasoning ≠ ""
  usage := reply.usage.map Usage.toTokenUsage
  truncated := truncated
  responseId := reply.id

theorem toTurn_eq (lib : JsonLib)
    (h : ∀ raw ∈ reply.output, (responseOutputItemFromValue raw).isSome) :
    responsesResponseToTurn lib reply = (incompleteStop reply).bind fun truncated =>
      assembleTurn lib (reply.turnParts lib reply.spacedSummary truncated) := by
  rw [responsesResponseToTurn, foldlM_absorb_eq reply.output h]
  cases incompleteStop reply with
  | error err => rfl
  | ok truncated =>
    show assembleTurn lib _ = assembleTurn lib _
    simp only [String.empty_append, List.nil_append]
    rfl

theorem assembleTurn_streamed (lib : JsonLib) (truncated : Bool) :
    assembleTurn lib (reply.turnParts lib reply.summaryText truncated) =
      (assembleTurn lib (reply.turnParts lib reply.spacedSummary truncated)).map
        (ChatTurnResult.withReasoning reply.streamedReasoning) := by
  rw [← assembleTurn_withReasoning]
  simp only [turnParts, producedReasoning_eq]
  rfl

end ResponsesResponse

theorem ResponsesFragments.finish_eq {reply : ResponsesResponse}
    {events : List ResponsesStreamEvent} {reasoning : List (Nat × Json)}
    {calls : List (Nat × ResponsesStreamEvent)}
    (h : ResponsesFragments reply events reasoning calls) {acc : AccCalls}
    (hFinish : acc.finish = (reply.callItems.map CallItem.toCall, 0)) (lib : JsonLib)
    {s : ResponsesStreamState} {truncated : Bool}
    (hs : s = { ResponsesStreamState.after {} events acc with
      responseId := reply.id
      lastUsage := (reply.usage.map Usage.toTokenUsage).or none
      truncated := truncated }) :
    s.finish lib = assembleTurn lib (reply.turnParts lib reply.summaryText truncated) := by
  subst hs
  simp only [ResponsesStreamState.finish, ResponsesStreamState.after, hFinish, h.text, h.summary,
    h.reasoningItems_eq, String.empty_append, Option.or_none]
  rfl

/-- A streamed Responses reply gives the turn of the whole reply, up to the display
text of its reasoning and the wording of a policy block. -/
theorem responsesStream_eq {lib : JsonLib} {reply : ResponsesResponse} {payloads : List String}
    {events : List ResponsesStreamEvent} {reasoning : List (Nat × Json)}
    {calls : List (Nat × ResponsesStreamEvent)} {terminal : ResponsesStreamEvent}
    (h : ResponsesFragments reply events reasoning calls)
    (hTerminal : TerminalEvent reply terminal) (hDelivers : Delivers lib payloads events terminal)
    (hRoom : reply.callItems.length ≤ maxToolCalls) :
    responsesStream lib payloads =
      ((responsesResponseToTurn lib reply).mapError OpenAiError.streamed).map
        (ChatTurnResult.withReasoning reply.streamedReasoning) := by
  obtain ⟨body, rest, last, parsed, rfl, hParsed, rfl, hLast⟩ := hDelivers
  obtain ⟨acc, hAcc, hFinish⟩ := h.calls_eq_finish hRoom
  rw [← h.calls_eq] at hAcc
  rw [responsesStream, ResponsesStreamState.run_append lib {} (last :: rest) hParsed h.body hAcc,
    ResponsesStreamState.run, hLast, ResponsesResponse.toTurn_eq lib h.items]
  rcases hTerminal with ⟨hStatus, hReason, rfl⟩ | ⟨hStatus, rfl⟩
  · have hStop : incompleteStop reply = .ok false := if_pos ⟨hStatus, hReason⟩
    rw [hStop]
    simp only [ResponsesStreamState.handle, Except.bind, bind]
    rw [assembleTurn_mapError, ← ResponsesResponse.assembleTurn_streamed]
    exact h.finish_eq hFinish lib rfl
  · by_cases hFilter : reply.incompleteReason = some "content_filter"
    · have hStop : incompleteStop reply = .error (.contentFiltered
          ("provider content filter stopped the response " ++
            "(incomplete: content_filter)")) := by
        rw [incompleteStop, if_neg (fun hBoth => hBoth.1 hStatus), if_pos hFilter]
      simp only [ResponsesStreamState.handle, if_pos hFilter, hStop]
      rfl
    · have hStop : incompleteStop reply = .ok true := by
        rw [incompleteStop, if_neg (fun hBoth => hBoth.1 hStatus), if_neg hFilter]
      rw [hStop]
      simp only [ResponsesStreamState.handle, if_neg hFilter, Except.bind, bind]
      rw [assembleTurn_mapError, ← ResponsesResponse.assembleTurn_streamed]
      exact h.finish_eq hFinish lib rfl

/-! ## Both wire formats -/

/-- Streaming agrees with reading the whole reply. On chat completions empty
content of a tool-call turn reads as none; on the Responses API the summary texts
run together and a policy block has a wording of its own. -/
theorem streaming_agrees (lib : JsonLib) :
    (∀ (choice : Choice) usage chunks details, ChatFragments lib choice usage chunks details →
      ChatStreamReadable lib choice chunks details →
      chatStream lib chunks =
        (chatCompletionsResponseToTurn lib ⟨[choice], usage⟩).map
          ChatTurnResult.withoutEmptyContent) ∧
    (∀ (chunks : List ChatCompletionsStreamResponse) usage,
      (∀ chunk ∈ chunks, chunk.choices = []) →
      chatStream lib chunks = chatCompletionsResponseToTurn lib ⟨[], usage⟩) ∧
    (∀ reply payloads events reasoning calls terminal,
      ResponsesFragments reply events reasoning calls → TerminalEvent reply terminal →
      Delivers lib payloads events terminal → reply.callItems.length ≤ maxToolCalls →
      responsesStream lib payloads =
        ((responsesResponseToTurn lib reply).mapError OpenAiError.streamed).map
          (ChatTurnResult.withReasoning reply.streamedReasoning)) := by
  refine ⟨?_, ?_, ?_⟩
  · intro choice usage chunks details h hReadable
    exact chatStream_eq h hReadable
  · intro chunks usage h
    exact chatStream_eq_of_noChoices h usage
  · intro reply payloads events reasoning calls terminal h hTerminal hDelivers hRoom
    exact responsesStream_eq h hTerminal hDelivers hRoom

/-- A reasoning item whose summary has two parts. -/
def reasoningSample : Json :=
  .obj [("id", .str "rs_1"), ("summary", .arr [.str "a", .str "b"]), ("type", .str "reasoning")]

/-- `serde_json` on the texts of the replies below. -/
def sampleJson : JsonLib where
  fromStr text := [
    ("\x7b\x7d", Json.obj []),
    ("\x7b\"type\":\"response.output_text.delta\",\"delta\":\"hi\"\x7d",
      Json.obj [("delta", .str "hi"), ("type", .str "response.output_text.delta")]),
    ("\x7b\"type\":\"response.reasoning_summary_text.delta\",\"delta\":\"a\"\x7d",
      Json.obj [("delta", .str "a"), ("type", .str "response.reasoning_summary_text.delta")]),
    ("\x7b\"type\":\"response.reasoning_summary_text.delta\",\"delta\":\"b\"\x7d",
      Json.obj [("delta", .str "b"), ("type", .str "response.reasoning_summary_text.delta")]),
    ("\x7b\"type\":\"response.output_item.done\",\"item\":\x7b\"type\":\"reasoning\"," ++
        "\"id\":\"rs_1\",\"summary\":[\"a\",\"b\"]\x7d\x7d",
      Json.obj [("item", reasoningSample), ("type", .str "response.output_item.done")]),
    ("\x7b\"type\":\"response.completed\"\x7d",
      Json.obj [("type", .str "response.completed")])].lookup text
  toVec _ := ("[\x7b\"id\":\"rs_1\",\"summary\":[\"a\",\"b\"],\"type\":\"reasoning\"\x7d]"
    ).toUTF8.data.toList
  usageFromValue _ := none

/-- A call that comes with empty content. -/
def callSample : Choice where
  message := { content := some "", toolCalls := [⟨"call_1", "shell", "\x7b\x7d"⟩] }
  finishReason := some .toolCalls

/-- The call in two fragments. -/
def callChunks : List ChatCompletionsStreamResponse :=
  [⟨[⟨some {
      content := some ""
      toolCalls := some [⟨0, some "call_1", some ⟨some "shell", some "\x7b"⟩⟩] }, none⟩], none⟩,
    ⟨[⟨some { toolCalls := some [⟨0, none, some ⟨none, some "\x7d"⟩⟩] }, some .toolCalls⟩], none⟩]

theorem callChunks_fragments : ChatFragments sampleJson callSample none callChunks [] where
  content := by decide
  toolCalls := by
    refine ⟨[0], by simp, rfl, by decide, ?_⟩
    intro k call index hCall hIndex
    obtain ⟨rfl, rfl⟩ : k = 0 ∧ index = 0 := by
      cases k <;> simp_all
    cases hCall
    refine ⟨by decide, ?_, Or.inr ?_, ?_, Or.inr ?_, by decide⟩ <;>
      simp [streamToolCalls, streamDeltas, streamChoices, callChunks, StreamToolCallDelta.name]
  scalar := by
    intro field
    cases field <;> decide
  details_eq := rfl
  details := ⟨by simp [callSample, AssistantMessage.blocks], rfl,
    by simp [callSample, AssistantMessage.blocks]⟩
  finishReason := by decide
  usage := rfl

theorem callChunks_readable : ChatStreamReadable sampleJson callSample callChunks [] where
  indices := by decide
  field := by decide
  apart := ⟨by simp [OwnSlots, callSample, AssistantMessage.blocks], by simp⟩
  cap := by simp [streamDetails, streamDeltas, streamChoices, callChunks, callSample,
    AssistantMessage.blocks]
  text := by
    intro _
    rfl

/-- A reply with reasoning in two parts. -/
def summarySample : ResponsesResponse where
  status := some "completed"
  output := [reasoningSample, .obj [
    ("content", .arr [.obj [("text", .str "hi"), ("type", .str "output_text")]]),
    ("type", .str "message")]]

/-- The texts of its events. -/
def summaryPayloads : List String :=
  ["\x7b\"type\":\"response.reasoning_summary_text.delta\",\"delta\":\"a\"\x7d",
    "\x7b\"type\":\"response.reasoning_summary_text.delta\",\"delta\":\"b\"\x7d",
    "\x7b\"type\":\"response.output_item.done\",\"item\":\x7b\"type\":\"reasoning\"," ++
      "\"id\":\"rs_1\",\"summary\":[\"a\",\"b\"]\x7d\x7d",
    "\x7b\"type\":\"response.output_text.delta\",\"delta\":\"hi\"\x7d",
    "\x7b\"type\":\"response.completed\"\x7d"]

def summaryEvents : List ResponsesStreamEvent :=
  [.reasoningSummaryText "a", .reasoningSummaryText "b", .reasoningItem reasoningSample,
    .textDelta "hi"]

theorem summarySample_reasoningItems : summarySample.reasoningItems = [reasoningSample] := rfl

theorem summarySample_callItems : summarySample.callItems = [] := rfl

theorem summaryEvents_fragments :
    ResponsesFragments summarySample summaryEvents [(0, reasoningSample)] [] where
  items := by
    simp only [summarySample, List.forall_mem_cons]
    exact ⟨rfl, rfl, by simp⟩
  body := by simp [summaryEvents, ResponsesStreamEvent.isTerminal]
  text := by decide
  summary := by decide
  reasoning_eq := rfl
  reasoning_opens := Or.inr ⟨rfl, rfl⟩
  reasoning_item := by
    intro k raw hRaw
    rw [summarySample_reasoningItems] at hRaw
    cases k with
    | zero =>
      cases hRaw
      exact ⟨rfl, by simp [eventsOf], fun _ => rfl⟩
    | succ k => cases hRaw
  reasoning_ids := by
    intro i j raw raw' id hi hj _ _
    rw [summarySample_reasoningItems] at hi hj
    cases i with
    | zero =>
      cases j with
      | zero => rfl
      | succ j => cases hj
    | succ i => cases hi
  calls_eq := rfl
  calls_opens := rfl
  call := by simp [summarySample_callItems]
  call_named := by simp [summarySample_callItems]
  call_identities := by simp [summarySample_callItems]

theorem summaryPayloads_deliver :
    Delivers sampleJson summaryPayloads summaryEvents (.responseCompleted none none) :=
  ⟨summaryPayloads.take 4, [], _, summaryEvents.map some, rfl, by rfl, rfl, by rfl⟩

theorem summarySample_terminal : TerminalEvent summarySample (.responseCompleted none none) :=
  Or.inl ⟨by decide, rfl, rfl⟩

/-- A call in two fragments, and a reply with reasoning, in both readings. -/
theorem streaming_agrees_samples :
    chatStream sampleJson callChunks =
      (chatCompletionsResponseToTurn sampleJson ⟨[callSample], none⟩).map
        ChatTurnResult.withoutEmptyContent ∧
    responsesStream sampleJson summaryPayloads =
      ((responsesResponseToTurn sampleJson summarySample).mapError OpenAiError.streamed).map
        (ChatTurnResult.withReasoning (some "ab")) := by
  refine ⟨?_, ?_⟩
  · exact (streaming_agrees sampleJson).1 callSample none callChunks [] callChunks_fragments
      callChunks_readable
  · exact (streaming_agrees sampleJson).2.2 summarySample summaryPayloads summaryEvents
      [(0, reasoningSample)] [] (.responseCompleted none none) summaryEvents_fragments
      summarySample_terminal summaryPayloads_deliver (by rw [summarySample_callItems]; decide)

/-- The two readings are not the same: the empty content of a tool-call turn is
none on a stream, and the parts of a summary run together. -/
theorem streaming_differs :
    (ChatFragments sampleJson callSample none callChunks [] ∧
      (chatStream sampleJson callChunks).map ChatTurnResult.content = .ok none ∧
      (chatCompletionsResponseToTurn sampleJson ⟨[callSample], none⟩).map
        ChatTurnResult.content = .ok (some "")) ∧
    (ResponsesFragments summarySample summaryEvents [(0, reasoningSample)] [] ∧
      TerminalEvent summarySample (.responseCompleted none none) ∧
      Delivers sampleJson summaryPayloads summaryEvents (.responseCompleted none none) ∧
      (responsesStream sampleJson summaryPayloads).map ChatTurnResult.reasoning =
        .ok (some "ab") ∧
      (responsesResponseToTurn sampleJson summarySample).map ChatTurnResult.reasoning =
        .ok (some "a b")) := by
  refine ⟨⟨callChunks_fragments, by decide, by decide⟩, summaryEvents_fragments,
    summarySample_terminal, summaryPayloads_deliver, ?_, by rfl⟩
  rw [responsesStream_eq summaryEvents_fragments summarySample_terminal summaryPayloads_deliver
    (by rw [summarySample_callItems]; decide)]
  rfl

end Choreographr.Protocols
