import Choreographr.Protocols.Fragments
import Choreographr.Lib.Counting

/-!
# What the details store captures

The fragments of a textual block merge back into the block
(`foldl_mergeEntry_of_makesUp`), and on a stream whose blocks can be told apart
the store merges exactly the fragments of one block (`place_assembles`). So the
entries it ends with are the blocks of the reply in their order, and the artifact
depends only on these and on whether the bytes that arrived passed the cap.
-/

namespace Choreographr.Protocols

open Session Lib

/-! ## Objects -/

theorem lookup_eq_find? (fields : List (String × Json)) (name : String) :
    fields.lookup name = (fields.find? fun e => e.1 = name).map Prod.snd := by
  induction fields with
  | nil => rfl
  | cons e rest ih =>
    obtain ⟨n, value⟩ := e
    by_cases h : n = name
    · simp [h]
    · have hNe : (name == n) = false := by simpa using fun hEq => h hEq.symm
      simp [List.lookup_cons, hNe, h, ih]

namespace IsObject

variable {v w : Json}

theorem ext (hv : IsObject v) (hw : IsObject w) (h : ∀ name, v.get name = w.get name) :
    v = w := by
  obtain ⟨fields, rfl, hSorted⟩ := hv
  obtain ⟨fields', rfl, hSorted'⟩ := hw
  have hMap : (⟨fields, hSorted⟩ : OrdMap String Json) = ⟨fields', hSorted'⟩ := by
    apply OrdMap.ext_get?
    intro name
    have hName := h name
    simp only [Json.get, lookup_eq_find?] at hName
    exact hName
  exact congrArg Json.obj (congrArg OrdMap.entries hMap)

theorem insert (hv : IsObject v) (key : String) (value : Json) :
    IsObject (v.insert key value) := by
  obtain ⟨fields, rfl, hSorted⟩ := hv
  exact ⟨_, rfl, OrdMap.insertEntry_sorted hSorted⟩

theorem get_insert (hv : IsObject v) (key name : String) (value : Json) :
    (v.insert key value).get name = if name = key then some value else v.get name := by
  obtain ⟨fields, rfl, hSorted⟩ := hv
  simp only [Json.insert, Json.get, lookup_eq_find?]
  exact OrdMap.find?_insertEntry hSorted

end IsObject

/-! ## Merging fragments -/

/-- What carrying fields over leaves in each field. -/
def grafted (existing incoming : Option Json) : Option Json :=
  if isUnstated existing then incoming.or existing else existing

theorem grafted_none (existing : Option Json) : grafted existing none = existing := by
  simp [grafted]

theorem foldl_graftField {key : String} {fields : List (String × Json)}
    (hFields : (fields.map Prod.fst).Nodup) {v : Json} (hv : IsObject v) :
    IsObject (fields.foldl (graftField key) v) ∧
      ∀ name, (fields.foldl (graftField key) v).get name =
        if name = key then v.get key else grafted (v.get name) (fields.lookup name) := by
  induction fields generalizing v with
  | nil =>
    refine ⟨hv, ?_⟩
    intro name
    by_cases hName : name = key
    · simp [hName]
    · simp [hName, grafted]
  | cons field rest ih =>
    obtain ⟨n, value⟩ := field
    rw [List.map_cons, List.nodup_cons] at hFields
    obtain ⟨hFresh, hRest⟩ := hFields
    have hNone : rest.lookup n = none := by
      rw [List.lookup_eq_none_iff]
      intro e he
      have hNe : n ≠ e.1 := by
        intro hEq
        exact hFresh (List.mem_map.mpr ⟨e, he, hEq.symm⟩)
      simpa using hNe
    have hv' : IsObject (graftField key v (n, value)) := by
      unfold graftField
      split
      · exact hv
      · split
        · exact hv.insert n value
        · exact hv
    obtain ⟨hObject, hGet⟩ := ih hRest hv'
    refine ⟨hObject, ?_⟩
    intro name
    rw [List.foldl_cons, hGet name]
    by_cases hKey : n = key
    · have hSame : graftField key v (n, value) = v := if_pos hKey
      rw [hSame]
      by_cases hName : name = key
      · simp [hName]
      · have hNe : (name == n) = false := by simpa [hKey] using hName
        simp [hName, List.lookup_cons, hNe]
    · -- the field is carried over only where it is not stated yet
      have hGraft : ∀ name, (graftField key v (n, value)).get name =
          if name = n then grafted (v.get n) (some value) else v.get name := by
        intro name
        simp only [graftField, if_neg hKey, grafted, Option.some_or]
        by_cases hUnstated : isUnstated (v.get n) = true
        · rw [if_pos hUnstated, if_pos hUnstated, hv.get_insert]
        · rw [if_neg hUnstated, if_neg hUnstated]
          by_cases hName : name = n
          · rw [if_pos hName, hName]
          · rw [if_neg hName]
      have hKey' : key ≠ n := fun h => hKey h.symm
      rw [hGraft, hGraft, if_neg hKey']
      by_cases hName : name = key
      · rw [if_pos hName, if_pos hName]
      · rw [if_neg hName, if_neg hName]
        by_cases hSelf : name = n
        · rw [if_pos hSelf, hSelf, hNone, List.lookup_cons_self, grafted_none]
        · have hNe : (name == n) = false := by simpa using hSelf
          rw [if_neg hSelf, List.lookup_cons, hNe]

theorem IsObject.appendPayload {existing incoming : Json} (h : IsObject existing) (key : String) :
    IsObject (appendPayload existing incoming key) := h.insert key _

/-- A merge keeps an object, appends the payload and carries the other fields
over. -/
theorem mergeTextual_spec {existing incoming : Json} {key : String} (h : IsObject existing)
    (hIncoming : IsObject incoming) :
    IsObject (mergeTextual existing incoming key) ∧
      ∀ name, (mergeTextual existing incoming key).get name =
        if name = key then some (.str (payloadText existing key ++ payloadText incoming key))
        else grafted (existing.get name) (incoming.get name) := by
  obtain ⟨fields, rfl, hSorted⟩ := hIncoming
  have hMerge : mergeTextual existing (.obj fields) key =
      fields.foldl (graftField key) (appendPayload existing (.obj fields) key) := by
    obtain ⟨_, rfl, _⟩ := h
    rfl
  have hNodup : (fields.map Prod.fst).Nodup := (⟨fields, hSorted⟩ : OrdMap String Json).keys_nodup
  obtain ⟨hObject, hGet⟩ := foldl_graftField hNodup (h.appendPayload key)
  rw [hMerge]
  refine ⟨hObject, ?_⟩
  intro name
  rw [hGet name]
  by_cases hName : name = key
  · rw [if_pos hName, if_pos hName, appendPayload, h.get_insert, if_pos rfl]
  · rw [if_neg hName, if_neg hName, appendPayload, h.get_insert, if_neg hName]
    rfl

/-- What the fragments of a block merged so far amount to. -/
structure Merged (block : Json) (key : String) (done : List Json) (entry : Json) : Prop where
  fragmentOf : FragmentOf block key entry
  payload : payloadText entry key =
    String.join (done.map fun fragment => payloadText fragment key)
  text : 2 ≤ done.length → entry.get key =
    some (.str (String.join (done.map fun fragment => payloadText fragment key)))
  carried : ∀ fragment ∈ done, ∀ name v, name ≠ key → fragment.get name = some v →
    block.get name = some v → entry.get name = some v

namespace Merged

variable {block entry fragment : Json} {key : String} {done : List Json}

theorem single (h : FragmentOf block key fragment) : Merged block key [fragment] fragment where
  fragmentOf := h
  payload := by simp
  text := by simp
  carried := by
    intro f hf name v _ hGet _
    rw [List.mem_singleton.mp hf] at hGet
    exact hGet

theorem grafted_of_fragments (h : FragmentOf block key entry)
    (hFragment : FragmentOf block key fragment) {name : String} {w : Json} (hName : name ≠ key)
    (hGet : grafted (entry.get name) (fragment.get name) = some w) :
    ∃ v, block.get name = some v ∧ (w = v ∨ isUnstated (some w) ∧ ¬isUnstated (some v)) := by
  simp only [grafted] at hGet
  split at hGet
  · rcases Option.or_eq_some_iff.mp hGet with hGet | ⟨_, hGet⟩
    · exact hFragment.field name w hName hGet
    · exact h.field name w hName hGet
  · exact h.field name w hName hGet

theorem merge (h : Merged block key done entry) (hFragment : FragmentOf block key fragment)
    (hType : key ≠ "type") (hIndex : key ≠ "index") :
    Merged block key (done ++ [fragment]) (mergeTextual entry fragment key) := by
  obtain ⟨hObject, hGet⟩ := mergeTextual_spec h.fragmentOf.object hFragment.object
  have hText : (mergeTextual entry fragment key).get key =
      some (.str (String.join ((done ++ [fragment]).map fun f => payloadText f key))) := by
    rw [hGet key, if_pos rfl, h.payload]
    simp
  constructor
  case fragmentOf =>
    constructor
    case object => exact hObject
    case type_eq =>
      rw [hGet, if_neg hType.symm, h.fragmentOf.type_eq, hFragment.type_eq]
      simp [grafted]
    case index_eq =>
      rw [hGet, if_neg hIndex.symm, h.fragmentOf.index_eq, hFragment.index_eq]
      simp [grafted]
    case field =>
      intro name w hName hw
      rw [hGet, if_neg hName] at hw
      exact grafted_of_fragments h.fragmentOf hFragment hName hw
  case payload =>
    rw [payloadText, hText]
    rfl
  case text => exact fun _ => hText
  case carried =>
    intro f hf name v hName hGetF hBlock
    rw [hGet, if_neg hName]
    rcases List.mem_append.mp hf with hf | hf
    · -- an earlier fragment brought the value, and a later one does not change it
      have hEntry := h.carried f hf name v hName hGetF hBlock
      rw [hEntry, grafted]
      split
      · rename_i hUnstated
        cases hw : fragment.get name with
        | none => rfl
        | some w =>
          obtain ⟨v', hv', hCases⟩ := hFragment.field name w hName hw
          obtain rfl : v = v' := Option.some.inj (hBlock.symm.trans hv')
          rcases hCases with rfl | ⟨_, hStated⟩
          · rfl
          · exact absurd hUnstated hStated
      · rfl
    · rw [List.mem_singleton.mp hf] at hGetF
      rw [hGetF, grafted]
      split
      · rfl
      · rename_i hStated
        cases hw : entry.get name with
        | none => simp [hw, isUnstated] at hStated
        | some w =>
          obtain ⟨v', hv', hCases⟩ := h.fragmentOf.field name w hName hw
          obtain rfl : v = v' := Option.some.inj (hBlock.symm.trans hv')
          rcases hCases with rfl | ⟨hUnstated, _⟩
          · rfl
          · rw [hw] at hStated
            exact absurd hUnstated hStated

theorem foldl (h : Merged block key done entry) {rest : List Json}
    (hRest : ∀ fragment ∈ rest, FragmentOf block key fragment) (hType : key ≠ "type")
    (hIndex : key ≠ "index") :
    Merged block key (done ++ rest) (rest.foldl (fun e f => mergeTextual e f key) entry) := by
  induction rest generalizing done entry with
  | nil => simpa using h
  | cons fragment rest ih =>
    have hStep := h.merge (hRest fragment List.mem_cons_self) hType hIndex
    have hTail := ih hStep fun f hf => hRest f (List.mem_cons_of_mem fragment hf)
    simpa using hTail

end Merged

theorem payloadKey_ne (kind : DetailKind) :
    kind.payloadKey ≠ "type" ∧ kind.payloadKey ≠ "index" := by
  cases kind <;> decide

/-- The fragments of a block merge back into the block. -/
theorem MakesUp.foldl_mergeTextual {block first : Json} {kind : DetailKind} {rest : List Json}
    (hBlock : IsObject block) (h : MakesUp block kind.payloadKey (first :: rest)) :
    rest.foldl (fun e f => mergeTextual e f kind.payloadKey) first = block := by
  obtain ⟨hType, hIndex⟩ := payloadKey_ne kind
  have hMerged := (Merged.single (h.fragmentOf first List.mem_cons_self)).foldl
    (fun f hf => h.fragmentOf f (List.mem_cons_of_mem first hf)) hType hIndex
  apply IsObject.ext hMerged.fragmentOf.object hBlock
  intro name
  by_cases hName : name = kind.payloadKey
  · rw [hName, hMerged.text h.several]
    exact h.payload.symm
  · cases hv : block.get name with
    | some v =>
      obtain ⟨f, hf, hGet⟩ := h.field name v hName hv
      exact hMerged.carried f hf name v hName hGet hv
    | none =>
      rw [Option.eq_none_iff_forall_ne_some]
      intro w hw
      obtain ⟨v, hv', _⟩ := hMerged.fragmentOf.field name w hName hw
      rw [hv] at hv'
      cases hv'

/-! ## Blocks on the stream -/

namespace FragmentOf

variable {block fragment : Json} {key : String}

theorem self (h : IsObject block) : FragmentOf block key block where
  object := h
  type_eq := rfl
  index_eq := rfl
  field := fun _ w _ hGet => ⟨w, hGet, Or.inl rfl⟩

theorem classify_eq (h : FragmentOf block key fragment) : classify fragment = classify block := by
  simp only [classify, Json.typeTag, h.type_eq]

theorem entryIndex_eq (h : FragmentOf block key fragment) :
    entryIndex fragment = entryIndex block := by
  simp only [entryIndex, h.index_eq]

theorem textualKind_eq (h : FragmentOf block key fragment) :
    textualKind fragment = textualKind block := by
  simp only [textualKind, h.classify_eq]

theorem statedText_eq (h : FragmentOf block key fragment) {name text : String}
    (hName : name ≠ key) (hText : statedText fragment name = some text) :
    statedText block name = some text := by
  simp only [statedText, Option.filter_eq_some_iff, Option.bind_eq_some_iff] at hText ⊢
  obtain ⟨⟨w, hGet, hStr⟩, hNonempty⟩ := hText
  obtain ⟨v, hv, hCases⟩ := h.field name w hName hGet
  refine ⟨⟨v, hv, ?_⟩, hNonempty⟩
  rcases hCases with rfl | ⟨hUnstated, _⟩
  · exact hStr
  · cases w with
    | str t =>
      cases hStr
      simp [isUnstated] at hUnstated
      simp [hUnstated] at hNonempty
    | _ => cases hStr

theorem not_differ {other : Json} (h : FragmentOf block key fragment)
    (hOther : FragmentOf block key other) {name : String} (hName : name ≠ key) :
    statedValuesDiffer fragment other name = false := by
  unfold statedValuesDiffer
  split
  · rename_i a b ha hb
    have hEq := (h.statedText_eq hName ha).symm.trans (hOther.statedText_eq hName hb)
    cases hEq
    simp
  · rfl

end FragmentOf

/-- Merge a fragment into the entry of its block. -/
def mergeEntry (existing incoming : Json) : Json :=
  ((textualKind incoming).map fun kind =>
    mergeTextual existing incoming kind.payloadKey).getD existing

/-- `fragment` is the first one of `block`. -/
structure Opens (block fragment : Json) : Prop where
  classify_eq : classify fragment = classify block
  entryIndex_eq : entryIndex fragment = entryIndex block
  fragmentOf : ∀ kind, textualKind block = some kind → FragmentOf block kind.payloadKey fragment

/-- `fragment` is a later one of `block`. -/
def Continues (block fragment : Json) : Prop :=
  ∃ kind, textualKind block = some kind ∧ FragmentOf block kind.payloadKey fragment

theorem mergeEntry_of_fragmentOf {block fragment entry : Json} {kind : DetailKind}
    (hKind : textualKind block = some kind) (h : FragmentOf block kind.payloadKey fragment) :
    mergeEntry entry fragment = mergeTextual entry fragment kind.payloadKey := by
  rw [mergeEntry, h.textualKind_eq, hKind]
  rfl

/-- The fragments of an entry open it, continue it and merge into it. -/
theorem CutInto.exists_cons {block : Json} {fragments : List Json} (hBlock : IsObject block)
    (h : CutInto block fragments) :
    ∃ first rest, fragments = first :: rest ∧ Opens block first ∧
      (∀ fragment ∈ rest, Continues block fragment) ∧ rest.foldl mergeEntry first = block := by
  rcases h with rfl | ⟨kind, hKind, h⟩
  · exact ⟨block, [], rfl, ⟨rfl, rfl, fun _ _ => FragmentOf.self hBlock⟩, by simp, rfl⟩
  · have hSeveral := h.several
    cases fragments with
    | nil => simp at hSeveral
    | cons first rest =>
      have hFirst := h.fragmentOf first List.mem_cons_self
      have hRest : ∀ f ∈ rest, FragmentOf block kind.payloadKey f :=
        fun f hf => h.fragmentOf f (List.mem_cons_of_mem first hf)
      have hFold : rest.foldl mergeEntry first =
          rest.foldl (fun e f => mergeTextual e f kind.payloadKey) first := by
        apply List.foldl_ext
        intro e f hf
        exact mergeEntry_of_fragmentOf hKind (hRest f hf)
      refine ⟨first, rest, rfl, ⟨hFirst.classify_eq, hFirst.entryIndex_eq, ?_⟩, ?_, ?_⟩
      · intro kind' hKind'
        rw [hKind] at hKind'
        cases hKind'
        exact hFirst
      · exact fun f hf => ⟨kind, hKind, hRest f hf⟩
      · rw [hFold]
        exact h.foldl_mergeTextual hBlock

/-! ## The store follows the blocks -/

/-- The store stands for the blocks opened so far: a position is a block number,
each slot leads to its block, and each entry is a fragment of its block. -/
structure Assembling (blocks : List Json) (s : DetailsStore) : Prop where
  deltas : s.entryDelta.length = s.entries.length
  slots : ∀ slot position, s.slots.lookup slot = some position ↔
    position < s.entries.length ∧ (blocks[position]?).bind slotOf = some slot
  fragmentOf : ∀ (k : Nat) block entry kind, blocks[k]? = some block → s.entries[k]? = some entry →
    textualKind block = some kind → FragmentOf block kind.payloadKey entry

namespace Assembling

variable {blocks : List Json} {s : DetailsStore} {block fragment : Json} {k : Nat}

theorem bytes (h : Assembling blocks s) (n : Nat) : Assembling blocks { s with bytes := n } :=
  ⟨h.deltas, h.slots, h.fragmentOf⟩

theorem delta (h : Assembling blocks s) (n : Nat) : Assembling blocks { s with delta := n } :=
  ⟨h.deltas, h.slots, h.fragmentOf⟩

/-- The first fragment of a block continues nothing. -/
theorem place_of_opens (h : Assembling blocks s)
    (hSlots : OwnSlots blocks) (hBlock : blocks[s.entries.length]? = some block) (hOpens : Opens block fragment) :
    s.place fragment = s.store fragment (classify fragment) := by
  unfold DetailsStore.place
  cases hKind : classify fragment with
  | none => rfl
  | some kind =>
    by_cases hTextual : kind.isTextual = true
    · have hSlot : (blocks[s.entries.length]?).bind slotOf = some (kind, entryIndex fragment) := by
        rw [hBlock]
        simp [slotOf, textualKind, ← hOpens.classify_eq, hKind, hTextual, hOpens.entryIndex_eq]
      have hNone : s.slots.lookup (kind, entryIndex fragment) = none := by
        rw [Option.eq_none_iff_forall_ne_some]
        intro position hLookup
        obtain ⟨hLt, hOld⟩ := (h.slots _ _).mp hLookup
        have hEq := hSlots _ _ _ hOld hSlot
        omega
      simp [hTextual, DetailsStore.continuation, hNone]
    · simp [hTextual]

theorem store (h : Assembling blocks s) (hSlots : OwnSlots blocks) (hBlock : blocks[s.entries.length]? = some block)
    (hOpens : Opens block fragment) : Assembling blocks (s.store fragment (classify fragment)) where
  deltas := by simp [DetailsStore.store, h.deltas]
  slots := by
    intro slot position
    have hLength : (s.store fragment (classify fragment)).entries.length = s.entries.length + 1 := by
      simp [DetailsStore.store]
    rw [hLength]
    have hSlot : slotOf block =
        ((classify fragment).filter DetailKind.isTextual).map fun kind =>
          (kind, entryIndex fragment) := by
      simp only [slotOf, textualKind, hOpens.classify_eq, hOpens.entryIndex_eq]
    have hBind : (blocks[s.entries.length]?).bind slotOf = slotOf block := by rw [hBlock]; rfl
    -- A slot that is not the new entry's is still where it was.
    have hOther : slotOf block ≠ some slot →
        ((position < s.entries.length ∧ blocks[position]?.bind slotOf = some slot) ↔
          (position < s.entries.length + 1 ∧ blocks[position]?.bind slotOf = some slot)) := by
      intro hNe
      constructor
      · rintro ⟨hLt, hOld⟩
        exact ⟨Nat.lt_succ_of_lt hLt, hOld⟩
      · rintro ⟨hLt, hOld⟩
        refine ⟨?_, hOld⟩
        rcases Nat.lt_succ_iff_lt_or_eq.mp hLt with hLt | hEq
        · exact hLt
        · rw [hEq, hBind] at hOld
          exact absurd hOld hNe
    cases hKind : (classify fragment).filter DetailKind.isTextual with
    | none =>
      rw [hKind, Option.map_none] at hSlot
      have hSame : (s.store fragment (classify fragment)).slots = s.slots := by
        simp [DetailsStore.store, hKind]
      rw [hSame, h.slots]
      apply hOther
      rw [hSlot]
      exact (Option.some_ne_none slot).symm
    | some kind =>
      rw [hKind, Option.map_some] at hSlot
      have hLookup : (s.store fragment (classify fragment)).slots.lookup slot =
          if slot = (kind, entryIndex fragment) then some s.entries.length
          else s.slots.lookup slot := by
        by_cases hNew : slot = (kind, entryIndex fragment)
        · simp [DetailsStore.store, hKind, hNew]
        · have hNe : (slot == (kind, entryIndex fragment)) = false := by simpa using hNew
          simp [DetailsStore.store, hKind, hNew, List.lookup_cons, hNe]
      rw [hLookup]
      by_cases hNew : slot = (kind, entryIndex fragment)
      · rw [if_pos hNew, hNew, Option.some_inj]
        constructor
        · rintro rfl
          exact ⟨Nat.lt_succ_self _, hBind.trans hSlot⟩
        · rintro ⟨_, hOld⟩
          exact hSlots _ _ _ (hBind.trans hSlot) hOld
      · rw [if_neg hNew, h.slots]
        apply hOther
        rw [hSlot]
        exact fun hSame => hNew (Option.some.inj hSame).symm
  fragmentOf := by
    intro k block' entry kind hk hEntry hKind
    simp only [DetailsStore.store] at hEntry
    rcases Nat.lt_trichotomy k s.entries.length with hLt | hEq | hGt
    · rw [List.getElem?_append_left hLt] at hEntry
      exact h.fragmentOf k block' entry kind hk hEntry hKind
    · subst hEq
      rw [List.getElem?_concat_length] at hEntry
      rw [hBlock] at hk
      cases hk
      cases hEntry
      exact hOpens.fragmentOf kind hKind
    · have hLength : (s.entries ++ [fragment]).length ≤ k := by
        rw [List.length_append]
        exact hGt
      rw [List.getElem?_eq_none hLength] at hEntry
      cases hEntry

/-- A later fragment of an open block continues it, if it has an index or comes
in a later delta. -/
theorem place_of_continues (h : Assembling blocks s) (hk : k < s.entries.length)
    (hBlock : blocks[k]? = some block) (hContinues : Continues block fragment)
    (hDelta : entryIndex block = none → s.entryDelta[k]? ≠ some s.delta) :
    s.place fragment =
      { s with entries := s.entries.modify k fun entry => mergeEntry entry fragment } := by
  obtain ⟨kind, hKind, hFragment⟩ := hContinues
  obtain ⟨hClassify, hTextual⟩ := Option.filter_eq_some_iff.mp hKind
  have hEntry : s.entries[k]? = some s.entries[k] := List.getElem?_eq_getElem hk
  have hOld : FragmentOf block kind.payloadKey s.entries[k] :=
    h.fragmentOf k block _ kind hBlock hEntry hKind
  have hLookup : s.slots.lookup (kind, entryIndex fragment) = some k := by
    rw [h.slots, hBlock, hFragment.entryIndex_eq]
    exact ⟨hk, by simp [slotOf, hKind]⟩
  have hIdentity : ["id", "format", "signature"].any
      (statedValuesDiffer s.entries[k] fragment) = false := by
    rw [List.any_eq_false]
    intro name hName
    have hNe : name ≠ kind.payloadKey := by
      revert name
      cases kind <;> decide
    simp [hOld.not_differ hFragment hNe]
  have hMerges : isContinuation s.entries[k] fragment
      (decide (s.entryDelta[k]? = some s.delta)) = true := by
    unfold isContinuation
    rw [hIdentity, hOld.entryIndex_eq, hFragment.entryIndex_eq]
    cases hIndex : entryIndex block with
    | none => simpa using hDelta hIndex
    | some index => simp
  have hContinuation : s.continuation kind fragment = some k := by
    simp only [DetailsStore.continuation, hLookup, hEntry]
    rw [if_pos ⟨hMerges, hOld.classify_eq.trans hClassify⟩]
  simp only [DetailsStore.place, hFragment.classify_eq, hClassify, hTextual, if_true,
    hContinuation, mergeEntry_of_fragmentOf hKind hFragment]

theorem modify (h : Assembling blocks s) (hBlock : blocks[k]? = some block)
    (hContinues : Continues block fragment) :
    Assembling blocks
      { s with entries := s.entries.modify k fun entry => mergeEntry entry fragment } where
  deltas := by simpa using h.deltas
  slots := by simpa using h.slots
  fragmentOf := by
    intro j block' entry kind hj hEntry hKind
    obtain ⟨kind', hKind', hFragment⟩ := hContinues
    obtain ⟨old, hOld, rfl | ⟨rfl, rfl⟩⟩ := getElem?_modify_cases hEntry
    · exact h.fragmentOf j block' entry kind hj hOld hKind
    · rw [hBlock] at hj
      cases hj
      rw [hKind] at hKind'
      cases hKind'
      have hOldFragment := h.fragmentOf k block old kind hBlock hOld hKind
      obtain ⟨hType, hIndex⟩ := payloadKey_ne kind
      rw [mergeEntry_of_fragmentOf hKind hFragment]
      exact ((Merged.single hOldFragment).merge hFragment hType hIndex).fragmentOf

end Assembling

/-- The store is assembling the blocks, and `rest` is what is still to come. -/
structure Capturing (lib : JsonLib) (blocks : List Json) (s : DetailsStore)
    (rest : List (Nat × Json)) : Prop extends Assembling blocks s where
  opens : OpensInOrder blocks.length s.entries.length rest
  later : ∀ (k : Nat) block, blocks[k]? = some block → k < s.entries.length →
    ∀ fragment ∈ eventsOf k rest, Continues block fragment
  first : ∀ (k : Nat) block, blocks[k]? = some block → s.entries.length ≤ k →
    ∃ fragment more, eventsOf k rest = fragment :: more ∧ Opens block fragment ∧
      ∀ fragment ∈ more, Continues block fragment
  typed : ∀ event ∈ rest, event.2.typeTag.isSome
  fits : s.bytes + streamedBytes lib (rest.map Prod.snd) ≤ maxReasoningBytes
  kept : s.overflowed = false

namespace Capturing

variable {lib : JsonLib} {blocks : List Json} {s : DetailsStore} {k : Nat} {fragment : Json}
  {rest : List (Nat × Json)}

theorem pushEntry_eq (h : Capturing lib blocks s ((k, fragment) :: rest)) :
    s.pushEntry lib fragment =
      { s with bytes := s.bytes + (lib.toVec fragment).length }.place fragment := by
  have hTyped := h.typed (k, fragment) List.mem_cons_self
  have hFits := h.fits
  simp only [streamedBytes, List.map_cons, List.sum_cons] at hFits
  have hMin : min (s.bytes + (lib.toVec fragment).length) usizeMax =
      s.bytes + (lib.toVec fragment).length := by
    have hCap : maxReasoningBytes ≤ usizeMax := by decide
    omega
  have hUnder : ¬maxReasoningBytes < s.bytes + (lib.toVec fragment).length := by omega
  have hNot : (fragment.typeTag.isNone || s.overflowed) = false := by
    rw [h.kept, Option.isNone_eq_false_iff.mpr hTyped]
    rfl
  simp only [DetailsStore.pushEntry, hNot, hMin, hUnder, if_false, Bool.false_eq_true]

theorem fits_tail (h : Capturing lib blocks s ((k, fragment) :: rest)) :
    s.bytes + (lib.toVec fragment).length + streamedBytes lib (rest.map Prod.snd) ≤
      maxReasoningBytes := by
  have hFits := h.fits
  simp only [streamedBytes, List.map_cons, List.sum_cons] at hFits ⊢
  omega

/-- A fragment of an open block is merged into its entry. -/
theorem step_continues (h : Capturing lib blocks s ((k, fragment) :: rest))
    (hk : k < s.entries.length) (hOpens : OpensInOrder blocks.length s.entries.length rest)
    (hDelta : ∀ block, blocks[k]? = some block → entryIndex block = none →
      s.entryDelta[k]? ≠ some s.delta) :
    Capturing lib blocks (s.pushEntry lib fragment) rest ∧
      s.pushEntry lib fragment =
        { s with
          entries := s.entries.modify k fun entry => mergeEntry entry fragment
          bytes := s.bytes + (lib.toVec fragment).length } := by
  obtain ⟨block, hBlock⟩ : ∃ block, blocks[k]? = some block :=
    ⟨_, List.getElem?_eq_getElem (Nat.lt_of_lt_of_le hk hOpens.le)⟩
  have hContinues : Continues block fragment := by
    apply h.later k block hBlock hk fragment
    rw [eventsOf_cons_self]
    exact List.mem_cons_self
  have hBytes := h.toAssembling.bytes (s.bytes + (lib.toVec fragment).length)
  have hPush : s.pushEntry lib fragment =
      { s with
        entries := s.entries.modify k fun entry => mergeEntry entry fragment
        bytes := s.bytes + (lib.toVec fragment).length } :=
    h.pushEntry_eq.trans (hBytes.place_of_continues hk hBlock hContinues (hDelta block hBlock))
  refine ⟨?_, hPush⟩
  rw [hPush]
  constructor
  case toAssembling => exact hBytes.modify hBlock hContinues
  case opens => simpa using hOpens
  case later =>
    intro j block' hj hLt f hf
    rw [List.length_modify] at hLt
    apply h.later j block' hj hLt f
    rw [mem_eventsOf] at hf ⊢
    exact List.mem_cons_of_mem _ hf
  case first =>
    intro j block' hj hLe
    rw [List.length_modify] at hLe
    have hNe : k ≠ j := by omega
    have hFirst := h.first j block' hj hLe
    rwa [eventsOf_cons_ne hNe] at hFirst
  case typed => exact fun event hEvent => h.typed event (List.mem_cons_of_mem _ hEvent)
  case fits => exact h.fits_tail
  case kept => exact h.kept

/-- The first fragment of a block is stored behind the others. -/
theorem step_opens (h : Capturing lib blocks s ((k, fragment) :: rest)) (hSlots : OwnSlots blocks)
    (hk : k = s.entries.length) (hOpens : OpensInOrder blocks.length (s.entries.length + 1) rest) :
    Capturing lib blocks (s.pushEntry lib fragment) rest ∧
      (s.pushEntry lib fragment).entries = s.entries ++ [fragment] ∧
      (s.pushEntry lib fragment).entryDelta = s.entryDelta ++ [s.delta] ∧
      (s.pushEntry lib fragment).delta = s.delta := by
  obtain ⟨block, hBlock⟩ : ∃ block, blocks[k]? = some block :=
    ⟨_, List.getElem?_eq_getElem (hk ▸ hOpens.le)⟩
  obtain ⟨first, more, hEvents, hFirst, hMore⟩ := h.first k block hBlock (Nat.le_of_eq hk.symm)
  rw [eventsOf_cons_self] at hEvents
  obtain ⟨rfl, hTail⟩ := List.cons.inj hEvents
  have hBytes := h.toAssembling.bytes (s.bytes + (lib.toVec fragment).length)
  rw [hk] at hBlock
  have hPush := h.pushEntry_eq.trans (hBytes.place_of_opens hSlots hBlock hFirst)
  have hStored := hBytes.store hSlots hBlock hFirst
  rw [hPush]
  refine ⟨?_, rfl, rfl, rfl⟩
  have hLength : (DetailsStore.store { s with bytes := s.bytes + (lib.toVec fragment).length }
      fragment (classify fragment)).entries.length = s.entries.length + 1 := by
    simp [DetailsStore.store]
  constructor
  case toAssembling => exact hStored
  case opens =>
    rw [hLength]
    exact hOpens
  case later =>
    intro j block' hj hLt f hf
    rw [hLength] at hLt
    rcases Nat.lt_succ_iff_lt_or_eq.mp hLt with hLt | hEq
    · apply h.later j block' hj hLt f
      rw [mem_eventsOf] at hf ⊢
      exact List.mem_cons_of_mem _ hf
    · rw [hEq] at hf hj
      rw [hBlock] at hj
      cases hj
      rw [← hk, hTail] at hf
      exact hMore f hf
  case first =>
    intro j block' hj hLe
    rw [hLength] at hLe
    have hNe : k ≠ j := by omega
    have hFirst' := h.first j block' hj (Nat.le_of_succ_le hLe)
    rwa [eventsOf_cons_ne hNe] at hFirst'
  case typed => exact fun event hEvent => h.typed event (List.mem_cons_of_mem _ hEvent)
  case fits => exact h.fits_tail
  case kept => exact h.kept

/-- The rest of a delta: fragments of a block without an index come one to a
delta. -/
def DeltaApart (blocks : List Json) (s : DetailsStore) (current : List (Nat × Json)) : Prop :=
  ∀ (k : Nat) block, blocks[k]? = some block → entryIndex block = none →
    (s.entryDelta[k]? = some s.delta → eventsOf k current = []) ∧
      (eventsOf k current).length ≤ 1

/-- Folding the entries of one delta assembles them. -/
theorem foldl_pushEntry {current later : List (Nat × Json)} (hSlots : OwnSlots blocks)
    (h : Capturing lib blocks s (current ++ later)) (hApart : DeltaApart blocks s current)
    (hDeltas : ∀ d ∈ s.entryDelta, d ≤ s.delta) :
    Capturing lib blocks ((current.map Prod.snd).foldl (DetailsStore.pushEntry lib) s) later ∧
      ((current.map Prod.snd).foldl (DetailsStore.pushEntry lib) s).entries =
        assemble (fun _ => id) mergeEntry s.entries current ∧
      (∀ d ∈ ((current.map Prod.snd).foldl (DetailsStore.pushEntry lib) s).entryDelta,
        d ≤ ((current.map Prod.snd).foldl (DetailsStore.pushEntry lib) s).delta) := by
  induction current generalizing s with
  | nil => exact ⟨h, rfl, hDeltas⟩
  | cons event current ih =>
    obtain ⟨k, fragment⟩ := event
    simp only [List.map_cons, List.foldl_cons]
    rcases h.opens with ⟨hk, hOpens⟩ | ⟨hk, hOpens⟩
    · have hDelta : ∀ block, blocks[k]? = some block → entryIndex block = none →
          s.entryDelta[k]? ≠ some s.delta := by
        intro block hBlock hIndex hSame
        have hNone := (hApart k block hBlock hIndex).1 hSame
        rw [eventsOf_cons_self] at hNone
        cases hNone
      obtain ⟨hNext, hPush⟩ := h.step_continues hk hOpens hDelta
      have hStep : assembleStep (fun _ => id) mergeEntry s.entries (k, fragment) =
          s.entries.modify k fun entry => mergeEntry entry fragment := if_pos hk
      have hEntries : (s.pushEntry lib fragment).entries =
          assembleStep (fun _ => id) mergeEntry s.entries (k, fragment) := by rw [hPush, hStep]
      rw [assemble, List.foldl_cons, ← hEntries]
      apply ih hNext
      · intro j block hj hIndex
        obtain ⟨hOld, hOne⟩ := hApart j block hj hIndex
        by_cases hEq : k = j
        · subst hEq
          rw [eventsOf_cons_self, List.length_cons] at hOne
          have hNone : eventsOf k current = [] := List.eq_nil_of_length_eq_zero (by omega)
          simp [hNone]
        · rw [eventsOf_cons_ne hEq] at hOld hOne
          rw [hPush]
          exact ⟨hOld, hOne⟩
      · rw [hPush]
        exact hDeltas
    · obtain ⟨hNext, hPushed, hEntryDelta, hSame⟩ := h.step_opens hSlots hk hOpens
      have hStep : assembleStep (fun _ => id) mergeEntry s.entries (k, fragment) =
          s.entries ++ [fragment] := if_neg (by simpa using Nat.le_of_eq hk.symm)
      have hEntries : (s.pushEntry lib fragment).entries =
          assembleStep (fun _ => id) mergeEntry s.entries (k, fragment) := by rw [hPushed, hStep]
      rw [assemble, List.foldl_cons, ← hEntries]
      apply ih hNext
      · intro j block hj hIndex
        obtain ⟨hOld, hOne⟩ := hApart j block hj hIndex
        by_cases hEq : k = j
        · subst hEq
          rw [eventsOf_cons_self, List.length_cons] at hOne
          have hNone : eventsOf k current = [] := List.eq_nil_of_length_eq_zero (by omega)
          simp [hNone]
        · rw [eventsOf_cons_ne hEq] at hOld hOne
          refine ⟨?_, hOne⟩
          intro hLast
          apply hOld
          rw [hEntryDelta, hSame] at hLast
          have hLength := h.deltas
          rcases getElem?_concat_cases hLast with hBefore | ⟨hEnd, -⟩
          · exact hBefore
          · exact absurd (hk.trans (h.deltas.symm.trans hEnd.symm)) hEq
      · rw [hEntryDelta, hSame]
        intro d hd
        rcases List.mem_append.mp hd with hd | hd
        · exact hDeltas d hd
        · rw [List.mem_singleton.mp hd]

/-- Folding the deltas of a stream assembles them. -/
theorem foldl_deltas {deltas : List (List (Nat × Json))} (hSlots : OwnSlots blocks)
    (h : Capturing lib blocks s deltas.flatten)
    (hApart : ∀ delta ∈ deltas, ∀ (k : Nat) block, blocks[k]? = some block →
      entryIndex block = none → (eventsOf k delta).length ≤ 1)
    (hDeltas : ∀ d ∈ s.entryDelta, d ≤ s.delta) :
    (deltas.foldl (fun s delta => (delta.map Prod.snd).foldl (DetailsStore.pushEntry lib)
        { s with delta := s.delta + 1 }) s).entries =
      assemble (fun _ => id) mergeEntry s.entries deltas.flatten := by
  induction deltas generalizing s with
  | nil => rfl
  | cons delta deltas ih =>
    rw [List.flatten_cons] at h
    have hNext : Capturing lib blocks { s with delta := s.delta + 1 } (delta ++ deltas.flatten) :=
      { h with toAssembling := h.toAssembling.delta (s.delta + 1) }
    have hOld : ∀ d ∈ s.entryDelta, d ≤ s.delta + 1 :=
      fun d hd => Nat.le_succ_of_le (hDeltas d hd)
    have hNow : DeltaApart blocks { s with delta := s.delta + 1 } delta := by
      intro k block hBlock hIndex
      refine ⟨?_, hApart delta List.mem_cons_self k block hBlock hIndex⟩
      intro hGet
      have hLe := hDeltas _ (List.mem_of_getElem? hGet)
      exact absurd hLe (by simp)
    obtain ⟨hCapturing, hEntries, hDeltas'⟩ := hNext.foldl_pushEntry hSlots hNow hOld
    have hTail := ih hCapturing (fun d hd => hApart d (List.mem_cons_of_mem delta hd)) hDeltas'
    rw [List.foldl_cons, hTail, hEntries, List.flatten_cons, assemble, assemble, assemble,
      List.foldl_append]

end Capturing

/-! ## The artifact -/

theorem push_eq (lib : JsonLib) (s : DetailsStore) (raw : Json) :
    s.push lib raw =
      (typedEntries lib raw).foldl (DetailsStore.pushEntry lib) { s with delta := s.delta + 1 } := by
  have hSkip : ∀ (entries : List Json) (s : DetailsStore),
      entries.foldl (DetailsStore.pushEntry lib) s =
        (entries.filter fun entry => entry.typeTag.isSome).foldl (DetailsStore.pushEntry lib) s := by
    intro entries
    induction entries with
    | nil => exact fun _ => rfl
    | cons entry rest ih =>
      intro s
      cases hTag : entry.typeTag with
      | none =>
        have hSame : s.pushEntry lib entry = s := by simp [DetailsStore.pushEntry, hTag]
        simpa [hTag, hSame] using ih s
      | some tag => simpa [hTag] using ih (s.pushEntry lib entry)
  exact hSkip _ _

/-- The store has been given `total` bytes: it has given up exactly if these pass
the cap. -/
structure Counted (s : DetailsStore) (total : Nat) : Prop where
  overflowed : s.overflowed = decide (maxReasoningBytes < total)
  bytes : total ≤ maxReasoningBytes → s.bytes = total

theorem place_counts (s : DetailsStore) (entry : Json) :
    (s.place entry).overflowed = s.overflowed ∧ (s.place entry).bytes = s.bytes := by
  unfold DetailsStore.place
  split
  · exact ⟨rfl, rfl⟩
  · split
    · split
      · exact ⟨rfl, rfl⟩
      · exact ⟨rfl, rfl⟩
    · exact ⟨rfl, rfl⟩

theorem Counted.pushEntry {s : DetailsStore} {total : Nat} (h : Counted s total) (lib : JsonLib)
    {entry : Json} (hTyped : entry.typeTag.isSome) :
    Counted (s.pushEntry lib entry) (total + (lib.toVec entry).length) := by
  have hTag : entry.typeTag.isNone = false := Option.isNone_eq_false_iff.mpr hTyped
  by_cases hOver : maxReasoningBytes < total
  · have hGiven : s.overflowed = true := by simpa [hOver] using h.overflowed
    have hSame : s.pushEntry lib entry = s := by simp [DetailsStore.pushEntry, hGiven]
    have hMore : maxReasoningBytes < total + (lib.toVec entry).length := by omega
    rw [hSame]
    exact ⟨by simpa [hMore] using hGiven, fun hLe => absurd hMore (by omega)⟩
  · have hKept : s.overflowed = false := by simpa [hOver] using h.overflowed
    have hBytes := h.bytes (by omega)
    have hCap : maxReasoningBytes < usizeMax := by decide
    by_cases hMore : maxReasoningBytes < total + (lib.toVec entry).length
    · have hMin : maxReasoningBytes < min (s.bytes + (lib.toVec entry).length) usizeMax := by omega
      have hPush : (s.pushEntry lib entry).overflowed = true := by
        simp only [DetailsStore.pushEntry, hTag, hKept, Bool.or_self, Bool.false_eq_true, if_false,
          hMin, if_true]
      exact ⟨by simpa [hMore] using hPush, fun hLe => absurd hMore (by omega)⟩
    · have hMin : min (s.bytes + (lib.toVec entry).length) usizeMax =
          total + (lib.toVec entry).length := by omega
      have hPush : s.pushEntry lib entry =
          { s with bytes := total + (lib.toVec entry).length }.place entry := by
        simp only [DetailsStore.pushEntry, hTag, hKept, Bool.or_self, Bool.false_eq_true, if_false,
          hMin, hMore]
      obtain ⟨hPlaced, hCount⟩ :=
        place_counts { s with bytes := total + (lib.toVec entry).length } entry
      rw [hPush]
      exact ⟨by rw [hPlaced]; simpa [hMore] using hKept, fun _ => hCount⟩

theorem Counted.foldl_pushEntry {entries : List Json} {s : DetailsStore} {total : Nat}
    (h : Counted s total) (lib : JsonLib) (hTyped : ∀ entry ∈ entries, entry.typeTag.isSome) :
    Counted (entries.foldl (DetailsStore.pushEntry lib) s)
      (total + streamedBytes lib entries) := by
  induction entries generalizing s total with
  | nil => exact h
  | cons entry rest ih =>
    have hNext := ih (h.pushEntry lib (hTyped entry List.mem_cons_self))
      fun e he => hTyped e (List.mem_cons_of_mem entry he)
    simpa [streamedBytes, Nat.add_assoc] using hNext

theorem Counted.foldl_push {s : DetailsStore} {total : Nat} (h : Counted s total)
    (lib : JsonLib) (raws : List Json) :
    Counted (raws.foldl (DetailsStore.push lib) s)
      (total + streamedBytes lib (raws.flatMap (typedEntries lib))) := by
  induction raws generalizing s total with
  | nil => exact h
  | cons raw rest ih =>
    have hDelta : Counted { s with delta := s.delta + 1 } total := ⟨h.overflowed, h.bytes⟩
    have hTyped : ∀ entry ∈ typedEntries lib raw, entry.typeTag.isSome :=
      fun entry hEntry => (List.mem_filter.mp hEntry).2
    have hNext := hDelta.foldl_pushEntry lib hTyped
    rw [← push_eq] at hNext
    have hRest := ih hNext
    simpa [streamedBytes, Nat.add_assoc] using hRest

/-- The artifact of an array that was captured as a whole. -/
def replayArtifact (lib : JsonLib) (entries : List Json) : Option ReasoningArtifact :=
  if entries.isEmpty || maxReasoningBytes < (lib.toVec (.arr entries)).length then none
  else some (.chatReasoning .reasoningDetails (lib.toVec (.arr entries)))

theorem foldl_push_eq {lib : JsonLib} {raws : List Json} {deltas : List (List (Nat × Json))}
    (hRaws : raws.map (typedEntries lib) = deltas.map fun delta => delta.map Prod.snd)
    (s : DetailsStore) :
    raws.foldl (DetailsStore.push lib) s =
      deltas.foldl (fun s delta => (delta.map Prod.snd).foldl (DetailsStore.pushEntry lib)
        { s with delta := s.delta + 1 }) s := by
  have hRun : raws.foldl (DetailsStore.push lib) s =
      (raws.map (typedEntries lib)).foldl (fun s entries =>
        entries.foldl (DetailsStore.pushEntry lib) { s with delta := s.delta + 1 }) s := by
    rw [List.foldl_map]
    apply List.foldl_ext
    intro s raw _
    exact push_eq lib s raw
  rw [hRun, hRaws, List.foldl_map]

/-- The artifact of a stream that fragments an array: the array itself, unless the
bytes that arrived pass the cap. -/
theorem finish_foldl_push {lib : JsonLib} {blocks raws : List Json}
    {deltas : List (List (Nat × Json))} (h : DetailsFragments blocks deltas)
    (hApart : ToldApart blocks deltas)
    (hRaws : raws.map (typedEntries lib) = deltas.map fun delta => delta.map Prod.snd) :
    (raws.foldl (DetailsStore.push lib) {}).finish lib =
      if maxReasoningBytes < streamedBytes lib (raws.flatMap (typedEntries lib)) then none
      else replayArtifact lib blocks := by
  have hStart : Counted {} 0 := ⟨rfl, fun _ => rfl⟩
  have hCounted := hStart.foldl_push lib raws
  rw [Nat.zero_add] at hCounted
  by_cases hOver : maxReasoningBytes < streamedBytes lib (raws.flatMap (typedEntries lib))
  · have hGiven := hCounted.overflowed
    rw [decide_eq_true hOver] at hGiven
    simp [DetailsStore.finish, hGiven, hOver]
  · have hKept := hCounted.overflowed
    rw [decide_eq_false hOver] at hKept
    have hFlat : deltas.flatten.map Prod.snd = raws.flatMap (typedEntries lib) := by
      rw [List.map_flatten, ← hRaws, List.flatMap_def]
    have hPieces : ∀ (k : Nat) block, blocks[k]? = some block →
        ∃ first rest, eventsOf k deltas.flatten = first :: rest ∧ Opens block first ∧
          (∀ fragment ∈ rest, Continues block fragment) ∧ rest.foldl mergeEntry first = block :=
      fun k block hBlock =>
        (h.cut k block hBlock).exists_cons (h.object block (List.mem_of_getElem? hBlock))
    have hCapturing : Capturing lib blocks {} deltas.flatten := by
      constructor
      case toAssembling => exact ⟨rfl, by simp, by simp⟩
      case opens => exact h.opens
      case later => simp
      case first =>
        intro k block hBlock _
        obtain ⟨first, rest, hEvents, hOpens, hMore, _⟩ := hPieces k block hBlock
        exact ⟨first, rest, hEvents, hOpens, hMore⟩
      case typed =>
        intro event hEvent
        have hMem : event.2 ∈ raws.flatMap (typedEntries lib) := by
          rw [← hFlat]
          exact List.mem_map_of_mem hEvent
        obtain ⟨raw, _, hEntry⟩ := List.mem_flatMap.mp hMem
        exact (List.mem_filter.mp hEntry).2
      case fits =>
        rw [hFlat]
        simpa using Nat.le_of_not_lt hOver
      case kept => rfl
    have hEntries : (raws.foldl (DetailsStore.push lib) {}).entries = blocks := by
      rw [foldl_push_eq hRaws,
        hCapturing.foldl_deltas hApart.slots hApart.unindexed (by simp)]
      apply assemble_eq h.opens
      intro k
      cases hBlock : blocks[k]? with
      | some block =>
        obtain ⟨first, rest, hEvents, _, _, hMerge⟩ := hPieces k block hBlock
        rw [hEvents, itemState, id, hMerge]
      | none =>
        have hNone : eventsOf k deltas.flatten = [] := by
          rw [List.eq_nil_iff_forall_not_mem]
          intro e he
          have hLt := h.opens.lt_of_mem (mem_eventsOf.mp he)
          rw [List.getElem?_eq_getElem hLt] at hBlock
          cases hBlock
        rw [hNone]
        rfl
    simp only [DetailsStore.finish, hKept, hEntries, replayArtifact, hOver, if_false,
      Bool.false_or]
    cases blocks with
    | nil => rfl
    | cons block rest => simp

end Choreographr.Protocols
