import Choreographr.Protocols.Proofs.ReasoningCapture

/-!
# The fragments of a captured entry

`TracedStore` keeps, beside the details store, the fragments that each stored entry
was merged from, with the number of their delta. An entry is the merge of its
fragments. They never state different identities, and none of them that has no
index came in the delta that opened the entry.
-/

namespace Choreographr.Protocols

open Session Lib

/-! ## Tracing the store -/

/-- A fragment, with the number of the delta that brought it. -/
abbrev Fragment := Nat × Json

/-- The merge of the fragments of an entry. -/
def mergeAll : List Fragment → Json
  | [] => .null
  | first :: rest => (rest.map Prod.snd).foldl mergeEntry first.2

namespace DetailsStore

/-- The position of the entry that an incoming one is merged into. -/
def target (s : DetailsStore) (entry : Json) : Option Nat :=
  (textualKind entry).bind fun kind => s.continuation kind entry

theorem place_eq (s : DetailsStore) (entry : Json) :
    s.place entry =
      match s.target entry with
      | some position =>
          { s with entries := s.entries.modify position fun e => mergeEntry e entry }
      | none => s.store entry (classify entry) := by
  unfold place target textualKind
  cases hKind : classify entry with
  | none => rfl
  | some kind =>
    by_cases hTextual : kind.isTextual = true
    · have hMerge : ∀ e, mergeEntry e entry = mergeTextual e entry kind.payloadKey := by
        intro e
        simp [mergeEntry, textualKind, hKind, Option.filter, hTextual]
      cases hPosition : s.continuation kind entry <;>
        simp only [hTextual, if_true, Option.filter, Option.bind_some, hMerge, hPosition]
    · simp [hTextual, Option.filter]

end DetailsStore

structure TracedStore where
  store : DetailsStore := {}
  /-- The fragments of each stored entry, in the order in which they came. -/
  blocks : List (List Fragment) := []

namespace TracedStore

def place (t : TracedStore) (entry : Json) : TracedStore where
  store := t.store.place entry
  blocks :=
    match t.store.target entry with
    | some position => t.blocks.modify position (· ++ [(t.store.delta, entry)])
    | none => t.blocks ++ [[(t.store.delta, entry)]]

def pushEntry (lib : JsonLib) (t : TracedStore) (entry : Json) : TracedStore :=
  if entry.typeTag.isNone || t.store.overflowed then t
  else
    let bytes := min (t.store.bytes + (lib.toVec entry).length) usizeMax
    if maxReasoningBytes < bytes then
      { t with store := { t.store with bytes := bytes, overflowed := true } }
    else { t with store := { t.store with bytes := bytes } }.place entry

def push (lib : JsonLib) (t : TracedStore) (raw : Json) : TracedStore :=
  (DetailsStore.valueEntries lib raw).foldl (pushEntry lib)
    { t with store := { t.store with delta := t.store.delta + 1 } }

theorem pushEntry_store (lib : JsonLib) (t : TracedStore) (entry : Json) :
    (t.pushEntry lib entry).store = t.store.pushEntry lib entry := by
  unfold pushEntry DetailsStore.pushEntry
  split
  · rfl
  · dsimp only
    split <;> rfl

theorem push_store (lib : JsonLib) (t : TracedStore) (raw : Json) :
    (t.push lib raw).store = t.store.push lib raw := by
  have hFold : ∀ (entries : List Json) (t : TracedStore),
      (entries.foldl (pushEntry lib) t).store =
        entries.foldl (DetailsStore.pushEntry lib) t.store := by
    intro entries
    induction entries with
    | nil => exact fun _ => rfl
    | cons entry rest ih =>
      intro t
      rw [List.foldl_cons, List.foldl_cons, ih, pushEntry_store]
  exact hFold _ _

theorem foldl_push_store (lib : JsonLib) (raws : List Json) (t : TracedStore) :
    (raws.foldl (push lib) t).store = raws.foldl (DetailsStore.push lib) t.store := by
  induction raws generalizing t with
  | nil => rfl
  | cons raw rest ih => rw [List.foldl_cons, List.foldl_cons, ih, push_store]

end TracedStore

/-! ## Identities -/

/-- The fields that tell two blocks of a slot apart. -/
def identityKeys : List String := ["id", "format", "signature"]

/-- An entry as it is documented: an object whose identity fields are texts, `null` or
absent. -/
structure PlainEntry (entry : Json) : Prop where
  object : IsObject entry
  identity : ∀ key ∈ identityKeys, entry.get key = none ∨ entry.get key = some .null ∨
    ∃ text, entry.get key = some (.str text)

section Identity

variable {existing entry : Json} {key : String}

theorem payloadKey_notMem (kind : DetailKind) : kind.payloadKey ∉ identityKeys := by
  cases kind <;> decide

theorem isUnstated_iff (h : existing.get key = none ∨ existing.get key = some .null ∨
    ∃ text, existing.get key = some (.str text)) :
    isUnstated (existing.get key) = true ↔ statedText existing key = none := by
  rcases h with h | h | ⟨text, h⟩
  · simp [isUnstated, statedText, h]
  · simp [isUnstated, statedText, h, Json.asStr]
  · simp [isUnstated, statedText, h, Json.asStr, Option.filter]

theorem mergeEntry_get (hExisting : IsObject existing) (hEntry : IsObject entry) {kind : DetailKind}
    (hKind : textualKind entry = some kind) (hKey : key ≠ kind.payloadKey) :
    (mergeEntry existing entry).get key = grafted (existing.get key) (entry.get key) := by
  have hMerge : mergeEntry existing entry = mergeTextual existing entry kind.payloadKey := by
    simp [mergeEntry, hKind]
  rw [hMerge, (mergeTextual_spec hExisting hEntry).2 key, if_neg hKey]

/-- A merge keeps what the entry states and adds what only the fragment states. -/
theorem statedText_merge (hExisting : PlainEntry existing) (hEntry : PlainEntry entry)
    {kind : DetailKind} (hKind : textualKind entry = some kind) (hKey : key ∈ identityKeys) :
    statedText (mergeEntry existing entry) key =
      (statedText existing key).or (statedText entry key) := by
  have hNe : key ≠ kind.payloadKey := fun hEq => payloadKey_notMem kind (hEq ▸ hKey)
  have hGet := mergeEntry_get hExisting.object hEntry.object hKind hNe
  have hIff := isUnstated_iff (hExisting.identity key hKey)
  cases hStated : statedText existing key with
  | some text =>
    have hKept : isUnstated (existing.get key) = false := by
      rw [Bool.eq_false_iff, Ne, hIff, hStated]
      simp
    rw [grafted, hKept, if_neg Bool.false_ne_true] at hGet
    rw [statedText, hGet, Option.some_or]
    exact hStated
  | none =>
    rw [grafted, if_pos (hIff.mpr hStated)] at hGet
    rw [statedText, hGet, Option.none_or]
    cases hCarried : entry.get key with
    | some value => simp [statedText, hCarried]
    | none =>
      have hEmpty : statedText entry key = none := by simp [statedText, hCarried]
      rw [Option.none_or, hEmpty]
      exact hStated

theorem PlainEntry.merge (hExisting : PlainEntry existing) (hEntry : PlainEntry entry)
    {kind : DetailKind} (hKind : textualKind entry = some kind) :
    PlainEntry (mergeEntry existing entry) where
  object := by
    have hMerge : mergeEntry existing entry = mergeTextual existing entry kind.payloadKey := by
      simp [mergeEntry, hKind]
    rw [hMerge]
    exact (mergeTextual_spec hExisting.object hEntry.object).1
  identity := by
    intro key hKey
    have hNe : key ≠ kind.payloadKey := fun hEq => payloadKey_notMem kind (hEq ▸ hKey)
    rw [mergeEntry_get hExisting.object hEntry.object hKind hNe, grafted]
    split
    · cases hCarried : entry.get key with
      | some value =>
        rw [Option.some_or, ← hCarried]
        exact hEntry.identity key hKey
      | none => exact hExisting.identity key hKey
    · exact hExisting.identity key hKey

theorem not_differ_of_continuation {sameDelta : Bool} (hKey : key ∈ identityKeys)
    (h : isContinuation existing entry sameDelta = true) :
    statedValuesDiffer existing entry key = false := by
  rw [isContinuation] at h
  split at h
  · cases h
  · rename_i hNone
    rw [Bool.eq_false_iff]
    exact fun hDiffer => hNone (List.any_eq_true.mpr ⟨key, hKey, hDiffer⟩)

theorem sameDelta_of_continuation {sameDelta : Bool}
    (h : isContinuation existing entry sameDelta = true) (hIndex : entryIndex entry = none) :
    sameDelta = false := by
  rw [isContinuation] at h
  split at h
  · cases h
  · rw [hIndex] at h
    cases hExisting : entryIndex existing with
    | some index => simp [hExisting] at h
    | none => simpa [hExisting] using h

end Identity

/-! ## What holds of the fragments -/

/-- What holds of a store and its trace. -/
structure BlocksOk (t : TracedStore) : Prop where
  entries : t.store.entries = t.blocks.map mergeAll
  deltas : t.store.entryDelta = t.blocks.map fun block => (block.head?.map Prod.fst).getD 0
  nonempty : ∀ block ∈ t.blocks, block ≠ []
  plain : ∀ block ∈ t.blocks, PlainEntry (mergeAll block)
  /-- What a fragment states, its entry states. -/
  stated : ∀ block ∈ t.blocks, ∀ fragment ∈ block, ∀ key ∈ identityKeys, ∀ text,
    statedText fragment.2 key = some text → statedText (mergeAll block) key = some text
  /-- No later fragment without an index is of the delta that opened the entry. -/
  apart : ∀ first rest, first :: rest ∈ t.blocks → ∀ fragment ∈ rest,
    entryIndex fragment.2 = none → fragment.1 ≠ first.1

theorem mergeAll_concat {block : List Fragment} (h : block ≠ []) (fragment : Fragment) :
    mergeAll (block ++ [fragment]) = mergeEntry (mergeAll block) fragment.2 := by
  obtain ⟨first, rest, rfl⟩ := List.exists_cons_of_ne_nil h
  simp [mergeAll]

theorem DetailsStore.target_eq_some {s : DetailsStore} {entry : Json} {position : Nat}
    (h : s.target entry = some position) :
    ∃ kind existing, textualKind entry = some kind ∧ s.entries[position]? = some existing ∧
      isContinuation existing entry (decide (s.entryDelta[position]? = some s.delta)) = true ∧
      classify existing = some kind ∧
      s.slots.lookup (kind, entryIndex entry) = some position := by
  obtain ⟨kind, hKind, hContinues⟩ := Option.bind_eq_some_iff.mp h
  rw [continuation] at hContinues
  split at hContinues
  · cases hContinues
  · rename_i found hSlot
    split at hContinues
    · cases hContinues
    · rename_i existing hExisting
      dsimp only at hContinues
      split at hContinues
      · rename_i hBoth
        cases hContinues
        exact ⟨kind, existing, hKind, hExisting, hBoth.1, hBoth.2, hSlot⟩
      · cases hContinues

namespace BlocksOk

variable {t : TracedStore} {entry : Json}

theorem of_store (h : BlocksOk t) {s : DetailsStore} (hEntries : s.entries = t.store.entries)
    (hDeltas : s.entryDelta = t.store.entryDelta) : BlocksOk { t with store := s } :=
  ⟨hEntries.trans h.entries, hDeltas.trans h.deltas, h.nonempty, h.plain, h.stated, h.apart⟩

theorem mem_concat_cases {α : Type} {xs : List α} {x y : α} (h : y ∈ xs ++ [x]) :
    y ∈ xs ∨ y = x := by
  rcases List.mem_append.mp h with hMem | hLast
  · exact Or.inl hMem
  · exact Or.inr (List.mem_singleton.mp hLast)

/-- Storing an entry opens a block. -/
theorem place_store (h : BlocksOk t) (hEntry : PlainEntry entry)
    (hTarget : t.store.target entry = none) : BlocksOk (t.place entry) := by
  have hStore : (t.place entry).store = t.store.store entry (classify entry) := by
    rw [TracedStore.place, DetailsStore.place_eq, hTarget]
  have hBlocks : (t.place entry).blocks = t.blocks ++ [[(t.store.delta, entry)]] := by
    rw [TracedStore.place, hTarget]
  constructor
  · rw [hStore, hBlocks, DetailsStore.store, List.map_append, ← h.entries]
    rfl
  · rw [hStore, hBlocks, DetailsStore.store, List.map_append, ← h.deltas]
    rfl
  · rw [hBlocks]
    intro block hBlock
    rcases mem_concat_cases hBlock with hOld | rfl
    · exact h.nonempty block hOld
    · exact List.cons_ne_nil _ _
  · rw [hBlocks]
    intro block hBlock
    rcases mem_concat_cases hBlock with hOld | rfl
    · exact h.plain block hOld
    · exact hEntry
  · rw [hBlocks]
    intro block hBlock fragment hFragment key hKey text hText
    rcases mem_concat_cases hBlock with hOld | rfl
    · exact h.stated block hOld fragment hFragment key hKey text hText
    · rw [List.mem_singleton.mp hFragment] at hText
      exact hText
  · rw [hBlocks]
    intro first rest hBlock fragment hFragment hIndex
    rcases mem_concat_cases hBlock with hOld | hNew
    · exact h.apart first rest hOld fragment hFragment hIndex
    · obtain ⟨rfl, rfl⟩ := List.cons.inj hNew
      cases hFragment

/-- Merging an entry extends the block it continues. -/
theorem place_merge (h : BlocksOk t) (hEntry : PlainEntry entry) {position : Nat}
    (hTarget : t.store.target entry = some position) : BlocksOk (t.place entry) := by
  obtain ⟨kind, existing, hKind, hExisting, hContinues, -, -⟩ :=
    DetailsStore.target_eq_some hTarget
  have hStore : (t.place entry).store =
      { t.store with
        entries := t.store.entries.modify position fun e => mergeEntry e entry } := by
    rw [TracedStore.place, DetailsStore.place_eq, hTarget]
  have hBlocks : (t.place entry).blocks =
      t.blocks.modify position (· ++ [(t.store.delta, entry)]) := by
    rw [TracedStore.place, hTarget]
  obtain ⟨block, hBlock, hMerged⟩ : ∃ block, t.blocks[position]? = some block ∧
      mergeAll block = existing := by
    rw [h.entries, List.getElem?_map, Option.map_eq_some_iff] at hExisting
    exact hExisting
  have hMem : block ∈ t.blocks := List.mem_of_getElem? hBlock
  have hNonempty := h.nonempty block hMem
  have hNew := mergeAll_concat hNonempty (t.store.delta, entry)
  rw [hMerged] at hNew
  have hPlain := h.plain block hMem
  rw [hMerged] at hPlain
  -- a block of the new trace is an old one or the extended one
  have hCases : ∀ b ∈ (t.place entry).blocks,
      b ∈ t.blocks ∨ b = block ++ [(t.store.delta, entry)] := by
    rw [hBlocks]
    intro b hb
    obtain ⟨j, hj⟩ := List.mem_iff_getElem?.mp hb
    obtain ⟨old, hOld, rfl | ⟨rfl, rfl⟩⟩ := getElem?_modify_cases hj
    · exact Or.inl (List.mem_of_getElem? hOld)
    · rw [hBlock] at hOld
      cases hOld
      exact Or.inr rfl
  constructor
  · rw [hStore, hBlocks]
    apply List.ext_getElem?
    intro j
    rw [List.getElem?_modify, List.getElem?_map, List.getElem?_modify, h.entries,
      List.getElem?_map]
    by_cases hEq : position = j
    · subst hEq
      simp [hBlock, mergeAll_concat hNonempty]
    · simp [hEq]
  · rw [hStore, hBlocks]
    apply List.ext_getElem?
    intro j
    rw [h.deltas, List.getElem?_map, List.getElem?_map, List.getElem?_modify]
    by_cases hEq : position = j
    · subst hEq
      obtain ⟨first, rest, rfl⟩ := List.exists_cons_of_ne_nil hNonempty
      simp [hBlock]
    · simp [hEq]
  · intro b hb
    rcases hCases b hb with hOld | rfl
    · exact h.nonempty b hOld
    · simp
  · intro b hb
    rcases hCases b hb with hOld | rfl
    · exact h.plain b hOld
    · rw [hNew]
      exact hPlain.merge hEntry hKind
  · intro b hb fragment hFragment key hKey text hText
    rcases hCases b hb with hOld | rfl
    · exact h.stated b hOld fragment hFragment key hKey text hText
    · rw [hNew, statedText_merge hPlain hEntry hKind hKey]
      rcases mem_concat_cases hFragment with hBefore | rfl
      · have hStated := h.stated block hMem fragment hBefore key hKey text hText
        rw [hMerged] at hStated
        rw [hStated, Option.some_or]
      · cases hStated : statedText existing key with
        | none => exact hText
        | some old =>
          have hSame := not_differ_of_continuation hKey hContinues
          rw [statedValuesDiffer, hStated, hText] at hSame
          have hEq : old = text := by simpa using hSame
          rw [hEq, Option.some_or]
  · intro first rest hFirst fragment hFragment hIndex
    rcases hCases _ hFirst with hOld | hExtended
    · exact h.apart first rest hOld fragment hFragment hIndex
    · obtain ⟨first', rest', rfl⟩ := List.exists_cons_of_ne_nil hNonempty
      obtain ⟨rfl, rfl⟩ := List.cons.inj hExtended
      rcases mem_concat_cases hFragment with hBefore | rfl
      · exact h.apart first rest' hMem fragment hBefore hIndex
      · -- the entry that is continued was stored by another delta
        have hOther := of_decide_eq_false (sameDelta_of_continuation hContinues hIndex)
        rw [h.deltas, List.getElem?_map, hBlock] at hOther
        exact fun hEq => hOther (congrArg some hEq.symm)

theorem place (h : BlocksOk t) (hEntry : PlainEntry entry) : BlocksOk (t.place entry) := by
  cases hTarget : t.store.target entry with
  | none => exact h.place_store hEntry hTarget
  | some position => exact h.place_merge hEntry hTarget

theorem pushEntry (h : BlocksOk t) (lib : JsonLib)
    (hEntry : entry.typeTag.isSome → PlainEntry entry) : BlocksOk (t.pushEntry lib entry) := by
  unfold TracedStore.pushEntry
  split
  · exact h
  · rename_i hOpen
    dsimp only
    split
    · exact h.of_store rfl rfl
    · have hTyped : entry.typeTag.isSome := by
        cases hTag : entry.typeTag with
        | none => simp [hTag] at hOpen
        | some tag => rfl
      have hCounted : BlocksOk { t with store := { t.store with
          bytes := min (t.store.bytes + (lib.toVec entry).length) usizeMax } } :=
        h.of_store rfl rfl
      exact hCounted.place (hEntry hTyped)

theorem push (h : BlocksOk t) (lib : JsonLib) {raw : Json}
    (hRaw : ∀ entry ∈ typedEntries lib raw, PlainEntry entry) : BlocksOk (t.push lib raw) := by
  have hFold : ∀ (entries : List Json) (t : TracedStore), BlocksOk t →
      (∀ entry ∈ entries, entry.typeTag.isSome → PlainEntry entry) →
      BlocksOk (entries.foldl (TracedStore.pushEntry lib) t) := by
    intro entries
    induction entries with
    | nil => exact fun _ h _ => h
    | cons entry rest ih =>
      intro t h hEntries
      exact ih _ (h.pushEntry lib (hEntries entry List.mem_cons_self))
        fun e he => hEntries e (List.mem_cons_of_mem _ he)
  exact hFold _ _ (h.of_store rfl rfl)
    fun entry hMem hTyped => hRaw entry (List.mem_filter.mpr ⟨hMem, hTyped⟩)

theorem foldl_push (h : BlocksOk t) (lib : JsonLib) {raws : List Json}
    (hRaws : ∀ entry ∈ raws.flatMap (typedEntries lib), PlainEntry entry) :
    BlocksOk (raws.foldl (TracedStore.push lib) t) := by
  induction raws generalizing t with
  | nil => exact h
  | cons raw rest ih =>
    rw [List.flatMap_cons] at hRaws
    exact ih (h.push lib fun e he => hRaws e (List.mem_append_left _ he))
      fun e he => hRaws e (List.mem_append_right _ he)

theorem start : BlocksOk {} :=
  ⟨rfl, rfl, by simp, by simp, by simp, by simp⟩

theorem not_differ (h : BlocksOk t) {block : List Fragment} (hBlock : block ∈ t.blocks)
    {a b : Fragment} (ha : a ∈ block) (hb : b ∈ block) {key : String} (hKey : key ∈ identityKeys) :
    statedValuesDiffer a.2 b.2 key = false := by
  unfold statedValuesDiffer
  split
  · rename_i x y hx hy
    have hEq := (h.stated block hBlock a ha key hKey x hx).symm.trans
      (h.stated block hBlock b hb key hKey y hy)
    cases hEq
    simp
  · rfl

end BlocksOk

end Choreographr.Protocols
