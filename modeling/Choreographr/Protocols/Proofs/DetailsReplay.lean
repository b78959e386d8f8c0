import Choreographr.Protocols.Proofs.ChatStream
import Choreographr.Protocols.Proofs.DetailsBlocks

/-!
# Cutting fragments, and replaying what was captured

A fragment may be cut: it keeps a part of its text, and a later delta brings the rest
in an entry with the same other fields. As long as nothing of the same slot comes in
between, the store ends with the same entries. The two runs are compared step by step:
until the rest arrives they differ in one entry (`Behind`), and afterwards only in the
numbers of the deltas (`Aligned`).

What was captured comes back from its artifact entry by entry, without the stream-only
index of bare entries.
-/

namespace Choreographr.Protocols

open Session Lib

variable {lib : JsonLib} {s : DetailsStore} {entry : Json} {entries raws : List Json}
  {kind : DetailKind} {sameDelta : Bool} {deltas : List (List Json)} {signature : String}

/-! ## Below the cap -/

namespace DetailsStore

/-- The store without its byte count. -/
def uncounted (s : DetailsStore) : DetailsStore := { s with bytes := 0, overflowed := false }

/-- Fold the entries of one delta, as long as the cap is not reached. -/
def placeDelta (s : DetailsStore) (entries : List Json) : DetailsStore :=
  entries.foldl place { s with delta := s.delta + 1 }

theorem place_uncounted (s : DetailsStore) (entry : Json) :
    s.uncounted.place entry = (s.place entry).uncounted := by
  have hTarget : s.uncounted.target entry = s.target entry := rfl
  rw [place_eq, place_eq, hTarget]
  cases s.target entry <;> rfl

theorem pushEntry_uncounted {total : Nat} (h : Counted s total) (hTyped : entry.typeTag.isSome)
    (hCap : total + (lib.toVec entry).length ≤ maxReasoningBytes) :
    (s.pushEntry lib entry).uncounted = s.uncounted.place entry := by
  have hKept : s.overflowed = false := by
    rw [h.overflowed, decide_eq_false_iff_not]
    omega
  have hBytes := h.bytes (by omega)
  have hSize : maxReasoningBytes < usizeMax := by decide
  have hTag : entry.typeTag.isNone = false := Option.isNone_eq_false_iff.mpr hTyped
  have hFits : ¬ maxReasoningBytes < min (s.bytes + (lib.toVec entry).length) usizeMax := by omega
  rw [pushEntry, hTag, hKept, Bool.or_self, if_neg Bool.false_ne_true, if_neg hFits,
    ← place_uncounted]
  rfl

theorem foldl_pushEntry_uncounted {total : Nat} (h : Counted s total)
    (hTyped : ∀ entry ∈ entries, entry.typeTag.isSome)
    (hCap : total + streamedBytes lib entries ≤ maxReasoningBytes) :
    (entries.foldl (pushEntry lib) s).uncounted = entries.foldl place s.uncounted := by
  induction entries generalizing s total with
  | nil => rfl
  | cons entry rest ih =>
    have hSum : streamedBytes lib (entry :: rest) =
        (lib.toVec entry).length + streamedBytes lib rest := by simp [streamedBytes]
    have hEntry := hTyped entry List.mem_cons_self
    have hStep : (s.pushEntry lib entry).uncounted = s.uncounted.place entry :=
      pushEntry_uncounted h hEntry (by omega)
    rw [List.foldl_cons, List.foldl_cons, ← hStep]
    exact ih (h.pushEntry lib hEntry) (fun e he => hTyped e (List.mem_cons_of_mem _ he))
      (by omega)

/-- Below the cap the store places every entry. -/
theorem foldl_push_uncounted {total : Nat} (h : Counted s total)
    (hCap : total + streamedBytes lib (raws.flatMap (typedEntries lib)) ≤ maxReasoningBytes) :
    (raws.foldl (push lib) s).uncounted =
      (raws.map (typedEntries lib)).foldl placeDelta s.uncounted := by
  induction raws generalizing s total with
  | nil => rfl
  | cons raw rest ih =>
    have hSum : streamedBytes lib ((raw :: rest).flatMap (typedEntries lib)) =
        streamedBytes lib (typedEntries lib raw) +
          streamedBytes lib (rest.flatMap (typedEntries lib)) := by simp [streamedBytes]
    have hTyped : ∀ entry ∈ typedEntries lib raw, entry.typeTag.isSome :=
      fun entry hEntry => (List.mem_filter.mp hEntry).2
    have hDelta : Counted { s with delta := s.delta + 1 } total := ⟨h.overflowed, h.bytes⟩
    have hStep := @DetailsStore.foldl_pushEntry_uncounted lib _ _ total hDelta hTyped (by omega)
    have hNext := hDelta.foldl_pushEntry lib hTyped
    rw [← push_eq] at hStep hNext
    rw [List.map_cons, List.foldl_cons, List.foldl_cons, ih hNext (by omega), hStep]
    rfl

end DetailsStore

/-! ## What the slots lead to -/

/-- Each slot leads to an entry of its own, and no entry is of a later delta. -/
structure SlotsOk (s : DetailsStore) : Prop where
  lengths : s.entryDelta.length = s.entries.length
  slots : ∀ slot position, s.slots.lookup slot = some position →
    ∃ entry, s.entries[position]? = some entry ∧ slotOf entry = some slot
  objects : ∀ entry ∈ s.entries, IsObject entry
  deltas : ∀ delta ∈ s.entryDelta, delta ≤ s.delta

theorem textualKind_eq_some (h : textualKind entry = some kind) :
    classify entry = some kind ∧ kind.isTextual = true :=
  Option.filter_eq_some_iff.mp h

theorem typeTag_of_classify (h : classify entry = some kind) :
    isUnstated (entry.get "type") = false := by
  have hTag : ∃ tag, entry.typeTag = some tag ∧ tag ≠ "" := by
    unfold classify at h
    split at h
    all_goals first
      | exact ⟨_, by assumption, by decide⟩
      | cases h
  obtain ⟨tag, hTag, hNonempty⟩ := hTag
  obtain ⟨value, hGet, hStr⟩ := Option.bind_eq_some_iff.mp hTag
  cases value with
  | str text =>
    cases hStr
    rw [hGet]
    simpa [isUnstated] using hNonempty
  | _ => cases hStr

theorem entryIndex_of_continuation {existing : Json}
    (h : isContinuation existing entry sameDelta = true) :
    entryIndex existing = entryIndex entry := by
  rw [isContinuation] at h
  split at h
  · cases h
  · cases hOld : entryIndex existing with
    | some a =>
      cases hNew : entryIndex entry with
      | some b => simpa [hOld, hNew] using h
      | none => simp [hOld, hNew] at h
    | none =>
      cases hNew : entryIndex entry with
      | some b => simp [hOld, hNew] at h
      | none => rfl

/-- A merge keeps the kind and the index of an entry. -/
theorem merge_keeps {existing : Json} (hExisting : IsObject existing) (hEntry : IsObject entry)
    (hKind : textualKind entry = some kind) (hClass : classify existing = some kind)
    (hContinues : isContinuation existing entry sameDelta = true) :
    classify (mergeEntry existing entry) = classify existing ∧
      entryIndex (mergeEntry existing entry) = entryIndex existing := by
  obtain ⟨hType, hIndex⟩ := payloadKey_ne kind
  have hGetType := mergeEntry_get hExisting hEntry hKind hType.symm
  have hGetIndex := mergeEntry_get hExisting hEntry hKind hIndex.symm
  rw [grafted, typeTag_of_classify hClass, if_neg Bool.false_ne_true] at hGetType
  constructor
  · simp only [classify, Json.typeTag, hGetType]
  · rw [entryIndex, hGetIndex, grafted]
    split
    · cases hCarried : entry.get "index" with
      | none => rfl
      | some value =>
        rw [Option.some_or, entryIndex_of_continuation hContinues, entryIndex, hCarried]
    · rfl

theorem slotOf_merge {existing : Json} (hExisting : IsObject existing) (hEntry : IsObject entry)
    (hKind : textualKind entry = some kind) (hClass : classify existing = some kind)
    (hContinues : isContinuation existing entry sameDelta = true) :
    slotOf (mergeEntry existing entry) = slotOf existing := by
  obtain ⟨hClassify, hIndex⟩ := merge_keeps hExisting hEntry hKind hClass hContinues
  simp only [slotOf, textualKind, hClassify, hIndex]

namespace SlotsOk

theorem place (h : SlotsOk s) (hEntry : IsObject entry) : SlotsOk (s.place entry) := by
  rw [DetailsStore.place_eq]
  cases hTarget : s.target entry with
  | some position =>
    obtain ⟨kind, existing, hKind, hExisting, hContinues, hClass, -⟩ :=
      DetailsStore.target_eq_some hTarget
    have hObject := h.objects existing (List.mem_of_getElem? hExisting)
    have hSlot := slotOf_merge hObject hEntry hKind hClass hContinues
    constructor
    · simpa using h.lengths
    · intro slot q hq
      obtain ⟨e, he, hOwn⟩ := h.slots slot q hq
      by_cases hEq : position = q
      · subst hEq
        rw [hExisting] at he
        cases he
        refine ⟨mergeEntry existing entry, ?_, hSlot.trans hOwn⟩
        simp [hExisting]
      · exact ⟨e, by simpa [List.getElem?_modify, hEq] using he, hOwn⟩
    · intro e he
      obtain ⟨j, hj⟩ := List.mem_iff_getElem?.mp he
      obtain ⟨old, hOld, hSame | ⟨-, hNew⟩⟩ := getElem?_modify_cases hj
      · rw [hSame]
        exact h.objects old (List.mem_of_getElem? hOld)
      · have hMerge : mergeEntry old entry = mergeTextual old entry kind.payloadKey := by
          simp [mergeEntry, hKind]
        rw [hNew, hMerge]
        exact (mergeTextual_spec (h.objects old (List.mem_of_getElem? hOld)) hEntry).1
    · exact h.deltas
  | none =>
    constructor
    · simp [DetailsStore.store, h.lengths]
    · intro slot q hq
      have hKeeps : ∀ e, s.entries[q]? = some e →
          (s.store entry (classify entry)).entries[q]? = some e := by
        intro e he
        have hLt := (List.getElem?_eq_some_iff.mp he).1
        rw [DetailsStore.store, List.getElem?_append_left hLt]
        exact he
      cases hKind : textualKind entry with
      | none =>
        have hSlots : (s.store entry (classify entry)).slots = s.slots := by
          have hFilter : (classify entry).filter DetailKind.isTextual = none := hKind
          simp [DetailsStore.store, hFilter]
        rw [hSlots] at hq
        obtain ⟨e, he, hOwn⟩ := h.slots slot q hq
        exact ⟨e, hKeeps e he, hOwn⟩
      | some kind =>
        have hSlots : (s.store entry (classify entry)).slots =
            ((kind, entryIndex entry), s.entries.length) :: s.slots := by
          have hFilter : (classify entry).filter DetailKind.isTextual = some kind := hKind
          simp [DetailsStore.store, hFilter]
        rw [hSlots, List.lookup_cons] at hq
        split at hq
        · rename_i hSame
          cases hq
          refine ⟨entry, by simp [DetailsStore.store], ?_⟩
          rw [slotOf, hKind, eq_of_beq hSame]
          rfl
        · obtain ⟨e, he, hOwn⟩ := h.slots slot q hq
          exact ⟨e, hKeeps e he, hOwn⟩
    · intro e he
      rcases List.mem_append.mp he with hOld | hNew
      · exact h.objects e hOld
      · rw [List.mem_singleton.mp hNew]
        exact hEntry
    · intro delta hDelta
      rcases List.mem_append.mp hDelta with hOld | hNew
      · exact h.deltas delta hOld
      · rw [List.mem_singleton.mp hNew]
        exact Nat.le_refl _

theorem nextDelta (h : SlotsOk s) : SlotsOk { s with delta := s.delta + 1 } :=
  ⟨h.lengths, h.slots, h.objects, fun delta hDelta => Nat.le_succ_of_le (h.deltas delta hDelta)⟩

theorem foldl_place (h : SlotsOk s) (hEntries : ∀ e ∈ entries, IsObject e) :
    SlotsOk (entries.foldl DetailsStore.place s) := by
  induction entries generalizing s with
  | nil => exact h
  | cons entry rest ih =>
    exact ih (h.place (hEntries entry List.mem_cons_self))
      fun e he => hEntries e (List.mem_cons_of_mem _ he)

theorem placeDelta (h : SlotsOk s) (hEntries : ∀ e ∈ entries, IsObject e) :
    SlotsOk (s.placeDelta entries) := h.nextDelta.foldl_place hEntries

end SlotsOk

/-! ## Runs that number their deltas differently -/

/-- The stores hold the same entries, and the same ones of the current delta. -/
structure Aligned (s s' : DetailsStore) : Prop where
  entries : s'.entries = s.entries
  slots : s'.slots = s.slots
  current : ∀ position : Nat,
    s'.entryDelta[position]? = some s'.delta ↔ s.entryDelta[position]? = some s.delta
  lengths : s'.entryDelta.length = s.entryDelta.length

namespace Aligned

variable {s' : DetailsStore}

theorem target_eq (h : Aligned s s') (entry : Json) : s'.target entry = s.target entry := by
  simp only [DetailsStore.target, DetailsStore.continuation, h.slots, h.entries, h.current]

theorem place (h : Aligned s s') (entry : Json) : Aligned (s.place entry) (s'.place entry) := by
  rw [DetailsStore.place_eq, DetailsStore.place_eq, h.target_eq]
  cases s.target entry with
  | some position => exact ⟨by simp [h.entries], h.slots, h.current, h.lengths⟩
  | none =>
    refine ⟨by simp [DetailsStore.store, h.entries], ?_, fun position => ?_, ?_⟩
    · simp [DetailsStore.store, h.slots, h.entries]
    · simp only [DetailsStore.store, List.getElem?_append, h.lengths]
      split
      · exact h.current position
      · by_cases hLast : position - s.entryDelta.length = 0
        · simp [hLast]
        · obtain ⟨n, hn⟩ := Nat.exists_eq_succ_of_ne_zero hLast
          simp [hn]
    · simp [DetailsStore.store, h.lengths]

theorem nextDelta (hEntries : s'.entries = s.entries) (hSlots : s'.slots = s.slots)
    (hLengths : s'.entryDelta.length = s.entryDelta.length) (h : SlotsOk s) (h' : SlotsOk s') :
    Aligned { s with delta := s.delta + 1 } { s' with delta := s'.delta + 1 } where
  entries := hEntries
  slots := hSlots
  current := by
    have hNew : ∀ {s : DetailsStore}, SlotsOk s → ∀ position : Nat,
        s.entryDelta[position]? ≠ some (s.delta + 1) := by
      intro s h position hSome
      have hLe := h.deltas _ (List.mem_of_getElem? hSome)
      omega
    exact fun position => iff_of_false (hNew h' position) (hNew h position)
  lengths := hLengths

theorem foldl_place (h : Aligned s s') (entries : List Json) :
    Aligned (entries.foldl DetailsStore.place s) (entries.foldl DetailsStore.place s') := by
  induction entries generalizing s s' with
  | nil => exact h
  | cons entry rest ih => exact ih (h.place entry)

theorem entries_foldl_placeDelta (hEntries : s'.entries = s.entries) (hSlots : s'.slots = s.slots)
    (hLengths : s'.entryDelta.length = s.entryDelta.length) (h : SlotsOk s) (h' : SlotsOk s')
    (hObjects : ∀ entry ∈ deltas.flatten, IsObject entry) :
    (deltas.foldl DetailsStore.placeDelta s').entries =
      (deltas.foldl DetailsStore.placeDelta s).entries := by
  induction deltas generalizing s s' with
  | nil => exact hEntries
  | cons delta rest ih =>
    have hNext := (nextDelta hEntries hSlots hLengths h h').foldl_place delta
    have hHere : ∀ entry ∈ delta, IsObject entry :=
      fun e he => hObjects e (List.mem_append_left _ he)
    exact ih hNext.entries hNext.slots hNext.lengths (h.placeDelta hHere) (h'.placeDelta hHere)
      fun e he => hObjects e (List.mem_append_right _ he)

end Aligned

/-! ## A run that lacks a part of one text -/

theorem modify_append {α : Type} {xs : List α} {position : Nat} (ys : List α) (f : α → α)
    (h : position < xs.length) : (xs ++ ys).modify position f = xs.modify position f ++ ys := by
  apply List.ext_getElem?
  intro j
  rw [List.getElem?_modify, List.getElem?_append, List.getElem?_append, List.length_modify]
  by_cases hj : j < xs.length
  · rw [if_pos hj, if_pos hj, List.getElem?_modify]
  · have hNe : position ≠ j := by omega
    simp [hj, hNe]

/-- The second store lacks what `rest` adds to the entry at `position`, and `rest`
would be merged there in a later delta. -/
structure Behind (rest : Json) (position : Nat) (s s' : DetailsStore) : Prop where
  slots : s'.slots = s.slots
  entryDelta : s'.entryDelta = s.entryDelta
  delta : s'.delta = s.delta
  entries : s.entries = s'.entries.modify position fun e => mergeEntry e rest
  slot : ∃ kind, textualKind rest = some kind ∧
    s'.slots.lookup (kind, entryIndex rest) = some position ∧
    ∃ e, s'.entries[position]? = some e ∧ isContinuation e rest false = true ∧
      classify e = some kind

namespace Behind

variable {rest : Json} {position : Nat} {s' : DetailsStore}

theorem length_eq (h : Behind rest position s s') : s'.entries.length = s.entries.length := by
  rw [h.entries, List.length_modify]

/-- An entry of another slot goes to the same place in both. -/
theorem target_eq (h : Behind rest position s s') (hOk : SlotsOk s')
    (hSlot : slotOf entry ≠ slotOf rest) :
    s.target entry = s'.target entry ∧ s'.target entry ≠ some position := by
  obtain ⟨kind, hKind, hLookup, e, he, -, -⟩ := h.slot
  obtain ⟨found, hFound, hOwn⟩ := hOk.slots _ _ hLookup
  have hRest : slotOf rest = some (kind, entryIndex rest) := by
    rw [slotOf, hKind]
    rfl
  have hApart : ∀ (kind' : DetailKind) q, textualKind entry = some kind' →
      s'.slots.lookup (kind', entryIndex entry) = some q → q ≠ position := by
    intro kind' q hKind' hq hEq
    subst hEq
    obtain ⟨found', hFound', hOwn'⟩ := hOk.slots _ _ hq
    rw [hFound] at hFound'
    cases hFound'
    have hEntry : slotOf entry = some (kind', entryIndex entry) := by
      rw [slotOf, hKind']
      rfl
    exact hSlot (hEntry.trans (hOwn'.symm.trans (hOwn.trans hRest.symm)))
  constructor
  · simp only [DetailsStore.target, DetailsStore.continuation, ← h.slots]
    cases hKind' : textualKind entry with
    | none => rfl
    | some kind' =>
      simp only [Option.bind_some]
      cases hq : s'.slots.lookup (kind', entryIndex entry) with
      | none => rfl
      | some q =>
        have hNe := hApart kind' q hKind' hq
        have hSame : s.entries[q]? = s'.entries[q]? := by
          rw [h.entries]
          simp [Ne.symm hNe]
        simp only [hSame, h.entryDelta, h.delta]
  · intro hTarget
    obtain ⟨kind', existing, hKind', -, -, -, hq⟩ := DetailsStore.target_eq_some hTarget
    exact hApart kind' position hKind' hq rfl

theorem place (h : Behind rest position s s') (hOk : SlotsOk s')
    (hSlot : slotOf entry ≠ slotOf rest) :
    Behind rest position (s.place entry) (s'.place entry) := by
  obtain ⟨hTarget, hOther⟩ := h.target_eq hOk hSlot
  obtain ⟨kind, hKind, hLookup, e, he, hContinues, hClass⟩ := h.slot
  have hLt := (List.getElem?_eq_some_iff.mp he).1
  rw [DetailsStore.place_eq, DetailsStore.place_eq, hTarget]
  cases hPlace : s'.target entry with
  | some q =>
    have hNe : q ≠ position := fun hEq => hOther (hPlace.trans (congrArg some hEq))
    refine ⟨h.slots, h.entryDelta, h.delta, ?_, kind, hKind, hLookup, e, ?_, hContinues, hClass⟩
    · simp only [h.entries]
      exact List.modify_modify_ne _ _ _ (Ne.symm hNe)
    · simpa [List.getElem?_modify, hNe] using he
  | none =>
    refine ⟨?_, ?_, h.delta, ?_, kind, hKind, ?_, e, ?_, hContinues, hClass⟩
    · simp [DetailsStore.store, h.slots, h.length_eq]
    · simp [DetailsStore.store, h.entryDelta, h.delta]
    · simp only [DetailsStore.store, h.entries]
      exact (modify_append _ _ hLt).symm
    · cases hKind' : textualKind entry with
      | none =>
        have hFilter : (classify entry).filter DetailKind.isTextual = none := hKind'
        simpa [DetailsStore.store, hFilter] using hLookup
      | some kind' =>
        have hFilter : (classify entry).filter DetailKind.isTextual = some kind' := hKind'
        have hNe : ((kind, entryIndex rest) == (kind', entryIndex entry)) = false := by
          rw [beq_eq_false_iff_ne]
          intro hEq
          refine hSlot ?_
          rw [slotOf, slotOf, hKind, hKind', Option.map_some, Option.map_some, hEq]
        simpa [DetailsStore.store, hFilter, List.lookup_cons, hNe] using hLookup
    · rw [DetailsStore.store, List.getElem?_append_left hLt]
      exact he

theorem foldl_place (h : Behind rest position s s') (hOk : SlotsOk s')
    (hObjects : ∀ e ∈ entries, IsObject e) (hSlots : ∀ e ∈ entries, slotOf e ≠ slotOf rest) :
    Behind rest position (entries.foldl DetailsStore.place s)
      (entries.foldl DetailsStore.place s') := by
  induction entries generalizing s s' with
  | nil => exact h
  | cons entry more ih =>
    exact ih (h.place hOk (hSlots entry List.mem_cons_self))
      (hOk.place (hObjects entry List.mem_cons_self))
      (fun e he => hObjects e (List.mem_cons_of_mem _ he))
      fun e he => hSlots e (List.mem_cons_of_mem _ he)

theorem nextDelta (h : Behind rest position s s') :
    Behind rest position { s with delta := s.delta + 1 } { s' with delta := s'.delta + 1 } :=
  ⟨h.slots, h.entryDelta, congrArg (· + 1) h.delta, h.entries, h.slot⟩

/-- Deltas that leave the slot alone keep the stores apart by the same text. -/
theorem foldl_placeDelta (h : Behind rest position s s') (hOk : SlotsOk s')
    (hObjects : ∀ e ∈ deltas.flatten, IsObject e)
    (hSlots : ∀ e ∈ deltas.flatten, slotOf e ≠ slotOf rest) :
    Behind rest position (deltas.foldl DetailsStore.placeDelta s)
      (deltas.foldl DetailsStore.placeDelta s') := by
  induction deltas generalizing s s' with
  | nil => exact h
  | cons delta more ih =>
    have hHere : ∀ e ∈ delta, IsObject e := fun e he => hObjects e (List.mem_append_left _ he)
    have hNext := h.nextDelta.foldl_place hOk.nextDelta hHere
      fun e he => hSlots e (List.mem_append_left _ he)
    exact ih hNext (hOk.placeDelta hHere) (fun e he => hObjects e (List.mem_append_right _ he))
      fun e he => hSlots e (List.mem_append_right _ he)

theorem place_rest (h : Behind rest position s s')
    (hNew : s'.entryDelta[position]? ≠ some s'.delta) :
    s'.place rest = { s' with entries := s.entries } := by
  obtain ⟨kind, hKind, hLookup, e, he, hContinues, hClass⟩ := h.slot
  have hTarget : s'.target rest = some position := by
    simp only [DetailsStore.target, DetailsStore.continuation, hKind, Option.bind_some, hLookup, he,
      decide_eq_false hNew, hContinues, hClass, and_self, if_true]
  rw [DetailsStore.place_eq, hTarget, h.entries]

/-- The entry that lacks the rest is of an earlier delta. -/
theorem entryDelta_ne (h : Behind rest position s s') (hOk : SlotsOk s') (entries : List Json) :
    (entries.foldl DetailsStore.place { s' with delta := s'.delta + 1 }).entryDelta[position]? ≠
      some (entries.foldl DetailsStore.place { s' with delta := s'.delta + 1 }).delta := by
  obtain ⟨-, -, -, e, he, -, -⟩ := h.slot
  have hLt : position < s'.entryDelta.length :=
    hOk.lengths.symm ▸ (List.getElem?_eq_some_iff.mp he).1
  have hKeeps : ∀ (entries : List Json) (s : DetailsStore), position < s.entryDelta.length →
      (entries.foldl DetailsStore.place s).entryDelta[position]? = s.entryDelta[position]? ∧
        (entries.foldl DetailsStore.place s).delta = s.delta := by
    intro entries
    induction entries with
    | nil => exact fun _ _ => ⟨rfl, rfl⟩
    | cons entry more ih =>
      intro s hLt
      obtain ⟨hDeltas, hDelta, hLonger⟩ : (s.place entry).entryDelta[position]? =
          s.entryDelta[position]? ∧ (s.place entry).delta = s.delta ∧
          position < (s.place entry).entryDelta.length := by
        rw [DetailsStore.place_eq]
        cases s.target entry with
        | some q => exact ⟨rfl, rfl, hLt⟩
        | none =>
          refine ⟨List.getElem?_append_left hLt, rfl, ?_⟩
          simp only [DetailsStore.store, List.length_append]
          omega
      obtain ⟨hNext, hNextDelta⟩ := ih (s.place entry) hLonger
      exact ⟨hNext.trans hDeltas, hNextDelta.trans hDelta⟩
  obtain ⟨hDeltas, hDelta⟩ := hKeeps entries { s' with delta := s'.delta + 1 } hLt
  intro hSome
  have hOwn : s'.entryDelta[position]? = some (s'.delta + 1) :=
    hDeltas.symm.trans (hSome.trans (congrArg some hDelta))
  have hLe := hOk.deltas _ (List.mem_of_getElem? hOwn)
  omega

end Behind

/-! ## Cutting a fragment -/

/-- The entry with another text, and all its other fields. -/
def Json.withText (entry : Json) (kind : DetailKind) (text : String) : Json :=
  entry.insert kind.payloadKey (.str text)

section Cut

variable {existing : Json} {first second : String}

theorem withText_get (h : IsObject entry) (kind : DetailKind) (text name : String) :
    (entry.withText kind text).get name =
      if name = kind.payloadKey then some (.str text) else entry.get name :=
  h.get_insert kind.payloadKey name (.str text)

theorem withText_classify (h : IsObject entry) (kind : DetailKind) (text : String) :
    classify (entry.withText kind text) = classify entry := by
  have hGet := withText_get h kind text "type"
  rw [if_neg (payloadKey_ne kind).1.symm] at hGet
  simp only [classify, Json.typeTag, hGet]

theorem withText_textualKind (h : IsObject entry) (kind : DetailKind) (text : String) :
    textualKind (entry.withText kind text) = textualKind entry := by
  simp only [textualKind, withText_classify h]

theorem withText_entryIndex (h : IsObject entry) (kind : DetailKind) (text : String) :
    entryIndex (entry.withText kind text) = entryIndex entry := by
  have hGet := withText_get h kind text "index"
  rw [if_neg (payloadKey_ne kind).2.symm] at hGet
  simp only [entryIndex, hGet]

theorem withText_statedText (h : IsObject entry) (kind : DetailKind) (text : String)
    {key : String} (hKey : key ∈ identityKeys) :
    statedText (entry.withText kind text) key = statedText entry key := by
  have hNe : key ≠ kind.payloadKey := fun hEq => payloadKey_notMem kind (hEq ▸ hKey)
  have hGet := withText_get h kind text key
  rw [if_neg hNe] at hGet
  simp only [statedText, hGet]

theorem withText_continuation (h : IsObject entry) (kind : DetailKind) (text : String)
    (sameDelta : Bool) :
    isContinuation existing (entry.withText kind text) sameDelta =
      isContinuation existing entry sameDelta := by
  have hDiffer : ∀ key ∈ identityKeys,
      statedValuesDiffer existing (entry.withText kind text) key =
        statedValuesDiffer existing entry key := by
    intro key hKey
    simp only [statedValuesDiffer, withText_statedText h kind text hKey]
  simp only [isContinuation, List.any_cons, List.any_nil, hDiffer "id" (by decide),
    hDiffer "format" (by decide), hDiffer "signature" (by decide), withText_entryIndex h]
  rfl

theorem mergeEntry_eq (hKind : textualKind entry = some kind) :
    mergeEntry existing entry = mergeTextual existing entry kind.payloadKey := by
  simp [mergeEntry, hKind]

theorem grafted_self (value : Option Json) : grafted value value = value := by
  rw [grafted]
  split
  · cases value <;> rfl
  · rfl

theorem grafted_grafted (old value : Option Json) :
    grafted (grafted old value) value = grafted old value := by
  by_cases hUnstated : isUnstated old = true
  · rw [grafted, grafted, if_pos hUnstated]
    split
    · cases value <;> rfl
    · rfl
  · rw [grafted, grafted, if_neg hUnstated, if_neg hUnstated]

theorem payloadText_withText (h : IsObject entry) (text : String) :
    payloadText (entry.withText kind text) kind.payloadKey = text := by
  rw [payloadText, withText_get h, if_pos rfl]
  rfl

theorem merge_cut (h : IsObject entry) (hKind : textualKind entry = some kind)
    (hText : entry.get kind.payloadKey = some (.str (first ++ second))) :
    mergeEntry (entry.withText kind first) (entry.withText kind second) = entry := by
  have hFirst : IsObject (entry.withText kind first) := h.insert _ _
  have hSecond : IsObject (entry.withText kind second) := h.insert _ _
  have hKind' : textualKind (entry.withText kind second) = some kind :=
    (withText_textualKind h kind second).trans hKind
  obtain ⟨hObject, hGet⟩ := @mergeTextual_spec _ _ kind.payloadKey hFirst hSecond
  rw [mergeEntry_eq hKind']
  refine hObject.ext h fun name => ?_
  rw [hGet name]
  by_cases hName : name = kind.payloadKey
  · rw [if_pos hName, hName, payloadText_withText h, payloadText_withText h, hText]
  · rw [if_neg hName, withText_get h, withText_get h, if_neg hName, if_neg hName, grafted_self]

/-- Merging the two parts one after the other is merging the fragment. -/
theorem merge_merge_cut (hExisting : IsObject existing) (h : IsObject entry)
    (hKind : textualKind entry = some kind)
    (hText : entry.get kind.payloadKey = some (.str (first ++ second))) :
    mergeEntry (mergeEntry existing (entry.withText kind first)) (entry.withText kind second) =
      mergeEntry existing entry := by
  have hFirst : IsObject (entry.withText kind first) := h.insert _ _
  have hSecond : IsObject (entry.withText kind second) := h.insert _ _
  have hKindOf : ∀ text, textualKind (entry.withText kind text) = some kind :=
    fun text => (withText_textualKind h kind text).trans hKind
  obtain ⟨hOne, hGetOne⟩ := @mergeTextual_spec _ _ kind.payloadKey hExisting hFirst
  obtain ⟨hTwo, hGetTwo⟩ := @mergeTextual_spec _ _ kind.payloadKey hOne hSecond
  obtain ⟨hWhole, hGetWhole⟩ := @mergeTextual_spec _ _ kind.payloadKey hExisting h
  rw [mergeEntry_eq (hKindOf first), mergeEntry_eq (hKindOf second), mergeEntry_eq hKind]
  refine hTwo.ext hWhole fun name => ?_
  rw [hGetTwo name, hGetWhole name]
  by_cases hName : name = kind.payloadKey
  · have hPayload : payloadText (mergeTextual existing (entry.withText kind first)
        kind.payloadKey) kind.payloadKey =
        payloadText existing kind.payloadKey ++ first := by
      rw [payloadText, hGetOne, if_pos rfl, payloadText_withText h]
      rfl
    have hWholeText : payloadText entry kind.payloadKey = first ++ second := by
      rw [payloadText, hText]
      rfl
    rw [if_pos hName, if_pos hName, hPayload, payloadText_withText h, hWholeText,
      String.append_assoc]
  · rw [if_neg hName, if_neg hName, hGetOne, if_neg hName, withText_get h, withText_get h,
      if_neg hName, if_neg hName, grafted_grafted]

theorem continuation_cut (h : IsObject entry) :
    isContinuation (entry.withText kind first) (entry.withText kind second) false = true := by
  rw [withText_continuation h, isContinuation]
  have hNone : ["id", "format", "signature"].any
      (statedValuesDiffer (entry.withText kind first) entry) = false := by
    rw [List.any_eq_false]
    intro key hKey
    rw [statedValuesDiffer, withText_statedText h kind first hKey]
    cases statedText entry key <;> simp
  rw [hNone, if_neg Bool.false_ne_true, withText_entryIndex h]
  cases entryIndex entry <;> simp

/-- The second part continues what the first one was merged into. -/
theorem continuation_merge_cut (hExisting : IsObject existing) (h : IsObject entry)
    (hKind : textualKind entry = some kind) (hClass : classify existing = some kind)
    (hContinues : isContinuation existing entry sameDelta = true) :
    isContinuation (mergeEntry existing (entry.withText kind first))
      (entry.withText kind second) false = true := by
  have hFirst : IsObject (entry.withText kind first) := h.insert _ _
  have hKind' : textualKind (entry.withText kind first) = some kind :=
    (withText_textualKind h kind first).trans hKind
  have hContinues' : isContinuation existing (entry.withText kind first) sameDelta = true :=
    (withText_continuation h kind first sameDelta).trans hContinues
  obtain ⟨-, hIndex⟩ := merge_keeps hExisting hFirst hKind' hClass hContinues'
  rw [withText_continuation h, isContinuation]
  have hNone : ["id", "format", "signature"].any
      (statedValuesDiffer (mergeEntry existing (entry.withText kind first)) entry) = false := by
    rw [List.any_eq_false]
    intro key hKey
    have hNe : key ≠ kind.payloadKey := fun hEq => payloadKey_notMem kind (hEq ▸ hKey)
    have hGet := mergeEntry_get hExisting hFirst hKind' hNe
    rw [withText_get h, if_neg hNe, grafted] at hGet
    rw [Bool.not_eq_true]
    split at hGet
    · cases hCarried : entry.get key with
      | none =>
        have hEmpty : statedText entry key = none := by simp [statedText, hCarried]
        rw [statedValuesDiffer, hEmpty]
        split <;> simp_all
      | some value =>
        have hSame : statedText (mergeEntry existing (entry.withText kind first)) key =
            statedText entry key := by
          simp only [statedText, hGet, hCarried, Option.some_or]
        rw [statedValuesDiffer, hSame]
        cases statedText entry key <;> simp
    · have hSame : statedText (mergeEntry existing (entry.withText kind first)) key =
          statedText existing key := by simp only [statedText, hGet]
      rw [statedValuesDiffer, hSame]
      exact not_differ_of_continuation hKey hContinues
  rw [hNone, if_neg Bool.false_ne_true, hIndex, entryIndex_of_continuation hContinues]
  cases entryIndex entry <;> simp

/-- A fragment that continues an entry: the run with its first part lacks the second one. -/
theorem behind_merge {position : Nat} (hOk : SlotsOk s) (h : IsObject entry)
    (hKind : textualKind entry = some kind)
    (hText : entry.get kind.payloadKey = some (.str (first ++ second)))
    (hPlace : s.target entry = some position) :
    Behind (entry.withText kind second) position
      { s with entries := s.entries.modify position fun e => mergeEntry e entry }
      { s with
        entries := s.entries.modify position fun e => mergeEntry e (entry.withText kind first) } := by
  have hKindOf : ∀ text, textualKind (entry.withText kind text) = some kind :=
    fun text => (withText_textualKind h kind text).trans hKind
  obtain ⟨kind', existing, hKind', hExisting, hContinues, hClass, hLookup⟩ :=
    DetailsStore.target_eq_some hPlace
  obtain rfl : kind = kind' := Option.some.inj (hKind.symm.trans hKind')
  have hObject := hOk.objects existing (List.mem_of_getElem? hExisting)
  have hFirst : IsObject (entry.withText kind first) := h.insert _ _
  have hContinues' : isContinuation existing (entry.withText kind first)
      (decide (s.entryDelta[position]? = some s.delta)) = true :=
    (withText_continuation h kind first _).trans hContinues
  obtain ⟨hKeeps, -⟩ := merge_keeps hObject hFirst (hKindOf first) hClass hContinues'
  refine ⟨rfl, rfl, rfl, ?_, kind, hKindOf second, ?_,
    mergeEntry existing (entry.withText kind first), ?_, ?_, hKeeps.trans hClass⟩
  · apply List.ext_getElem?
    intro j
    simp only [List.getElem?_modify]
    by_cases hEq : position = j
    · subst hEq
      simp [hExisting, merge_merge_cut hObject h hKind hText]
    · simp [hEq]
  · rw [withText_entryIndex h]
    exact hLookup
  · simp [hExisting]
  · exact continuation_merge_cut hObject h hKind hClass hContinues

/-- A fragment that opens an entry. -/
theorem behind_store (h : IsObject entry) (hKind : textualKind entry = some kind)
    (hText : entry.get kind.payloadKey = some (.str (first ++ second))) :
    Behind (entry.withText kind second) s.entries.length (s.store entry (classify entry))
      (s.store (entry.withText kind first) (classify (entry.withText kind first))) := by
  have hKindOf : ∀ text, textualKind (entry.withText kind text) = some kind :=
    fun text => (withText_textualKind h kind text).trans hKind
  have hClassOf : ∀ text, classify (entry.withText kind text) = some kind :=
    fun text => (textualKind_eq_some (hKindOf text)).1
  have hStored : ∀ e, classify e = some kind → entryIndex e = entryIndex entry →
      (s.store e (classify e)).slots = ((kind, entryIndex entry), s.entries.length) :: s.slots := by
    intro e hClass hIndex
    have hFilter : (some kind).filter DetailKind.isTextual = some kind := by
      simp [Option.filter, (textualKind_eq_some hKind).2]
    rw [DetailsStore.store, hClass, hFilter, hIndex]
  have hSlots := hStored entry (textualKind_eq_some hKind).1 rfl
  have hSlots' := hStored _ (hClassOf first) (withText_entryIndex h kind first)
  refine ⟨hSlots'.trans hSlots.symm, rfl, rfl, ?_, kind, hKindOf second, ?_,
    entry.withText kind first, ?_, continuation_cut h, hClassOf first⟩
  · apply List.ext_getElem?
    intro j
    simp only [DetailsStore.store, List.getElem?_modify, List.getElem?_append]
    split
    · rename_i hLt
      have hNe : s.entries.length ≠ j := Nat.ne_of_gt hLt
      simp [hNe]
    · rename_i hGe
      by_cases hEq : s.entries.length = j
      · subst hEq
        simp [merge_cut h hKind hText]
      · have hPos : j - s.entries.length ≠ 0 := by omega
        obtain ⟨n, hn⟩ := Nat.exists_eq_succ_of_ne_zero hPos
        simp [hn]
  · rw [hSlots', withText_entryIndex h, List.lookup_cons_self]
  · simp [DetailsStore.store]

/-- Up to the first part, the run with the cut fragment lacks only the second one. -/
theorem behind_of_cut (hOk : SlotsOk s) (h : IsObject entry) (hKind : textualKind entry = some kind)
    (hText : entry.get kind.payloadKey = some (.str (first ++ second))) :
    ∃ position, Behind (entry.withText kind second) position (s.place entry)
      (s.place (entry.withText kind first)) := by
  have hKindOf : ∀ text, textualKind (entry.withText kind text) = some kind :=
    fun text => (withText_textualKind h kind text).trans hKind
  have hTarget : s.target (entry.withText kind first) = s.target entry := by
    simp only [DetailsStore.target, DetailsStore.continuation, hKindOf, hKind,
      withText_entryIndex h, withText_continuation h]
  rw [DetailsStore.place_eq, DetailsStore.place_eq, hTarget]
  cases hPlace : s.target entry with
  | some position => exact ⟨position, behind_merge hOk h hKind hText hPlace⟩
  | none => exact ⟨s.entries.length, behind_store h hKind hText⟩

end Cut

/-- One step of cutting a stream into more pieces: a fragment keeps a part of its text,
and the rest comes in a later delta, before anything else of the same slot. That delta
brings nothing else (`apart`) or is one that the stream has anyway (`within`). -/
inductive Cut : List (List Json) → List (List Json) → Prop where
  | apart (before middle after : List (List Json)) (heads tails : List Json) (entry : Json)
      (kind : DetailKind) (first second : String) (hKind : textualKind entry = some kind)
      (hText : entry.get kind.payloadKey = some (.str (first ++ second)))
      (hSlot : ∀ other ∈ tails ++ middle.flatten, slotOf other ≠ slotOf entry) :
      Cut (before ++ (heads ++ entry :: tails) :: middle ++ after)
        (before ++ (heads ++ entry.withText kind first :: tails) :: middle ++
          [entry.withText kind second] :: after)
  | within (before middle after : List (List Json)) (heads tails start rest : List Json)
      (entry : Json) (kind : DetailKind) (first second : String)
      (hKind : textualKind entry = some kind)
      (hText : entry.get kind.payloadKey = some (.str (first ++ second)))
      (hSlot : ∀ other ∈ tails ++ middle.flatten ++ start, slotOf other ≠ slotOf entry) :
      Cut (before ++ (heads ++ entry :: tails) :: middle ++ (start ++ rest) :: after)
        (before ++ (heads ++ entry.withText kind first :: tails) :: middle ++
          (start ++ entry.withText kind second :: rest) :: after)

theorem slotsOk_foldl (h : SlotsOk s) (hObjects : ∀ entry ∈ deltas.flatten, IsObject entry) :
    SlotsOk (deltas.foldl DetailsStore.placeDelta s) := by
  induction deltas generalizing s with
  | nil => exact h
  | cons delta rest ih =>
    exact ih (h.placeDelta fun e he => hObjects e (List.mem_append_left _ he))
      fun e he => hObjects e (List.mem_append_right _ he)

theorem slotsOk_start : SlotsOk {} := ⟨rfl, by simp, by simp, by simp⟩

theorem placeDeltas_append (start rest : List (List Json)) :
    (start ++ rest).foldl DetailsStore.placeDelta {} =
      rest.foldl DetailsStore.placeDelta (start.foldl DetailsStore.placeDelta {}) :=
  List.foldl_append

theorem objects_cut {before middle : List (List Json)} {heads tails : List Json} (kind : DetailKind)
    (first : String)
    (hObjects : ∀ e ∈ (before ++ (heads ++ entry :: tails) :: middle).flatten, IsObject e) :
    ∀ e ∈ (before ++ (heads ++ entry.withText kind first :: tails) :: middle).flatten,
      IsObject e := by
  simp only [List.flatten_append, List.flatten_cons, List.mem_append, List.mem_cons] at hObjects ⊢
  rintro e (he | (he | rfl | he) | he)
  · exact hObjects e (Or.inl he)
  · exact hObjects e (Or.inr (Or.inl (Or.inl he)))
  · exact (hObjects entry (Or.inr (Or.inl (Or.inr (Or.inl rfl))))).insert _ _
  · exact hObjects e (Or.inr (Or.inl (Or.inr (Or.inr he))))
  · exact hObjects e (Or.inr (Or.inr he))

/-- Up to the delta with the second part, the runs differ by its text. -/
theorem behind_middle {before middle : List (List Json)} {heads tails : List Json}
    {first second : String} (hKind : textualKind entry = some kind)
    (hText : entry.get kind.payloadKey = some (.str (first ++ second)))
    (hSlot : ∀ other ∈ tails ++ middle.flatten, slotOf other ≠ slotOf entry)
    (hObjects : ∀ e ∈ (before ++ (heads ++ entry :: tails) :: middle).flatten, IsObject e) :
    ∃ position, Behind (entry.withText kind second) position
      ((before ++ (heads ++ entry :: tails) :: middle).foldl DetailsStore.placeDelta {})
      ((before ++ (heads ++ entry.withText kind first :: tails) :: middle).foldl
        DetailsStore.placeDelta {}) := by
  simp only [List.flatten_append, List.flatten_cons, List.mem_append, List.mem_cons] at hObjects
  have hEntry : IsObject entry := hObjects entry (Or.inr (Or.inl (Or.inr (Or.inl rfl))))
  have hFirst : IsObject (entry.withText kind first) := hEntry.insert _ _
  have hRestSlot : slotOf (entry.withText kind second) = slotOf entry := by
    simp only [slotOf, withText_textualKind hEntry, withText_entryIndex hEntry]
  have hHeads : ∀ e ∈ heads, IsObject e :=
    fun e he => hObjects e (Or.inr (Or.inl (Or.inl he)))
  have hTails : ∀ e ∈ tails, IsObject e :=
    fun e he => hObjects e (Or.inr (Or.inl (Or.inr (Or.inr he))))
  have hBefore : SlotsOk (before.foldl DetailsStore.placeDelta {}) :=
    slotsOk_foldl slotsOk_start fun e he => hObjects e (Or.inl he)
  simp only [List.foldl_append, List.foldl_cons]
  generalize before.foldl DetailsStore.placeDelta {} = s at hBefore ⊢
  have hOk := hBefore.nextDelta.foldl_place hHeads
  obtain ⟨position, hBehind⟩ := behind_of_cut hOk hEntry hKind hText
  have hHere := hBehind.foldl_place (hOk.place hFirst) hTails
    fun e he => hRestSlot ▸ hSlot e (List.mem_append_left _ he)
  have hDelta : Behind (entry.withText kind second) position
      (s.placeDelta (heads ++ entry :: tails))
      (s.placeDelta (heads ++ entry.withText kind first :: tails)) := by
    simpa only [DetailsStore.placeDelta, List.foldl_append, List.foldl_cons] using hHere
  have hOk' : SlotsOk (s.placeDelta (heads ++ entry.withText kind first :: tails)) := by
    refine hBefore.placeDelta fun e he => ?_
    rcases List.mem_append.mp he with hMem | hMem
    · exact hHeads e hMem
    · rcases List.mem_cons.mp hMem with rfl | hMem
      · exact hFirst
      · exact hTails e hMem
  exact ⟨position, hDelta.foldl_placeDelta hOk' (fun e he => hObjects e (Or.inr (Or.inr he)))
    fun e he => hRestSlot ▸ hSlot e (List.mem_append_right _ he)⟩

/-- Cutting a fragment leaves the captured entries unchanged. -/
theorem Cut.entries_eq {deltas' : List (List Json)} (h : Cut deltas deltas')
    (hObjects : ∀ entry ∈ deltas.flatten, IsObject entry) :
    (deltas'.foldl DetailsStore.placeDelta {}).entries =
      (deltas.foldl DetailsStore.placeDelta {}).entries := by
  cases h with
  | apart before middle after heads tails entry kind first second hKind hText hSlot =>
    rw [List.flatten_append] at hObjects
    have hStart := fun e he => hObjects e (List.mem_append_left after.flatten he)
    have hAfter := fun e he => hObjects e (List.mem_append_right
      (before ++ (heads ++ entry :: tails) :: middle).flatten he)
    obtain ⟨position, hBehind⟩ := behind_middle hKind hText hSlot hStart
    have hOk := slotsOk_foldl slotsOk_start hStart
    have hOk' := slotsOk_foldl slotsOk_start (objects_cut kind first hStart)
    have hEntry : IsObject entry := hStart entry (by simp)
    rw [placeDeltas_append (before ++ (heads ++ entry :: tails) :: middle),
      placeDeltas_append (before ++ (heads ++ entry.withText kind first :: tails) :: middle),
      List.foldl_cons]
    generalize (before ++ (heads ++ entry :: tails) :: middle).foldl
      DetailsStore.placeDelta {} = s at hBehind hOk ⊢
    generalize (before ++ (heads ++ entry.withText kind first :: tails) :: middle).foldl
      DetailsStore.placeDelta {} = s' at hBehind hOk' ⊢
    -- the second part closes the gap, and the rest of the runs numbers its deltas differently
    have hNew := hBehind.entryDelta_ne hOk' []
    have hRest : s'.placeDelta [entry.withText kind second] =
        { s' with entries := s.entries, delta := s'.delta + 1 } :=
      hBehind.nextDelta.place_rest hNew
    have hRestOk : SlotsOk (s'.placeDelta [entry.withText kind second]) :=
      hOk'.placeDelta fun e he => (List.mem_singleton.mp he) ▸ hEntry.insert _ _
    rw [hRest] at hRestOk ⊢
    exact Aligned.entries_foldl_placeDelta rfl hBehind.slots
      (congrArg List.length hBehind.entryDelta) hOk hRestOk hAfter
  | within before middle after heads tails start rest entry kind first second hKind hText hSlot =>
    rw [List.flatten_append, List.flatten_cons] at hObjects
    have hStart := fun e he => hObjects e (List.mem_append_left
      ((start ++ rest) ++ after.flatten) he)
    have hOthers := fun e he => hObjects e (List.mem_append_right
      (before ++ (heads ++ entry :: tails) :: middle).flatten he)
    have hHere : ∀ e ∈ start ++ rest, IsObject e :=
      fun e he => hOthers e (List.mem_append_left _ he)
    have hAfter : ∀ e ∈ after.flatten, IsObject e :=
      fun e he => hOthers e (List.mem_append_right _ he)
    obtain ⟨position, hBehind⟩ := behind_middle hKind hText
      (fun other hOther => hSlot other (List.mem_append_left _ hOther)) hStart
    have hOk := slotsOk_foldl slotsOk_start hStart
    have hOk' := slotsOk_foldl slotsOk_start (objects_cut kind first hStart)
    have hEntry : IsObject entry := hStart entry (by simp)
    have hRestSlot : slotOf (entry.withText kind second) = slotOf entry := by
      simp only [slotOf, withText_textualKind hEntry, withText_entryIndex hEntry]
    rw [placeDeltas_append (before ++ (heads ++ entry :: tails) :: middle),
      placeDeltas_append (before ++ (heads ++ entry.withText kind first :: tails) :: middle),
      List.foldl_cons, List.foldl_cons]
    generalize (before ++ (heads ++ entry :: tails) :: middle).foldl
      DetailsStore.placeDelta {} = s at hBehind hOk ⊢
    generalize (before ++ (heads ++ entry.withText kind first :: tails) :: middle).foldl
      DetailsStore.placeDelta {} = s' at hBehind hOk' ⊢
    have hStartObjects : ∀ e ∈ start, IsObject e :=
      fun e he => hHere e (List.mem_append_left _ he)
    have hUntil := hBehind.nextDelta.foldl_place hOk'.nextDelta hStartObjects
      fun e he => hRestSlot ▸ hSlot e (List.mem_append_right _ he)
    have hClosed := hUntil.place_rest (hBehind.entryDelta_ne hOk' start)
    -- from the second part on the stores are the same
    have hAligned : Aligned (start.foldl DetailsStore.place { s with delta := s.delta + 1 })
        ((start.foldl DetailsStore.place { s' with delta := s'.delta + 1 }).place
          (entry.withText kind second)) := by
      rw [hClosed]
      exact ⟨rfl, hUntil.slots, fun _ => by simp only [hUntil.entryDelta, hUntil.delta],
        congrArg List.length hUntil.entryDelta⟩
    have hNext := hAligned.foldl_place rest
    have hOkNext : SlotsOk (s.placeDelta (start ++ rest)) := hOk.placeDelta hHere
    have hOkNext' : SlotsOk (s'.placeDelta (start ++ entry.withText kind second :: rest)) := by
      refine hOk'.placeDelta fun e he => ?_
      rcases List.mem_append.mp he with hMem | hMem
      · exact hStartObjects e hMem
      · rcases List.mem_cons.mp hMem with rfl | hMem
        · exact hEntry.insert _ _
        · exact hHere e (List.mem_append_right _ hMem)
    have hStep : Aligned (s.placeDelta (start ++ rest))
        (s'.placeDelta (start ++ entry.withText kind second :: rest)) := by
      simpa only [DetailsStore.placeDelta, List.foldl_append, List.foldl_cons] using hNext
    exact Aligned.entries_foldl_placeDelta hStep.entries hStep.slots hStep.lengths hOkNext hOkNext'
      hAfter

theorem Cut.objects {deltas' : List (List Json)} (h : Cut deltas deltas')
    (hObjects : ∀ entry ∈ deltas.flatten, IsObject entry) :
    ∀ entry ∈ deltas'.flatten, IsObject entry := by
  cases h with
  | apart before middle after heads tails entry kind first second hKind hText hSlot =>
    rw [List.flatten_append] at hObjects ⊢
    have hStart := fun e he => hObjects e (List.mem_append_left after.flatten he)
    have hEntry : IsObject entry := hStart entry (by simp)
    intro e he
    rcases List.mem_append.mp he with hMem | hMem
    · exact objects_cut kind first hStart e hMem
    · rcases List.mem_cons.mp hMem with rfl | hMem
      · exact hEntry.insert _ _
      · exact hObjects e (List.mem_append_right _ hMem)
  | within before middle after heads tails start rest entry kind first second hKind hText hSlot =>
    rw [List.flatten_append] at hObjects ⊢
    have hStart := fun e he => hObjects e (List.mem_append_left
      ((start ++ rest) :: after).flatten he)
    have hEntry : IsObject entry := hStart entry (by simp)
    intro e he
    rcases List.mem_append.mp he with hMem | hMem
    · exact objects_cut kind first hStart e hMem
    · have hOther : e ∈ ((start ++ rest) :: after).flatten ∨ e = entry.withText kind second := by
        simp only [List.flatten_cons, List.mem_append, List.mem_cons] at hMem ⊢
        tauto
      rcases hOther with hOld | rfl
      · exact hObjects e (List.mem_append_right _ hOld)
      · exact hEntry.insert _ _

/-- The deltas of `raws'` bring the text of `raws` in more pieces. -/
def Refragments (lib : JsonLib) (raws raws' : List Json) : Prop :=
  Relation.ReflTransGen Cut (raws.map (typedEntries lib)) (raws'.map (typedEntries lib))

/-- The store after a stream. -/
def captured (lib : JsonLib) (raws : List Json) : DetailsStore :=
  raws.foldl (DetailsStore.push lib) {}

theorem entries_captured
    (hCap : streamedBytes lib (raws.flatMap (typedEntries lib)) ≤ maxReasoningBytes) :
    (captured lib raws).entries =
      ((raws.map (typedEntries lib)).foldl DetailsStore.placeDelta {}).entries := by
  have hStart : Counted {} 0 := ⟨rfl, fun _ => rfl⟩
  have hRun := DetailsStore.foldl_push_uncounted hStart (by simpa using hCap)
  have hEntries : ((captured lib raws).uncounted).entries =
      ((raws.map (typedEntries lib)).foldl DetailsStore.placeDelta {}).entries :=
    congrArg DetailsStore.entries hRun
  exact hEntries

/-- Streams that fit the cap and bring the same text in other pieces leave the same
entries. -/
theorem Refragments.entries_eq {raws' : List Json} (h : Refragments lib raws raws')
    (hObjects : ∀ entry ∈ raws.flatMap (typedEntries lib), IsObject entry)
    (hCap : streamedBytes lib (raws.flatMap (typedEntries lib)) ≤ maxReasoningBytes)
    (hCap' : streamedBytes lib (raws'.flatMap (typedEntries lib)) ≤ maxReasoningBytes) :
    (captured lib raws').entries = (captured lib raws).entries := by
  have hChain : ∀ {deltas : List (List Json)},
      Relation.ReflTransGen Cut (raws.map (typedEntries lib)) deltas →
      (∀ entry ∈ deltas.flatten, IsObject entry) ∧
        (deltas.foldl DetailsStore.placeDelta {}).entries =
          ((raws.map (typedEntries lib)).foldl DetailsStore.placeDelta {}).entries := by
    intro deltas hDeltas
    induction hDeltas with
    | refl => exact ⟨by simpa [List.flatMap] using hObjects, rfl⟩
    | tail _ hCut ih =>
      exact ⟨hCut.objects ih.1, (hCut.entries_eq ih.1).trans ih.2⟩
  rw [entries_captured hCap, entries_captured hCap', (hChain h).2]

/-! ## The display text -/

theorem foldl_applyDetails_text (lib : JsonLib) (raws : List Json) (s : ReasoningStreamState) :
    (raws.foldl (fun s raw => (s.applyDetails lib raw).1) s).detailsText =
      s.detailsText ++ fragmentText (raws.flatMap (DetailsStore.valueEntries lib)) ∧
    (raws.foldl (fun s raw => (s.applyDetails lib raw).1) s).details =
      raws.foldl (DetailsStore.push lib) s.details := by
  induction raws generalizing s with
  | nil => exact ⟨by simp [fragmentText], rfl⟩
  | cons raw rest ih =>
    obtain ⟨hText, hStore⟩ := ih (s.applyDetails lib raw).1
    rw [List.foldl_cons, hText, hStore]
    refine ⟨?_, rfl⟩
    simp [ReasoningStreamState.applyDetails, fragmentText, String.append_assoc]

/-! ## The artifact -/

/-- Every captured entry is an object with a type. -/
structure EntriesOk (s : DetailsStore) : Prop extends SlotsOk s where
  typed : ∀ entry ∈ s.entries, entry.typeTag.isSome

namespace EntriesOk

theorem place (h : EntriesOk s) (hEntry : IsObject entry) (hTyped : entry.typeTag.isSome) :
    EntriesOk (s.place entry) := by
  refine ⟨h.toSlotsOk.place hEntry, ?_⟩
  rw [DetailsStore.place_eq]
  cases hTarget : s.target entry with
  | none =>
    intro e he
    rcases List.mem_append.mp he with hOld | hNew
    · exact h.typed e hOld
    · rw [List.mem_singleton.mp hNew]
      exact hTyped
  | some position =>
    obtain ⟨kind, existing, hKind, hExisting, -, hClass, -⟩ := DetailsStore.target_eq_some hTarget
    intro e he
    obtain ⟨j, hj⟩ := List.mem_iff_getElem?.mp he
    obtain ⟨old, hOld, hSame | ⟨rfl, hNew⟩⟩ := getElem?_modify_cases hj
    · rw [hSame]
      exact h.typed old (List.mem_of_getElem? hOld)
    · have hOldTyped := h.typed old (List.mem_of_getElem? hOld)
      rw [hNew]
      rw [hExisting] at hOld
      cases hOld
      have hObject := h.objects existing (List.mem_of_getElem? hExisting)
      have hGet := mergeEntry_get hObject hEntry hKind (payloadKey_ne kind).1.symm
      rw [grafted, typeTag_of_classify hClass, if_neg Bool.false_ne_true] at hGet
      rw [Json.typeTag, hGet]
      exact hOldTyped

theorem push (h : EntriesOk s) {raw : Json}
    (hRaw : ∀ entry ∈ typedEntries lib raw, IsObject entry) : EntriesOk (s.push lib raw) := by
  have hFold : ∀ (entries : List Json) (s : DetailsStore), EntriesOk s →
      (∀ entry ∈ entries, IsObject entry ∧ entry.typeTag.isSome) →
      EntriesOk (entries.foldl (DetailsStore.pushEntry lib) s) := by
    intro entries
    induction entries with
    | nil => exact fun _ h _ => h
    | cons entry rest ih =>
      intro s h hEntries
      obtain ⟨hEntry, hTyped⟩ := hEntries entry List.mem_cons_self
      refine ih _ ?_ fun e he => hEntries e (List.mem_cons_of_mem _ he)
      unfold DetailsStore.pushEntry
      split
      · exact h
      · dsimp only
        have hCounted : ∀ n, EntriesOk { s with bytes := n } :=
          fun n => ⟨⟨h.lengths, h.slots, h.objects, h.deltas⟩, h.typed⟩
        split
        · exact ⟨⟨h.lengths, h.slots, h.objects, h.deltas⟩, h.typed⟩
        · exact (hCounted _).place hEntry hTyped
  rw [push_eq]
  exact hFold _ _ ⟨h.toSlotsOk.nextDelta, h.typed⟩
    fun e he => ⟨hRaw e he, (List.mem_filter.mp he).2⟩

theorem foldl_push (h : EntriesOk s)
    (hRaws : ∀ entry ∈ raws.flatMap (typedEntries lib), IsObject entry) :
    EntriesOk (raws.foldl (DetailsStore.push lib) s) := by
  induction raws generalizing s with
  | nil => exact h
  | cons raw rest ih =>
    rw [List.flatMap_cons] at hRaws
    exact ih (h.push fun e he => hRaws e (List.mem_append_left _ he))
      fun e he => hRaws e (List.mem_append_right _ he)

end EntriesOk

/-- `replayed` has the fields of the entry, but may lack its stream index. -/
structure ReplayOf (entry replayed : Json) : Prop where
  field : ∀ name, name ≠ "index" → replayed.get name = entry.get name
  index : replayed.get "index" = entry.get "index" ∨ replayed.get "index" = none

theorem lookup_filter_ne (fields : List (String × Json)) (key name : String) :
    (fields.filter fun field => field.1 ≠ key).lookup name =
      if name = key then none else fields.lookup name := by
  induction fields with
  | nil => simp
  | cons field rest ih =>
    by_cases hKey : field.1 = key
    · rw [List.filter_cons_of_neg (by simp [hKey]), ih]
      by_cases hName : name = key
      · rw [if_pos hName, if_pos hName]
      · have hNe : (name == field.1) = false := by simp [hKey, hName]
        rw [if_neg hName, if_neg hName, List.lookup_cons, hNe]
    · rw [List.filter_cons_of_pos (by simp [hKey]), List.lookup_cons, List.lookup_cons, ih]
      cases hName : name == field.1 with
      | true =>
        have hNe : name ≠ key := fun hEq => hKey ((eq_of_beq hName).symm.trans hEq)
        exact (if_neg hNe).symm
      | false => rfl

theorem remove_get (entry : Json) (key name : String) :
    (entry.remove key).get name = if name = key then none else entry.get name := by
  cases entry with
  | obj fields => exact lookup_filter_ne fields key name
  | _ => simp [Json.remove, Json.get]

theorem lowerEntry_replays (h : entry.typeTag.isSome) :
    ∃ replayed, lowerEntry entry = some replayed ∧ ReplayOf entry replayed := by
  obtain ⟨ty, hTag⟩ := Option.isSome_iff_exists.mp h
  unfold lowerEntry
  simp only [hTag]
  split
  · exact ⟨entry, rfl, fun _ _ => rfl, Or.inl rfl⟩
  · refine ⟨entry.remove "index", rfl, ?_, Or.inr ?_⟩
    · intro name hName
      rw [remove_get, if_neg hName]
    · rw [remove_get, if_pos rfl]

/-- The artifact of a stream fits the cap and replays the captured entries in their
order. -/
theorem finish_replays {wire : WireLib} (h : EntriesOk s) {artifact : ReasoningArtifact}
    (hFinish : s.finish lib = some artifact) :
    artifact = .chatReasoning .reasoningDetails (lib.toVec (.arr s.entries)) ∧
      (lib.toVec (.arr s.entries)).length ≤ maxReasoningBytes ∧
      (wire.fromSlice (lib.toVec (.arr s.entries)) = some (.arr s.entries) →
        List.Forall₂ ReplayOf s.entries
          (detailsWireValue wire (lib.toVec (.arr s.entries)))) := by
  rw [DetailsStore.finish] at hFinish
  split at hFinish
  · cases hFinish
  · dsimp only at hFinish
    split at hFinish
    · cases hFinish
    · rename_i hFits
      cases hFinish
      refine ⟨rfl, Nat.le_of_not_lt hFits, fun hRead => ?_⟩
      have hWire : detailsWireValue wire (lib.toVec (.arr s.entries)) =
          s.entries.filterMap lowerEntry := by
        rw [detailsWireValue, if_neg hFits, hRead]
        rfl
      rw [hWire]
      have hTyped := h.typed
      generalize s.entries = entries at hTyped
      induction entries with
      | nil => exact List.Forall₂.nil
      | cons entry rest ih =>
        obtain ⟨replayed, hLower, hReplay⟩ := lowerEntry_replays (hTyped entry List.mem_cons_self)
        rw [List.filterMap_cons_some hLower]
        exact List.Forall₂.cons hReplay (ih fun e he => hTyped e (List.mem_cons_of_mem _ he))

/-! ## Capture and replay -/

/-- The trace of a stream. -/
def traced (lib : JsonLib) (raws : List Json) : TracedStore :=
  raws.foldl (TracedStore.push lib) {}

/-- No two fragments of an entry state different identities, and none without an index
was merged into an entry that its own delta stored. -/
structure BlocksApart (blocks : List (List Fragment)) : Prop where
  identity : ∀ block ∈ blocks, ∀ a ∈ block, ∀ b ∈ block, ∀ key ∈ identityKeys,
    statedValuesDiffer a.2 b.2 key = false
  unindexed : ∀ first rest, first :: rest ∈ blocks → ∀ fragment ∈ rest,
    entryIndex fragment.2 = none → fragment.1 ≠ first.1

/-- Capture and replay of the reasoning details of a stream: a stream in more pieces
leaves the same entries, the display text is every fragment, entries of different
identities stay apart, and the artifact fits the cap and replays what was captured. -/
theorem details_captured (lib : JsonLib) (wire : WireLib) (raws : List Json)
    (hObjects : ∀ entry ∈ raws.flatMap (typedEntries lib), IsObject entry) :
    (∀ raws', Refragments lib raws raws' →
      streamedBytes lib (raws.flatMap (typedEntries lib)) ≤ maxReasoningBytes →
      streamedBytes lib (raws'.flatMap (typedEntries lib)) ≤ maxReasoningBytes →
      (captured lib raws').entries = (captured lib raws).entries) ∧
    (raws.foldl (fun s raw => (s.applyDetails lib raw).1) ({} : ReasoningStreamState)).detailsText =
      fragmentText (raws.flatMap (DetailsStore.valueEntries lib)) ∧
    ((traced lib raws).store = captured lib raws ∧
      ((∀ entry ∈ raws.flatMap (typedEntries lib), PlainEntry entry) →
        (captured lib raws).entries = (traced lib raws).blocks.map mergeAll ∧
          BlocksApart (traced lib raws).blocks)) ∧
    ∀ artifact, (captured lib raws).finish lib = some artifact →
      artifact = .chatReasoning .reasoningDetails (lib.toVec (.arr (captured lib raws).entries)) ∧
        (lib.toVec (.arr (captured lib raws).entries)).length ≤ maxReasoningBytes ∧
        (wire.fromSlice (lib.toVec (.arr (captured lib raws).entries)) =
            some (.arr (captured lib raws).entries) →
          List.Forall₂ ReplayOf (captured lib raws).entries
            (detailsWireValue wire (lib.toVec (.arr (captured lib raws).entries)))) := by
  have hStore : (traced lib raws).store = captured lib raws :=
    TracedStore.foldl_push_store lib raws {}
  refine ⟨fun raws' hCut => hCut.entries_eq hObjects, ?_, ⟨hStore, fun hPlain => ?_⟩, ?_⟩
  · obtain ⟨hText, -⟩ := foldl_applyDetails_text lib raws {}
    rw [hText]
    exact String.empty_append
  · have hBlocks : BlocksOk (traced lib raws) := BlocksOk.start.foldl_push lib hPlain
    refine ⟨hStore ▸ hBlocks.entries, ?_, hBlocks.apart⟩
    intro block hBlock a ha b hb key hKey
    exact hBlocks.not_differ hBlock ha hb hKey
  · have hStart : EntriesOk {} := ⟨slotsOk_start, by simp⟩
    intro artifact hFinish
    exact finish_replays (hStart.foldl_push hObjects) hFinish

/-! ## Where the capture falls short -/

/-- `serde_json` on a text without a character it escapes. -/
def quotedBytes (text : String) : Bytes := 34 :: text.toUTF8.data.toList ++ [34]

/-- `serde_json` on a text or a truth value. -/
def plainBytes : Json → Bytes
  | .str text => quotedBytes text
  | .bool true => "true".toUTF8.data.toList
  | .bool false => "false".toUTF8.data.toList
  | _ => []

/-- `serde_json` on an object of such values. -/
def entryBytes : Json → Bytes
  | .obj fields =>
      123 :: [(44 : UInt8)].intercalate (fields.map fun field =>
        quotedBytes field.1 ++ 58 :: plainBytes field.2) ++ [125]
  | v => plainBytes v

/-- `serde_json` on an array of such objects. -/
def arrayBytes : Json → Bytes
  | .arr items => 91 :: [(44 : UInt8)].intercalate (items.map entryBytes) ++ [93]
  | v => entryBytes v

def textJson : JsonLib := ⟨fun _ => none, arrayBytes, fun _ => none⟩

def textBlock (text : String) : Json :=
  .obj [("text", .str text), ("type", .str "reasoning.text")]

def identifiedBlock (id : Json) (text : String) : Json :=
  .obj [("id", id), ("text", .str text), ("type", .str "reasoning.text")]

def signedBlock (signature text : String) : Json :=
  .obj [("signature", .str signature), ("text", .str text), ("type", .str "reasoning.text")]

theorem isObject_signedBlock (signature text : String) :
    IsObject (signedBlock signature text) := by
  have hText : "signature" < "text" := by decide
  have hType : "signature" < "type" := by decide
  have hBoth : "text" < "type" := by decide
  refine ⟨_, rfl, List.pairwise_cons.mpr ⟨?_, List.pairwise_pair.mpr hBoth⟩⟩
  intro field hField
  rcases List.mem_pair.mp hField with rfl | rfl
  · exact hText
  · exact hType

theorem signedBlock_withText (signature text text' : String) :
    (signedBlock signature text).withText .text text' = signedBlock signature text' := by
  have hBefore : ¬ "text" < "signature" := by decide
  have hBehind : "signature" < "text" := by decide
  have hSame : ¬ "text" < "text" := lt_irrefl _
  change Json.obj (OrdMap.insertEntry "text" (.str text') [("signature", .str signature),
    ("text", .str text), ("type", .str "reasoning.text")]) = _
  rw [OrdMap.insertEntry, if_neg hBefore, if_pos hBehind, OrdMap.insertEntry, if_neg hSame,
    if_neg hSame]
  rfl

/-- A signature of `2 ^ n` letters. -/
def longSignature : Nat → String
  | 0 => "a"
  | n + 1 => longSignature n ++ longSignature n

theorem length_longSignature (n : Nat) : (longSignature n).toUTF8.data.toList.length = 2 ^ n := by
  induction n with
  | zero => rfl
  | succ n ih =>
    have hAppend : (longSignature (n + 1)).toUTF8.data.toList =
        (longSignature n).toUTF8.data.toList ++ (longSignature n).toUTF8.data.toList := by
      simp [longSignature]
    rw [hAppend, List.length_append, ih, Nat.pow_succ]
    omega

theorem length_quotedBytes (text : String) :
    (quotedBytes text).length = text.toUTF8.data.toList.length + 2 := by
  simp [quotedBytes]

theorem length_signedBlock (signature text : String) :
    (textJson.toVec (signedBlock signature text)).length =
      signature.toUTF8.data.toList.length + text.toUTF8.data.toList.length + 50 := by
  have hBytes : textJson.toVec (signedBlock signature text) =
      123 :: [(44 : UInt8)].intercalate
        [quotedBytes "signature" ++ 58 :: quotedBytes signature,
          quotedBytes "text" ++ 58 :: quotedBytes text,
          quotedBytes "type" ++ 58 :: quotedBytes "reasoning.text"] ++ [125] := rfl
  have hNames : (quotedBytes "signature").length = 11 ∧ (quotedBytes "text").length = 6 ∧
      (quotedBytes "type").length = 6 ∧ (quotedBytes "reasoning.text").length = 16 := by
    decide
  obtain ⟨hSignature, hText, hType, hTag⟩ := hNames
  rw [hBytes]
  simp only [List.intercalate, List.intersperse, List.flatten_cons, List.flatten_nil,
    List.length_append, List.length_cons, List.length_nil, hSignature, hText, hType, hTag,
    length_quotedBytes]
  omega

theorem pushEntry_signedBlock {text : String} {size : Nat} (hKept : s.overflowed = false)
    (hSize : (textJson.toVec (signedBlock signature text)).length = size) :
    s.pushEntry textJson (signedBlock signature text) =
      if maxReasoningBytes < min (s.bytes + size) usizeMax then
        { s with bytes := min (s.bytes + size) usizeMax, overflowed := true }
      else
        ({ s with bytes := min (s.bytes + size) usizeMax } : DetailsStore).place
          (signedBlock signature text) := by
  have hTag : (signedBlock signature text).typeTag.isNone = false := rfl
  rw [DetailsStore.pushEntry, hTag, hKept, Bool.or_self, if_neg Bool.false_ne_true, hSize]

theorem push_single (lib : JsonLib) (s : DetailsStore) (entry : Json) :
    s.push lib (.arr [entry]) = ({ s with delta := s.delta + 1 } : DetailsStore).pushEntry lib entry :=
  rfl

theorem push_signedBlock {text : String} {size : Nat}
    (hSize : (textJson.toVec (signedBlock signature text)).length = size)
    (hFits : size ≤ maxReasoningBytes) :
    ({} : DetailsStore).push textJson (.arr [signedBlock signature text]) =
      { entries := [signedBlock signature text], entryDelta := [1],
        slots := [((.text, none), 0)], delta := 1, bytes := min (0 + size) usizeMax } := by
  have hStart : ({ delta := 0 + 1 } : DetailsStore).overflowed = false := rfl
  have hPushed := pushEntry_signedBlock hStart hSize
  rw [if_neg (by change ¬ maxReasoningBytes < min (0 + size) usizeMax; omega)] at hPushed
  rw [push_single, hPushed]
  rfl

/-- The block in one piece. -/
def wholeStream (signature : String) : List Json := [.arr [signedBlock signature "ab"]]

/-- The block in two pieces, which both bring its signature. -/
def cutStream (signature : String) : List Json :=
  [.arr [signedBlock signature "a"], .arr [signedBlock signature "b"]]

theorem refragments_cutStream (signature : String) :
    Refragments textJson (wholeStream signature) (cutStream signature) := by
  have hKind : textualKind (signedBlock signature "ab") = some .text := rfl
  have hText : (signedBlock signature "ab").get "text" = some (.str ("a" ++ "b")) := rfl
  have hCut := Cut.apart [] [] [] [] [] _ _ "a" "b" hKind hText (by simp)
  rw [signedBlock_withText, signedBlock_withText] at hCut
  exact Relation.ReflTransGen.single hCut

theorem finish_wholeStream (hFits : signature.toUTF8.data.toList.length + 54 ≤ maxReasoningBytes) :
    (captured textJson (wholeStream signature)).entries = [signedBlock signature "ab"] ∧
      ((captured textJson (wholeStream signature)).finish textJson).isSome := by
  have hLength := length_signedBlock signature "ab"
  have hTwo : "ab".toUTF8.data.toList.length = 2 := by decide
  rw [hTwo] at hLength
  have hRun : captured textJson (wholeStream signature) =
      ({} : DetailsStore).push textJson (.arr [signedBlock signature "ab"]) := by
    rw [captured, wholeStream, List.foldl_cons, List.foldl_nil]
  have hArray : (textJson.toVec (.arr [signedBlock signature "ab"])).length =
      (textJson.toVec (signedBlock signature "ab")).length + 2 := by
    change (91 :: [(44 : UInt8)].intercalate [entryBytes (signedBlock signature "ab")] ++
      [93]).length = (entryBytes (signedBlock signature "ab")).length + 2
    simp
  rw [hRun, push_signedBlock hLength (by omega), DetailsStore.finish]
  refine ⟨rfl, ?_⟩
  simp only [List.isEmpty_cons, Bool.or_self, Bool.false_eq_true, if_false]
  rw [if_neg (by rw [hArray, hLength]; omega)]
  rfl

theorem finish_cutStream (hFits : signature.toUTF8.data.toList.length + 51 ≤ maxReasoningBytes)
    (hOver : maxReasoningBytes < 2 * (signature.toUTF8.data.toList.length + 51)) :
    (captured textJson (cutStream signature)).entries = [signedBlock signature "a"] ∧
      (captured textJson (cutStream signature)).finish textJson = none := by
  have hLength : ∀ text : String, text.toUTF8.data.toList.length = 1 →
      (textJson.toVec (signedBlock signature text)).length =
        signature.toUTF8.data.toList.length + 51 := by
    intro text hText
    rw [length_signedBlock, hText]
  have hA := hLength "a" (by decide)
  have hB := hLength "b" (by decide)
  generalize signature.toUTF8.data.toList.length + 51 = size at *
  have hSize : maxReasoningBytes < usizeMax := by decide
  have hRun : captured textJson (cutStream signature) =
      (({} : DetailsStore).push textJson (.arr [signedBlock signature "a"])).push textJson
        (.arr [signedBlock signature "b"]) := by
    rw [captured, cutStream, List.foldl_cons, List.foldl_cons, List.foldl_nil]
  have hSecond := @pushEntry_signedBlock
    { entries := [signedBlock signature "a"], entryDelta := [1], slots := [((.text, none), 0)],
      delta := 1 + 1, bytes := min (0 + size) usizeMax } signature "b" size rfl hB
  rw [if_pos (by
    change maxReasoningBytes < min (min (0 + size) usizeMax + size) usizeMax
    omega)] at hSecond
  rw [hRun, push_signedBlock hA hFits, push_single, hSecond]
  exact ⟨rfl, rfl⟩

/-- Reads the captured array of the signed block back. -/
def textWire : WireLib where
  fromSlice bytes :=
    if bytes = arrayBytes (.arr [signedBlock "s" "ab"]) then some (.arr [signedBlock "s" "ab"])
    else none
  base64Encode _ := ""

theorem plainEntry_signedBlock (signature text : String) :
    PlainEntry (signedBlock signature text) := by
  refine ⟨isObject_signedBlock signature text, ?_⟩
  intro key hKey
  simp only [identityKeys, List.mem_cons, List.not_mem_nil, or_false] at hKey
  rcases hKey with rfl | rfl | rfl
  · exact Or.inl rfl
  · exact Or.inl rfl
  · exact Or.inr (Or.inr ⟨signature, rfl⟩)

theorem details_captured_signed :
    (captured textJson (cutStream "s")).entries = (captured textJson (wholeStream "s")).entries ∧
      BlocksApart (traced textJson (wholeStream "s")).blocks ∧
      List.Forall₂ ReplayOf [signedBlock "s" "ab"]
        (detailsWireValue textWire (textJson.toVec (.arr [signedBlock "s" "ab"]))) := by
  have hEntries : (wholeStream "s").flatMap (typedEntries textJson) = [signedBlock "s" "ab"] := rfl
  have hOne : "s".toUTF8.data.toList.length = 1 := by decide
  have hCap : maxReasoningBytes = 262144 := rfl
  obtain ⟨hCut, -, ⟨-, hTrace⟩, hReplay⟩ := details_captured textJson textWire (wholeStream "s") (by
    rw [hEntries]
    exact fun entry hEntry => List.mem_singleton.mp hEntry ▸ isObject_signedBlock "s" "ab")
  obtain ⟨hStored, hSome⟩ := @finish_wholeStream "s" (by rw [hOne, hCap]; decide)
  obtain ⟨artifact, hArtifact⟩ := Option.isSome_iff_exists.mp hSome
  refine ⟨hCut _ (refragments_cutStream "s") (by decide) (by decide), ?_, ?_⟩
  · refine (hTrace ?_).2
    rw [hEntries]
    exact fun entry hEntry => List.mem_singleton.mp hEntry ▸ plainEntry_signedBlock "s" "ab"
  · obtain ⟨-, -, hBack⟩ := hReplay artifact hArtifact
    rw [hStored] at hBack
    exact hBack (by simp [textWire, textJson])

/-- The bytes are counted before the pieces are merged, so a block in more pieces can
trip the cap. Two blocks of one delta are merged into one of an earlier delta, and
identities that are no texts are not compared. -/
theorem cut_block_trips_cap :
    (Refragments textJson (wholeStream (longSignature 17)) (cutStream (longSignature 17)) ∧
      (captured textJson (wholeStream (longSignature 17))).entries =
        [signedBlock (longSignature 17) "ab"] ∧
      ((captured textJson (wholeStream (longSignature 17))).finish textJson).isSome ∧
      (captured textJson (cutStream (longSignature 17))).entries =
        [signedBlock (longSignature 17) "a"] ∧
      (captured textJson (cutStream (longSignature 17))).finish textJson = none) ∧
    (captured textJson [.arr [textBlock "a"], .arr [textBlock "b", textBlock "c"]]).entries =
      [textBlock "abc"] ∧
    (captured textJson [.arr [identifiedBlock (.bool true) "a"],
        .arr [identifiedBlock (.str "x") "b"], .arr [identifiedBlock (.str "y") "c"]]).entries =
      [identifiedBlock (.bool true) "abc"] := by
  have hLength := length_longSignature 17
  have hCap : maxReasoningBytes = 262144 := rfl
  obtain ⟨hWhole, hFinish⟩ :=
    @finish_wholeStream (longSignature 17) (by rw [hLength, hCap]; decide)
  obtain ⟨hCut, hNone⟩ := @finish_cutStream (longSignature 17)
    (by rw [hLength, hCap]; decide) (by rw [hLength, hCap]; decide)
  exact ⟨⟨refragments_cutStream _, hWhole, hFinish, hCut, hNone⟩, rfl, rfl⟩

end Choreographr.Protocols
