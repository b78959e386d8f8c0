import Choreographr.Catalog.Maintenance
import Choreographr.Catalog.Proofs.Overlay

/-!
# Coherence of the catalog, the cache and the etag

The base that the command loop runs is the one it retains in memory or else the one on the disk,
so the live catalog is always the merge of the last accepted base and the last overlay. An etag in
memory belongs to the last fetch that is still queued, to the cache file, or is about to be dropped
by a queued notice; an etag in the database belongs to the cache file unless the two writes of a
persist were cut apart.
-/

namespace Choreographr.Catalog

open Lib

variable {base : List ProviderEntry} {disk : Disk} {writeOk : Bool}

/-! ## What the outputs say -/

def acceptedAfter (emb : Embedded) (base : List ProviderEntry) : Output → List ProviderEntry
  | .accepted base' => base'
  | .started => emb.base
  | _ => base

def handedAfter (userOverlay : Option String) : Output → Option String
  | .handed userOverlay' => userOverlay'
  | .started => none
  | _ => userOverlay

/-- The base of the last swap; a daemon starts on the embedded one. -/
def lastAccepted (emb : Embedded) (os : List Output) : List ProviderEntry :=
  os.foldl (acceptedAfter emb) emb.base

/-- The last overlay handed over since the daemon has started. -/
def lastHanded (os : List Output) : Option String := os.foldl handedAfter none

/-- The base was served with an etag that reads like this one. -/
def Describes (os : List Output) (etag : String) (base : List ProviderEntry) : Prop :=
  ∃ raw, .fetched base (some raw) ∈ os ∧ (etag = raw ∨ etag = trimmed raw)

def Output.Quiet (o : Output) : Prop :=
  (∀ emb base, acceptedAfter emb base o = base) ∧ ∀ overlay, handedAfter overlay o = overlay

theorem lastAccepted_quiet {emb : Embedded} {os es : List Output} (h : ∀ o ∈ es, o.Quiet) :
    lastAccepted emb (os ++ es) = lastAccepted emb os := by
  unfold lastAccepted
  rw [List.foldl_append]
  generalize os.foldl (acceptedAfter emb) emb.base = base
  induction es with
  | nil => rfl
  | cons o es ih =>
    rw [List.foldl_cons, (h o List.mem_cons_self).1]
    exact ih fun o' hMem => h o' (List.mem_cons_of_mem o hMem)

theorem lastHanded_quiet {os es : List Output} (h : ∀ o ∈ es, o.Quiet) :
    lastHanded (os ++ es) = lastHanded os := by
  unfold lastHanded
  rw [List.foldl_append]
  generalize os.foldl handedAfter none = overlay
  induction es with
  | nil => rfl
  | cons o es ih =>
    rw [List.foldl_cons, (h o List.mem_cons_self).2]
    exact ih fun o' hMem => h o' (List.mem_cons_of_mem o hMem)

theorem quiet_map {ρ : Type} {rs : List ρ} {f : ρ → Nat} {g : ρ → Reply} :
    ∀ o ∈ rs.map fun r => Output.reply (f r) (g r), o.Quiet := by
  intro o hMem
  obtain ⟨r, -, rfl⟩ := List.mem_map.mp hMem
  exact ⟨fun _ _ => rfl, fun _ => rfl⟩

theorem quiet_sendCatalogReply (reply : List RefreshRequester) (providers models : Nat) :
    ∀ o ∈ sendCatalogReply reply providers models, o.Quiet := quiet_map

theorem Describes.mono {os es : List Output} {etag : String} (h : Describes os etag base) :
    Describes (os ++ es) etag base := by
  obtain ⟨raw, hMem, hEtag⟩ := h
  exact ⟨raw, List.mem_append_left es hMem, hEtag⟩

/-! ## The merge of a base that is not empty -/

theorem mergeOverlay_ne_nil {fromStr : String → Option Document} (h : base ≠ [])
    (overlaySrc : String) : mergeOverlay fromStr base overlaySrc ≠ [] := by
  obtain ⟨kept, added, hEq, hKept, -⟩ := mergeOverlay_framed fromStr base overlaySrc
  rw [hEq]
  intro hNil
  have hLength := hKept.length_eq
  rw [(List.append_eq_nil_iff.mp hNil).1, List.length_nil] at hLength
  exact h (List.length_eq_zero_iff.mp hLength)

theorem mergeCatalogLayers_ne_nil {emb : Embedded} (h : base ≠ []) (userOverlay : Option String) :
    mergeCatalogLayers emb base userOverlay ≠ [] := by
  cases userOverlay with
  | none => exact mergeOverlay_ne_nil h emb.overlaySrc
  | some overlay => exact mergeOverlay_ne_nil (mergeOverlay_ne_nil h emb.overlaySrc) overlay

/-! ## The invariant -/

/-- The base and etag of a queued fetch. -/
def Command.fetch? : Command → Option (List ProviderEntry × Option String)
  | .catalogBaseChanged base etag _ true _ => some (base, etag)
  | _ => none

/-- The last fetch that the command loop has still to handle. -/
def System.lastFetch (s : System) : Option (List ProviderEntry × Option String) :=
  (s.commands.filterMap Command.fetch?).getLast?

/-- The command that a starting daemon handles first. -/
def Command.IsStart (emb : Embedded) (disk : Disk) (c : Command) : Prop :=
  ∃ etag userOverlay,
    c = .catalogBaseChanged (loadPersistedBase emb disk) etag userOverlay false []

/-- The command loop runs the base it accepted last, or has not been told of it yet. -/
def System.RunsAccepted (emb : Embedded) (os : List Output) (s : System) : Prop :=
  (s.loop.catalogAppliedBase = none ∧ s.loop.storing = none ∧
    ∃ c rest, s.commands = c :: rest ∧ c.IsStart emb s.disk ∧
      ∀ c' ∈ rest, ∀ base etag overlay reply, c' ≠ .catalogBaseChanged base etag overlay false reply) ∨
  (lastAccepted emb os = s.loop.catalogAppliedBase.getD (loadPersistedBase emb s.disk) ∧
      ∀ c' ∈ s.commands, ∀ base etag overlay reply,
        c' ≠ .catalogBaseChanged base etag overlay false reply)

structure System.Sound (emb : Embedded) (os : List Output) (s : System) : Prop where
  live : s.loop.live = mergeCatalogLayers emb (lastAccepted emb os) (lastHanded os)
  runs : s.RunsAccepted emb os
  bases : ∀ base etag overlay persist reply,
    .catalogBaseChanged base etag overlay persist reply ∈ s.commands → base ≠ []
  applied : ∀ base, s.loop.catalogAppliedBase = some base → base ≠ []
  cache : ∀ base, s.disk.cache = some base → base ≠ []

/-- A command that the maintenance thread may send after its first one. -/
def Command.Posted (c : Command) : Prop :=
  ∀ base etag overlay persist reply, c = .catalogBaseChanged base etag overlay persist reply →
    persist = true ∧ base ≠ []

theorem Command.Posted.not_start {c : Command} (h : c.Posted) (base : List ProviderEntry)
    (etag overlay : Option String) (reply : List RefreshRequester) :
    c ≠ .catalogBaseChanged base etag overlay false reply := by
  intro hEq
  exact absurd (h _ _ _ _ _ hEq).1 (by simp)

variable {emb : Embedded} {os es : List Output} {s s' : System}

namespace System

/-! ### The maintenance thread only posts -/

/-- A step that leaves the command loop and the disk alone and posts commands. -/
theorem Sound.post (h : s.Sound emb os) (hLoop : s'.loop = s.loop) (hDisk : s'.disk = s.disk)
    {cs : List Command} (hCommands : s'.commands = s.commands ++ cs) (hPosted : ∀ c ∈ cs, c.Posted)
    (hQuiet : ∀ o ∈ es, o.Quiet) : s'.Sound emb (os ++ es) := by
  constructor
  · rw [hLoop, lastAccepted_quiet hQuiet, lastHanded_quiet hQuiet]
    exact h.live
  · unfold RunsAccepted
    rw [hLoop, hDisk, hCommands, lastAccepted_quiet hQuiet]
    rcases h.runs with ⟨hApplied, hStoring, c, rest, hHead, hStart, hRest⟩ | ⟨hAccepted, hRest⟩
    · refine Or.inl ⟨hApplied, hStoring, c, rest ++ cs, by rw [hHead]; rfl, hStart, ?_⟩
      intro c' hMem
      rcases List.mem_append.mp hMem with hOld | hNew
      · exact hRest c' hOld
      · intro base etag overlay reply
        exact (hPosted c' hNew).not_start base etag overlay reply
    · refine Or.inr ⟨hAccepted, ?_⟩
      intro c' hMem
      rcases List.mem_append.mp hMem with hOld | hNew
      · exact hRest c' hOld
      · intro base etag overlay reply
        exact (hPosted c' hNew).not_start base etag overlay reply
  · rw [hCommands]
    intro base etag overlay persist reply hMem
    rcases List.mem_append.mp hMem with hOld | hNew
    · exact h.bases base etag overlay persist reply hOld
    · exact (hPosted _ hNew _ _ _ _ _ rfl).2
  · rw [hLoop]
    exact h.applied
  · rw [hDisk]
    exact h.cache

theorem Sound.keep (h : s.Sound emb os) (hLoop : s'.loop = s.loop) (hDisk : s'.disk = s.disk)
    (hCommands : s'.commands = s.commands) (hQuiet : ∀ o ∈ es, o.Quiet) :
    s'.Sound emb (os ++ es) :=
  h.post hLoop hDisk (hCommands.trans (List.append_nil _).symm)
    (fun _ hMem => absurd hMem List.not_mem_nil) hQuiet

theorem posted_overlayChanged (userOverlay : Option String) :
    (Command.catalogOverlayChanged userOverlay).Posted := by
  intro _ _ _ _ _ hEq
  cases hEq

theorem posted_notModified (reply : List RefreshRequester) :
    (Command.catalogNotModified reply).Posted := by
  intro _ _ _ _ _ hEq
  cases hEq

/-- A reload posts at most an overlay change. -/
theorem reloadUserOverlay_spec (s : System) (overlay : OverlayRead) :
    (reloadUserOverlay s overlay).loop = s.loop ∧ (reloadUserOverlay s overlay).disk = s.disk ∧
      (reloadUserOverlay s overlay).inbox = s.inbox ∧
      (reloadUserOverlay s overlay).maintenance.etag = s.maintenance.etag ∧
      ∃ cs, (reloadUserOverlay s overlay).commands = s.commands ++ cs ∧
        ∀ c ∈ cs, ∃ userOverlay, c = .catalogOverlayChanged userOverlay := by
  cases overlay with
  | failed => exact ⟨rfl, rfl, rfl, rfl, [], by simp [reloadUserOverlay], by simp⟩
  | contents text =>
    by_cases hSame : s.maintenance.lastAppliedUserOverlay = text
    · have hEq : reloadUserOverlay s (.contents text) = s := if_pos hSame
      rw [hEq]
      exact ⟨rfl, rfl, rfl, rfl, [], by simp, by simp⟩
    · have hEq : reloadUserOverlay s (.contents text) =
          { s with
            maintenance := { s.maintenance with lastAppliedUserOverlay := text }
            commands := s.commands ++ [.catalogOverlayChanged text] } := if_neg hSame
      rw [hEq]
      exact ⟨rfl, rfl, rfl, rfl, _, rfl, by simp⟩

/-! ### The command loop -/

theorem lastAccepted_swap (base : List ProviderEntry) (overlay : Option String)
    (hQuiet : ∀ o ∈ es, o.Quiet) :
    lastAccepted emb (os ++ Output.accepted base :: .handed overlay :: es) = base := by
  have hSplit : os ++ Output.accepted base :: Output.handed overlay :: es =
      (os ++ [Output.accepted base, Output.handed overlay]) ++ es := by simp
  rw [hSplit, lastAccepted_quiet hQuiet]
  simp [lastAccepted, acceptedAfter]

theorem lastHanded_swap (base : List ProviderEntry) (overlay : Option String)
    (hQuiet : ∀ o ∈ es, o.Quiet) :
    lastHanded (os ++ Output.accepted base :: .handed overlay :: es) = overlay := by
  have hSplit : os ++ Output.accepted base :: Output.handed overlay :: es =
      (os ++ [Output.accepted base, Output.handed overlay]) ++ es := by simp
  rw [hSplit, lastHanded_quiet hQuiet]
  simp [lastHanded, handedAfter]

/-- What a swap of a base that is not empty leaves. -/
structure Swapped (emb : Embedded) (s : System) (base : List ProviderEntry)
    (overlay : Option String) (write : CacheWrite) (writeOk : Bool) (s' : System)
    (es : List Output) : Prop where
  live : s'.loop.live = mergeCatalogLayers emb base overlay
  maintenance : s'.maintenance = s.maintenance
  commands : s'.commands = s.commands
  outputs : ∃ qs, es = .accepted base :: .handed overlay :: qs ∧ ∀ o ∈ qs, o.Quiet
  writes :
    (write = .skip ∧ s'.disk = s.disk ∧ s'.inbox = s.inbox ∧
      s'.loop.catalogAppliedBase = s.loop.catalogAppliedBase ∧ s'.loop.storing = s.loop.storing) ∨
    (∃ etag, write = .fetch etag ∧ writeOk = true ∧
      s'.disk = { s.disk with cache := some base } ∧ s'.inbox = s.inbox ∧
      s'.loop.catalogAppliedBase = none ∧ ∃ rest, s'.loop.storing = some rest ∧ rest.etag = etag) ∨
    (∃ etag, write = .fetch etag ∧ writeOk = false ∧ s'.disk = s.disk ∧
      s'.inbox = s.inbox ++ [MaintenanceEvent.catalogPersistFailed] ∧
      s'.loop.catalogAppliedBase = some base ∧
      s'.loop.storing = s.loop.storing)

theorem swapped_applyCatalogSwap (emb : Embedded) (s : System) (hBase : base ≠ [])
    (overlay : Option String) (write : CacheWrite) (writeOk : Bool) (reply : List RefreshRequester) :
    Swapped emb s base overlay write writeOk
      (applyCatalogSwap emb s base overlay write writeOk reply).1
      (applyCatalogSwap emb s base overlay write writeOk reply).2 := by
  unfold applyCatalogSwap
  rw [if_neg (mergeCatalogLayers_ne_nil hBase overlay)]
  cases write with
  | skip =>
    exact ⟨rfl, rfl, rfl, ⟨_, rfl, quiet_sendCatalogReply _ _ _⟩, Or.inl ⟨rfl, rfl, rfl, rfl, rfl⟩⟩
  | fetch etag =>
    cases writeOk with
    | true =>
      exact ⟨rfl, rfl, rfl, ⟨[], rfl, by simp⟩,
        Or.inr (Or.inl ⟨etag, rfl, rfl, rfl, rfl, rfl, _, rfl, rfl⟩)⟩
    | false =>
      exact ⟨rfl, rfl, rfl, ⟨_, rfl, quiet_sendCatalogReply _ _ _⟩,
        Or.inr (Or.inr ⟨etag, rfl, rfl, rfl, rfl, rfl, rfl⟩)⟩

theorem loadPersistedBase_ne_nil (h : ∀ base, disk.cache = some base → base ≠ []) :
    loadPersistedBase emb disk ≠ [] := by
  unfold loadPersistedBase
  cases hCache : disk.cache with
  | none => exact emb.base_ne_nil
  | some base => exact h base hCache

/-- The three commands of the loop, each with what it leaves. -/
theorem handle_cases (hBases : ∀ base etag overlay persist reply,
      .catalogBaseChanged base etag overlay persist reply ∈ s.commands → base ≠ [])
    (hRunning : s.loop.catalogAppliedBase.getD (loadPersistedBase emb s.disk) ≠ [])
    (h : s.handle emb writeOk = some (s', es)) :
    s.loop.storing = none ∧ ∃ c rest, s.commands = c :: rest ∧
      ((∃ base etag overlay persist reply,
          c = .catalogBaseChanged base etag overlay persist reply ∧
          Swapped emb { s with commands := rest } base overlay
            (if persist then .fetch etag else .skip) writeOk s' es) ∨
        (∃ overlay, c = .catalogOverlayChanged overlay ∧
          Swapped emb { s with commands := rest }
            (s.loop.catalogAppliedBase.getD (loadPersistedBase emb s.disk)) overlay .skip true
            s' es) ∨
        (∃ reply, c = .catalogNotModified reply ∧ s' = { s with commands := rest } ∧
          ∀ o ∈ es, o.Quiet)) := by
  unfold handle at h
  split at h
  · next base etag overlay persist reply rest hStoring hCommands =>
    have hSwap := swapped_applyCatalogSwap emb { s with commands := rest }
      (hBases base etag overlay persist reply (by rw [hCommands]; exact List.mem_cons_self))
      overlay (if persist then .fetch etag else .skip) writeOk reply
    rw [Option.some.inj h] at hSwap
    exact ⟨hStoring, _, rest, hCommands, Or.inl ⟨base, etag, overlay, persist, reply, rfl, hSwap⟩⟩
  · next overlay rest hStoring hCommands =>
    have hSwap := swapped_applyCatalogSwap emb { s with commands := rest }
      hRunning overlay .skip true []
    change some (applyCatalogSwap emb { s with commands := rest }
      (s.loop.catalogAppliedBase.getD (loadPersistedBase emb s.disk)) overlay .skip true []) = _ at h
    rw [Option.some.inj h] at hSwap
    exact ⟨hStoring, _, rest, hCommands, Or.inr (Or.inl ⟨overlay, rfl, hSwap⟩)⟩
  · next reply rest hStoring hCommands =>
    cases h
    exact ⟨hStoring, _, rest, hCommands, Or.inr (Or.inr ⟨reply, rfl, rfl, quiet_map⟩)⟩
  · cases h

theorem Sound.running_ne_nil (h : s.Sound emb os) :
    s.loop.catalogAppliedBase.getD (loadPersistedBase emb s.disk) ≠ [] := by
  cases hApplied : s.loop.catalogAppliedBase with
  | none => exact loadPersistedBase_ne_nil h.cache
  | some base => exact h.applied base hApplied

/-- A swap makes its base the one the loop runs. -/
theorem Sound.swap (h : s.Sound emb os) {rest : List Command} {overlay : Option String}
    {write : CacheWrite} (hRest : ∀ c' ∈ rest, ∀ base etag overlay reply,
      c' ≠ .catalogBaseChanged base etag overlay false reply)
    (hBases : ∀ base etag overlay persist reply,
      .catalogBaseChanged base etag overlay persist reply ∈ rest → base ≠ []) (hBase : base ≠ [])
    (hSkip : write = .skip →
      base = s.loop.catalogAppliedBase.getD (loadPersistedBase emb s.disk))
    (hSwap : Swapped emb { s with commands := rest } base overlay write writeOk s' es) :
    s'.Sound emb (os ++ es) := by
  obtain ⟨qs, rfl, hQuiet⟩ := hSwap.outputs
  have hRuns : base = s'.loop.catalogAppliedBase.getD (loadPersistedBase emb s'.disk) := by
    rcases hSwap.writes with ⟨hWrite, hDisk, -, hApplied, -⟩ | ⟨etag, -, -, hDisk, -, hApplied, -⟩ |
      ⟨etag, -, -, -, -, hApplied, -⟩
    · rw [hApplied, hDisk]
      exact hSkip hWrite
    · rw [hApplied, hDisk]
      rfl
    · rw [hApplied]
      rfl
  constructor
  · rw [lastAccepted_swap base overlay hQuiet, lastHanded_swap base overlay hQuiet]
    exact hSwap.live
  · refine Or.inr ⟨?_, ?_⟩
    · rw [lastAccepted_swap base overlay hQuiet]
      exact hRuns
    · rw [hSwap.commands]
      exact hRest
  · rw [hSwap.commands]
    exact hBases
  · intro base' hApplied'
    rcases hSwap.writes with ⟨-, -, -, hApplied, -⟩ | ⟨etag, -, -, -, -, hApplied, -⟩ |
      ⟨etag, -, -, -, -, hApplied, -⟩
    · exact h.applied base' (hApplied ▸ hApplied')
    · rw [hApplied] at hApplied'
      cases hApplied'
    · rw [hApplied] at hApplied'
      cases hApplied'
      exact hBase
  · intro base' hCache
    rcases hSwap.writes with ⟨-, hDisk, -⟩ | ⟨etag, -, -, hDisk, -⟩ | ⟨etag, -, -, hDisk, -⟩
    · exact h.cache base' (hDisk ▸ hCache)
    · rw [hDisk] at hCache
      cases hCache
      exact hBase
    · exact h.cache base' (hDisk ▸ hCache)

theorem Sound.accepted_of_head (h : s.Sound emb os) (hCommands : s.commands = c :: rest)
    (hOther : ¬c.IsStart emb s.disk) :
    lastAccepted emb os = s.loop.catalogAppliedBase.getD (loadPersistedBase emb s.disk) ∧
      ∀ c' ∈ s.commands, ∀ base etag overlay reply,
        c' ≠ .catalogBaseChanged base etag overlay false reply := by
  rcases h.runs with ⟨-, -, c', rest', hHead, hStart, -⟩ | hRuns
  · rw [hCommands] at hHead
    rw [← (List.cons.inj hHead).1] at hStart
    exact absurd hStart hOther
  · exact hRuns

theorem Sound.handle (h : s.Sound emb os) (hStep : s.handle emb writeOk = some (s', es)) :
    s'.Sound emb (os ++ es) := by
  obtain ⟨hStoring, c, rest, hCommands, hCases⟩ := handle_cases h.bases h.running_ne_nil hStep
  have hBases : ∀ base etag overlay persist reply,
      .catalogBaseChanged base etag overlay persist reply ∈ rest → base ≠ [] := by
    intro base etag overlay persist reply hMem
    refine h.bases base etag overlay persist reply ?_
    rw [hCommands]
    exact List.mem_cons_of_mem c hMem
  have hTail : (∀ c' ∈ s.commands, ∀ base etag overlay reply,
        c' ≠ .catalogBaseChanged base etag overlay false reply) →
      ∀ c' ∈ rest, ∀ base etag overlay reply,
        c' ≠ .catalogBaseChanged base etag overlay false reply := by
    intro hAll c' hMem
    rw [hCommands] at hAll
    exact hAll c' (List.mem_cons_of_mem _ hMem)
  rcases hCases with ⟨base, etag, overlay, persist, reply, rfl, hSwap⟩ | ⟨overlay, rfl, hSwap⟩ |
    ⟨reply, rfl, rfl, hQuiet⟩
  · have hBase := h.bases base etag overlay persist reply
      (by rw [hCommands]; exact List.mem_cons_self)
    rcases h.runs with ⟨hApplied, -, c, rest', hHead, ⟨etag', overlay', hStart⟩, hRest⟩ |
      ⟨hAccepted, hRest⟩
    · rw [hCommands] at hHead
      obtain ⟨rfl, rfl⟩ := List.cons.inj hHead
      cases hStart
      refine h.swap hRest hBases hBase (fun _ => ?_) hSwap
      rw [hApplied]
      rfl
    · refine h.swap (hTail hRest) hBases hBase (fun hSkip => ?_) hSwap
      cases persist with
      | true => cases hSkip
      | false =>
        exact absurd rfl (hRest _ (by rw [hCommands]; exact List.mem_cons_self) base etag overlay
          reply)
  · obtain ⟨-, hRest⟩ := h.accepted_of_head hCommands (by rintro ⟨_, _, hEq⟩; cases hEq)
    exact h.swap (hTail hRest) hBases h.running_ne_nil (fun _ => rfl) hSwap
  · obtain ⟨hAccepted, hRest⟩ := h.accepted_of_head hCommands (by rintro ⟨_, _, hEq⟩; cases hEq)
    constructor
    · rw [lastAccepted_quiet hQuiet, lastHanded_quiet hQuiet]
      exact h.live
    · refine Or.inr ⟨?_, hTail hRest⟩
      rw [lastAccepted_quiet hQuiet]
      exact hAccepted
    · exact hBases
    · exact h.applied
    · exact h.cache

theorem Sound.storeEtag {ok : Bool} (h : s.Sound emb os)
    (hStep : s.storeEtag ok = some (s', es)) : s'.Sound emb (os ++ es) := by
  obtain ⟨rest, hStoring, hEq⟩ := Option.map_eq_some_iff.mp hStep
  cases hEq
  have hQuiet := quiet_sendCatalogReply rest.reply rest.providers rest.models
  rcases h.runs with ⟨-, hNone, -⟩ | ⟨hAccepted, hRest⟩
  · rw [hStoring] at hNone
    cases hNone
  · constructor
    · rw [lastAccepted_quiet hQuiet, lastHanded_quiet hQuiet]
      exact h.live
    · refine Or.inr ⟨?_, hRest⟩
      rw [lastAccepted_quiet hQuiet]
      exact hAccepted
    · exact h.bases
    · exact h.applied
    · exact h.cache

theorem sound_start (hCache : ∀ base, disk.cache = some base → base ≠ [])
    (hAccepted : lastAccepted emb os = emb.base) (hHanded : lastHanded os = none)
    (overlay : OverlayRead) (etagRead fetchNow : Bool) :
    (start emb disk overlay etagRead fetchNow).Sound emb os := by
  constructor
  · rw [hAccepted, hHanded]
    rfl
  · exact Or.inl ⟨rfl, rfl, _, [], rfl, ⟨_, _, rfl⟩, by simp⟩
  · intro base etag overlay' persist reply hMem
    cases List.mem_singleton.mp hMem
    exact loadPersistedBase_ne_nil hCache
  · intro base hApplied
    cases hApplied
  · exact hCache

/-! ### Every step -/

theorem receive_cases {overlay : OverlayRead} (h : s.receive overlay = some (s', es)) :
    es = [] ∧ s.maintenance.fetching = none ∧
      ((∃ force reply rest, s.inbox = .refreshNow force reply :: rest ∧
          ∃ anyForce replies rest', foldRefreshNows rest force [⟨force, reply⟩] =
              (anyForce, replies, rest') ∧
            s' = { reloadUserOverlay s overlay with
              maintenance := { (reloadUserOverlay s overlay).maintenance with
                fetching := some (anyForce, replies) }
              inbox := rest' }) ∨
        (∃ rest, s.inbox = .catalogPersistFailed :: rest ∧
          s' = { s with maintenance := { s.maintenance with etag := none }, inbox := rest })) := by
  unfold receive at h
  split at h
  · next force reply rest hFetching hInbox =>
    cases h
    exact ⟨rfl, hFetching, Or.inl ⟨force, reply, rest, hInbox, _, _, _, rfl, rfl⟩⟩
  · next rest hFetching hInbox =>
    cases h
    exact ⟨rfl, hFetching, Or.inr ⟨rest, hInbox, rfl⟩⟩
  · cases h

/-- The end of a GET: nothing new, or the fetch is queued and its etag adopted. -/
theorem fetched_cases {outcome : FetchOutcome} (h : s.fetched outcome = some (s', es)) :
    s'.loop = s.loop ∧ s'.disk = s.disk ∧ s'.inbox = s.inbox ∧
      ((s'.maintenance.etag = s.maintenance.etag ∧ (∀ o ∈ es, o.Quiet) ∧
          (s'.commands = s.commands ∨
            ∃ reply, s'.commands = s.commands ++ [Command.catalogNotModified reply])) ∨
        (∃ base etag overlay reply, base ≠ [] ∧ s'.maintenance.etag = etag ∧
          es = [.fetched base etag] ∧
          s'.commands = s.commands ++ [Command.catalogBaseChanged base etag overlay true reply])) := by
  obtain ⟨⟨force, reply⟩, hFetching, hEq⟩ := Option.map_eq_some_iff.mp h
  cases outcome with
  | notModified =>
    by_cases hEmpty : reply.isEmpty
    · simp only [hEmpty, if_true] at hEq
      cases hEq
      exact ⟨rfl, rfl, rfl, Or.inl ⟨rfl, by simp, Or.inl rfl⟩⟩
    · simp only [hEmpty, Bool.false_eq_true, if_false] at hEq
      cases hEq
      exact ⟨rfl, rfl, rfl, Or.inl ⟨rfl, by simp, Or.inr ⟨_, rfl⟩⟩⟩
  | fetched base etag =>
    by_cases hBase : base = []
    · simp only [hBase, if_true] at hEq
      cases hEq
      exact ⟨rfl, rfl, rfl, Or.inl ⟨rfl, quiet_map, Or.inl rfl⟩⟩
    · simp only [hBase, if_false] at hEq
      cases hEq
      exact ⟨rfl, rfl, rfl, Or.inr ⟨base, etag, _, reply, hBase, rfl, rfl, rfl⟩⟩
  | error text =>
    cases hEq
    exact ⟨rfl, rfl, rfl, Or.inl ⟨rfl, quiet_map, Or.inl rfl⟩⟩

theorem quiet_fetched (base : List ProviderEntry) (etag : Option String) :
    ∀ o ∈ [Output.fetched base etag], o.Quiet := by
  intro o hMem
  cases List.mem_singleton.mp hMem
  exact ⟨fun _ _ => rfl, fun _ => rfl⟩

theorem Sound.step {a : Action} (h : s.Sound emb os) (hStep : s.step emb a = some (s', es)) :
    s'.Sound emb (os ++ es) := by
  cases a with
  | requestRefresh force reply =>
    change (if s.loop.storing = none then _ else none) = _ at hStep
    split at hStep
    · cases hStep
      exact h.keep rfl rfl rfl (by simp)
    · cases hStep
  | receive overlay =>
    obtain ⟨hLoop, hDisk, -, -, cs, hCommands, hPosted⟩ := reloadUserOverlay_spec s overlay
    obtain ⟨rfl, -, ⟨_, _, _, -, _, _, _, -, rfl⟩ | ⟨_, -, rfl⟩⟩ := receive_cases hStep
    · refine h.post hLoop hDisk hCommands (fun c hMem => ?_) (by simp)
      obtain ⟨userOverlay, rfl⟩ := hPosted c hMem
      exact posted_overlayChanged userOverlay
    · exact h.keep rfl rfl rfl (by simp)
  | overlayEvent overlay =>
    obtain ⟨hLoop, hDisk, -, -, cs, hCommands, hPosted⟩ := reloadUserOverlay_spec s overlay
    change (if s.maintenance.fetching = none then _ else none) = _ at hStep
    split at hStep
    · cases hStep
      refine h.post hLoop hDisk hCommands (fun c hMem => ?_) (by simp)
      obtain ⟨userOverlay, rfl⟩ := hPosted c hMem
      exact posted_overlayChanged userOverlay
    · cases hStep
  | timer =>
    change (if s.maintenance.fetching = none then _ else none) = _ at hStep
    split at hStep
    · cases hStep
      exact h.keep rfl rfl rfl (by simp)
    · cases hStep
  | fetched outcome =>
    obtain ⟨hLoop, hDisk, -, ⟨-, hQuiet, hSame | ⟨reply, hNew⟩⟩ |
      ⟨base, etag, overlay, reply, hBase, -, rfl, hNew⟩⟩ := fetched_cases hStep
    · exact h.keep hLoop hDisk hSame hQuiet
    · refine h.post hLoop hDisk hNew (fun c hMem => ?_) hQuiet
      cases List.mem_singleton.mp hMem
      exact posted_notModified reply
    · refine h.post hLoop hDisk hNew (fun c hMem => ?_) (quiet_fetched base etag)
      cases List.mem_singleton.mp hMem
      intro _ _ _ _ _ hEq
      cases hEq
      exact ⟨rfl, hBase⟩
  | handle writeOk => exact h.handle hStep
  | storeEtag ok => exact h.storeEtag hStep
  | restart overlay etagRead fetchNow =>
    cases hStep
    refine sound_start h.cache ?_ ?_ overlay etagRead fetchNow
    · simp [lastAccepted, acceptedAfter]
    · simp [lastHanded, handedAfter]

end System

/-! ## The etags -/

/-- The requests at the head of a queue are followed by a notice. -/
def endsInNotice : List MaintenanceEvent → Bool
  | .refreshNow _ _ :: rest => endsInNotice rest
  | .catalogPersistFailed :: _ => true
  | [] => false

namespace System

/-- The first event is a request whose burst would swallow a notice. -/
def swallowsNotice (s : System) : Bool :=
  match s.inbox with
  | .refreshNow _ _ :: rest => endsInNotice rest
  | _ => false

/-- No etag of another base is stored while the etag of the cache file is still to be written. -/
def etagPaired (s : System) : Bool :=
  match s.loop.storing with
  | none => true
  | some rest => s.disk.etag.isNone || s.disk.etag == rest.etag

/-- A burst does not swallow the notice that would make the thread drop its etag, and the two
writes of a persist are not cut apart over the etag of another base. -/
def undisturbed (s : System) : Action → Bool
  | .receive _ => s.maintenance.etag.isNone || !s.swallowsNotice
  | .storeEtag ok => ok || s.etagPaired
  | .restart _ _ _ => s.etagPaired
  | _ => true

structure Coherent (os : List Output) (s : System) : Prop where
  pending : ∀ base e overlay reply,
    .catalogBaseChanged base (some e) overlay true reply ∈ s.commands →
      .fetched base (some e) ∈ os
  memory : ∀ e, s.maintenance.etag = some e →
    (∃ base, s.lastFetch = some (base, some e)) ∨
      s.lastFetch = none ∧ (.catalogPersistFailed ∈ s.inbox ∨
        ∃ base, s.disk.cache = some base ∧ Describes os e base ∧
          s.loop.catalogAppliedBase = none)
  durable : s.loop.storing = none → ∀ e, s.disk.etag = some e →
    ∃ base, s.disk.cache = some base ∧ .fetched base (some e) ∈ os
  stored : ∀ rest, s.loop.storing = some rest →
    ∃ base, s.disk.cache = some base ∧ ∀ e, rest.etag = some e → .fetched base (some e) ∈ os

theorem Coherent.durable_of_paired (h : s.Coherent os) (hPaired : s.etagPaired = true) {e : String}
    (hEtag : s.disk.etag = some e) :
    ∃ base, s.disk.cache = some base ∧ .fetched base (some e) ∈ os := by
  cases hStoring : s.loop.storing with
  | none => exact h.durable hStoring e hEtag
  | some rest =>
    obtain ⟨base, hCache, hFetched⟩ := h.stored rest hStoring
    have hSame : s.disk.etag = rest.etag := by
      simpa [etagPaired, hStoring, hEtag] using hPaired
    exact ⟨base, hCache, hFetched e (hSame ▸ hEtag)⟩

theorem lastFetch_append {s s' : System} {cs : List Command} (h : s'.commands = s.commands ++ cs)
    (hOther : ∀ c ∈ cs, c.fetch? = none) : s'.lastFetch = s.lastFetch := by
  have hNil : cs.filterMap Command.fetch? = [] := List.filterMap_eq_nil_iff.mpr hOther
  rw [lastFetch, h, List.filterMap_append, hNil, List.append_nil]
  rfl

/-- A step that leaves the disk, the loop and the etag alone, drops no notice and posts no
fetch. -/
theorem Coherent.post (h : s.Coherent os) (hLoop : s'.loop = s.loop) (hDisk : s'.disk = s.disk)
    (hEtag : s'.maintenance.etag = s.maintenance.etag)
    (hInbox : s.maintenance.etag ≠ none →
      .catalogPersistFailed ∈ s.inbox → .catalogPersistFailed ∈ s'.inbox)
    {cs : List Command} (hCommands : s'.commands = s.commands ++ cs)
    (hOther : ∀ c ∈ cs, c.fetch? = none) : s'.Coherent (os ++ es) := by
  constructor
  · intro base e overlay reply hMem
    rw [hCommands] at hMem
    rcases List.mem_append.mp hMem with hOld | hNew
    · exact List.mem_append_left es (h.pending base e overlay reply hOld)
    · have hBad := hOther _ hNew
      cases hBad
  · intro e he
    rw [hEtag] at he
    rw [lastFetch_append hCommands hOther, hDisk, hLoop]
    rcases h.memory e he with hFetch | ⟨hNone, hNotice | ⟨base, hCache, hDescribes, hApplied⟩⟩
    · exact Or.inl hFetch
    · exact Or.inr ⟨hNone, Or.inl (hInbox (by rw [he]; simp) hNotice)⟩
    · exact Or.inr ⟨hNone, Or.inr ⟨base, hCache, hDescribes.mono, hApplied⟩⟩
  · rw [hLoop, hDisk]
    intro hStoring e he
    obtain ⟨base, hCache, hFetched⟩ := h.durable hStoring e he
    exact ⟨base, hCache, List.mem_append_left es hFetched⟩
  · rw [hLoop, hDisk]
    intro rest hStoring
    obtain ⟨base, hCache, hFetched⟩ := h.stored rest hStoring
    exact ⟨base, hCache, fun e he => List.mem_append_left es (hFetched e he)⟩

theorem Coherent.keep (h : s.Coherent os) (hLoop : s'.loop = s.loop) (hDisk : s'.disk = s.disk)
    (hEtag : s'.maintenance.etag = s.maintenance.etag)
    (hInbox : s.maintenance.etag ≠ none →
      .catalogPersistFailed ∈ s.inbox → .catalogPersistFailed ∈ s'.inbox)
    (hCommands : s'.commands = s.commands) : s'.Coherent (os ++ es) :=
  h.post hLoop hDisk hEtag hInbox (hCommands.trans (List.append_nil _).symm)
    fun _ hMem => absurd hMem List.not_mem_nil

/-- A drain keeps every notice but the one that ends it. -/
theorem notice_mem_fold {rest rest' : List MaintenanceEvent} {any any' : Bool}
    {replies replies' : List RefreshRequester}
    (hFold : foldRefreshNows rest any replies = (any', replies', rest'))
    (hKept : endsInNotice rest = false) (hMem : .catalogPersistFailed ∈ rest) :
    .catalogPersistFailed ∈ rest' := by
  induction rest generalizing any replies with
  | nil => cases hMem
  | cons event rest ih =>
    cases event with
    | refreshNow force reply =>
      rcases List.mem_cons.mp hMem with hBad | hTail
      · cases hBad
      · exact ih hFold hKept hTail
    | catalogPersistFailed => cases hKept

theorem Coherent.receive {overlay : OverlayRead} (h : s.Coherent os)
    (hOk : s.undisturbed (.receive overlay) = true)
    (hStep : s.receive overlay = some (s', es)) : s'.Coherent (os ++ es) := by
  obtain ⟨hLoop, hDisk, -, hEtag, cs, hCommands, hOther⟩ := reloadUserOverlay_spec s overlay
  obtain ⟨rfl, -, ⟨force, reply, rest, hInbox, any, replies, rest', hFold, rfl⟩ |
    ⟨rest, hInbox, rfl⟩⟩ := receive_cases hStep
  · refine h.post hLoop hDisk hEtag ?_ hCommands ?_
    · intro hSome hNotice
      have hKept : endsInNotice rest = false := by
        have hNot : s.swallowsNotice = false := by
          have hIsSome : s.maintenance.etag.isNone = false := by
            simpa [Option.isSome_iff_ne_none] using hSome
          simpa [undisturbed, hIsSome] using hOk
        simpa [swallowsNotice, hInbox] using hNot
      rw [hInbox] at hNotice
      rcases List.mem_cons.mp hNotice with hBad | hTail
      · cases hBad
      · exact notice_mem_fold hFold hKept hTail
    · intro c hMem
      obtain ⟨userOverlay, rfl⟩ := hOther c hMem
      rfl
  · constructor
    · rw [List.append_nil]
      exact h.pending
    · intro e he
      cases he
    · rw [List.append_nil]
      exact h.durable
    · rw [List.append_nil]
      exact h.stored

theorem Coherent.fetched {outcome : FetchOutcome} (h : s.Coherent os)
    (hStep : s.fetched outcome = some (s', es)) : s'.Coherent (os ++ es) := by
  obtain ⟨hLoop, hDisk, hInbox, ⟨hEtag, -, hSame | ⟨reply, hNew⟩⟩ |
    ⟨base, etag, overlay, reply, -, hEtag, rfl, hNew⟩⟩ := fetched_cases hStep
  · exact h.keep hLoop hDisk hEtag (fun _ hMem => hInbox ▸ hMem) hSame
  · refine h.post hLoop hDisk hEtag (fun _ hMem => hInbox ▸ hMem) hNew ?_
    intro c hMem
    cases List.mem_singleton.mp hMem
    rfl
  · constructor
    · intro base' e overlay' reply' hMem
      rw [hNew] at hMem
      rcases List.mem_append.mp hMem with hOld | hLast
      · exact List.mem_append_left _ (h.pending base' e overlay' reply' hOld)
      · cases List.mem_singleton.mp hLast
        exact List.mem_append_right _ List.mem_cons_self
    · intro e he
      refine Or.inl ⟨base, ?_⟩
      rw [hEtag] at he
      rw [lastFetch, hNew, List.filterMap_append, he]
      simp [Command.fetch?]
    · rw [hLoop, hDisk]
      intro hStoring e he
      obtain ⟨base', hCache, hFetched⟩ := h.durable hStoring e he
      exact ⟨base', hCache, List.mem_append_left _ hFetched⟩
    · rw [hLoop, hDisk]
      intro rest hStoring
      obtain ⟨base', hCache, hFetched⟩ := h.stored rest hStoring
      exact ⟨base', hCache, fun e he => List.mem_append_left _ (hFetched e he)⟩

/-- A command that persists nothing. -/
theorem Coherent.skip (h : s.Coherent os) {c : Command} {rest : List Command}
    (hCommands : s.commands = c :: rest) (hOther : c.fetch? = none) (hDisk : s'.disk = s.disk)
    (hInbox : s'.inbox = s.inbox) (hEtag : s'.maintenance = s.maintenance)
    (hApplied : s'.loop.catalogAppliedBase = s.loop.catalogAppliedBase)
    (hStoring : s'.loop.storing = s.loop.storing) (hRest : s'.commands = rest) :
    s'.Coherent (os ++ es) := by
  have hFetch : s'.lastFetch = s.lastFetch := by
    rw [lastFetch, lastFetch, hRest, hCommands, List.filterMap_cons, hOther]
  constructor
  · intro base e overlay reply hMem
    rw [hRest] at hMem
    refine List.mem_append_left es (h.pending base e overlay reply ?_)
    rw [hCommands]
    exact List.mem_cons_of_mem c hMem
  · intro e he
    rw [hEtag] at he
    rw [hFetch, hInbox, hDisk, hApplied]
    rcases h.memory e he with hLast | ⟨hNone, hNotice | ⟨base, hCache, hDescribes, hNoBase⟩⟩
    · exact Or.inl hLast
    · exact Or.inr ⟨hNone, Or.inl hNotice⟩
    · exact Or.inr ⟨hNone, Or.inr ⟨base, hCache, hDescribes.mono, hNoBase⟩⟩
  · rw [hStoring, hDisk]
    intro hNone e he
    obtain ⟨base, hCache, hFetched⟩ := h.durable hNone e he
    exact ⟨base, hCache, List.mem_append_left es hFetched⟩
  · rw [hStoring, hDisk]
    intro rest' hSome
    obtain ⟨base, hCache, hFetched⟩ := h.stored rest' hSome
    exact ⟨base, hCache, fun e he => List.mem_append_left es (hFetched e he)⟩

/-- A fetch is handled: its etag describes the cache file, or a notice is on its way. -/
theorem Coherent.swapFetch (h : s.Coherent os) {etag overlay : Option String}
    {reply : List RefreshRequester} {rest : List Command} (hStoring : s.loop.storing = none)
    (hCommands : s.commands = .catalogBaseChanged base etag overlay true reply :: rest)
    (hSwap : Swapped emb { s with commands := rest } base overlay (.fetch etag) writeOk s' es) :
    s'.Coherent (os ++ es) := by
  have hFetched : ∀ e, etag = some e → .fetched base (some e) ∈ os ++ es := by
    rintro e rfl
    refine List.mem_append_left es (h.pending base e overlay reply ?_)
    rw [hCommands]
    exact List.mem_cons_self
  have hPending : ∀ base e overlay reply,
      .catalogBaseChanged base (some e) overlay true reply ∈ s'.commands →
        .fetched base (some e) ∈ os ++ es := by
    intro base' e overlay' reply' hMem
    rw [hSwap.commands] at hMem
    refine List.mem_append_left es (h.pending base' e overlay' reply' ?_)
    rw [hCommands]
    exact List.mem_cons_of_mem _ hMem
  -- the fetch was the last one queued, or the last one is still queued
  have hMemory : ∀ e, s'.maintenance.etag = some e →
      (∃ base, s'.lastFetch = some (base, some e)) ∨ s'.lastFetch = none ∧ etag = some e := by
    intro e he
    rw [hSwap.maintenance] at he
    have hLast : s.lastFetch = ((base, etag) :: rest.filterMap Command.fetch?).getLast? := by
      rw [lastFetch, hCommands]
      rfl
    have hLast' : s'.lastFetch = (rest.filterMap Command.fetch?).getLast? := by
      rw [lastFetch, hSwap.commands]
    cases hRest : rest.filterMap Command.fetch? with
    | nil =>
      rw [hRest, List.getLast?_singleton] at hLast
      rcases h.memory e he with ⟨base', hFetch⟩ | ⟨hNone, -⟩
      · rw [hLast] at hFetch
        cases hFetch
        exact Or.inr ⟨by rw [hLast', hRest]; rfl, rfl⟩
      · rw [hLast] at hNone
        cases hNone
    | cons f fs =>
      rw [hRest, List.getLast?_cons_cons] at hLast
      rw [hRest] at hLast'
      rcases h.memory e he with ⟨base', hFetch⟩ | ⟨hNone, -⟩
      · exact Or.inl ⟨base', hLast'.trans (hLast.symm.trans hFetch)⟩
      · rw [hLast] at hNone
        exact absurd hNone (by simp)
  rcases hSwap.writes with ⟨hSkip, -⟩ | ⟨etag', hWrite, -, hDisk, hInbox, hApplied, left, hLeft, hEtag⟩ |
    ⟨etag', hWrite, -, hDisk, hInbox, hApplied, hSame⟩
  · cases hSkip
  · cases hWrite
    refine ⟨hPending, ?_, ?_, ?_⟩
    · intro e he
      rcases hMemory e he with hFetch | ⟨hNone, hSome⟩
      · exact Or.inl hFetch
      · refine Or.inr ⟨hNone, Or.inr ⟨base, ?_, ⟨e, hFetched e hSome, Or.inl rfl⟩, hApplied⟩⟩
        rw [hDisk]
    · intro hNone
      rw [hLeft] at hNone
      cases hNone
    · intro rest' hSome
      rw [hLeft] at hSome
      cases hSome
      refine ⟨base, ?_, fun e he => hFetched e (hEtag.symm.trans he)⟩
      rw [hDisk]
  · cases hWrite
    refine ⟨hPending, ?_, ?_, ?_⟩
    · intro e he
      rcases hMemory e he with hFetch | ⟨hNone, -⟩
      · exact Or.inl hFetch
      · refine Or.inr ⟨hNone, Or.inl ?_⟩
        rw [hInbox]
        exact List.mem_append_right _ List.mem_cons_self
    · rw [hDisk]
      intro _ e he
      obtain ⟨base', hCache, hOld⟩ := h.durable hStoring e he
      exact ⟨base', hCache, List.mem_append_left es hOld⟩
    · intro rest' hSome
      rw [hSame, hStoring] at hSome
      cases hSome

theorem Coherent.handle (hSound : s.Sound emb os) (h : s.Coherent os)
    (hStep : s.handle emb writeOk = some (s', es)) : s'.Coherent (os ++ es) := by
  obtain ⟨hStoring, c, rest, hCommands, hCases⟩ :=
    handle_cases hSound.bases hSound.running_ne_nil hStep
  rcases hCases with ⟨base, etag, overlay, persist, reply, rfl, hSwap⟩ | ⟨overlay, rfl, hSwap⟩ |
    ⟨reply, rfl, rfl, -⟩
  · cases persist with
    | true => exact h.swapFetch hStoring hCommands hSwap
    | false =>
      rcases hSwap.writes with ⟨-, hDisk, hInbox, hApplied, hSame⟩ | ⟨_, hBad, -⟩ | ⟨_, hBad, -⟩
      · exact h.skip hCommands rfl hDisk hInbox hSwap.maintenance hApplied hSame hSwap.commands
      · cases hBad
      · cases hBad
  · rcases hSwap.writes with ⟨-, hDisk, hInbox, hApplied, hSame⟩ | ⟨_, hBad, -⟩ | ⟨_, hBad, -⟩
    · exact h.skip hCommands rfl hDisk hInbox hSwap.maintenance hApplied hSame hSwap.commands
    · cases hBad
    · cases hBad
  · exact h.skip hCommands rfl rfl rfl rfl rfl rfl rfl

theorem Coherent.storeEtag {ok : Bool} (h : s.Coherent os)
    (hOk : s.undisturbed (.storeEtag ok) = true)
    (hStep : s.storeEtag ok = some (s', es)) : s'.Coherent (os ++ es) := by
  obtain ⟨rest, hStoring, hEq⟩ := Option.map_eq_some_iff.mp hStep
  cases hEq
  refine ⟨fun base e overlay reply hMem => List.mem_append_left _
    (h.pending base e overlay reply hMem), ?_, ?_, ?_⟩
  · intro e he
    rcases h.memory e he with hFetch | ⟨hNone, hNotice | ⟨base, hCache, hDescribes, hApplied⟩⟩
    · exact Or.inl hFetch
    · exact Or.inr ⟨hNone, Or.inl hNotice⟩
    · exact Or.inr ⟨hNone, Or.inr ⟨base, hCache, hDescribes.mono, hApplied⟩⟩
  · intro _ e he
    cases ok with
    | true =>
      obtain ⟨base, hCache, hFetched⟩ := h.stored rest hStoring
      exact ⟨base, hCache, List.mem_append_left _ (hFetched e he)⟩
    | false =>
      obtain ⟨base, hCache, hFetched⟩ := h.durable_of_paired hOk he
      exact ⟨base, hCache, List.mem_append_left _ hFetched⟩
  · intro rest' hSome
    cases hSome

theorem startEtag_eq_some {etagRead : Bool} {e : String} (h : startEtag disk etagRead = some e) :
    ∃ raw, disk.etag = some raw ∧ e = trimmed raw := by
  unfold startEtag at h
  split at h
  · obtain ⟨raw, hRaw, hTrim⟩ := Option.bind_eq_some_iff.mp h
    split at hTrim
    · cases hTrim
    · cases hTrim
      exact ⟨raw, hRaw, rfl⟩
  · cases h

theorem coherent_start (hDurable : ∀ e, disk.etag = some e →
      ∃ base, disk.cache = some base ∧ .fetched base (some e) ∈ os) (overlay : OverlayRead)
    (etagRead fetchNow : Bool) : (start emb disk overlay etagRead fetchNow).Coherent os := by
  refine ⟨?_, ?_, fun _ => hDurable, ?_⟩
  · intro base e overlay' reply hMem
    exact absurd (List.mem_singleton.mp hMem) (by simp)
  · intro e he
    obtain ⟨raw, hRaw, hTrim⟩ := startEtag_eq_some he
    obtain ⟨base, hCache, hFetched⟩ := hDurable raw hRaw
    exact Or.inr ⟨rfl, Or.inr ⟨base, hCache, ⟨raw, hFetched, Or.inr hTrim⟩, rfl⟩⟩
  · intro rest hSome
    cases hSome

theorem Coherent.step {a : Action} (hSound : s.Sound emb os) (h : s.Coherent os)
    (hOk : s.undisturbed a = true) (hStep : s.step emb a = some (s', es)) :
    s'.Coherent (os ++ es) := by
  cases a with
  | requestRefresh force reply =>
    change (if s.loop.storing = none then _ else none) = _ at hStep
    split at hStep
    · cases hStep
      exact h.keep rfl rfl rfl (fun _ hMem => List.mem_append_left _ hMem) rfl
    · cases hStep
  | receive overlay => exact h.receive hOk hStep
  | overlayEvent overlay =>
    obtain ⟨hLoop, hDisk, hInbox, hEtag, cs, hCommands, hOther⟩ := reloadUserOverlay_spec s overlay
    change (if s.maintenance.fetching = none then _ else none) = _ at hStep
    split at hStep
    · cases hStep
      refine h.post hLoop hDisk hEtag (fun _ hMem => hInbox ▸ hMem) hCommands ?_
      intro c hMem
      obtain ⟨userOverlay, rfl⟩ := hOther c hMem
      rfl
    · cases hStep
  | timer =>
    change (if s.maintenance.fetching = none then _ else none) = _ at hStep
    split at hStep
    · cases hStep
      exact h.keep rfl rfl rfl (fun _ hMem => hMem) rfl
    · cases hStep
  | fetched outcome => exact h.fetched hStep
  | handle writeOk => exact Coherent.handle hSound h hStep
  | storeEtag ok => exact h.storeEtag hOk hStep
  | restart overlay etagRead fetchNow =>
    cases hStep
    refine coherent_start ?_ overlay etagRead fetchNow
    intro e he
    obtain ⟨base, hCache, hFetched⟩ := h.durable_of_paired hOk he
    exact ⟨base, hCache, List.mem_append_left _ hFetched⟩

end System

/-! ## Whole runs -/

/-- A daemon that starts for the first time. -/
def firstStart (emb : Embedded) (overlay : OverlayRead) (etagRead fetchNow : Bool) : System :=
  start emb {} overlay etagRead fetchNow

/-- In every run the live catalog is the merge of the last accepted base, the bundled overlay and
the last overlay handed over. If no step swallows a notice or cuts the two writes of a persist
apart, then with empty queues an etag in memory describes the cache file, which holds the accepted
base, and between two commands so does the etag a restarted thread would take over. -/
theorem catalog_and_etag_coherent (emb : Embedded) (overlay : OverlayRead)
    (etagRead fetchNow : Bool) (actions : List Action) (s : System) (os : List Output)
    (hExec : (machine emb).exec (firstStart emb overlay etagRead fetchNow) actions =
      some (s, os)) :
    s.loop.live = mergeCatalogLayers emb (lastAccepted emb os) (lastHanded os) ∧
    ((machine emb).EveryStep (fun s a _ _ => s.undisturbed a = true)
        (firstStart emb overlay etagRead fetchNow) actions →
      (s.commands = [] → s.inbox = [] → s.loop.storing = none →
        ∀ e, s.maintenance.etag = some e →
          ∃ base, s.disk.cache = some base ∧ Describes os e base ∧ lastAccepted emb os = base) ∧
      (s.loop.storing = none → ∀ e, startEtag s.disk true = some e →
        ∃ base, s.disk.cache = some base ∧ Describes os e base)) := by
  have hInit : (firstStart emb overlay etagRead fetchNow).Sound emb [] :=
    System.sound_start (fun _ h => by cases h) rfl rfl overlay etagRead fetchNow
  have hSound : s.Sound emb os :=
    Machine.exec_invariant (fun h hStep => h.step hStep) hInit hExec
  refine ⟨hSound.live, fun hOk => ?_⟩
  obtain ⟨-, hCoherent⟩ := Machine.exec_invariant
    (P := fun os s => s.Sound emb os ∧ s.Coherent os)
    (fun h hStep => by
      obtain ⟨hUndisturbed, hStep⟩ := Machine.guard_step_eq_some.mp hStep
      exact ⟨h.1.step hStep, System.Coherent.step h.1 h.2 hUndisturbed hStep⟩)
    ⟨hInit, System.coherent_start (fun _ h => by cases h) overlay etagRead fetchNow⟩
    (Machine.exec_guard_of_everyStep hExec hOk)
  constructor
  · intro hCommands hInbox hStoring e he
    have hNone : s.lastFetch = none := by
      rw [System.lastFetch, hCommands]
      rfl
    rcases hCoherent.memory e he with ⟨base, hFetch⟩ | ⟨-, hNotice | ⟨base, hCache, hDescribes,
      hApplied⟩⟩
    · rw [hNone] at hFetch
      cases hFetch
    · rw [hInbox] at hNotice
      cases hNotice
    · refine ⟨base, hCache, hDescribes, ?_⟩
      rcases hSound.runs with ⟨-, -, c, rest, hHead, -⟩ | ⟨hAccepted, -⟩
      · rw [hCommands] at hHead
        cases hHead
      · rw [hAccepted, hApplied, loadPersistedBase, hCache]
        rfl
  · intro hStoring e he
    obtain ⟨raw, hRaw, hTrim⟩ := System.startEtag_eq_some he
    obtain ⟨base, hCache, hFetched⟩ := hCoherent.durable hStoring raw hRaw
    exact ⟨base, hCache, raw, hFetched, Or.inr hTrim⟩

/-! ## The runs that go wrong -/

def sampleEmbedded : Embedded where
  fromStr := fun _ => none
  base := [newProvider "embedded"]
  overlaySrc := ""
  base_ne_nil := by simp

/-- A fetch whose cache write fails, and a request that was queued before the notice of it. -/
def swallowedRun : List Action :=
  [.fetched (.fetched [newProvider "fresh"] (some "v1")), .requestRefresh false 0, .handle true,
    .handle false, .receive (.contents none), .fetched .notModified, .handle true]

/-- A fetch that is persisted and revalidated. -/
def persistedRun : List Action :=
  [.handle true, .fetched (.fetched [newProvider "fresh"] (some "v1")), .handle true,
    .storeEtag true, .timer, .fetched .notModified]

theorem sample_coherent : ∃ s os,
    (machine sampleEmbedded).exec (firstStart sampleEmbedded (.contents none) true true)
        persistedRun = some (s, os) ∧ s.maintenance.etag = some "v1" ∧
      ∃ base, s.disk.cache = some base ∧ Describes os "v1" base ∧
        lastAccepted sampleEmbedded os = base := by
  have hCheck : (machine sampleEmbedded).check
      (firstStart sampleEmbedded (.contents none) true true) persistedRun
      (fun s _ => decide (s.commands = [] ∧ s.inbox = [] ∧ s.loop.storing = none ∧
        s.maintenance.etag = some "v1")) = true := by
    decide +kernel
  obtain ⟨s, os, hExec, hTest⟩ := Machine.exists_of_check hCheck
  obtain ⟨hCommands, hInbox, hStoring, hEtag⟩ := of_decide_eq_true hTest
  exact ⟨s, os, hExec, hEtag,
    ((catalog_and_etag_coherent sampleEmbedded (.contents none) true true persistedRun s os
      hExec).2 (by decide +kernel)).1 hCommands hInbox hStoring "v1" hEtag⟩

/-- The notice of the failed cache write is drained with the request before it: the thread keeps an
etag that describes a base the disk does not have, and the next 304 leaves it there. -/
theorem notice_swallowed : ∃ s os,
    (machine sampleEmbedded).exec (firstStart sampleEmbedded (.contents none) true true)
        swallowedRun = some (s, os) ∧
      s.commands = [] ∧ s.inbox = [] ∧ s.loop.storing = none ∧
      s.maintenance.etag = some "v1" ∧ s.disk.cache = none ∧
      lastAccepted sampleEmbedded os = [newProvider "fresh"] := by
  have hCheck : (machine sampleEmbedded).check
      (firstStart sampleEmbedded (.contents none) true true) swallowedRun
      (fun s os => decide (s.commands = [] ∧ s.inbox = [] ∧ s.loop.storing = none ∧
        s.maintenance.etag = some "v1" ∧ s.disk.cache = none ∧
        lastAccepted sampleEmbedded os = [newProvider "fresh"])) = true := by
    decide +kernel
  obtain ⟨s, os, hExec, hTest⟩ := Machine.exists_of_check hCheck
  exact ⟨s, os, hExec, of_decide_eq_true hTest⟩

end Choreographr.Catalog
