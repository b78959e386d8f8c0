import Choreographr.Daemon.Proofs.Lifecycle

/-!
# The command loop and the life of a session

What the commands that the loop takes do to the life of a session: the notices of
its threads, the start of a thread, a creation, a deletion and a restart.
-/

namespace Choreographr.Daemon

open Session Lib

namespace Core

variable {c : Core} {sid : Nat} {command : DaemonCommand} {rest : List DaemonCommand}

/-! ## Notices -/

theorem exits_pop (sid : Nat) (hInbox : c.inbox = command :: rest) :
    ({ c with inbox := rest } : Core).exits sid + (command.isExit sid).toNat = c.exits sid := by
  rw [exits, exits, hInbox, List.countP_cons]
  cases command.isExit sid <;> rfl

theorem finals_pop (sid : Nat) (hInbox : c.inbox = command :: rest) :
    ({ c with inbox := rest } : Core).finals sid + (command.isFinalized sid).toNat =
      c.finals sid := by
  rw [finals, finals, hInbox, List.countP_cons]
  cases command.isFinalized sid <;> rfl

theorem SessionInv.updates_pop (h : c.SessionInv sid) (hInbox : c.inbox = command :: rest)
    (before : List DaemonCommand) (metadata : SessionMetadata) (after : List DaemonCommand)
    (hSplit : rest = before ++ .updateMetadata sid metadata :: after) :
    0 < c.live sid ∨ .sessionExited sid ∈ after := by
  apply h.updates (command :: before) metadata after
  rw [hInbox, hSplit, List.cons_append]

theorem SessionInv.finalized_pop (h : c.SessionInv sid) (hInbox : c.inbox = command :: rest)
    (hMem : .sessionDeleteFinalized sid ∈ rest) : c.disk.NoRows sid := by
  apply h.finalized
  rw [hInbox]
  exact List.mem_cons_of_mem _ hMem

/-- The loop takes a command that is no notice. -/
theorem keeps_pop (hInbox : c.inbox = command :: rest) (hExit : ∀ sid, command.isExit sid = false)
    (hFinalized : ∀ sid, command.isFinalized sid = false) : Keeps c { c with inbox := rest } := by
  refine ⟨fun h => ⟨fun sid => ?_, h.threads, h.ids, h.disk⟩,
    fun h sid hGone => ⟨hGone.unlisted, hGone.inactive, hGone.rows⟩, rfl⟩
  have hInv := h.session sid
  have hE : ({ c with inbox := rest } : Core).exits sid = c.exits sid := by
    have hPop := exits_pop sid hInbox
    rw [hExit sid] at hPop
    exact hPop
  have hF : ({ c with inbox := rest } : Core).finals sid = c.finals sid := by
    have hPop := finals_pop sid hInbox
    rw [hFinalized sid] at hPop
    exact hPop
  refine ⟨?_, ?_, hInv.fresh, hInv.owner, hInv.rows, hInv.finalizing, hInv.finalized_pop hInbox,
    hInv.shutdown, hInv.updates_pop hInbox⟩
  · rw [hE, hF]
    exact hInv.kept
  · rw [hE, hF]
    exact hInv.deleted

/-- A list entry changes or is made, for a session that is not deleted and whose
thread has not said its last. -/
theorem keeps_metadata (hKept : sid ∉ c.deletedSessions)
    (hKnown : c.Inv → 0 < c.live sid + c.exits sid) (metadata : SessionMetadata) :
    Keeps c { c with sessionMetadata := c.sessionMetadata.insert sid metadata } := by
  refine ⟨fun h => ⟨fun sid' => ?_, h.threads, h.ids, h.disk⟩, fun h sid' hGone => ?_, rfl⟩
  · have hInv := h.session sid'
    refine ⟨hInv.kept, fun hDeleted => ?_, hInv.fresh, hInv.owner, hInv.rows, hInv.finalizing,
      hInv.finalized, hInv.shutdown, hInv.updates⟩
    obtain ⟨hInactive, hUnlisted, hSum⟩ := hInv.deleted hDeleted
    refine ⟨hInactive, ?_, hSum⟩
    rw [OrdMap.get?_insert, if_neg]
    · exact hUnlisted
    · rintro rfl
      exact hKept hDeleted
  · refine ⟨?_, hGone.inactive, hGone.rows⟩
    rw [OrdMap.get?_insert, if_neg]
    · exact hGone.unlisted
    · rintro rfl
      exact hKept ((h.session sid').known (hKnown h) hGone.inactive)

/-- The loop takes an update from a session thread. -/
theorem keeps_pop_update {metadata metadata' : SessionMetadata}
    (hInbox : c.inbox = .updateMetadata sid metadata :: rest) (hKept : sid ∉ c.deletedSessions) :
    Keeps c { c with
      inbox := rest
      sessionMetadata := c.sessionMetadata.insert sid metadata' } := by
  have hInsert : Keeps c { c with sessionMetadata := c.sessionMetadata.insert sid metadata' } := by
    refine keeps_metadata hKept (fun h => ?_) metadata'
    rcases (h.session sid).updates [] metadata rest hInbox with hPos | hExit
    · omega
    · have hPos : 0 < c.exits sid := by
        apply List.countP_pos_iff.mpr
        refine ⟨.sessionExited sid, ?_, by simp [DaemonCommand.isExit]⟩
        rw [hInbox]
        exact List.mem_cons_of_mem _ hExit
      omega
  exact hInsert.trans (keeps_pop hInbox (fun _ => rfl) fun _ => rfl)

theorem keeps_modify_metadata (sid : Nat) (f : SessionMetadata → SessionMetadata) :
    Keeps c { c with sessionMetadata := c.sessionMetadata.modify sid f } := by
  have hNone : ∀ sid', c.sessionMetadata.get? sid' = none →
      (c.sessionMetadata.modify sid f).get? sid' = none := by
    intro sid' hNone
    rw [OrdMap.get?_modify, hNone]
    split <;> rfl
  refine ⟨fun h => ⟨fun sid' => ?_, h.threads, h.ids, h.disk⟩,
    fun h sid' hGone => ⟨hNone sid' hGone.unlisted, hGone.inactive, hGone.rows⟩, rfl⟩
  have hInv := h.session sid'
  refine ⟨hInv.kept, fun hDeleted => ?_, hInv.fresh, hInv.owner, hInv.rows, hInv.finalizing,
    hInv.finalized, hInv.shutdown, hInv.updates⟩
  obtain ⟨hInactive, hUnlisted, hSum⟩ := hInv.deleted hDeleted
  exact ⟨hInactive, hNone sid' hUnlisted, hSum⟩

/-- The loop takes the exit notice of a session thread. The deletion of its session is
finished by a thread of its own. -/
def sessionExited (c : Core) (sid : Nat) (rest : List DaemonCommand) : Core :=
  { c with
    inbox := rest
    activeSessions := c.activeSessions.erase sid
    finalizers := c.finalizers ++ if sid ∈ c.deletedSessions then [{ sessionId := sid }] else [] }

theorem exits_sessionExited (sid' : Nat) (hInbox : c.inbox = .sessionExited sid :: rest) :
    (c.sessionExited sid rest).exits sid' + (decide (sid = sid')).toNat = c.exits sid' :=
  exits_pop sid' hInbox

theorem finals_sessionExited (sid' : Nat) (hInbox : c.inbox = .sessionExited sid :: rest) :
    (c.sessionExited sid rest).finals sid' =
      c.finals sid' + (decide (sid ∈ c.deletedSessions ∧ sid = sid')).toNat := by
  have hPop : ({ c with inbox := rest } : Core).finals sid' = c.finals sid' :=
    finals_pop sid' hInbox
  rw [← hPop]
  simp only [sessionExited, finals, List.countP_append]
  by_cases hDeleted : sid ∈ c.deletedSessions
  · rw [if_pos hDeleted, List.countP_singleton]
    simp only [hDeleted, true_and]
    cases decide (sid = sid') <;> simp
    omega
  · simp [hDeleted]

/-- The session whose thread has exited. -/
theorem SessionInv.sessionExited_self (h : c.SessionInv sid)
    (hInbox : c.inbox = .sessionExited sid :: rest) : (c.sessionExited sid rest).SessionInv sid := by
  have hE := exits_sessionExited sid hInbox
  have hF := finals_sessionExited sid hInbox
  have hNone : (c.sessionExited sid rest).activeSessions.get? sid = none := by
    rw [sessionExited, OrdMap.get?_erase, if_pos rfl]
  have hLive : (c.sessionExited sid rest).live sid = c.live sid := rfl
  simp only [decide_true, Bool.toNat_true] at hE
  refine ⟨fun hKept => ?_, fun hDeleted => ?_, fun hLe => ?_, fun thread hSome => ?_, h.rows,
    fun f hf hSid hPhase => ?_, h.finalized_pop hInbox, h.shutdown, h.updates_pop hInbox⟩
  · obtain ⟨hFinals, hSum⟩ := h.kept hKept
    have hKept' : sid ∉ c.deletedSessions := hKept
    have hBound := Bool.toNat_le (c.activeSessions.get? sid).isSome
    simp only [hKept', false_and, decide_false, Bool.toNat_false] at hF
    rw [hNone]
    refine ⟨by omega, ?_⟩
    show _ = 0
    omega
  · obtain ⟨-, hUnlisted, hSum⟩ := h.deleted hDeleted
    have hDeleted' : sid ∈ c.deletedSessions := hDeleted
    simp only [hDeleted', true_and, decide_true, Bool.toNat_true] at hF
    exact ⟨hNone, hUnlisted, by omega⟩
  · obtain ⟨hKept, -, hRecord⟩ := h.fresh hLe
    exact ⟨hKept, hNone, hRecord⟩
  · rw [hNone] at hSome
    cases hSome
  · rcases List.mem_append.mp hf with hOld | hNew
    · exact h.finalizing f hOld hSid hPhase
    · split at hNew
      · rw [List.mem_singleton.mp hNew] at hPhase
        exact absurd rfl hPhase
      · cases hNew

theorem SessionInv.sessionExited_other {sid' : Nat} (h : c.SessionInv sid') (hNe : sid ≠ sid')
    (hInbox : c.inbox = .sessionExited sid :: rest) :
    (c.sessionExited sid rest).SessionInv sid' := by
  have hE := exits_sessionExited sid' hInbox
  have hF := finals_sessionExited sid' hInbox
  simp only [hNe, and_false, decide_false, Bool.toNat_false, Nat.add_zero] at hE hF
  have hActive : (c.sessionExited sid rest).activeSessions.get? sid' =
      c.activeSessions.get? sid' := by
    rw [sessionExited, OrdMap.get?_erase, if_neg hNe.symm]
  refine ⟨?_, ?_, ?_, ?_, h.rows, fun f hf hSid hPhase => ?_, h.finalized_pop hInbox, h.shutdown,
    h.updates_pop hInbox⟩
  · rw [hE, hF, hActive]
    exact h.kept
  · rw [hE, hF, hActive]
    exact h.deleted
  · rw [hActive]
    exact h.fresh
  · rw [hActive]
    exact h.owner
  · rcases List.mem_append.mp hf with hOld | hNew
    · exact h.finalizing f hOld hSid hPhase
    · split at hNew
      · rw [List.mem_singleton.mp hNew] at hSid
        exact absurd hSid hNe
      · cases hNew

theorem keeps_sessionExited (hInbox : c.inbox = .sessionExited sid :: rest) :
    Keeps c (c.sessionExited sid rest) := by
  refine ⟨fun h => ⟨fun sid' => ?_, h.threads, h.ids, h.disk⟩,
    fun _ sid' hGone => ⟨hGone.unlisted, ?_, hGone.rows⟩, rfl⟩
  · by_cases hEq : sid = sid'
    · subst hEq
      exact (h.session sid).sessionExited_self hInbox
    · exact (h.session sid').sessionExited_other hEq hInbox
  · rw [sessionExited, OrdMap.get?_erase]
    split
    · rfl
    · exact hGone.inactive

/-- The loop takes the notice that a deletion is done. -/
theorem keeps_finalized (hInbox : c.inbox = .sessionDeleteFinalized sid :: rest) :
    Keeps c { c with
      inbox := rest
      deletedSessions := c.deletedSessions.erase sid } := by
  have hPos : 0 < c.finals sid := by
    have hPop := finals_pop sid hInbox
    simp only [DaemonCommand.isFinalized, decide_true, Bool.toNat_true] at hPop
    omega
  have hNotice : .sessionDeleteFinalized sid ∈ c.inbox := by
    rw [hInbox]
    exact List.mem_cons_self
  refine ⟨fun h => ⟨fun sid' => ?_, h.threads, h.ids, h.disk⟩, fun h sid' hGone => ?_, rfl⟩
  · have hInv := h.session sid'
    have hE : ({ c with inbox := rest } : Core).exits sid' = c.exits sid' := exits_pop sid' hInbox
    have hF := finals_pop sid' hInbox
    by_cases hEq : sid' = sid
    · subst hEq
      obtain ⟨hDeleted, hLive, hExits, hFinals⟩ := hInv.of_finals hPos
      have hInactive := (hInv.deleted hDeleted).1
      simp only [DaemonCommand.isFinalized, decide_true, Bool.toNat_true] at hF
      refine ⟨fun _ => ⟨?_, ?_⟩, fun hMem => absurd hMem (Finset.notMem_erase _ _), fun hLe => ?_,
        hInv.owner, fun hMem => absurd hMem (Finset.notMem_erase _ _), hInv.finalizing,
        hInv.finalized_pop hInbox, fun hMem => absurd hMem (Finset.notMem_erase _ _),
        hInv.updates_pop hInbox⟩
      · change ({ c with inbox := rest } : Core).finals sid' = 0
        omega
      · change c.live sid' + ({ c with inbox := rest } : Core).exits sid' = _
        rw [hInactive, hE, hLive, hExits]
        rfl
      · exact absurd hDeleted (hInv.fresh hLe).1
    · have hFinals : ({ c with inbox := rest } : Core).finals sid' = c.finals sid' := by
        simp only [DaemonCommand.isFinalized, Ne.symm hEq, decide_false, Bool.toNat_false] at hF
        exact hF
      have hMem : sid' ∈ c.deletedSessions.erase sid ↔ sid' ∈ c.deletedSessions := by
        simp [hEq]
      refine ⟨fun hKept => ?_, fun hDeleted => ?_, fun hLe => ?_, hInv.owner,
        fun hDeleted => hInv.rows (hMem.mp hDeleted), hInv.finalizing, hInv.finalized_pop hInbox,
        fun hDeleted => hInv.shutdown (hMem.mp hDeleted), hInv.updates_pop hInbox⟩
      · obtain ⟨hNone, hSum⟩ := hInv.kept fun hDeleted => hKept (hMem.mpr hDeleted)
        refine ⟨hFinals.trans hNone, ?_⟩
        change c.live sid' + ({ c with inbox := rest } : Core).exits sid' = _
        rw [hE, hSum]
      · obtain ⟨hInactive, hUnlisted, hSum⟩ := hInv.deleted (hMem.mp hDeleted)
        refine ⟨hInactive, hUnlisted, ?_⟩
        change c.live sid' + ({ c with inbox := rest } : Core).exits sid' +
          ({ c with inbox := rest } : Core).finals sid' = 1
        rw [hE, hFinals, hSum]
      · obtain ⟨hKept, hInactive, hRecord⟩ := hInv.fresh hLe
        exact ⟨fun hDeleted => hKept (hMem.mp hDeleted), hInactive, hRecord⟩
  · refine ⟨hGone.unlisted, hGone.inactive, fun hKept => ?_⟩
    by_cases hEq : sid' = sid
    · subst hEq
      exact (h.session sid').finalized hNotice
    · exact hGone.rows fun hDeleted => hKept (Finset.mem_erase.mpr ⟨hEq, hDeleted⟩)

/-! ## A thread starts -/

section Spawn

variable {record : SessionRecord} {metadata metadata' : SessionMetadata}

/-- The loop starts a thread for a session. -/
def spawn (c : Core) (sid : Nat) (record : SessionRecord) (metadata metadata' : SessionMetadata) :
    Core :=
  { c with
    activeSessions := c.activeSessions.insert sid c.threads.length
    sessionMetadata := c.sessionMetadata.insert sid metadata'
    threads := c.threads ++ [Thread.spawn sid record metadata] }

theorem livesFor_spawn (sid' : Nat) :
    (Thread.spawn sid record metadata).livesFor sid' = decide (sid = sid') := rfl

theorem live_spawn (sid' : Nat) :
    (c.spawn sid record metadata metadata').live sid' =
      c.live sid' + (decide (sid = sid')).toNat := by
  show List.countP _ (_ ++ [_]) = _
  rw [List.countP_append, List.countP_singleton, livesFor_spawn]
  by_cases hEq : sid = sid' <;> simp [hEq, live]

theorem owner_spawn_self (h : c.live sid = 0) :
    Owner (c.spawn sid record metadata metadata').threads sid c.threads.length where
  known := ⟨Thread.spawn sid record metadata, List.getElem?_concat_length, rfl⟩
  unique := by
    intro i t hGet hLives
    rcases Nat.lt_trichotomy i c.threads.length with hLt | rfl | hGt
    · have hOld : c.threads[i]? = some t := (List.getElem?_append_left hLt).symm.trans hGet
      have hPos := live_pos (List.mem_of_getElem? hOld) hLives
      omega
    · rfl
    · have hLen := (List.getElem?_eq_some_iff.mp hGet).1
      change i < (c.threads ++ [_]).length at hLen
      rw [List.length_append, List.length_singleton] at hLen
      omega

theorem owner_spawn_other {sid' : Nat} {thread : ThreadId} (hNe : sid ≠ sid')
    (h : Owner c.threads sid' thread) :
    Owner (c.spawn sid record metadata metadata').threads sid' thread where
  known := by
    obtain ⟨t, hGet, hSid⟩ := h.known
    have hLt := (List.getElem?_eq_some_iff.mp hGet).1
    exact ⟨t, (List.getElem?_append_left hLt).trans hGet, hSid⟩
  unique := by
    intro i t hGet hLives
    rcases getElem?_concat_cases hGet with hOld | ⟨-, rfl⟩
    · exact h.unique i t hOld hLives
    · rw [livesFor_spawn, decide_eq_true_eq] at hLives
      exact absurd hLives hNe

theorem inv_spawn (h : c.Inv) (hKept : sid ∉ c.deletedSessions)
    (hInactive : c.activeSessions.get? sid = none) (hLt : sid < c.nextSessionId)
    (hBound : sid + 1 < 2 ^ 64) : (c.spawn sid record metadata metadata').Inv := by
  have hMem : ∀ t ∈ (c.spawn sid record metadata metadata').threads,
      t ∈ c.threads ∨ t = Thread.spawn sid record metadata := fun t ht =>
    (List.mem_append.mp ht).imp_right List.mem_singleton.mp
  refine ⟨fun sid' => ?_, fun t ht => ?_, fun t ht => ?_, h.disk⟩
  · have hInv := h.session sid'
    have hLive : (c.spawn sid record metadata metadata').live sid' = _ := live_spawn sid'
    have hE : (c.spawn sid record metadata metadata').exits sid' = c.exits sid' := rfl
    have hF : (c.spawn sid record metadata metadata').finals sid' = c.finals sid' := rfl
    have hActive : (c.spawn sid record metadata metadata').activeSessions.get? sid' =
        if sid' = sid then some c.threads.length else c.activeSessions.get? sid' :=
      OrdMap.get?_insert _ _ _ _
    have hList : (c.spawn sid record metadata metadata').sessionMetadata.get? sid' =
        if sid' = sid then some metadata' else c.sessionMetadata.get? sid' :=
      OrdMap.get?_insert _ _ _ _
    by_cases hEq : sid' = sid
    · subst hEq
      obtain ⟨hFinals, hSum⟩ := hInv.kept hKept
      rw [if_pos rfl] at hActive hList
      rw [hInactive] at hSum
      simp only [Option.isSome_none, Bool.toNat_false] at hSum
      simp only [decide_true, Bool.toNat_true] at hLive
      refine ⟨fun _ => ⟨hF.trans hFinals, ?_⟩, fun hMem => absurd hMem hKept,
        fun hLe => absurd hLt (Nat.not_lt.mpr hLe), fun thread hSome => ?_,
        fun hMem => absurd hMem hKept, hInv.finalizing, hInv.finalized,
        fun hMem => absurd hMem hKept, fun before m after hSplit => .inl (by omega)⟩
      · rw [hActive, hLive, hE]
        simp only [Option.isSome_some, Bool.toNat_true]
        omega
      · rw [hActive] at hSome
        cases hSome
        exact owner_spawn_self (by omega)
    · rw [if_neg hEq] at hActive hList
      have hSame : (c.spawn sid record metadata metadata').live sid' = c.live sid' := by
        rw [hLive, decide_eq_false (Ne.symm hEq)]
        rfl
      refine ⟨?_, ?_, ?_, fun thread hSome => ?_, ?_, hInv.finalizing, hInv.finalized,
        fun hDeleted t ht hLives => ?_, ?_⟩
      · rw [hSame, hActive]
        exact hInv.kept
      · rw [hSame, hActive, hList]
        exact hInv.deleted
      · rw [hActive]
        exact hInv.fresh
      · rw [hActive] at hSome
        exact owner_spawn_other (Ne.symm hEq) (hInv.owner thread hSome)
      · rw [hSame]
        exact hInv.rows
      · rcases hMem t ht with hOld | rfl
        · exact hInv.shutdown hDeleted t hOld hLives
        · rw [livesFor_spawn, decide_eq_true_eq] at hLives
          exact absurd hLives.symm hEq
      · rw [hSame]
        exact hInv.updates
  · rcases hMem t ht with hOld | rfl
    · exact h.threads t hOld
    · exact Thread.ok_spawn sid record metadata
  · rcases hMem t ht with hOld | rfl
    · exact h.ids t hOld
    · exact hBound

theorem Gone.spawn {sid' : Nat} (h : c.Gone sid') (hNe : sid' ≠ sid) :
    (c.spawn sid record metadata metadata').Gone sid' where
  unlisted := by
    rw [Core.spawn, OrdMap.get?_insert, if_neg hNe]
    exact h.unlisted
  inactive := by
    rw [Core.spawn, OrdMap.get?_insert, if_neg hNe]
    exact h.inactive
  rows := h.rows

/-- The loop starts the thread of a stored session. -/
theorem keeps_spawn (hKept : sid ∉ c.deletedSessions)
    (hInactive : c.activeSessions.get? sid = none)
    (hRecord : c.disk.db.sessions.get? sid = some record) :
    Keeps c (c.spawn sid record metadata metadata') := by
  refine ⟨fun h => ?_, fun h sid' hGone => hGone.spawn ?_, rfl⟩
  · have hLt : sid < c.nextSessionId := by
      by_contra hLe
      obtain ⟨-, -, hNone⟩ := (h.session sid).fresh (Nat.not_lt.mp hLe)
      rw [hRecord] at hNone
      cases hNone
    have hBound : sid + 1 < 2 ^ 64 := by
      refine (h.disk sid).resolve_right fun hRows => ?_
      rw [hRows.record] at hRecord
      cases hRecord
    exact inv_spawn h hKept hInactive hLt hBound
  · rintro rfl
    rw [(hGone.rows hKept).record] at hRecord
    cases hRecord

/-- The loop takes the next id and writes the record of a new session. -/
def create (c : Core) (record : SessionRecord) : Core :=
  { c with
    nextSessionId := c.nextSessionId + 1
    disk := c.disk.write c.nextSessionId (.record record) }

theorem inv_create (h : c.Inv) (hRoom : c.nextSessionId + 1 < 2 ^ 64) : (c.create record).Inv := by
  refine ⟨fun sid => ?_, h.threads, h.ids, h.disk.write hRoom (.record record)⟩
  have hInv := h.session sid
  by_cases hEq : sid = c.nextSessionId
  · subst hEq
    obtain ⟨hKept, hInactive, -⟩ := hInv.fresh le_rfl
    obtain ⟨hFinalizers, hFinalized⟩ := not_mem_of_finals (hInv.kept hKept).1
    exact ⟨hInv.kept, hInv.deleted, fun hLe => absurd hLe (Nat.not_succ_le_self _), hInv.owner,
      fun hMem => absurd hMem hKept, fun f hf hSid => absurd hSid (hFinalizers f hf),
      fun hMem => absurd hMem hFinalized, hInv.shutdown, hInv.updates⟩
  · refine ⟨hInv.kept, hInv.deleted, fun hLe => ?_, hInv.owner, fun hDeleted => ?_,
      fun f hf hSid hPhase => (hInv.finalizing f hf hSid hPhase).write hEq (.record record),
      fun hMem => (hInv.finalized hMem).write hEq (.record record), hInv.shutdown, hInv.updates⟩
    · obtain ⟨hKept, hInactive, hNone⟩ := hInv.fresh (Nat.le_of_succ_le hLe)
      exact ⟨hKept, hInactive, Disk.record_write_eq_none hEq hNone _⟩
    · exact (hInv.rows hDeleted).imp (Disk.hasTombstone_write _ _ _ _).mpr
        (And.imp_left fun hRows => hRows.write hEq (.record record))

theorem Gone.create (h : c.Gone sid) (hNe : sid ≠ c.nextSessionId) : (c.create record).Gone sid where
  unlisted := h.unlisted
  inactive := h.inactive
  rows hKept := (h.rows hKept).write hNe (.record record)

theorem inv_created (h : c.Inv) (hRoom : c.nextSessionId + 1 < 2 ^ 64) :
    ((c.create record).spawn c.nextSessionId record metadata metadata').Inv := by
  obtain ⟨hKept, hInactive, -⟩ := (h.session c.nextSessionId).fresh le_rfl
  exact inv_spawn (inv_create h hRoom) hKept hInactive (Nat.lt_succ_self _) hRoom

end Spawn

/-! ## Marks -/

theorem Inv.mark (h : c.Inv) (marks : List Event) : ({ c with marks := marks } : Core).Inv := by
  refine ⟨fun sid => ?_, h.threads, h.ids, h.disk⟩
  have hInv := h.session sid
  exact ⟨hInv.kept, hInv.deleted, hInv.fresh, hInv.owner, hInv.rows, hInv.finalizing,
    hInv.finalized, hInv.shutdown, hInv.updates⟩

theorem Gone.mark (h : c.Gone sid) (marks : List Event) :
    ({ c with marks := marks } : Core).Gone sid := ⟨h.unlisted, h.inactive, h.rows⟩

/-! ## Flags -/

theorem keeps_flags (sid : Nat) (pinned : Bool) (archivedAt : Option Int) :
    Keeps c { c with
      disk := { c.disk with db := c.disk.db.updateSessionFlags sid pinned archivedAt } } := by
  refine ⟨fun h => ⟨fun sid' => ?_, h.threads, h.ids, fun sid' => ?_⟩,
    fun h sid' hGone => ⟨hGone.unlisted, hGone.inactive, fun hKept => ?_⟩, rfl⟩
  · have hInv := h.session sid'
    refine ⟨hInv.kept, hInv.deleted, fun hLe => ?_, hInv.owner, fun hDeleted => ?_,
      fun f hf hSid hPhase => ?_, fun hMem => ?_, hInv.shutdown, hInv.updates⟩
    · obtain ⟨hKept, hInactive, hNone⟩ := hInv.fresh hLe
      exact ⟨hKept, hInactive, Disk.record_updateSessionFlags_eq_none hNone _ _ _⟩
    · exact (hInv.rows hDeleted).imp_right
        (And.imp_left fun hRows => hRows.updateSessionFlags _ _ _)
    · exact (hInv.finalizing f hf hSid hPhase).updateSessionFlags _ _ _
    · exact (hInv.finalized hMem).updateSessionFlags _ _ _
  · exact (h.disk sid').imp_right fun hRows => hRows.updateSessionFlags _ _ _
  · exact (hGone.rows hKept).updateSessionFlags _ _ _

/-! ## A session is deleted -/

/-- The session has a thread: it is marked as deleted, and its rows stay until the
thread has ended. -/
def deleteActive (c : Core) (sid : Nat) (d : Disk) : Core :=
  { c with
    activeSessions := c.activeSessions.erase sid
    sessionMetadata := c.sessionMetadata.erase sid
    deletedSessions := insert sid c.deletedSessions
    disk := d }

theorem gone_deleteActive (d : Disk) : (c.deleteActive sid d).Gone sid where
  unlisted := by rw [deleteActive, OrdMap.get?_erase, if_pos rfl]
  inactive := by rw [deleteActive, OrdMap.get?_erase, if_pos rfl]
  rows hKept := absurd (Finset.mem_insert_self _ _) hKept

theorem SessionInv.deleteActive_self {d : Disk} {thread : ThreadId} (h : c.SessionInv sid)
    (hActive : c.activeSessions.get? sid = some thread)
    (hRows : d.hasTombstone sid ∨ d.NoRows sid ∧ c.live sid = 0)
    (hShutdown : ∀ t ∈ c.threads, t.livesFor sid = true → t.ShuttingDown) :
    (c.deleteActive sid d).SessionInv sid := by
  have hKept : sid ∉ c.deletedSessions := by
    intro hDeleted
    rw [(h.deleted hDeleted).1] at hActive
    cases hActive
  obtain ⟨hFinals, hSum⟩ := h.kept hKept
  obtain ⟨hFinalizers, hFinalized⟩ := not_mem_of_finals hFinals
  rw [hActive] at hSum
  have hGone : (c.deleteActive sid d).Gone sid := gone_deleteActive d
  refine ⟨fun hKept' => absurd (Finset.mem_insert_self _ _) hKept',
    fun _ => ⟨hGone.inactive, hGone.unlisted, ?_⟩, fun hLe => ?_, fun thread hSome => ?_,
    fun _ => hRows, fun f hf hSid => absurd hSid (hFinalizers f hf),
    fun hMem => absurd hMem hFinalized, fun _ => hShutdown, h.updates⟩
  · change c.live sid + c.exits sid + c.finals sid = 1
    rw [hSum, hFinals]
    rfl
  · rw [(h.fresh hLe).2.1] at hActive
    cases hActive
  · rw [hGone.inactive] at hSome
    cases hSome

theorem SessionInv.deleteActive_other {d : Disk} {sid' : Nat} (h : c.SessionInv sid')
    (hNe : sid' ≠ sid) (hRows : c.disk.NoRows sid' → d.NoRows sid')
    (hRecord : c.disk.db.sessions.get? sid' = none → d.db.sessions.get? sid' = none)
    (hTombstone : c.disk.hasTombstone sid' → d.hasTombstone sid') :
    (c.deleteActive sid d).SessionInv sid' := by
  have hActive : (c.deleteActive sid d).activeSessions.get? sid' = c.activeSessions.get? sid' := by
    rw [deleteActive, OrdMap.get?_erase, if_neg hNe]
  have hList : (c.deleteActive sid d).sessionMetadata.get? sid' =
      c.sessionMetadata.get? sid' := by
    rw [deleteActive, OrdMap.get?_erase, if_neg hNe]
  have hMem : sid' ∈ (c.deleteActive sid d).deletedSessions ↔ sid' ∈ c.deletedSessions := by
    simp [deleteActive, hNe]
  refine ⟨?_, ?_, fun hLe => ?_, ?_, fun hDeleted => ?_,
    fun f hf hSid hPhase => hRows (h.finalizing f hf hSid hPhase),
    fun hFinalized => hRows (h.finalized hFinalized),
    fun hDeleted => h.shutdown (hMem.mp hDeleted), h.updates⟩
  · rw [hMem, hActive]
    exact h.kept
  · rw [hMem, hActive, hList]
    exact h.deleted
  · obtain ⟨hKept, hInactive, hNone⟩ := h.fresh hLe
    exact ⟨fun hDeleted => hKept (hMem.mp hDeleted), hActive.trans hInactive, hRecord hNone⟩
  · rw [hActive]
    exact h.owner
  · exact (h.rows (hMem.mp hDeleted)).imp hTombstone (And.imp_left hRows)

/-- The session with this thread is marked as deleted: its thread has ended and its
rows are deleted, or it is told to end and there is a tombstone. -/
theorem keeps_deleteActive {d : Disk} {thread : ThreadId}
    (hActive : c.activeSessions.get? sid = some thread) (hBounded : c.disk.Bounded → d.Bounded)
    (hRows : ∀ sid', c.disk.NoRows sid' → d.NoRows sid')
    (hRecord : ∀ sid', c.disk.db.sessions.get? sid' = none → d.db.sessions.get? sid' = none)
    (hTombstone : ∀ sid', sid' ≠ sid → c.disk.hasTombstone sid' → d.hasTombstone sid')
    (hSelf : c.Inv → (d.hasTombstone sid ∨ d.NoRows sid ∧ c.live sid = 0) ∧
      ∀ t ∈ c.threads, t.livesFor sid = true → t.ShuttingDown) :
    Keeps c (c.deleteActive sid d) := by
  refine ⟨fun h => ⟨fun sid' => ?_, h.threads, h.ids, hBounded h.disk⟩, fun h sid' hGone => ?_, rfl⟩
  · by_cases hEq : sid' = sid
    · subst hEq
      exact (h.session sid').deleteActive_self hActive (hSelf h).1 (hSelf h).2
    · exact (h.session sid').deleteActive_other hEq (hRows sid') (hRecord sid')
        (hTombstone sid' hEq)
  · have hEq : sid' ≠ sid := by
      rintro rfl
      rw [hGone.inactive] at hActive
      cases hActive
    refine ⟨?_, ?_, fun hKept => hRows sid' (hGone.rows fun hDeleted => ?_)⟩
    · rw [deleteActive, OrdMap.get?_erase, if_neg hEq]
      exact hGone.unlisted
    · rw [deleteActive, OrdMap.get?_erase, if_neg hEq]
      exact hGone.inactive
    · exact hKept (Finset.mem_insert_of_mem hDeleted)

/-- The session has no thread that the loop knows: its rows are deleted at once. The
tombstone of a deletion that is not finished stays. -/
def deleteInactive (c : Core) (sid : Nat) : Core :=
  { c with
    sessionMetadata := c.sessionMetadata.erase sid
    disk :=
      if sid ∈ c.deletedSessions then c.disk.deleteSession sid
      else (c.disk.deleteSession sid).clearSessionTombstone sid }

theorem deleteInactive_db :
    (c.deleteInactive sid).disk.db = (c.disk.deleteSession sid).db := by
  unfold deleteInactive
  dsimp only
  split <;> rfl

theorem unlisted_deleteInactive {sid' : Nat} (h : c.sessionMetadata.get? sid' = none) :
    (c.deleteInactive sid).sessionMetadata.get? sid' = none := by
  rw [deleteInactive, OrdMap.get?_erase]
  split
  · rfl
  · exact h

theorem gone_deleteInactive (hDisk : c.disk.Bounded) (h : c.activeSessions.get? sid = none) :
    (c.deleteInactive sid).Gone sid where
  unlisted := by rw [deleteInactive, OrdMap.get?_erase, if_pos rfl]
  inactive := h
  rows _ := (hDisk.noRows_deleteSession sid).of_db_eq deleteInactive_db

theorem keeps_deleteInactive (sid : Nat) : Keeps c (c.deleteInactive sid) := by
  have hRows : ∀ sid', c.disk.NoRows sid' → (c.deleteInactive sid).disk.NoRows sid' :=
    fun sid' hOld => (hOld.deleteSession sid).of_db_eq deleteInactive_db
  have hTombstone : ∀ sid', sid' ∈ c.deletedSessions → c.disk.hasTombstone sid' →
      (c.deleteInactive sid).disk.hasTombstone sid' := by
    intro sid' hDeleted hOld
    unfold deleteInactive
    dsimp only
    split
    · exact hOld
    · rename_i hKept
      apply Disk.hasTombstone_clear hOld
      rintro rfl
      exact hKept hDeleted
  refine ⟨fun h => ⟨fun sid' => ?_, h.threads, h.ids, ?_⟩, fun h sid' hGone => ?_, rfl⟩
  · have hInv := h.session sid'
    refine ⟨hInv.kept, fun hDeleted => ?_, fun hLe => ?_, hInv.owner, fun hDeleted => ?_,
      fun f hf hSid hPhase => hRows sid' (hInv.finalizing f hf hSid hPhase),
      fun hMem => hRows sid' (hInv.finalized hMem), hInv.shutdown, hInv.updates⟩
    · obtain ⟨hInactive, hUnlisted, hSum⟩ := hInv.deleted hDeleted
      exact ⟨hInactive, unlisted_deleteInactive hUnlisted, hSum⟩
    · obtain ⟨hKept, hInactive, hNone⟩ := hInv.fresh hLe
      refine ⟨hKept, hInactive, ?_⟩
      rw [deleteInactive_db]
      exact Disk.record_deleteSession_eq_none hNone sid
    · exact (hInv.rows hDeleted).imp (hTombstone sid' hDeleted) (And.imp_left (hRows sid'))
  · exact (h.disk.deleteSession sid).of_db_eq deleteInactive_db
  · exact ⟨unlisted_deleteInactive hGone.unlisted, hGone.inactive,
      fun hKept => hRows sid' (hGone.rows hKept)⟩

/-! ## A restart -/

/-- The daemon is opened on what the database holds. -/
def restart (c : Core) : Core :=
  let disk := c.disk.purgeTombstonedSessions
  let loop := System.openState disk
  { nextSessionId := loop.nextSessionId
    activeSessions := loop.activeSessions
    sessionMetadata := loop.sessionMetadata
    deletedSessions := loop.deletedSessions
    inbox := loop.inbox
    threads := c.threads.map Thread.kill
    finalizers := []
    disk := disk
    marks := c.marks }

theorem live_restart (c : Core) (sid : Nat) : c.restart.live sid = 0 := by
  apply List.countP_eq_zero.mpr
  intro t ht
  obtain ⟨t₀, -, rfl⟩ := List.mem_map.mp ht
  simp [Thread.livesFor, Thread.live, Thread.kill]

/-- The sessions that are listed after a start are the ones with a record. -/
theorem openState_get? (d : Disk) (sid : Nat) :
    (System.openState d).sessionMetadata.get? sid =
      (d.db.sessions.get? sid).map metadataOfRecord := by
  rcases OrdMap.get?_insertAll_cases OrdMap.empty
    (d.db.sessions.entries.map fun e => (e.1, metadataOfRecord e.2)) sid with
    ⟨metadata, hMem, hGet⟩ | ⟨hNotMem, hGet⟩
  · obtain ⟨e, he, hEq⟩ := List.mem_map.mp hMem
    obtain ⟨rfl, rfl⟩ := Prod.mk.inj hEq
    rw [System.openState, hGet, OrdMap.get?_eq_some_iff.mpr he]
    rfl
  · have hNone : d.db.sessions.get? sid = none := by
      apply OrdMap.get?_eq_none_iff.mpr
      intro hKey
      obtain ⟨e, he, hEq⟩ := List.mem_map.mp hKey
      exact hNotMem _ (List.mem_map.mpr ⟨e, he, rfl⟩) hEq
    rw [System.openState, hGet, hNone]
    rfl

theorem lt_nextSessionId_openState {d : Disk} {record : SessionRecord}
    (h : d.db.sessions.get? sid = some record) : sid < (System.openState d).nextSessionId := by
  have hMem : sid ∈ (System.openState d).sessionMetadata.keys := by
    apply OrdMap.mem_keys_iff.mpr
    rw [openState_get?, h]
    exact ⟨_, rfl⟩
  show sid < (System.openState d).sessionMetadata.lastKey?.elim 1 (· + 1)
  cases hLast : (System.openState d).sessionMetadata.lastKey? with
  | none =>
    rw [OrdMap.lastKey?_eq_none_iff.mp hLast] at hMem
    cases hMem
  | some k => exact Nat.lt_succ_of_le (OrdMap.le_lastKey? hLast hMem)

theorem Gone.noRows_purge (hInv : c.Inv) (h : c.Gone sid) :
    c.disk.purgeTombstonedSessions.NoRows sid := by
  apply hInv.disk.noRows_purge
  by_cases hDeleted : sid ∈ c.deletedSessions
  · exact ((hInv.session sid).rows hDeleted).imp_right And.left
  · exact .inr (h.rows hDeleted)

theorem keeps_restart : Keeps c c.restart := by
  refine ⟨fun h => ⟨fun sid => ?_, fun t ht => ?_, fun t ht => ?_, h.disk.purge⟩,
    fun h sid hGone => ?_, rfl⟩
  · have hLive := live_restart c sid
    refine ⟨fun _ => ⟨rfl, ?_⟩, fun hMem => absurd hMem (Finset.notMem_empty _), fun hLe => ?_,
      fun thread hSome => ?_, fun hMem => absurd hMem (Finset.notMem_empty _),
      fun f hf => absurd hf (List.not_mem_nil), fun hMem => absurd hMem (List.not_mem_nil),
      fun hMem => absurd hMem (Finset.notMem_empty _), fun before metadata after hSplit => ?_⟩
    · rw [hLive]
      rfl
    · refine ⟨Finset.notMem_empty _, rfl, ?_⟩
      cases hGet : c.restart.disk.db.sessions.get? sid with
      | none => rfl
      | some record => exact absurd (lt_nextSessionId_openState hGet) (Nat.not_lt.mpr hLe)
    · cases hSome
    · have hNil : [] = before ++ DaemonCommand.updateMetadata sid metadata :: after := hSplit
      simp at hNil
  · obtain ⟨t₀, -, rfl⟩ := List.mem_map.mp ht
    exact Thread.ok_kill t₀
  · obtain ⟨t₀, ht₀, rfl⟩ := List.mem_map.mp ht
    exact h.ids t₀ ht₀
  · have hRows := hGone.noRows_purge h
    refine ⟨?_, rfl, fun _ => hRows⟩
    show (System.openState _).sessionMetadata.get? sid = none
    rw [openState_get?, hRows.record]
    rfl

end Core

end Choreographr.Daemon
