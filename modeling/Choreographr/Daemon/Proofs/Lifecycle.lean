import Choreographr.Daemon.Proofs.Disk
import Choreographr.Daemon.Proofs.Threads

/-!
# The life of a session

For each session the daemon has at most one thing that will still speak for it: a
thread whose exit is not reported, an exit notice, a deletion thread, or the notice
that a deletion is done. `Inv` says which of them there is, from what the command
loop knows about the session.

`Core` is the part of the system that this depends on. The operations of the loop
on clients, connections and recorded children leave it alone; every other operation
keeps the invariant, and keeps deleted sessions deleted (`Keeps`).
-/

namespace Choreographr.Daemon

open Session Lib

/-- The events that mark the life of a session. -/
def Event.marksLife : Event → Bool
  | .created _ | .deleteAcked _ => true
  | _ => false

def DaemonCommand.isExit (sid : Nat) : DaemonCommand → Bool
  | .sessionExited sessionId => sessionId = sid
  | _ => false

def DaemonCommand.isFinalized (sid : Nat) : DaemonCommand → Bool
  | .sessionDeleteFinalized sessionId => sessionId = sid
  | _ => false

/-- A command that says nothing about the life of a session. -/
def DaemonCommand.neutral : DaemonCommand → Bool
  | .updateMetadata _ _ | .sessionExited _ | .sessionDeleteFinalized _ => false
  | _ => true

def Thread.livesFor (sid : Nat) (t : Thread) : Bool := t.live && decide (t.sessionId = sid)

theorem Thread.Same.livesFor {t t' : Thread} (h : t.Same t') (sid : Nat) :
    t'.livesFor sid = t.livesFor sid := by
  rw [Thread.livesFor, Thread.livesFor, h.live, h.sessionId]

/-- The thread that the loop knows is the one that is alive, if one is. -/
structure Owner (threads : List Thread) (sid : Nat) (thread : ThreadId) : Prop where
  known : ∃ t, threads[thread]? = some t ∧ t.sessionId = sid
  unique : ∀ (i : Nat) (t : Thread), threads[i]? = some t → t.livesFor sid = true → i = thread

/-- What the life of the sessions depends on. -/
structure Core where
  nextSessionId : Nat
  activeSessions : OrdMap Nat ThreadId
  sessionMetadata : OrdMap Nat SessionMetadata
  deletedSessions : Finset Nat
  inbox : List DaemonCommand
  threads : List Thread
  finalizers : List Finalizer
  disk : Disk
  marks : List Event

namespace Core

variable (c : Core) (sid : Nat)

/-- The threads whose exit is not reported yet. -/
def live : Nat := c.threads.countP (Thread.livesFor sid)

def exits : Nat := c.inbox.countP (DaemonCommand.isExit sid)

/-- The deletion threads, and the notices that they are done. -/
def finals : Nat :=
  c.finalizers.countP (fun f => f.sessionId = sid) + c.inbox.countP (DaemonCommand.isFinalized sid)

/-- What holds of one session. -/
structure SessionInv : Prop where
  kept : sid ∉ c.deletedSessions →
    c.finals sid = 0 ∧ c.live sid + c.exits sid = (c.activeSessions.get? sid).isSome.toNat
  deleted : sid ∈ c.deletedSessions → c.activeSessions.get? sid = none ∧
    c.sessionMetadata.get? sid = none ∧ c.live sid + c.exits sid + c.finals sid = 1
  fresh : c.nextSessionId ≤ sid → sid ∉ c.deletedSessions ∧
    c.activeSessions.get? sid = none ∧ c.disk.db.sessions.get? sid = none
  owner : ∀ thread, c.activeSessions.get? sid = some thread → Owner c.threads sid thread
  /-- A restart would remove what is left of a deleted session. -/
  rows : sid ∈ c.deletedSessions →
    c.disk.hasTombstone sid ∨ c.disk.NoRows sid ∧ c.live sid = 0
  finalizing : ∀ f ∈ c.finalizers, f.sessionId = sid → f.phase ≠ .deleting → c.disk.NoRows sid
  finalized : .sessionDeleteFinalized sid ∈ c.inbox → c.disk.NoRows sid
  shutdown : sid ∈ c.deletedSessions → ∀ t ∈ c.threads, t.livesFor sid = true → t.ShuttingDown
  /-- An update is followed by the exit notice of the thread that sent it. -/
  updates : ∀ before metadata after, c.inbox = before ++ .updateMetadata sid metadata :: after →
    0 < c.live sid ∨ .sessionExited sid ∈ after

structure Inv : Prop where
  session : ∀ sid, c.SessionInv sid
  threads : ∀ t ∈ c.threads, t.Ok
  ids : ∀ t ∈ c.threads, t.sessionId + 1 < 2 ^ 64
  disk : c.disk.Bounded

/-- The session is deleted: it is not listed, it has no thread that the loop knows,
and its rows are gone or will be when its deletion is finished. -/
structure Gone : Prop where
  unlisted : c.sessionMetadata.get? sid = none
  inactive : c.activeSessions.get? sid = none
  rows : sid ∉ c.deletedSessions → c.disk.NoRows sid

end Core

/-- An operation keeps the invariant and what is gone, and marks nothing. -/
structure Keeps (c c' : Core) : Prop where
  inv : c.Inv → c'.Inv
  gone : c.Inv → ∀ sid, c.Gone sid → c'.Gone sid
  marks : c'.marks = c.marks

theorem Keeps.refl (c : Core) : Keeps c c := ⟨id, fun _ _ h => h, rfl⟩

theorem Keeps.of_eq {c c' : Core} (h : c' = c) : Keeps c c' := by
  rw [h]
  exact Keeps.refl c

theorem Keeps.trans {a b c : Core} (h : Keeps a b) (h' : Keeps b c) : Keeps a c where
  inv hInv := h'.inv (h.inv hInv)
  gone hInv sid hGone := h'.gone (h.inv hInv) sid (h.gone hInv sid hGone)
  marks := h'.marks.trans h.marks

namespace Core

variable {c : Core} {sid : Nat}

theorem live_pos {t : Thread} (hMem : t ∈ c.threads) (h : t.livesFor sid = true) :
    0 < c.live sid :=
  List.countP_pos_iff.mpr ⟨t, hMem, h⟩

theorem SessionInv.known (h : c.SessionInv sid) (hLive : 0 < c.live sid + c.exits sid)
    (hInactive : c.activeSessions.get? sid = none) : sid ∈ c.deletedSessions := by
  by_contra hKept
  have hCount := (h.kept hKept).2
  rw [hInactive] at hCount
  simp at hCount
  omega

/-! ## Session threads -/

section Modify

variable {i : ThreadId} {f : Thread → Thread}

theorem live_modify (sid : Nat) (hSame : ∀ t, c.threads[i]? = some t → t.Same (f t)) :
    ({ c with threads := c.threads.modify i f } : Core).live sid = c.live sid := by
  show (c.threads.modify i f).countP _ = c.threads.countP _
  cases hGet : c.threads[i]? with
  | none => rw [List.modify_eq_self (List.getElem?_eq_none_iff.mp hGet)]
  | some t =>
    have hCount := countP_modify hGet f (p := Thread.livesFor sid)
    rw [(hSame t hGet).livesFor] at hCount
    omega

/-- A thread changes in a way that the life of its session does not see. -/
theorem keeps_modify (hSame : ∀ t, c.threads[i]? = some t → t.Ok → t.Same (f t)) :
    Keeps c { c with threads := c.threads.modify i f } := by
  refine ⟨fun h => ?_, fun h sid hGone => ⟨hGone.unlisted, hGone.inactive, hGone.rows⟩, rfl⟩
  have hOk : ∀ t, c.threads[i]? = some t → t.Same (f t) := fun t hGet =>
    hSame t hGet (h.threads t (List.mem_of_getElem? hGet))
  -- every thread of the new list is the same as the one in its place
  have hOrigin : ∀ (j : Nat) t', (c.threads.modify i f)[j]? = some t' →
      ∃ t, c.threads[j]? = some t ∧ (t' = t ∨ t.Same t') := by
    intro j t' hGet
    obtain ⟨t, hOld, hEq | ⟨rfl, rfl⟩⟩ := getElem?_modify_cases hGet
    · exact ⟨t, hOld, .inl hEq⟩
    · exact ⟨t, hOld, .inr (hOk t hOld)⟩
  have hMem : ∀ t' ∈ c.threads.modify i f, ∃ t ∈ c.threads, t' = t ∨ t.Same t' := by
    intro t' ht'
    obtain ⟨j, hGet⟩ := List.getElem?_of_mem ht'
    obtain ⟨t, hOld, hCases⟩ := hOrigin j t' hGet
    exact ⟨t, List.mem_of_getElem? hOld, hCases⟩
  refine ⟨fun sid => ?_, fun t' ht' => ?_, fun t' ht' => ?_, h.disk⟩
  · have hInv := h.session sid
    have hLive := live_modify sid hOk
    refine ⟨?_, ?_, hInv.fresh, fun thread hActive => ⟨?_, fun j t' hGet hLives => ?_⟩, ?_,
      hInv.finalizing, hInv.finalized, fun hDeleted t' ht' hLives => ?_, ?_⟩
    · rw [hLive]
      exact hInv.kept
    · rw [hLive]
      exact hInv.deleted
    · obtain ⟨t, hGet, hSid⟩ := (hInv.owner thread hActive).known
      by_cases hEq : i = thread
      · subst hEq
        refine ⟨f t, ?_, (hOk t hGet).sessionId.trans hSid⟩
        rw [List.getElem?_modify_eq, hGet]
        rfl
      · exact ⟨t, (List.getElem?_modify_ne f c.threads hEq).trans hGet, hSid⟩
    · obtain ⟨t, hOld, rfl | hSame'⟩ := hOrigin j t' hGet
      · exact (hInv.owner thread hActive).unique j t' hOld hLives
      · exact (hInv.owner thread hActive).unique j t hOld ((hSame'.livesFor sid).symm.trans hLives)
    · rw [hLive]
      exact hInv.rows
    · obtain ⟨t, hOld, rfl | hSame'⟩ := hMem t' ht'
      · exact hInv.shutdown hDeleted t' hOld hLives
      · exact hSame'.shuttingDown (hInv.shutdown hDeleted t hOld ((hSame'.livesFor sid).symm.trans hLives))
    · rw [hLive]
      exact hInv.updates
  · obtain ⟨t, hOld, rfl | hSame'⟩ := hMem t' ht'
    · exact h.threads t' hOld
    · exact hSame'.ok
  · obtain ⟨t, hOld, rfl | hSame'⟩ := hMem t' ht'
    · exact h.ids t' hOld
    · rw [hSame'.sessionId]
      exact h.ids t hOld

end Modify

/-! ## Commands sent to the loop -/

section Post

variable {command : DaemonCommand}

theorem exits_post (h : command.isExit sid = false) :
    ({ c with inbox := c.inbox ++ [command] } : Core).exits sid = c.exits sid := by
  simp [exits, List.countP_append, h]

theorem finals_post (h : command.isFinalized sid = false) :
    ({ c with inbox := c.inbox ++ [command] } : Core).finals sid = c.finals sid := by
  simp [finals, List.countP_append, h]

/-- A command that says nothing about the life of a session, or an update from a
thread that is alive. -/
theorem keeps_post (hExit : ∀ sid, command.isExit sid = false)
    (hFinalized : ∀ sid, command.isFinalized sid = false)
    (hUpdate : ∀ sid metadata, command = .updateMetadata sid metadata → 0 < c.live sid) :
    Keeps c { c with inbox := c.inbox ++ [command] } := by
  refine ⟨fun h => ⟨fun sid => ?_, h.threads, h.ids, h.disk⟩,
    fun h sid hGone => ⟨hGone.unlisted, hGone.inactive, hGone.rows⟩, rfl⟩
  have hInv := h.session sid
  refine ⟨?_, ?_, hInv.fresh, hInv.owner, hInv.rows, hInv.finalizing, ?_, hInv.shutdown, ?_⟩
  · rw [exits_post (hExit sid), finals_post (hFinalized sid)]
    exact hInv.kept
  · rw [exits_post (hExit sid), finals_post (hFinalized sid)]
    exact hInv.deleted
  · intro hMem
    rcases List.mem_append.mp hMem with hOld | hNew
    · exact hInv.finalized hOld
    · have hOther := hFinalized sid
      rw [← List.mem_singleton.mp hNew] at hOther
      simp [DaemonCommand.isFinalized] at hOther
  · intro before metadata after hSplit
    rcases append_singleton_eq_split hSplit with ⟨-, hEq, -⟩ | ⟨after', rfl, hOld⟩
    · exact .inl (hUpdate sid metadata hEq)
    · exact (hInv.updates before metadata after' hOld).imp_right fun hMem =>
        List.mem_append_left _ hMem

theorem keeps_post_neutral (h : command.neutral = true) :
    Keeps c { c with inbox := c.inbox ++ [command] } := by
  apply keeps_post
  · intro sid
    cases command <;> first | rfl | cases h
  · intro sid
    cases command <;> first | rfl | cases h
  · rintro sid metadata rfl
    cases h

end Post

/-! ## What a live thread does -/

section Live

variable {t : Thread} {i : ThreadId}

theorem livesFor_self (h : t.live = true) : t.livesFor t.sessionId = true := by
  simp [Thread.livesFor, h]

theorem keeps_update (hMem : t ∈ c.threads) (hLive : t.live = true) (metadata : SessionMetadata) :
    Keeps c { c with inbox := c.inbox ++ [.updateMetadata t.sessionId metadata] } := by
  apply keeps_post
  · exact fun _ => rfl
  · exact fun _ => rfl
  · rintro sid metadata' hEq
    cases hEq
    exact live_pos hMem (livesFor_self hLive)

/-- A session with a live thread is not being finalized, and if it is deleted it has
a tombstone. -/
theorem SessionInv.of_live (h : c.SessionInv sid) (hLive : 0 < c.live sid) :
    c.finals sid = 0 ∧ (sid ∈ c.deletedSessions → c.disk.hasTombstone sid) := by
  by_cases hDeleted : sid ∈ c.deletedSessions
  · have hOne := (h.deleted hDeleted).2.2
    refine ⟨by omega, fun _ => (h.rows hDeleted).resolve_right ?_⟩
    rintro ⟨-, hNone⟩
    omega
  · exact ⟨(h.kept hDeleted).1, fun hMem => absurd hMem hDeleted⟩

theorem SessionInv.fresh_of_live (h : c.SessionInv sid) (hLive : 0 < c.live sid) :
    sid < c.nextSessionId := by
  by_contra hLe
  obtain ⟨hKept, hInactive, -⟩ := h.fresh (by omega)
  exact hKept (h.known (by omega) hInactive)

theorem not_mem_of_finals (h : c.finals sid = 0) :
    (∀ f ∈ c.finalizers, f.sessionId ≠ sid) ∧ .sessionDeleteFinalized sid ∉ c.inbox := by
  rw [finals, Nat.add_eq_zero_iff, List.countP_eq_zero, List.countP_eq_zero] at h
  refine ⟨fun f hf => by simpa using h.1 f hf, fun hMem => ?_⟩
  exact h.2 _ hMem (by simp [DaemonCommand.isFinalized])

/-- A thread or its worker writes a row of its session. -/
theorem keeps_write (hMem : t ∈ c.threads) (hLive : t.live = true) (row : RowWrite) :
    Keeps c { c with disk := c.disk.write t.sessionId row } := by
  have hPos : 0 < c.live t.sessionId := live_pos hMem (livesFor_self hLive)
  refine ⟨fun h => ⟨fun sid => ?_, h.threads, h.ids, h.disk.write (h.ids t hMem) row⟩,
    fun h sid hGone => ⟨hGone.unlisted, hGone.inactive, fun hKept => ?_⟩, rfl⟩
  · have hInv := h.session sid
    by_cases hEq : sid = t.sessionId
    · subst hEq
      obtain ⟨hFinals, hTombstone⟩ := hInv.of_live hPos
      obtain ⟨hFinalizers, hFinalized⟩ := not_mem_of_finals hFinals
      have hFresh := hInv.fresh_of_live hPos
      refine ⟨hInv.kept, hInv.deleted, fun hLe => ?_, hInv.owner, fun hDeleted => .inl ?_,
        fun f hf hSid => absurd hSid (hFinalizers f hf), fun hMem => absurd hMem hFinalized,
        hInv.shutdown, hInv.updates⟩
      · exact absurd hFresh (Nat.not_lt.mpr hLe)
      · exact (Disk.hasTombstone_write _ _ _ _).mpr (hTombstone hDeleted)
    · refine ⟨hInv.kept, hInv.deleted, fun hLe => ?_, hInv.owner, fun hDeleted => ?_,
        fun f hf hSid hPhase => (hInv.finalizing f hf hSid hPhase).write hEq row,
        fun hMem => (hInv.finalized hMem).write hEq row, hInv.shutdown, hInv.updates⟩
      · obtain ⟨hKept, hInactive, hRecord⟩ := hInv.fresh hLe
        exact ⟨hKept, hInactive, Disk.record_write_eq_none hEq hRecord row⟩
      · exact (hInv.rows hDeleted).imp (Disk.hasTombstone_write _ _ _ _).mpr
          (And.imp_left fun hRows => hRows.write hEq row)
  · by_cases hEq : sid = t.sessionId
    · subst hEq
      exact absurd ((h.session _).known (by omega) hGone.inactive) hKept
    · exact (hGone.rows hKept).write hEq row

/-- Thread `i`, which is `t`, reports its exit. -/
def report (c : Core) (i : ThreadId) (t : Thread) : Core :=
  { c with
    threads := c.threads.modify i fun t => { t with phase := .ending }
    inbox := c.inbox ++ [.sessionExited t.sessionId] }

theorem live_report (sid : Nat) (hGet : c.threads[i]? = some t) :
    (c.report i t).live sid + (t.livesFor sid).toNat = c.live sid := by
  have hModify := countP_modify hGet (fun t => { t with phase := .ending })
    (p := Thread.livesFor sid)
  have hEnded : ({ t with phase := .ending } : Thread).livesFor sid = false := rfl
  rw [hEnded] at hModify
  exact hModify

theorem exits_report (hLive : t.live = true) :
    (c.report i t).exits sid = c.exits sid + (t.livesFor sid).toNat := by
  show List.countP _ (_ ++ [_]) = _
  by_cases hEq : t.sessionId = sid
  · simp [exits, List.countP_append, DaemonCommand.isExit, Thread.livesFor, hLive, hEq]
  · simp [exits, List.countP_append, DaemonCommand.isExit, Thread.livesFor, hEq]

theorem finals_report : (c.report i t).finals sid = c.finals sid := finals_post rfl

theorem getElem?_report (hGet : c.threads[i]? = some t) {j : Nat} {t' : Thread}
    (h : (c.report i t).threads[j]? = some t') :
    c.threads[j]? = some t' ∨ t' = { t with phase := .ending } := by
  obtain ⟨t₀, hOld, rfl | ⟨rfl, rfl⟩⟩ := getElem?_modify_cases h
  · exact .inl hOld
  · rw [hGet] at hOld
    cases hOld
    exact .inr rfl

theorem mem_report (hGet : c.threads[i]? = some t) {t' : Thread}
    (h : t' ∈ (c.report i t).threads) : t' ∈ c.threads ∨ t' = { t with phase := .ending } := by
  obtain ⟨j, hGet'⟩ := List.getElem?_of_mem h
  exact (getElem?_report hGet hGet').imp_left List.mem_of_getElem?

theorem owner_report {thread : ThreadId} (h : Owner c.threads sid thread)
    (hGet : c.threads[i]? = some t) : Owner (c.report i t).threads sid thread where
  known := by
    obtain ⟨t₀, hGet₀, hSid⟩ := h.known
    by_cases hEq : i = thread
    · subst hEq
      refine ⟨{ t₀ with phase := .ending }, ?_, hSid⟩
      rw [Core.report, List.getElem?_modify_eq, hGet₀]
      rfl
    · exact ⟨t₀, (List.getElem?_modify_ne _ c.threads hEq).trans hGet₀, hSid⟩
  unique := by
    intro j t' hGet' hLives
    rcases getElem?_report hGet hGet' with hOld | rfl
    · exact h.unique j t' hOld hLives
    · cases hLives

theorem SessionInv.report (h : c.SessionInv sid) (hGet : c.threads[i]? = some t)
    (hLive : t.live = true) : (c.report i t).SessionInv sid := by
  have hC := live_report sid hGet
  have hE : (c.report i t).exits sid = _ := exits_report hLive
  have hF : (c.report i t).finals sid = _ := finals_report
  refine ⟨fun hKept => ?_, fun hDeleted => ?_, h.fresh,
    fun thread hActive => owner_report (h.owner thread hActive) hGet, fun hDeleted => ?_, h.finalizing,
    fun hFinalized => ?_, fun hDeleted t' ht' hLives => ?_, ?_⟩
  · obtain ⟨hNone, hSum⟩ := h.kept hKept
    refine ⟨hF.trans hNone, ?_⟩
    change _ = (c.activeSessions.get? sid).isSome.toNat
    omega
  · obtain ⟨hActive, hMetadata, hSum⟩ := h.deleted hDeleted
    exact ⟨hActive, hMetadata, by omega⟩
  · exact (h.rows hDeleted).imp_right (And.imp_right fun hNone => by omega)
  · rcases List.mem_append.mp hFinalized with hOld | hNew
    · exact h.finalized hOld
    · cases List.mem_singleton.mp hNew
  · rcases mem_report hGet ht' with hOld | rfl
    · exact h.shutdown hDeleted t' hOld hLives
    · cases hLives
  · intro before metadata after hSplit
    rcases append_singleton_eq_split hSplit with ⟨-, hEq, -⟩ | ⟨after', rfl, hOld⟩
    · cases hEq
    · rcases h.updates before metadata after' hOld with hPos | hExit
      · by_cases hEq : t.sessionId = sid
        · right
          rw [hEq]
          exact List.mem_append_right _ (List.mem_singleton.mpr rfl)
        · left
          have hOther : t.livesFor sid = false := by simp [Thread.livesFor, hEq]
          rw [hOther, Bool.toNat_false] at hC
          omega
      · exact .inr (List.mem_append_left _ hExit)

/-- The last step of a live thread. -/
theorem keeps_report (hGet : c.threads[i]? = some t) (hPhase : t.phase = .reporting)
    (hEffects : t.effects = []) : Keeps c (c.report i t) := by
  refine ⟨fun h => ?_, fun h sid hGone => ⟨hGone.unlisted, hGone.inactive, hGone.rows⟩, rfl⟩
  have hMem := List.mem_of_getElem? hGet
  have hOk := h.threads t hMem
  have hLive : t.live = true := by
    rw [Thread.live, hPhase]
  refine ⟨fun sid => (h.session sid).report hGet hLive, fun t' ht' => ?_, fun t' ht' => ?_, h.disk⟩
  · rcases mem_report hGet ht' with hOld | rfl
    · exact h.threads t' hOld
    · refine ⟨fun _ => ?_, fun _ _ => hOk.stopped (by simp [hPhase]) (by simp [hPhase]), ?_,
        fun _ _ => hEffects, ?_, Thread.snapshotOk_nil hEffects⟩
      · exact (hOk.request (by simp [hPhase])).of_eq rfl rfl rfl
      · intro hRunning
        cases hRunning
      · intro hFinished
        cases hFinished
  · rcases mem_report hGet ht' with hOld | rfl
    · exact h.ids t' hOld
    · exact h.ids t hMem

end Live

/-! ## Deletion threads -/

section Finalize

variable {index : Nat} {f f' : Finalizer} {d : Disk}

theorem SessionInv.of_finals (h : c.SessionInv sid) (hFinals : 0 < c.finals sid) :
    sid ∈ c.deletedSessions ∧ c.live sid = 0 ∧ c.exits sid = 0 ∧ c.finals sid = 1 := by
  by_cases hDeleted : sid ∈ c.deletedSessions
  · have hOne := (h.deleted hDeleted).2.2
    exact ⟨hDeleted, by omega, by omega, by omega⟩
  · have hNone := (h.kept hDeleted).1
    omega

theorem finals_pos_of_mem (hMem : f ∈ c.finalizers) : 0 < c.finals f.sessionId := by
  have hPos : 0 < c.finalizers.countP (fun f' => f'.sessionId = f.sessionId) :=
    List.countP_pos_iff.mpr ⟨f, hMem, by simp⟩
  rw [finals]
  omega

/-- A deletion thread takes a step that leaves it to the session. -/
theorem Inv.finalize (h : c.Inv) (hGet : c.finalizers[index]? = some f)
    (hSid : f'.sessionId = f.sessionId) (hBounded : d.Bounded)
    (hRows : ∀ sid, c.disk.NoRows sid → d.NoRows sid)
    (hRecord : ∀ sid, c.disk.db.sessions.get? sid = none → d.db.sessions.get? sid = none)
    (hTombstone : ∀ sid, c.disk.hasTombstone sid →
      d.hasTombstone sid ∨ sid = f.sessionId ∧ d.NoRows sid)
    (hDone : d.NoRows f.sessionId) :
    ({ c with disk := d, finalizers := c.finalizers.set index f' } : Core).Inv := by
  refine ⟨fun sid => ?_, h.threads, h.ids, hBounded⟩
  have hInv := h.session sid
  have hFinals : ({ c with disk := d, finalizers := c.finalizers.set index f' } : Core).finals sid =
      c.finals sid := by
    have hCount := countP_modify hGet (fun _ => f') (p := fun f => f.sessionId = sid)
    rw [← List.set_eq_modify, hSid] at hCount
    simp only [finals]
    omega
  refine ⟨?_, ?_, fun hLe => ?_, hInv.owner, fun hDeleted => ?_, fun f₀ hf₀ hSid₀ hPhase => ?_,
    fun hMem => hRows sid (hInv.finalized hMem), hInv.shutdown, hInv.updates⟩
  · rw [hFinals]
    exact hInv.kept
  · rw [hFinals]
    exact hInv.deleted
  · obtain ⟨hKept, hInactive, hNone⟩ := hInv.fresh hLe
    exact ⟨hKept, hInactive, hRecord sid hNone⟩
  · rcases hInv.rows hDeleted with hOld | ⟨hNone, hLive⟩
    · rcases hTombstone sid hOld with hNew | ⟨rfl, hNone⟩
      · exact .inl hNew
      · have hLive := (hInv.of_finals (finals_pos_of_mem (List.mem_of_getElem? hGet))).2.1
        exact .inr ⟨hNone, hLive⟩
    · exact .inr ⟨hRows sid hNone, hLive⟩
  · rcases List.mem_or_eq_of_mem_set hf₀ with hOld | rfl
    · exact hRows sid (hInv.finalizing f₀ hOld hSid₀ hPhase)
    · rw [← hSid₀, hSid]
      exact hDone

theorem keeps_finalize_delete (hGet : c.finalizers[index]? = some f)
    (hSid : f'.sessionId = f.sessionId) :
    Keeps c { c with
      disk := c.disk.deleteSession f.sessionId
      finalizers := c.finalizers.set index f' } where
  inv h := h.finalize hGet hSid (h.disk.deleteSession _) (fun _ hRows => hRows.deleteSession _)
    (fun _ hNone => Disk.record_deleteSession_eq_none hNone _) (fun _ hOld => .inl hOld)
    (h.disk.noRows_deleteSession _)
  gone _ _ hGone :=
    ⟨hGone.unlisted, hGone.inactive, fun hKept => (hGone.rows hKept).deleteSession _⟩
  marks := rfl

/-- The deletion thread clears the tombstone, after it has deleted the rows. -/
theorem keeps_finalize_clear (hGet : c.finalizers[index]? = some f) (hPhase : f.phase ≠ .deleting)
    (hSid : f'.sessionId = f.sessionId) :
    Keeps c { c with
      disk := c.disk.clearSessionTombstone f.sessionId
      finalizers := c.finalizers.set index f' } where
  inv h := by
    have hDone : (c.disk.clearSessionTombstone f.sessionId).NoRows f.sessionId :=
      ((h.session _).finalizing f (List.mem_of_getElem? hGet) rfl hPhase).of_db_eq rfl
    refine h.finalize hGet hSid (h.disk.of_db_eq rfl) (fun _ hRows => hRows.of_db_eq rfl)
      (fun _ hNone => hNone) (fun sid hOld => ?_) hDone
    by_cases hEq : sid = f.sessionId
    · right
      rw [hEq]
      exact ⟨rfl, hDone⟩
    · left
      exact Disk.hasTombstone_clear hOld hEq
  gone h sid hGone :=
    ⟨hGone.unlisted, hGone.inactive, fun hKept => (hGone.rows hKept).of_db_eq rfl⟩
  marks := rfl

/-- The deletion thread reports that it is done. -/
theorem keeps_finalize_report (hGet : c.finalizers[index]? = some f) (hPhase : f.phase ≠ .deleting) :
    Keeps c { c with
      finalizers := c.finalizers.eraseIdx index
      inbox := c.inbox ++ [.sessionDeleteFinalized f.sessionId] } := by
  refine ⟨fun h => ⟨fun sid => ?_, h.threads, h.ids, h.disk⟩,
    fun h sid hGone => ⟨hGone.unlisted, hGone.inactive, hGone.rows⟩, rfl⟩
  have hInv := h.session sid
  have hFinals : ({ c with
      finalizers := c.finalizers.eraseIdx index
      inbox := c.inbox ++ [.sessionDeleteFinalized f.sessionId] } : Core).finals sid =
      c.finals sid := by
    have hCount := countP_eraseIdx hGet (p := fun f => f.sessionId = sid)
    simp only [finals, List.countP_append, List.countP_singleton, DaemonCommand.isFinalized]
    by_cases hEq : f.sessionId = sid
    · simp only [hEq, decide_true, Bool.toNat_true, if_true] at hCount ⊢
      omega
    · simp only [hEq, decide_false, Bool.toNat_false, Bool.false_eq_true, if_false] at hCount ⊢
      omega
  have hExits : ({ c with
      finalizers := c.finalizers.eraseIdx index
      inbox := c.inbox ++ [.sessionDeleteFinalized f.sessionId] } : Core).exits sid =
      c.exits sid := exits_post rfl
  refine ⟨?_, ?_, hInv.fresh, hInv.owner, hInv.rows, fun f₀ hf₀ => ?_, fun hMem => ?_,
    hInv.shutdown, ?_⟩
  · rw [hFinals, hExits]
    exact hInv.kept
  · rw [hFinals, hExits]
    exact hInv.deleted
  · exact hInv.finalizing f₀ (List.mem_of_mem_eraseIdx hf₀)
  · rcases List.mem_append.mp hMem with hOld | hNew
    · exact hInv.finalized hOld
    · cases List.mem_singleton.mp hNew
      exact hInv.finalizing f (List.mem_of_getElem? hGet) rfl hPhase
  · intro before metadata after hSplit
    rcases append_singleton_eq_split hSplit with ⟨-, hEq, -⟩ | ⟨after', rfl, hOld⟩
    · cases hEq
    · exact (hInv.updates before metadata after' hOld).imp_right fun hMem =>
        List.mem_append_left _ hMem

end Finalize

end Core

end Choreographr.Daemon
