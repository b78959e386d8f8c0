import Choreographr.Daemon.Proofs.Deletion

/-!
# What a deletion or a cancel reaches below a session

A list entry names the parent of its session, so the listed sessions below a session
form a tree of any depth. The loop finds children in a map of its own instead. The map
gets an entry when a session is created, loses it when the parent's thread exits, and
starts empty; a deletion and a cancel read one level of it.
-/

namespace Choreographr.Daemon

open Session Lib

namespace System

variable {s s' : System} {sid d : Nat} {thread : ThreadId} {command : SessionCommand} {t : Thread}
  {ids : List Nat}

/-- A listed session names its parent. -/
def ParentOf (s : System) (parent child : Nat) : Prop :=
  ∃ metadata, s.loop.sessionMetadata.get? child = some metadata ∧
    metadata.parentSessionId = some parent

/-- The listed sessions below a session. -/
inductive Descendant (s : System) (sid : Nat) : Nat → Prop where
  | child {d : Nat} (h : s.ParentOf sid d) : Descendant s sid d
  | deeper {d parent : Nat} (hParent : Descendant s sid parent) (h : s.ParentOf parent d) :
      Descendant s sid d

theorem Descendant.listed (h : s.Descendant sid d) : s.loop.sessionMetadata.get? d ≠ none := by
  cases h with
  | child h =>
    obtain ⟨metadata, hGet, -⟩ := h
    simp [hGet]
  | deeper _ h =>
    obtain ⟨metadata, hGet, -⟩ := h
    simp [hGet]

/-- The session has a running thread with an active request. -/
structure Busy (s : System) (sid : Nat) (thread : ThreadId) (t : Thread) : Prop where
  active : s.loop.activeSessions.get? sid = some thread
  get : s.threads[thread]? = some t
  running : t.phase = .running
  request : t.activeRequests ≠ []

/-- How often a thread is told to cancel all its requests. -/
def cancels (s : System) (thread : ThreadId) : Nat :=
  (s.threads[thread]?).elim 0 fun t => t.queue.count (.cancel 0)

/-- The session has a thread, or is listed. -/
def Known (s : System) (sid : Nat) : Prop :=
  s.loop.activeSessions.get? sid ≠ none ∨ s.loop.sessionMetadata.get? sid ≠ none

/-- A deletion deletes every descendant, and a cancel cancels every active request of
a descendant. -/
def ReachesSubtree (s : System) (a : Action) (s' : System) (_ : List Event) : Prop :=
  ∀ env rest, a = .loop env →
    (∀ client sid, s.loop.inbox = .deleteSession client sid :: rest →
      ∀ d, s.Descendant sid d → s'.core.Gone d) ∧
    ∀ sid streamId, s.loop.inbox = .cancelRequest sid streamId :: rest → s.Known sid →
      ∀ d thread t, s.Descendant sid d → d ≠ sid → s.Busy d thread t →
        s.cancels thread < s'.cancels thread

/-- Where a deletion or a cancel is handled, the loop's map has every descendant that it
should reach among the children of the session. -/
def RecordsSubtree (s : System) (a : Action) (_ : System) (_ : List Event) : Prop :=
  ∀ env rest, a = .loop env →
    (∀ client sid, s.loop.inbox = .deleteSession client sid :: rest →
      ∀ d, s.Descendant sid d → d ≠ sid → d ∈ s.childrenOf sid) ∧
    ∀ sid streamId, s.loop.inbox = .cancelRequest sid streamId :: rest → s.Known sid →
      ∀ d thread t, s.Descendant sid d → d ≠ sid → s.Busy d thread t → d ∈ s.childrenOf sid

/-! ## Commands to session threads -/

theorem cancels_sendSession_of_ne {i : ThreadId} (h : command ≠ .cancel 0 ∨ i ≠ thread) :
    (s.sendSession i command).cancels thread = s.cancels thread := by
  unfold cancels sendSession modifyThread
  by_cases hEq : i = thread
  · subst hEq
    rw [List.getElem?_modify_eq]
    cases hGet : s.threads[i]? with
    | none => rfl
    | some t =>
      have hCommand := h.resolve_right (fun hNe => hNe rfl)
      rw [Option.map_eq_map, Option.map_some, Option.elim_some, Option.elim_some]
      split
      · rfl
      · rw [List.count_append, List.count_singleton, beq_false_of_ne hCommand]
        rfl
  · rw [List.getElem?_modify_ne _ _ hEq]

theorem cancels_sendSession_cancel (hGet : s.threads[thread]? = some t) (hOpen : t.finished = false) :
    (s.sendSession thread (.cancel 0)).cancels thread = s.cancels thread + 1 := by
  rw [cancels, cancels, getElem?_sendSession hGet hOpen, hGet]
  simp

theorem le_cancels_sendSession (s : System) (i thread : ThreadId) (command : SessionCommand) :
    s.cancels thread ≤ (s.sendSession i command).cancels thread := by
  by_cases h : command ≠ .cancel 0 ∨ i ≠ thread
  · rw [cancels_sendSession_of_ne h]
  · simp only [not_or, not_not] at h
    obtain ⟨rfl, rfl⟩ := h
    cases hGet : s.threads[i]? with
    | none =>
      rw [cancels, hGet]
      exact Nat.zero_le _
    | some t =>
      cases hFinished : t.finished with
      | false =>
        rw [cancels_sendSession_cancel hGet hFinished]
        exact Nat.le_succ _
      | true =>
        rw [cancels, cancels, sendSession, modifyThread, List.getElem?_modify_eq, hGet]
        simp [hFinished]

theorem cancels_sendActive_of_ne
    (h : command ≠ .cancel 0 ∨ s.loop.activeSessions.get? d ≠ some thread) :
    (s.sendActive d command).cancels thread = s.cancels thread := by
  unfold sendActive
  split
  · rename_i i hActive
    apply cancels_sendSession_of_ne
    refine h.imp_right fun hNe hEq => ?_
    rw [hEq] at hActive
    exact hNe hActive
  · rfl

theorem cancels_removeClient (s : System) (client : ClientId) :
    (s.removeClient client).cancels thread = s.cancels thread := by
  have hFold : ∀ (xs : List (Nat × ThreadId)) (s : System),
      (xs.foldl (fun s e => s.sendSession e.2 (.removeSubscriber client)) s).cancels thread =
        s.cancels thread := by
    intro xs
    induction xs with
    | nil => exact fun _ => rfl
    | cons e rest ih =>
      intro s
      rw [List.foldl_cons, ih]
      exact cancels_sendSession_of_ne (.inl (by simp))
  unfold removeClient
  split
  · rfl
  · exact hFold _ _

theorem cancels_handleEvictClient (s : System) (client : ClientId) :
    (s.handleEvictClient client).cancels thread = s.cancels thread := by
  unfold handleEvictClient
  split
  · rfl
  · rw [cancels_removeClient]
    unfold send
    split <;> rfl

theorem cancels_evictions (clients : List ClientId) (s : System) :
    (clients.foldl handleEvictClient s).cancels thread = s.cancels thread := by
  induction clients generalizing s with
  | nil => rfl
  | cons client rest ih => rw [List.foldl_cons, ih, cancels_handleEvictClient]

/-! ## A cancel -/

/-- Cancel the active ones of a list of sessions. -/
def cancelAll (s : System) (ids : List Nat) : System :=
  ids.foldl (fun s child => s.sendActive child (.cancel 0)) s

theorem cancels_cancelAll_of_notMem (h : ∀ id ∈ ids, s.loop.activeSessions.get? id ≠ some thread) :
    (s.cancelAll ids).cancels thread = s.cancels thread := by
  induction ids generalizing s with
  | nil => rfl
  | cons id rest ih =>
    rw [cancelAll, List.foldl_cons, ← cancelAll, ih]
    · exact cancels_sendActive_of_ne (.inr (h id List.mem_cons_self))
    · intro id' hMem
      rw [loop_sendActive]
      exact h id' (List.mem_cons_of_mem _ hMem)

theorem le_cancels_cancelAll (ids : List Nat) (s : System) :
    s.cancels thread ≤ (s.cancelAll ids).cancels thread := by
  induction ids generalizing s with
  | nil => exact Nat.le_refl _
  | cons id rest ih =>
    refine Nat.le_trans ?_ (ih (s.sendActive id (.cancel 0)))
    unfold sendActive
    split
    · exact le_cancels_sendSession s _ thread _
    · exact Nat.le_refl _

theorem sendActive_open {id : Nat} (h : ∃ t, s.threads[thread]? = some t ∧ t.finished = false) :
    ∃ t, (s.sendActive id command).threads[thread]? = some t ∧ t.finished = false := by
  obtain ⟨t, hGet, hOpen⟩ := h
  unfold sendActive
  split
  · rename_i i _
    by_cases hEq : i = thread
    · subst hEq
      exact ⟨_, getElem?_sendSession hGet hOpen command, hOpen⟩
    · exact ⟨t, (List.getElem?_modify_ne _ _ hEq).trans hGet, hOpen⟩
  · exact ⟨t, hGet, hOpen⟩

theorem lt_cancels_cancelAll (hMem : d ∈ ids) (hActive : s.loop.activeSessions.get? d = some thread)
    (hOpen : ∃ t, s.threads[thread]? = some t ∧ t.finished = false) :
    s.cancels thread < (s.cancelAll ids).cancels thread := by
  induction ids generalizing s with
  | nil => cases hMem
  | cons id rest ih =>
    rcases List.mem_cons.mp hMem with rfl | hMem
    · obtain ⟨t, hGet, hFinished⟩ := hOpen
      refine Nat.lt_of_lt_of_le ?_ (le_cancels_cancelAll rest (s.sendActive d (.cancel 0)))
      rw [sendActive, hActive, cancels_sendSession_cancel hGet hFinished]
      exact Nat.lt_succ_self _
    · have hRest : (s.sendActive id (.cancel 0)).cancels thread <
          ((s.sendActive id (.cancel 0)).cancelAll rest).cancels thread := by
        apply ih hMem
        · rw [loop_sendActive]
          exact hActive
        · exact sendActive_open hOpen
      refine Nat.lt_of_le_of_lt ?_ hRest
      exact le_cancels_cancelAll [id] s

theorem Busy.open (h : s.Busy d thread t) :
    ∃ t, s.threads[thread]? = some t ∧ t.finished = false :=
  ⟨t, h.get, finished_of_live (Thread.live_of_running h.running)⟩

theorem Busy.other (hInv : s.core.Inv) (h : s.Busy d thread t) {id : Nat} (hNe : id ≠ d) :
    s.loop.activeSessions.get? id ≠ some thread := by
  intro hActive
  obtain ⟨t₁, hGet₁, hSid₁⟩ := ((hInv.session id).owner thread hActive).known
  obtain ⟨t₂, hGet₂, hSid₂⟩ := ((hInv.session d).owner thread h.active).known
  rw [hGet₁] at hGet₂
  cases hGet₂
  exact hNe (hSid₁.symm.trans hSid₂)

/-- A cancel reaches a busy session below another exactly if it is recorded as its
child. -/
theorem cancels_handleCancelRequest (hInv : s.core.Inv) (hKnown : s.Known sid) (hNe : d ≠ sid)
    (hBusy : s.Busy d thread t) (streamId : Nat) :
    s.cancels thread < (s.handleCancelRequest sid streamId).cancels thread ↔
      d ∈ s.childrenOf sid := by
  have hFirst : (s.sendActive sid (.cancel streamId)).cancels thread = s.cancels thread :=
    cancels_sendActive_of_ne (.inr (hBusy.other hInv hNe.symm))
  have hLoop : (s.sendActive sid (.cancel streamId)).loop = s.loop := loop_sendActive s sid _
  have hCancel : s.handleCancelRequest sid streamId =
      (s.sendActive sid (.cancel streamId)).cancelAll (s.childrenOf sid) := by
    rw [handleCancelRequest, cancelChildrenOf, if_neg, childrenOf, hLoop]
    · rfl
    · rw [hLoop]
      simpa [Known, not_and_or, imp_iff_not_or] using hKnown
  rw [hCancel, ← hFirst]
  constructor
  · intro hLt
    by_contra hNotMem
    have hSame : ((s.sendActive sid (.cancel streamId)).cancelAll (s.childrenOf sid)).cancels
        thread = (s.sendActive sid (.cancel streamId)).cancels thread := by
      apply cancels_cancelAll_of_notMem
      intro id hMem
      rw [hLoop]
      apply hBusy.other hInv
      rintro rfl
      exact hNotMem hMem
    omega
  · intro hMem
    refine lt_cancels_cancelAll hMem ?_ (sendActive_open hBusy.open)
    rw [hLoop]
    exact hBusy.active

/-! ## A deletion -/

theorem sessionMetadata_deleteAndForget (s : System) (id : Nat) :
    (s.deleteAndForget id).core.sessionMetadata = s.core.sessionMetadata.erase id := by
  unfold deleteAndForget deleteSessionInner
  split
  · dsimp only
    split
    · rw [unlistSession, core_broadcast]
      rfl
    · rw [unlistSession, core_broadcast]
      rfl
  · rw [unlistSession, core_broadcast]
    rfl

theorem listed_foldl_deleteAndForget (h : d ∉ ids) (s : System) :
    (ids.foldl deleteAndForget s).core.sessionMetadata.get? d = s.core.sessionMetadata.get? d := by
  induction ids generalizing s with
  | nil => rfl
  | cons id rest ih =>
    rw [List.mem_cons, not_or] at h
    rw [List.foldl_cons, ih h.2, sessionMetadata_deleteAndForget, OrdMap.get?_erase, if_neg h.1]

theorem sessionMetadata_removeClient (s : System) (client : ClientId) :
    (s.removeClient client).loop.sessionMetadata = s.loop.sessionMetadata := by
  have hFold : ∀ (xs : List (Nat × ThreadId)) (s : System),
      (xs.foldl (fun s e => s.sendSession e.2 (.removeSubscriber client)) s).loop = s.loop := by
    intro xs
    induction xs with
    | nil => exact fun _ => rfl
    | cons e rest ih =>
      intro s
      rw [List.foldl_cons, ih]
      rfl
  unfold removeClient
  split
  · rfl
  · rw [hFold]

theorem sessionMetadata_evictions (clients : List ClientId) (s : System) :
    (clients.foldl handleEvictClient s).loop.sessionMetadata = s.loop.sessionMetadata := by
  induction clients generalizing s with
  | nil => rfl
  | cons client rest ih =>
    rw [List.foldl_cons, ih]
    unfold handleEvictClient
    split
    · rfl
    · rw [sessionMetadata_removeClient]
      unfold send
      split <;> rfl

/-- A deletion deletes a listed session exactly if it is the session itself or recorded
as its child. -/
theorem gone_handleDeleteSession (hInv : s.core.Inv) (hListed : s.loop.sessionMetadata.get? d ≠ none)
    (client : ClientId) (evicted : List ClientId) :
    (evicted.foldl handleEvictClient (s.handleDeleteSession client sid)).core.Gone d ↔
      d ∈ s.deleteTargets sid := by
  constructor
  · intro hGone
    by_contra hNotMem
    have hSame : (s.deleteCascade sid).core.sessionMetadata.get? d =
        s.loop.sessionMetadata.get? d := listed_foldl_deleteAndForget hNotMem (s.forgetChildren sid)
    have hUnlisted : (evicted.foldl handleEvictClient
        (s.handleDeleteSession client sid)).loop.sessionMetadata.get? d = none := hGone.unlisted
    rw [sessionMetadata_evictions] at hUnlisted
    exact hListed (hSame.symm.trans hUnlisted)
  · intro hMem
    have hCascade : (s.deleteCascade sid).core.Inv := (keeps_deleteCascade s sid).inv hInv
    have hGone : (s.handleDeleteSession client sid).core.Gone d := by
      rw [handleDeleteSession, core_resume, core_emit_mark _ rfl]
      exact (gone_deleteCascade hInv hMem).mark _
    have hHandled : (s.handleDeleteSession client sid).core.Inv := by
      rw [handleDeleteSession, core_resume, core_emit_mark _ rfl]
      exact hCascade.mark _
    exact (keeps_foldl keeps_handleEvictClient _ _).gone hHandled d hGone

/-! ## Runs -/

theorem loopStep_eq {env : LoopEnv} {command : DaemonCommand} {rest : List DaemonCommand}
    (hInbox : s.loop.inbox = command :: rest) (hStep : s.loopStep env = some s') :
    s' = env.overLag.foldl handleEvictClient ((s.popped rest).handleCommand env command) := by
  unfold loopStep at hStep
  rw [hInbox] at hStep
  dsimp only at hStep
  split at hStep
  · cases hStep
    rfl
  · cases hStep

theorem reachesSubtree_step {a : Action} {os : List Event} (hInv : s.core.Inv)
    (hStep : daemon.step s a = some (s', os)) :
    s.ReachesSubtree a s' os ↔ s.RecordsSubtree a s' os := by
  obtain ⟨s₁, hNext, hEq⟩ := Option.map_eq_some_iff.mp hStep
  cases hEq
  set s₀ : System := { s with events := [] }
  have hInv₀ : s₀.core.Inv := hInv.mark []
  refine forall_congr' fun env => forall_congr' fun rest => forall_congr' fun hLoop => ?_
  subst hLoop
  refine and_congr ?_ ?_
  · refine forall_congr' fun client => forall_congr' fun sid => forall_congr' fun hInbox => ?_
    have hInbox₀ : s₀.loop.inbox = .deleteSession client sid :: rest := hInbox
    have hPopped : (s₀.popped rest).core.Inv := (keeps_popped hInbox₀ rfl).inv hInv₀
    refine forall_congr' fun d => forall_congr' fun hDescendant => ?_
    rw [loopStep_eq hInbox₀ hNext]
    refine (gone_handleDeleteSession (s := s₀.popped rest) hPopped hDescendant.listed client
      env.overLag).trans ?_
    show d ∈ s.childrenOf sid ++ [sid] ↔ _
    rw [List.mem_append, List.mem_singleton, or_comm]
    exact or_iff_not_imp_left
  · refine forall_congr' fun sid => forall_congr' fun streamId => forall_congr' fun hInbox => ?_
    have hInbox₀ : s₀.loop.inbox = .cancelRequest sid streamId :: rest := hInbox
    have hPopped : (s₀.popped rest).core.Inv := (keeps_popped hInbox₀ rfl).inv hInv₀
    refine forall_congr' fun hKnown => forall_congr' fun d => forall_congr' fun thread =>
      forall_congr' fun t => forall_congr' fun _ => forall_congr' fun hNe =>
      forall_congr' fun hBusy => ?_
    rw [loopStep_eq hInbox₀ hNext, cancels_evictions]
    exact cancels_handleCancelRequest (s := s₀.popped rest) hPopped hKnown hNe
      ⟨hBusy.active, hBusy.get, hBusy.running, hBusy.request⟩ streamId

/-- In every run, the deletions and the cancels reach every descendant exactly if the
loop has recorded each of them as a child of the session. -/
theorem reachesSubtree_iff_recordsSubtree (as : List Action) :
    daemon.EveryStep ReachesSubtree init as ↔ daemon.EveryStep RecordsSubtree init as :=
  Machine.everyStep_congr (fun hInv hStep => (advances_step hInv hStep).1)
    (fun hInv hStep => reachesSubtree_step hInv hStep) inv_init as

/-! A client creates a session, one below it, and one below that. The deletion of the
first does not reach the last. -/

/-- The session that a command deletes. -/
def deletes? : List DaemonCommand → Option Nat
  | .deleteSession _ sid :: _ => some sid
  | _ => none

def nestedRun : List Action :=
  [.connect 0, .loop sampleLoopEnv,
    .request 0 (.createSession {}), .conn 0, .loop sampleLoopEnv, .conn 0,
    .request 0 (.createSession { parentSessionId := some 1 }), .conn 0, .loop sampleLoopEnv, .conn 0,
    .request 0 (.createSession { parentSessionId := some 2 }), .conn 0, .loop sampleLoopEnv, .conn 0,
    .request 0 (.deleteSession 1), .conn 0]

theorem grandchild_survives : daemon.check init nestedRun (fun s₁ _ =>
    decide (deletes? s₁.loop.inbox = some 1) &&
    decide ((s₁.loop.sessionMetadata.get? 2).map SessionMetadata.parentSessionId = some (some 1)) &&
    decide ((s₁.loop.sessionMetadata.get? 3).map SessionMetadata.parentSessionId = some (some 2)) &&
    daemon.check s₁ [.loop sampleLoopEnv] fun s₂ _ =>
      (s₂.loop.sessionMetadata.get? 3).isSome) = true := by
  decide +kernel

theorem deletion_misses_grandchild :
    ¬∀ as, daemon.EveryStep ReachesSubtree init as := by
  intro h
  obtain ⟨s₁, os₁, hRun, hTest⟩ := Machine.exists_of_check grandchild_survives
  simp only [Bool.and_eq_true, decide_eq_true_eq] at hTest
  obtain ⟨⟨⟨hDeletes, hChild⟩, hGrandchild⟩, hTest⟩ := hTest
  obtain ⟨s₂, os₂, hStep, hListed⟩ := Machine.exists_of_check hTest
  rw [Machine.exec_singleton] at hStep
  have hReaches := (h (nestedRun ++ [.loop sampleLoopEnv])).last hRun hStep
  obtain ⟨child, hChild, hParent⟩ := Option.map_eq_some_iff.mp hChild
  obtain ⟨grandchild, hGrandchild, hParent'⟩ := Option.map_eq_some_iff.mp hGrandchild
  have hDescendant : s₁.Descendant 1 3 :=
    .deeper (.child ⟨child, hChild, hParent⟩) ⟨grandchild, hGrandchild, hParent'⟩
  unfold deletes? at hDeletes
  split at hDeletes
  · rename_i client sid rest hInbox
    cases hDeletes
    have hGone := (hReaches sampleLoopEnv rest rfl).1 client 1 hInbox 3 hDescendant
    have hUnlisted : s₂.loop.sessionMetadata.get? 3 = none := hGone.unlisted
    rw [hUnlisted] at hListed
    cases hListed
  · cases hDeletes

end System

end Choreographr.Daemon
