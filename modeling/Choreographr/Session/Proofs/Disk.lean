import Choreographr.Session.Proofs.Runs

/-!
# Disk and memory

A worker writes the turns it has finished and lists them in `persistedTurns`;
the merge writes the remaining ones and skips those that are listed or
unchanged. `RowsOf` says which rows are there in between: the rows of the
session's own turns and those of the listed ones. After the merge the rows are
exactly the turns of the session.

A run that panics hands back the snapshot it started from, which lists
nothing, so rows that it has already written stay behind. Disk and memory
agree at rest in every run that never panics after a checkpoint.
-/

namespace Choreographr.Session

open Lib

variable {env : Env} {db : Db} {persisted : Finset Nat} {base turns : Turns} {s : SessionState}
  {t : Turn}

/-! ## Many writes -/

/-- The turn under an id in a list of entries. -/
def entryAt (entries : List (Nat × Turn)) (tid : Nat) : Option Turn :=
  (entries.find? fun e => e.1 = tid).map Prod.snd

theorem entryAt_cons_self (e : Nat × Turn) (rest : List (Nat × Turn)) :
    entryAt (e :: rest) e.1 = some e.2 := by
  simp [entryAt]

theorem entryAt_cons_of_ne {e : Nat × Turn} {rest : List (Nat × Turn)} {tid : Nat}
    (h : tid ≠ e.1) : entryAt (e :: rest) tid = entryAt rest tid := by
  simp [entryAt, Ne.symm h]

theorem entryAt_of_notMem {entries : List (Nat × Turn)} {tid : Nat}
    (h : tid ∉ entries.map Prod.fst) : entryAt entries tid = none := by
  rw [entryAt, Option.map_eq_none_iff, List.find?_eq_none]
  intro e he hEq
  exact h (List.mem_map.mpr ⟨e, he, by simpa using hEq⟩)

theorem writeTurns_readTurn {entries : List (Nat × Turn)} (hNodup : (entries.map Prod.fst).Nodup)
    (hOk : ∀ e ∈ entries, e.2.Ok ∧ e.1 + 1 < 2 ^ 32) (tid : Nat) :
    (writeTurns env db entries).readTurn env.sessionId tid =
      (entryAt entries tid).or (db.readTurn env.sessionId tid) := by
  induction entries generalizing db with
  | nil => rfl
  | cons e rest ih =>
    obtain ⟨hNotMem, hNodup⟩ := List.nodup_cons.mp hNodup
    obtain ⟨hTurn, hBound⟩ := hOk e List.mem_cons_self
    refine (ih hNodup fun e he => hOk e (List.mem_cons_of_mem _ he)).trans ?_
    by_cases hEq : tid = e.1
    · subst hEq
      rw [entryAt_of_notMem hNotMem, entryAt_cons_self, Option.none_or, Option.some_or,
        Db.readTurn_writeTurn_self hBound hTurn.oneImage]
    · rw [entryAt_cons_of_ne hEq, Db.readTurn_writeTurn_of_ne hBound hEq]

theorem mergeTurn_eq (env : Env) (persisted : Finset Nat) (turns : Turns) (db : Db)
    (e : Nat × Turn) :
    mergeTurn env persisted (turns, db) e =
      (turns.insert e.1 e.2,
        if turns.get? e.1 = some e.2 ∨ e.1 ∈ persisted then db
        else db.writeTurn env.sessionId e.1 e.2) := by
  simp only [mergeTurn]
  cases turns.get? e.1 <;> simp

/-- The merge leaves every entry on disk, if each entry that it skips is there
already. -/
theorem mergeTurns_readTurn {entries : List (Nat × Turn)} (hNodup : (entries.map Prod.fst).Nodup)
    (hOk : ∀ e ∈ entries, e.2.Ok ∧ e.1 + 1 < 2 ^ 32)
    (hSkip : ∀ e ∈ entries, turns.get? e.1 = some e.2 ∨ e.1 ∈ persisted →
      db.readTurn env.sessionId e.1 = some e.2) (tid : Nat) :
    (entries.foldl (mergeTurn env persisted) (turns, db)).2.readTurn env.sessionId tid =
      (entryAt entries tid).or (db.readTurn env.sessionId tid) := by
  induction entries generalizing turns db with
  | nil => rfl
  | cons e rest ih =>
    obtain ⟨hNotMem, hNodup⟩ := List.nodup_cons.mp hNodup
    obtain ⟨hTurn, hBound⟩ := hOk e List.mem_cons_self
    rw [List.foldl_cons, mergeTurn_eq]
    generalize hDb : (if turns.get? e.1 = some e.2 ∨ e.1 ∈ persisted then db
      else db.writeTurn env.sessionId e.1 e.2) = db'
    -- the step on the head: its row is `e.2` afterwards and no other row changes
    have hHead : db'.readTurn env.sessionId e.1 = some e.2 := by
      rw [← hDb]
      split
      · rename_i hSkipped
        exact hSkip e List.mem_cons_self hSkipped
      · exact Db.readTurn_writeTurn_self hBound hTurn.oneImage
    have hOther : ∀ tid, tid ≠ e.1 →
        db'.readTurn env.sessionId tid = db.readTurn env.sessionId tid := by
      intro tid hNe
      rw [← hDb]
      split
      · rfl
      · exact Db.readTurn_writeTurn_of_ne hBound hNe
    have hSkipRest : ∀ e' ∈ rest, (turns.insert e.1 e.2).get? e'.1 = some e'.2 ∨
        e'.1 ∈ persisted → db'.readTurn env.sessionId e'.1 = some e'.2 := by
      intro e' he' hSkipped
      have hNe : e'.1 ≠ e.1 := by
        intro hEq
        exact hNotMem (hEq ▸ List.mem_map_of_mem he')
      rw [OrdMap.get?_insert, if_neg hNe] at hSkipped
      rw [hOther _ hNe]
      exact hSkip e' (List.mem_cons_of_mem _ he') hSkipped
    rw [ih hNodup (fun e he => hOk e (List.mem_cons_of_mem _ he)) hSkipRest]
    by_cases hEq : tid = e.1
    · subst hEq
      rw [entryAt_of_notMem hNotMem, entryAt_cons_self, Option.none_or, Option.some_or, hHead]
    · rw [entryAt_cons_of_ne hEq, hOther _ hEq]

/-! ## Rows between a clone and its merge -/

/-- The rows of the session are the turns of `base` and the listed turns of
the worker. -/
def RowsOf (env : Env) (db : Db) (base : Turns) (turns : Turns) (persisted : Finset Nat) : Prop :=
  ∀ tid, db.readTurn env.sessionId tid =
    if tid ∈ base.keys ∨ tid ∈ persisted then turns.get? tid else none

/-- Disk and memory agree. -/
def DiskIs (env : Env) (db : Db) (turns : Turns) : Prop :=
  ∀ tid, db.readTurn env.sessionId tid = turns.get? tid

theorem DiskIs.rowsOf (h : DiskIs env db turns) : RowsOf env db turns turns ∅ := by
  intro tid
  rw [h tid]
  split
  · rfl
  · rename_i hNotMem
    exact OrdMap.get?_eq_none_iff.mpr fun hMem => hNotMem (Or.inl hMem)

theorem DiskIs.of_rows {db' : Db} (h : DiskIs env db turns) (hRows : SameRows db db') :
    DiskIs env db' turns := by
  intro tid
  rw [hRows.readTurn, h tid]

theorem RowsOf.of_rows {db' : Db} (h : RowsOf env db base turns persisted) (hRows : SameRows db db') :
    RowsOf env db' base turns persisted := by
  intro tid
  rw [hRows.readTurn, h tid]

/-- The merge makes the rows those of the snapshot. -/
theorem RowsOf.merge {now : Int} {streamId : Nat} {snapshot : SessionSnapshot}
    (h : RowsOf env db s.turns snapshot.turns snapshot.persistedTurns)
    (hSnapshot : SnapshotOk s.turns snapshot) :
    DiskIs env (handleRequestFinished env now s db streamId snapshot).db snapshot.turns := by
  intro tid
  simp only [handleRequestFinished]
  rw [mergeTurns_readTurn snapshot.turns.keys_nodup hSnapshot.turns]
  · change (snapshot.turns.get? tid).or _ = _
    cases hGet : snapshot.turns.get? tid with
    | some t => rfl
    | none =>
      rw [Option.none_or, Db.readTurn_writeSession, h tid, hGet, ite_self]
  · rintro ⟨tid, t⟩ he hSkipped
    have hGet := OrdMap.get?_eq_some_iff.mpr he
    rw [Db.readTurn_writeSession, h tid, if_pos, hGet]
    rcases hSkipped with hOld | hPersisted
    · exact Or.inl (OrdMap.mem_keys_iff.mpr ⟨t, hOld⟩)
    · exact Or.inr hPersisted

theorem RowsOf.of_turns {turns' : Turns} (h : RowsOf env db base turns persisted)
    (hTurns : ∀ tid, tid ∈ base.keys ∨ tid ∈ persisted → turns'.get? tid = turns.get? tid) :
    RowsOf env db base turns' persisted := by
  intro tid
  rw [h tid]
  split
  · rename_i hMem
    rw [hTurns tid hMem]
  · rfl

theorem RowsOf.modify {id : Nat} (h : RowsOf env db base turns persisted)
    (hTurn : CurrentTurn base turns id t) (hId : id ∉ persisted) (f : Turn → Turn) :
    RowsOf env db base (turns.modify id f) persisted := by
  refine h.of_turns ?_
  intro tid hMem
  rw [OrdMap.get?_modify, if_neg]
  rintro rfl
  rcases hMem with hMem | hMem
  · exact hTurn.notMem_base hMem
  · exact hId hMem

theorem RowsOf.persist {id : Nat} (h : RowsOf env db base s.turns s.persistedTurns)
    (hTurn : CurrentTurn base s.turns id t) (hTurns : TurnsOk s.turns) :
    RowsOf env (Worker.persistTurn env db s id).2 base s.turns
      (Worker.persistTurn env db s id).1.persistedTurns := by
  obtain ⟨hOk, hBound⟩ := hTurns.get? hTurn.get?
  intro tid
  simp only [Worker.persistTurn, hTurn.get?, Finset.mem_insert]
  by_cases hEq : tid = id
  · subst hEq
    rw [Db.readTurn_writeTurn_self hBound hOk.oneImage, if_pos (Or.inr (Or.inl rfl)), hTurn.get?]
  · rw [Db.readTurn_writeTurn_of_ne hBound hEq, h tid]
    simp only [hEq, false_or]

/-- Storing the images of a turn that has no row changes no row. -/
theorem readTurn_recordToolCompletion {sid id : Nat} {c : Completion}
    (hNone : db.readTurn sid id = none) (tid : Nat) :
    (db.recordToolCompletion sid id t c).readTurn sid tid = db.readTurn sid tid := by
  have hWrite : ∀ (db : Db) (slot : String) (data : Bytes), db.readTurn sid id = none →
      ∀ tid, (db.writeAttachment sid id slot data).readTurn sid tid = db.readTurn sid tid := by
    intro db slot data hNone tid
    by_cases hEq : tid = id
    · subst hEq
      rw [hNone]
      exact Db.readTurn_writeAttachment_eq_none.mpr hNone
    · exact Db.readTurn_writeAttachment_of_ne hEq
  simp only [Db.recordToolCompletion]
  split <;> split
  · rw [hWrite _ _ _ (by rw [hWrite _ _ _ hNone, hNone]), hWrite _ _ _ hNone]
  · rw [hWrite _ _ _ hNone]
  · rw [hWrite _ _ _ hNone]
  · rfl

theorem readTurn_recordCompletions {id : Nat} (completions : List Completion)
    (hNone : db.readTurn env.sessionId id = none) (tid : Nat) :
    (Worker.recordCompletions env id s db completions).2.readTurn env.sessionId tid =
      db.readTurn env.sessionId tid := by
  induction completions generalizing s db with
  | nil => rfl
  | cons c rest ih =>
    have hStep : ∀ tid, (Worker.recordCompletion env id (s, db) c).2.readTurn env.sessionId tid =
        db.readTurn env.sessionId tid := by
      intro tid
      simp only [Worker.recordCompletion]
      split
      · exact readTurn_recordToolCompletion hNone tid
      · rfl
    rw [Worker.recordCompletions, List.foldl_cons]
    exact (ih ((hStep id).trans hNone)).trans (hStep tid)

/-! ## The worker's rows -/

/-- The turn that a phase works on. -/
def Phase.turnId? : Phase → Option Nat
  | .awaiting turnId _ => some turnId
  | .finalizing turnId _ => some turnId
  | .tools turnId _ => some turnId
  | _ => none

structure WorkerDisk (env : Env) (db : Db) (base : Turns) (w : Worker) : Prop where
  rows : RowsOf env db base w.session.turns w.session.persistedTurns
  listed : ∀ id ∈ w.session.persistedTurns, id ∈ w.session.turns.keys ∧ id ∉ base.keys
  current : ∀ id, w.phase.turnId? = some id → id ∉ w.session.persistedTurns
  returned : ∀ outcome snapshot, w.phase = .returning outcome snapshot →
    RowsOf env db base snapshot.turns snapshot.persistedTurns

namespace WorkerDisk

variable {db' : Db} {w w' : Worker}

/-- A step after which no turn is under way. -/
theorem of_between {session : SessionState} (hSession : w'.session = session)
    (hPhase : w'.phase = .top ∨ ∃ outcome, w'.phase = .returning outcome session.snapshot)
    (hRows : RowsOf env db' base session.turns session.persistedTurns)
    (hListed : ∀ id ∈ session.persistedTurns, id ∈ session.turns.keys ∧ id ∉ base.keys) :
    WorkerDisk env db' base w' := by
  subst hSession
  refine ⟨hRows, hListed, ?_, ?_⟩
  · intro id hId
    rcases hPhase with hPhase | ⟨outcome, hPhase⟩
    · rw [hPhase] at hId
      cases hId
    · rw [hPhase] at hId
      cases hId
  · intro outcome snapshot hReturning
    rcases hPhase with hPhase | ⟨outcome', hPhase⟩
    · rw [hPhase] at hReturning
      cases hReturning
    · rw [hPhase] at hReturning
      cases hReturning
      exact hRows

/-- A step that changes the turn under way. -/
theorem modify {id : Nat} {f : Turn → Turn} (h : WorkerDisk env db base w)
    (hTurn : CurrentTurn base w.session.turns id t) (hPhase : w.phase.turnId? = some id)
    (hTurns : w'.session.turns = w.session.turns.modify id f)
    (hPersisted : w'.session.persistedTurns = w.session.persistedTurns)
    (hPhase' : w'.phase.turnId? = some id)
    (hDb : ∀ tid, db'.readTurn env.sessionId tid = db.readTurn env.sessionId tid) :
    WorkerDisk env db' base w' := by
  refine ⟨?_, ?_, ?_, ?_⟩
  · intro tid
    rw [hDb, hTurns, hPersisted]
    exact h.rows.modify hTurn (h.current id hPhase) f tid
  · intro id' hId'
    rw [hTurns, OrdMap.keys_modify]
    exact h.listed id' (hPersisted ▸ hId')
  · intro id' hId'
    rw [hPhase', Option.some.injEq] at hId'
    rw [← hId', hPersisted]
    exact h.current id hPhase
  · intro outcome snapshot hReturning
    rw [hReturning] at hPhase'
    cases hPhase'

theorem beginTurn (h : WorkerDisk env db base w) (hRun : WorkerInv base w) (now : Int)
    (systemPrompt : String) : WorkerDisk env db base (w.beginTurn env now systemPrompt).1 := by
  have hFresh : ∀ k ∈ w.session.turns.keys, k ≠ w.session.nextTurnId := by
    intro k hk
    rw [hRun.nextTurnId]
    exact ne_of_lt (lt_nextTurnIdOf hk)
  refine ⟨?_, ?_, ?_, ?_⟩
  · refine h.rows.of_turns ?_
    intro tid hMem
    have hKey : tid ∈ w.session.turns.keys := by
      rcases hMem with hMem | hMem
      · exact hRun.session.extended.keys_subset tid hMem
      · exact (h.listed tid hMem).1
    exact (OrdMap.get?_insert _ _ _ _).trans (if_neg (hFresh tid hKey))
  · intro id hId
    obtain ⟨hKey, hNew⟩ := h.listed id hId
    obtain ⟨t, ht⟩ := OrdMap.mem_keys_iff.mp hKey
    refine ⟨OrdMap.mem_keys_iff.mpr ⟨t, ?_⟩, hNew⟩
    exact ((OrdMap.get?_insert _ _ _ _).trans (if_neg (hFresh id hKey))).trans ht
  · intro id hId hMem
    have hId : w.session.nextTurnId = id := Option.some.inj hId
    exact hFresh id (h.listed id hMem).1 hId.symm
  · intro outcome snapshot hReturning
    cases hReturning

theorem persist {id : Nat} (hRows : RowsOf env db base s.turns s.persistedTurns)
    (hListed : ∀ id ∈ s.persistedTurns, id ∈ s.turns.keys ∧ id ∉ base.keys)
    (hTurn : CurrentTurn base s.turns id t) (hTurns : TurnsOk s.turns) :
    RowsOf env (Worker.persistTurn env db s id).2 base s.turns
        (Worker.persistTurn env db s id).1.persistedTurns ∧
      ∀ id' ∈ (Worker.persistTurn env db s id).1.persistedTurns,
        id' ∈ s.turns.keys ∧ id' ∉ base.keys := by
  refine ⟨hRows.persist hTurn hTurns, ?_⟩
  intro id' hId'
  rcases Finset.mem_insert.mp hId' with rfl | hMem
  · exact ⟨OrdMap.mem_keys_iff.mpr ⟨t, hTurn.get?⟩, hTurn.notMem_base⟩
  · exact hListed id' hMem

/-- Every step keeps the worker's rows in order, unless it panics after a
checkpoint. -/
theorem step {server : Server} {e : WorkerEvent} {r : WorkerResult}
    (h : WorkerDisk env db base w) (hRun : WorkerInv base w)
    (hMove : w.Move env db server e r) (hNext : r.worker = some w')
    (hPanic : e = .panic → w.session.persistedTurns = ∅) : WorkerDisk env r.db base w' := by
  have hPhaseInv := hRun.phase
  cases hMove with
  | enter skills hPhase =>
    cases hNext
    exact of_between rfl (Or.inl rfl) h.rows h.listed
  | stop w'' hBetween =>
    cases hNext
    exact of_between hBetween.session_eq hBetween.phase h.rows h.listed
  | beginTurn now systemPrompt estimate hStart hBound =>
    cases hNext
    exact h.beginTurn hRun now systemPrompt
  | status status =>
    cases hNext
    exact h
  | finalText turnId request r server' hPhase hServer =>
    cases hNext
    rw [hPhase] at hPhaseInv
    obtain ⟨t, hTurn, _⟩ := hPhaseInv
    exact h.modify hTurn (by rw [hPhase]; rfl) (by rw [Worker.answer_eq])
      (by rw [Worker.answer_eq]) rfl (fun _ => rfl)
  | toolUse turnId request r server' hPhase hServer =>
    cases hNext
    rw [hPhase] at hPhaseInv
    obtain ⟨t, hTurn, _⟩ := hPhaseInv
    exact h.modify hTurn (by rw [hPhase]; rfl) (by rw [Worker.callTools_eq])
      (by rw [Worker.callTools_eq]) rfl (fun _ => rfl)
  | annotate turnId request f recoveries next hPhase hNote =>
    cases hNext
    rw [hPhase] at hPhaseInv
    obtain ⟨t, hTurn, _⟩ := hPhaseInv
    exact h.modify hTurn (by rw [hPhase]; rfl) rfl rfl rfl (fun _ => rfl)
  | finalized turnId next w'' hPhase hBetween =>
    cases hNext
    rw [hPhase] at hPhaseInv
    obtain ⟨t, hTurn⟩ := hPhaseInv
    obtain ⟨hRows, hListed⟩ := persist h.rows h.listed hTurn hRun.session.turns
    obtain ⟨responseId, producer, hEq⟩ :=
      Worker.finalizedSession_eq (Worker.persistTurn env db w.session turnId).1 next
    rw [hEq] at hBetween
    exact of_between hBetween.session_eq hBetween.phase hRows hListed
  | tool e turnId b b' completions cancels hPhase hStep =>
    cases hNext
    rw [hPhase] at hPhaseInv
    obtain ⟨t, hTurn⟩ := hPhaseInv
    have hId : w.phase.turnId? = some turnId := by
      rw [hPhase]
      rfl
    have hNone : db.readTurn env.sessionId turnId = none := by
      rw [h.rows turnId, if_neg]
      rintro (hMem | hMem)
      · exact hTurn.notMem_base hMem
      · exact h.current turnId hId hMem
    exact h.modify (f := fun t => t.recordToolCompletions env completions) hTurn hId
      (by rw [Worker.recordCompletions_fst]; rfl) (by rw [Worker.recordCompletions_fst]; rfl) rfl
      (readTurn_recordCompletions completions hNone)
  | toolsDone writeOk turnId b w'' hPhase hDone written hWritten hBetween =>
    cases hNext
    rw [hPhase] at hPhaseInv
    obtain ⟨t, hTurn⟩ := hPhaseInv
    have hId : w.phase.turnId? = some turnId := by
      rw [hPhase]
      rfl
    obtain ⟨groups, dir, skills, hEnd, _⟩ := Worker.endTools_eq env w turnId b
    have hTurns : (w.endTools env turnId b).turns =
        w.session.turns.modify turnId (Worker.ended b) := by rw [hEnd]
    have hPersisted : (w.endTools env turnId b).persistedTurns = w.session.persistedTurns := by
      rw [hEnd]
    have hRows : RowsOf env db base (w.endTools env turnId b).turns
        (w.endTools env turnId b).persistedTurns := by
      rw [hTurns, hPersisted]
      exact h.rows.modify hTurn (h.current turnId hId) _
    have hListed : ∀ id ∈ (w.endTools env turnId b).persistedTurns,
        id ∈ (w.endTools env turnId b).turns.keys ∧ id ∉ base.keys := by
      intro id hMem
      rw [hTurns, OrdMap.keys_modify]
      exact h.listed id (hPersisted ▸ hMem)
    cases writeOk with
    | false =>
      simp only [Bool.false_eq_true, if_false] at hWritten
      subst hWritten
      exact of_between hBetween.session_eq hBetween.phase hRows hListed
    | true =>
      simp only [if_true] at hWritten
      subst hWritten
      have hLive : (Worker.ended b t).undone = false := by
        rw [Worker.ended]
        split <;> exact hTurn.live
      have hTurn' : CurrentTurn base (w.endTools env turnId b).turns turnId
          (Worker.ended b t) := by
        rw [hTurns]
        exact hTurn.modify hLive
      have hOk : TurnsOk (w.endTools env turnId b).turns := by
        rw [hTurns]
        refine hTurn.turnsOk_modify hRun.session.turns ?_
        rw [Worker.ended]
        have ht := (hRun.session.turns.get? hTurn.get?).1
        split
        · exact ht.markUnexecuted _
        · exact ht
      obtain ⟨hRows, hListed⟩ := persist hRows hListed hTurn' hOk
      exact of_between hBetween.session_eq hBetween.phase hRows hListed
  | panic hPhase =>
    cases hNext
    have hNone := hPanic rfl
    refine ⟨h.rows, h.listed, ?_, ?_⟩
    · intro id hId
      cases hId
    · intro outcome snapshot hReturning
      cases hReturning
      rw [hRun.start_turns, hRun.start_persisted, ← hNone]
      refine h.rows.of_turns ?_
      intro tid hMem
      rcases hMem with hMem | hMem
      · exact (hRun.session.extended.get?_of_mem hMem).symm
      · rw [hNone] at hMem
        cases hMem
  | finish outcome snapshot hPhase => cases hNext

end WorkerDisk

/-! ## Undo and redo -/

/-- Writing the turns whose ids are in a batch brings the disk up to date, if
nothing else changed. -/
theorem DiskIs.writeTurns {turns' : Turns} {ids : List Nat} (h : DiskIs env db turns)
    (hOk : TurnsOk turns') (hTurns : ∀ tid, tid ∉ ids → turns'.get? tid = turns.get? tid)
    (hKeys : turns'.keys = turns.keys) :
    DiskIs env (Session.writeTurns env db (turns'.filter fun id _ => id ∈ ids).entries) turns' := by
  intro tid
  rw [writeTurns_readTurn (OrdMap.keys_nodup _) fun e he => hOk e (List.mem_filter.mp he).1]
  change ((turns'.filter fun id _ => id ∈ ids).get? tid).or _ = _
  rw [h tid]
  by_cases hMem : tid ∈ ids
  · cases hGet : turns'.get? tid with
    | some t =>
      have hFilter : (turns'.filter fun id _ => id ∈ ids).get? tid = some t :=
        OrdMap.get?_filter_eq_some.mpr ⟨hGet, by simpa using hMem⟩
      rw [hFilter, Option.some_or]
    | none =>
      have hNone : turns.get? tid = none := by
        rw [OrdMap.get?_eq_none_iff, ← hKeys]
        exact OrdMap.get?_eq_none_iff.mp hGet
      have hFilter : (turns'.filter fun id _ => id ∈ ids).get? tid = none := by
        rw [Option.eq_none_iff_forall_ne_some]
        intro t ht
        rw [(OrdMap.get?_filter_eq_some.mp ht).1] at hGet
        cases hGet
      rw [hFilter, hNone, Option.none_or]
  · have hFilter : (turns'.filter fun id _ => id ∈ ids).get? tid = none := by
      rw [Option.eq_none_iff_forall_ne_some]
      intro t ht
      exact hMem (by simpa using (OrdMap.get?_filter_eq_some.mp ht).2)
    rw [hFilter, hTurns tid hMem, Option.none_or]

/-! ## The system's rows -/

def DiskInv (env : Env) (s : System) : Prop :=
  Stage (DiskIs env s.db s.main.turns) (WorkerDisk env s.db s.main.turns)
    (fun snapshot => RowsOf env s.db s.main.turns snapshot.turns snapshot.persistedTurns) s

/-- A worker panics only while it has written no turn. -/
def panicsUnwritten (s : System) : Action → Bool
  | .worker .panic =>
      match s.worker with
      | some w => w.session.persistedTurns = ∅
      | none => true
  | _ => true

theorem panicsUnwritten_worker {s : System} {e : WorkerEvent} {w : Worker}
    (h : panicsUnwritten s (.worker e) = true) (hWorker : s.worker = some w) (he : e = .panic) :
    w.session.persistedTurns = ∅ := by
  subst he
  simpa [panicsUnwritten, hWorker] using h

theorem diskInv_step {s s' : System} {a : Action} {os : List Output} (hInv : Inv env s)
    (h : DiskInv env s) (hOk : panicsUnwritten s a = true) (hStep : Transition env s a s' os) :
    DiskInv env s' := by
  cases hStep with
  | quiet e targets shutdown hQuiet =>
    have hTurns : e.state.turns = s.main.turns := hQuiet.history.turns
    refine h.quiet ?_ ?_ ?_
    · intro hRest
      simp only [System.signalCancel, System.applyEffect, hTurns]
      exact hRest.of_rows hQuiet.rows
    · intro w cancels hw
      simp only [System.signalCancel, System.applyEffect, hTurns]
      exact ⟨hw.rows.of_rows hQuiet.rows, hw.listed, hw.current,
        fun outcome snapshot hReturning =>
          (hw.returned outcome snapshot hReturning).of_rows hQuiet.rows⟩
    · intro snapshot hRows
      simp only [System.signalCancel, System.applyEffect, hTurns]
      exact hRows.of_rows hQuiet.rows
  | accept e w hWorker hInbox hReadouts hAccept =>
    rw [DiskInv, Stage.rest_iff hWorker hInbox] at h
    refine (Stage.running_iff rfl).mpr ?_
    simp only [System.applyEffect, hAccept.db_eq, hAccept.history.turns]
    have hPersisted : e.state.persistedTurns = ∅ :=
      hAccept.history.persistedTurns.trans hInv.persistedTurns
    rw [hAccept.spawned]
    refine ⟨?_, ?_, ?_, ?_⟩
    · simp only [Worker.spawn, SessionState.fromSnapshot, SessionState.snapshot, hPersisted,
        hAccept.history.turns]
      exact h.rowsOf
    · intro id hId
      simp only [Worker.spawn, SessionState.fromSnapshot, SessionState.snapshot, hPersisted] at hId
      cases hId
    · intro id hId
      cases hId
    · intro outcome snapshot hReturning
      cases hReturning
  | undo e target hIdle hWorker hInbox hReadouts hUndo =>
    rw [DiskInv, Stage.rest_iff hWorker hInbox] at h
    refine (Stage.rest_iff (s := s.applyEffect e) hWorker hInbox).mpr ?_
    obtain ⟨db', hRows, hDb⟩ := hUndo.db_eq
    simp only [System.applyEffect, hDb, hUndo.turns]
    exact (h.of_rows hRows).writeTurns (turnsOk_hideFrom hInv.turns target)
      (fun tid hMem => get?_hideFrom_of_notMem hMem) (OrdMap.keys_mapVal _ _)
  | redo e ids hIdle hWorker hInbox hReadouts hRedo =>
    rw [DiskInv, Stage.rest_iff hWorker hInbox] at h
    refine (Stage.rest_iff (s := s.applyEffect e) hWorker hInbox).mpr ?_
    simp only [System.applyEffect, hRedo.db_eq, hRedo.turns]
    exact h.writeTurns (turnsOk_showTurns hInv.turns ids)
      (fun tid hMem => get?_showTurns_of_notMem hMem) (OrdMap.keys_mapVal _ _)
  | progress now m rest hInbox hProgress =>
    obtain ⟨status, usage, prompt, requests, hKeys, hState, hDb⟩ :=
      handleWorkerMessage_progress env now s.main s.db hProgress
    simp only [DiskInv, System.applyEffect, hState, hDb]
    exact Stage.progress (e := ⟨_, _, []⟩) hInbox hProgress h id (fun _ h => h) (fun _ h => h)
  | merge now streamId snapshot hInbox hWorker hActive hSnapshot =>
    rw [DiskInv, Stage.merging_iff hWorker hInbox] at h
    refine Stage.merged hWorker ?_
    simp only [System.applyEffect, handleRequestFinished_turns hSnapshot.extended]
    exact h.merge hSnapshot
  | worker e w w' r hWorker hRun hMove hNext =>
    rw [DiskInv, Stage.running_iff hWorker] at h
    refine (Stage.running_iff rfl).mpr ?_
    exact h.step hRun hMove hNext (panicsUnwritten_worker hOk hWorker)
  | finish w outcome snapshot hWorker hRun hPhase =>
    rw [DiskInv, Stage.running_iff hWorker] at h
    exact Stage.handed (h.returned outcome snapshot hPhase)
  | reload providerSlug record hIdle hWorker hInbox hRecord =>
    refine (Stage.rest_iff hWorker hInbox).mpr ?_
    intro tid
    exact (Db.get?_load env.sessionId_lt tid).symm

theorem diskInv_init (env : Env) (config : SessionConfig) (slug : Option String) :
    DiskInv env (System.init env config slug) := by
  refine (Stage.rest_iff rfl rfl).mpr ?_
  intro tid
  rfl

/-- While no worker panics after a checkpoint, the turns read back from the
database are those in memory whenever the session is at rest. -/
theorem readTurns_eq_turns_at_rest {env : Env} {config : SessionConfig} {slug : Option String}
    {actions : List Action} {s : System} {os : List Output}
    (h : ((system env).guard fun s a => panicsUnwritten s a = true).exec
      (System.init env config slug) actions = some (s, os)) (hIdle : s.Idle) :
    s.db.readTurns env.sessionId = s.main.turns.entries := by
  have hInv := inv_exec (Machine.exec_of_guard h)
  have hDisk := guarded_invariant_of_transition (P := fun _ s => DiskInv env s)
    (fun hInv hDisk hOk hStep => diskInv_step hInv hDisk hOk hStep)
    (diskInv_init env config slug) h
  obtain ⟨hWorker, hInbox, _⟩ := hInv.of_idle hIdle
  rw [DiskInv, Stage.rest_iff hWorker hInbox] at hDisk
  exact Db.readTurns_eq_entries env.sessionId_lt hDisk

/-- A run that calls one tool, checkpoints the turn and goes on with `rest`. -/
def checkpointedRun (rest : List WorkerEvent) (messages : Nat) : List Action :=
  sampleRun "list the files" (.enter [] :: (checkpointedIteration ++ rest)) messages

/-- A run with a checkpoint that ends with an answer. -/
theorem readTurns_eq_turns_after_answer :
    ∃ s os,
      ((system sampleEnv).guard fun s a => panicsUnwritten s a = true).exec
          (System.init sampleEnv (sampleConfig "chained") none)
          (checkpointedRun [.iterate 2 "" 0, .finalText { content := "README.md" },
            .finalize none, .finish] 12) = some (s, os) ∧
        s.Idle ∧ s.main.turns.keys = [0, 1] ∧
        s.db.readTurns sampleEnv.sessionId = s.main.turns.entries := by
  have hCheck : ((system sampleEnv).guard fun s a => panicsUnwritten s a = true).check
      (System.init sampleEnv (sampleConfig "chained") none)
      (checkpointedRun [.iterate 2 "" 0, .finalText { content := "README.md" },
        .finalize none, .finish] 12)
      (fun s _ => decide (s.Idle ∧ s.main.turns.keys = [0, 1])) = true := by
    decide +kernel
  obtain ⟨s, os, hExec, hTest⟩ := Machine.exists_of_check hCheck
  obtain ⟨hIdle, hKeys⟩ := of_decide_eq_true hTest
  exact ⟨s, os, hExec, hIdle, hKeys, readTurns_eq_turns_at_rest hExec hIdle⟩

/-- A panic after the checkpoint leaves the row of a turn that memory does not
have. -/
theorem readTurns_ne_turns_after_panic :
    ∃ s os,
      (system sampleEnv).exec (System.init sampleEnv (sampleConfig "chained") none)
          (checkpointedRun [.panic, .finish] 7) = some (s, os) ∧
        s.Idle ∧ s.db.readTurns sampleEnv.sessionId ≠ s.main.turns.entries := by
  have hCheck : (system sampleEnv).check
      (System.init sampleEnv (sampleConfig "chained") none)
      (checkpointedRun [.panic, .finish] 7)
      (fun s _ => decide (s.Idle ∧
        s.db.readTurns sampleEnv.sessionId ≠ s.main.turns.entries)) = true := by
    decide +kernel
  obtain ⟨s, os, hExec, hTest⟩ := Machine.exists_of_check hCheck
  exact ⟨s, os, hExec, of_decide_eq_true hTest⟩

end Choreographr.Session
