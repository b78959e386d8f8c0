import Choreographr.Daemon.Proofs.Line

/-!
# What a session thread has on its way to the loop

What a session thread tells the loop is first among its effects and then in the inbox
of the loop. Both together are the thread's pipeline, and performing an effect does not
change it. Along the pipeline a broadcast stands where the loop's record of the direct
subscribers is the one that the thread had when it made the broadcast (`Fits`).
-/

namespace Choreographr.Daemon

open Session Lib

/-! ## Broadcasts of one thread -/

/-- The place of a fan-out among those of a thread: first the activity subscribers are
served, then the summary subscribers. -/
def DaemonCommand.stamp (thread : ThreadId) : DaemonCommand → Option Nat
  | .broadcastActivity _ tag => if tag.thread = thread then some (2 * tag.number) else none
  | .broadcastSessionStatus _ _ tag =>
      if tag.thread = thread then some (2 * tag.number + 1) else none
  | _ => none

def ThreadEffect.stamp : ThreadEffect → Option Nat
  | .broadcast number => some (2 * number)
  | .broadcastSessionStatus _ number => some (2 * number + 1)
  | _ => none

/-- The effect is the broadcast itself. -/
def ThreadEffect.announces (number : Nat) : ThreadEffect → Bool
  | .broadcast n => n = number
  | _ => false

/-- The effects that tell the loop about the subscribers of the thread. -/
def ThreadEffect.tracks : ThreadEffect → Bool
  | .track _ | .untrack _ => true
  | _ => false

/-- What an effect tells the loop. -/
def ThreadEffect.command? (sid : Nat) (thread : ThreadId) : ThreadEffect → Option DaemonCommand
  | .updateMetadata metadata => some (.updateMetadata sid metadata)
  | .track client => some (.trackSessionSubscription client sid)
  | .untrack client => some (.untrackSessionSubscription client sid)
  | .broadcast number => some (.broadcastActivity sid ⟨thread, number⟩)
  | .broadcastSessionStatus status number =>
      some (.broadcastSessionStatus sid status ⟨thread, number⟩)
  | .write _ | .sendStarted _ _ | .sendState _ => none

/-- A thread does something while the client is one of its subscribers, or is not. -/
def Line.perform (k : Line) (thread : ThreadId) (sid : Nat) (e : ThreadEffect)
    (subscribed : Bool) : Line :=
  { k with
    inbox := k.inbox ++ (e.command? sid thread).toList
    heard := fun tag => k.heard tag +
      if thread = tag.thread ∧ e.announces tag.number = true ∧ subscribed = true then 1 else 0
    entitled := fun tag => k.entitled tag ||
      (decide (thread = tag.thread) && (e.announces tag.number && subscribed)) }

theorem Line.perform_quiet {k : Line} {thread : ThreadId} {sid : Nat} {e : ThreadEffect}
    {subscribed : Bool} (h : ∀ number, e.announces number = false) :
    k.perform thread sid e subscribed =
      { k with inbox := k.inbox ++ (e.command? sid thread).toList } := by
  simp [Line.perform, h]

/-- What is known of the broadcasts of one thread, for one client: how many copies it has,
whether it was entitled to one, and whether it wanted all activity when the loop served
the activity subscribers. -/
structure Tally where
  copies : Nat → Nat
  due : Nat → Bool
  seen : Nat → Bool

def Tally.silent (t : Tally) (number : Nat) : Prop :=
  t.copies number = 0 ∧ t.due number = false ∧ t.seen number = false

/-- A broadcast that is on its way counts as if the thread had made it now. -/
def Tally.expecting (t : Tally) (p : Port) : Tally where
  copies number :=
    if p.effects.any (ThreadEffect.announces number) then p.subscribed.toNat else t.copies number
  due := t.due
  seen := t.seen

/-- The copies of a broadcast are the ones that the client should have when the loop comes
to the command, with `m` its membership then. -/
def DaemonCommand.fits (thread : ThreadId) (sid : Nat) (t : Tally) (m : Option Bool) :
    DaemonCommand → Prop
  | .broadcastActivity sid' tag => tag.thread = thread →
      sid' = sid ∧ t.seen tag.number = false ∧
        t.copies tag.number = if m = some true then 1 else 0
  | .broadcastSessionStatus sid' _ tag => tag.thread = thread →
      sid' = sid ∧ t.copies tag.number = if m = some true ∨ t.seen tag.number = true then 1 else 0
  | _ => True

/-- Every command fits the membership at its place. -/
def Fits (client : ClientId) (thread : ThreadId) (sid : Nat) (t : Tally) :
    Option Bool → List DaemonCommand → Prop
  | _, [] => True
  | m, command :: rest =>
      command.fits thread sid t m ∧ Fits client thread sid t (command.follow client sid m) rest

section Fits

variable {client : ClientId} {thread : ThreadId} {sid : Nat} {t t' : Tally} {m : Option Bool}
  {xs ys : List DaemonCommand} {command : DaemonCommand}

theorem fits_append : Fits client thread sid t m (xs ++ ys) ↔
    Fits client thread sid t m xs ∧
      Fits client thread sid t (xs.foldl (DaemonCommand.follow client sid) m) ys := by
  induction xs generalizing m with
  | nil => exact ⟨fun h => ⟨trivial, h⟩, fun h => h.2⟩
  | cons x rest ih =>
    rw [List.cons_append, Fits, Fits, ih, List.foldl_cons, and_assoc]

theorem Fits.imp (h : Fits client thread sid t m xs)
    (hImp : ∀ command ∈ xs, ∀ m, command.fits thread sid t m → command.fits thread sid t' m) :
    Fits client thread sid t' m xs := by
  induction xs generalizing m with
  | nil => trivial
  | cons x rest ih =>
    exact ⟨hImp x List.mem_cons_self m h.1,
      ih h.2 fun command hMem => hImp command (List.mem_cons_of_mem x hMem)⟩

theorem fits_iff_forall (hFollow : ∀ command ∈ xs, command.follow client sid m = m) :
    Fits client thread sid t m xs ↔ ∀ command ∈ xs, command.fits thread sid t m := by
  induction xs with
  | nil => exact ⟨fun _ command hMem => absurd hMem List.not_mem_nil, fun _ => trivial⟩
  | cons x rest ih =>
    have hRest : ∀ command ∈ rest, command.follow client sid m = m :=
      fun command hMem => hFollow command (List.mem_cons_of_mem x hMem)
    rw [Fits, hFollow x List.mem_cons_self, ih hRest, List.forall_mem_cons]

/-- What a command fits are the copies and the record of its own broadcast. -/
theorem DaemonCommand.fits_congr {m' : Option Bool} (h : command.fits thread sid t m)
    (hMember : m = some true ↔ m' = some true)
    (hSame : ∀ i, command.stamp thread = some i →
      t'.copies (i / 2) = t.copies (i / 2) ∧ t'.seen (i / 2) = t.seen (i / 2)) :
    command.fits thread sid t' m' := by
  cases command with
  | broadcastActivity sid' tag =>
    intro hThread
    obtain ⟨hCopies, hSeen⟩ := hSame _ (if_pos hThread)
    rw [show 2 * tag.number / 2 = tag.number by omega] at hCopies hSeen
    obtain ⟨hSid, hNot, hCount⟩ := h hThread
    exact ⟨hSid, hSeen.trans hNot, by simpa only [hCopies, hMember] using hCount⟩
  | broadcastSessionStatus sid' status tag =>
    intro hThread
    obtain ⟨hCopies, hSeen⟩ := hSame _ (if_pos hThread)
    rw [show (2 * tag.number + 1) / 2 = tag.number by omega] at hCopies hSeen
    obtain ⟨hSid, hCount⟩ := h hThread
    exact ⟨hSid, by simpa only [hCopies, hSeen, hMember] using hCount⟩
  | _ => trivial

theorem DaemonCommand.fits_of_stamp (h : command.stamp thread = none) :
    command.fits thread sid t m := by
  cases command with
  | broadcastActivity sid' tag =>
    intro hThread
    rw [stamp, if_pos hThread] at h
    cases h
  | broadcastSessionStatus sid' status tag =>
    intro hThread
    rw [stamp, if_pos hThread] at h
    cases h
  | _ => trivial

theorem Fits.of_stamps (h : xs.filterMap (DaemonCommand.stamp thread) = []) :
    Fits client thread sid t m xs := by
  induction xs generalizing m with
  | nil => trivial
  | cons x rest ih =>
    rw [List.filterMap_eq_nil_iff] at h
    refine ⟨DaemonCommand.fits_of_stamp (h x List.mem_cons_self), ih ?_⟩
    rw [List.filterMap_eq_nil_iff]
    exact fun y hMem => h y (List.mem_cons_of_mem x hMem)

theorem foldl_follow_of_forall {m : Option Bool}
    (h : ∀ command ∈ xs, command.follow client sid m = m) :
    xs.foldl (DaemonCommand.follow client sid) m = m := by
  induction xs with
  | nil => rfl
  | cons x rest ih =>
    rw [List.foldl_cons, h x List.mem_cons_self]
    exact ih fun command hMem => h command (List.mem_cons_of_mem x hMem)

end Fits

/-! ## What a thread broadcasts -/

/-- Effects that come to the broadcasts with the numbers from `a` on, below `b`. A change
of status comes to the summary subscribers behind its broadcast. -/
structure Spoken (a b : Nat) (effects : List ThreadEffect) : Prop where
  le : a ≤ b
  noTrack : ∀ e ∈ effects, e.tracks = false
  sorted : (effects.filterMap ThreadEffect.stamp).Pairwise (· < ·)
  range : ∀ i ∈ effects.filterMap ThreadEffect.stamp, 2 * a ≤ i ∧ i < 2 * b
  whole : ∀ status number, .broadcastSessionStatus status number ∈ effects →
    effects.any (ThreadEffect.announces number) = true

namespace Spoken

variable {a b c : Nat} {xs ys : List ThreadEffect}

theorem quiet (h : ∀ e ∈ xs, e.tracks = false ∧ e.stamp = none) : Spoken a a xs := by
  have hNone : xs.filterMap ThreadEffect.stamp = [] := by
    rw [List.filterMap_eq_nil_iff]
    exact fun e he => (h e he).2
  refine ⟨le_rfl, fun e he => (h e he).1, ?_, ?_, fun status number hMem => ?_⟩
  · rw [hNone]
    exact List.Pairwise.nil
  · rw [hNone]
    exact fun i hMem => absurd hMem List.not_mem_nil
  · cases (h _ hMem).2

theorem append (h : Spoken a b xs) (h' : Spoken b c ys) : Spoken a c (xs ++ ys) where
  le := h.le.trans h'.le
  noTrack e he := by
    rcases List.mem_append.mp he with he | he
    · exact h.noTrack e he
    · exact h'.noTrack e he
  sorted := by
    rw [List.filterMap_append, List.pairwise_append]
    refine ⟨h.sorted, h'.sorted, fun i hi j hj => ?_⟩
    have hBelow := (h.range i hi).2
    have hAbove := (h'.range j hj).1
    omega
  range i hi := by
    have hLeft := h.le
    have hRight := h'.le
    rw [List.filterMap_append] at hi
    rcases List.mem_append.mp hi with hi | hi
    · have hRange := h.range i hi
      omega
    · have hRange := h'.range i hi
      omega
  whole status number hMem := by
    rw [List.any_append, Bool.or_eq_true]
    exact (List.mem_append.mp hMem).imp (h.whole status number) (h'.whole status number)

theorem broadcast (a : Nat) : Spoken a (a + 1) [.broadcast a] where
  le := Nat.le_succ a
  noTrack e he := by
    rw [List.mem_singleton.mp he]
    rfl
  sorted := List.pairwise_singleton _ _
  range i hi := by
    rw [List.mem_singleton.mp hi]
    omega
  whole status number hMem := by
    cases List.mem_singleton.mp hMem

theorem status (a : Nat) (status : SessionStatus) :
    Spoken a (a + 1) [.broadcast a, .broadcastSessionStatus status a] where
  le := Nat.le_succ a
  noTrack e he := by
    rcases List.mem_pair.mp he with rfl | rfl <;> rfl
  sorted := List.pairwise_pair.mpr (Nat.lt_succ_self _)
  range i hi := by
    rcases List.mem_pair.mp hi with rfl | rfl <;> omega
  whole status' number hMem := by
    rcases List.mem_pair.mp hMem with hEq | hEq
    · cases hEq
    · cases hEq
      simp [ThreadEffect.announces]

end Spoken

namespace Thread

variable {t t' t'' : Thread}

/-- The thread adds broadcasts to what it does next, and keeps its subscribers. -/
def Speaks (t t' : Thread) : Prop :=
  ∃ more, t'.effects = t.effects ++ more ∧ t'.subscribers = t.subscribers ∧
    Spoken t.broadcasts t'.broadcasts more

theorem Speaks.of_eq (hEffects : t'.effects = t.effects)
    (hSubscribers : t'.subscribers = t.subscribers)
    (hBroadcasts : t'.broadcasts = t.broadcasts) : t.Speaks t' := by
  refine ⟨[], by rw [hEffects, List.append_nil], hSubscribers, ?_⟩
  rw [hBroadcasts]
  exact Spoken.quiet fun e he => absurd he List.not_mem_nil

theorem Speaks.trans (h : t.Speaks t') (h' : t'.Speaks t'') : t.Speaks t'' := by
  obtain ⟨xs, hEffects, hSubscribers, hSpoken⟩ := h
  obtain ⟨ys, hEffects', hSubscribers', hSpoken'⟩ := h'
  refine ⟨xs ++ ys, ?_, hSubscribers'.trans hSubscribers, hSpoken.append hSpoken'⟩
  rw [hEffects', hEffects, List.append_assoc]

theorem speaks_broadcast (t : Thread) : t.Speaks t.broadcast :=
  ⟨[.broadcast t.broadcasts], rfl, rfl, Spoken.broadcast t.broadcasts⟩

theorem speaks_broadcastStatus (t : Thread) (status : SessionStatus) :
    t.Speaks (t.broadcastStatus status) :=
  ⟨[.broadcast t.broadcasts, .broadcastSessionStatus status t.broadcasts], rfl, rfl,
    Spoken.status t.broadcasts status⟩

theorem speaks_andThen (t : Thread) {effects : List ThreadEffect}
    (h : ∀ e ∈ effects, e.tracks = false ∧ e.stamp = none) : t.Speaks (t.andThen effects) :=
  ⟨effects, rfl, rfl, Spoken.quiet h⟩

theorem speaks_cancelOne (t : Thread) (streamId : Nat) : t.Speaks (t.cancelOne streamId) := by
  unfold cancelOne
  split
  · exact speaks_broadcast _
  · exact .of_eq rfl rfl rfl

theorem speaks_cancel (ids : List Nat) (t : Thread) : t.Speaks (ids.foldl cancelOne t) := by
  induction ids generalizing t with
  | nil => exact .of_eq rfl rfl rfl
  | cons id rest ih => exact (speaks_cancelOne t id).trans (ih (t.cancelOne id))

theorem speaks_startRequest (t : Thread) : t.Speaks t.startRequest := speaks_broadcast t.nextStream

theorem quiet_writeTurns (env : ProcessEnv) {e : ThreadEffect} (h : e ∈ env.writeTurns) :
    e.tracks = false ∧ e.stamp = none := by
  obtain ⟨x, -, rfl⟩ := List.mem_map.mp h
  exact ⟨rfl, rfl⟩

theorem speaks_handleRequestFinished (t : Thread) (streamId : Nat) (env : ProcessEnv) :
    t.Speaks (t.handleRequestFinished streamId env) := by
  have hWrites : ∀ e ∈ ThreadEffect.write (.record (t.ownRecord env)) :: env.writeTurns,
      e.tracks = false ∧ e.stamp = none := by
    intro e he
    rcases List.mem_cons.mp he with rfl | he
    · exact ⟨rfl, rfl⟩
    · exact quiet_writeTurns env he
  have hUpdate : ∀ e ∈ [ThreadEffect.updateMetadata (t.ownMetadata env)],
      e.tracks = false ∧ e.stamp = none := by
    intro e he
    rw [List.mem_singleton.mp he]
    exact ⟨rfl, rfl⟩
  exact ((speaks_andThen t hWrites).trans (speaks_andThen _ hUpdate)).trans
    (speaks_broadcastStatus _ .inactive)

theorem speaks_handleEdit (t : Thread) (env : ProcessEnv) : t.Speaks (t.handleEdit env) := by
  refine Speaks.trans (speaks_andThen t fun e he => ?_) (speaks_broadcast _)
  rcases List.mem_cons.mp he with rfl | he
  · exact ⟨rfl, rfl⟩
  · rcases List.mem_cons.mp he with rfl | he
    · exact ⟨rfl, rfl⟩
    · exact quiet_writeTurns env he

/-- The commands that change the subscribers of the thread. -/
def changesSubscribers : SessionCommand → Bool
  | .attach _ | .detach _ | .removeSubscriber _ => true
  | _ => false

theorem speaks_processCommand (t : Thread) (env : ProcessEnv) {command : SessionCommand}
    (h : changesSubscribers command = false) : t.Speaks (t.processCommand env command).1 := by
  cases command with
  | attach client => cases h
  | detach client => cases h
  | removeSubscriber client => cases h
  | runInput =>
    unfold processCommand handleRunInput
    dsimp only
    split
    · exact speaks_broadcast t.nextStream
    · exact speaks_startRequest t
  | runChildInput =>
    unfold processCommand handleRunChildInput
    dsimp only
    split
    · exact .of_eq rfl rfl rfl
    · exact speaks_startRequest t
  | cancel streamId => exact speaks_cancel _ t
  | requestFinished streamId => exact speaks_handleRequestFinished t streamId env
  | broadcast => exact speaks_broadcast t
  | statusChanged status => exact speaks_broadcastStatus t status
  | edit => exact speaks_handleEdit t env
  | shutdown => exact speaks_cancel t.activeRequests { t with shutdownRequested := true }

end Thread

/-! ## Ports -/

namespace Port

/-- What a thread that does not exist has. -/
def absent : Port where
  sessionId := 0
  live := false
  subscribed := false
  effects := []
  broadcasts := 0
  queue := []

/-- What the thread still has to tell the loop. -/
def commands (thread : ThreadId) (p : Port) : List DaemonCommand :=
  p.effects.filterMap (ThreadEffect.command? p.sessionId thread)

variable {client : ClientId} {thread : ThreadId} {p p' : Port}

theorem stamp_command? (sid : Nat) (e : ThreadEffect) :
    (e.command? sid thread).bind (DaemonCommand.stamp thread) = e.stamp := by
  cases e with
  | broadcast number =>
    show DaemonCommand.stamp thread (.broadcastActivity sid ⟨thread, number⟩) = some (2 * number)
    exact if_pos rfl
  | broadcastSessionStatus status number =>
    show DaemonCommand.stamp thread (.broadcastSessionStatus sid status ⟨thread, number⟩) =
      some (2 * number + 1)
    exact if_pos rfl
  | _ => rfl

theorem stamps_commands (p : Port) :
    (p.commands thread).filterMap (DaemonCommand.stamp thread) =
      p.effects.filterMap ThreadEffect.stamp := by
  rw [commands, List.filterMap_filterMap]
  congr 1
  funext e
  exact stamp_command? p.sessionId e

/-- How a thread that has nothing left to do takes a command of a client that stays. -/
structure Takes (client : ClientId) (p p' : Port) : Prop where
  sessionId : p'.sessionId = p.sessionId
  live : p.live = true ∧ p'.live = true
  idle : p.effects = []
  queue : ∀ command ∈ p'.queue, command ∈ p.queue
  /-- It makes broadcasts, or it changes its subscribers and tells the loop. -/
  speech : (p'.subscribed = p.subscribed ∧ Spoken p.broadcasts p'.broadcasts p'.effects) ∨
    (p'.broadcasts = p.broadcasts ∧ p'.effects.filterMap ThreadEffect.stamp = [] ∧
      ∀ thread, (p'.commands thread).foldl (DaemonCommand.follow client p.sessionId)
        (some p.subscribed) = some p'.subscribed)
  /-- A client that has sent nothing stays out. -/
  stranger : p.queue = [] → p.subscribed = false → p'.subscribed = false ∧
    ∀ e ∈ p'.effects, e ≠ .track client

end Port

namespace Thread

variable {t t' : Thread} {client : ClientId} {env : ProcessEnv}

theorem port_leave (t : Thread) (leaves : Bool) (record : SessionRecord)
    (hRunning : t.phase = .running) :
    (if leaves then { t with phase := .persisting record } else t).port client = t.port client := by
  split
  · have hLive : t.live = true := live_of_running hRunning
    unfold port
    rw [hLive]
    rfl
  · rfl

theorem commands_map_sendStarted (c : ClientId) (sid : Nat) (thread : ThreadId) (ids : List Nat) :
    (ids.map (ThreadEffect.sendStarted c)).filterMap (ThreadEffect.command? sid thread) = [] := by
  rw [List.filterMap_eq_nil_iff]
  intro e he
  obtain ⟨id, -, rfl⟩ := List.mem_map.mp he
  rfl

theorem stamps_map_sendStarted (c : ClientId) (ids : List Nat) :
    (ids.map (ThreadEffect.sendStarted c)).filterMap ThreadEffect.stamp = [] := by
  rw [List.filterMap_eq_nil_iff]
  intro e he
  obtain ⟨id, -, rfl⟩ := List.mem_map.mp he
  rfl

/-- A command changes the subscribers and tells the loop, or makes broadcasts. -/
theorem speech_processCommand (t : Thread) (env : ProcessEnv) {command : SessionCommand}
    (hEffects : t.effects = []) (hOther : command ≠ .removeSubscriber client) :
    ((((t.processCommand env command).1.port client).subscribed = (t.port client).subscribed ∧
      Spoken t.broadcasts (t.processCommand env command).1.broadcasts
        (t.processCommand env command).1.effects)) ∨
    ((t.processCommand env command).1.broadcasts = t.broadcasts ∧
      (t.processCommand env command).1.effects.filterMap ThreadEffect.stamp = [] ∧
      ∀ thread, (((t.processCommand env command).1.port client).commands thread).foldl
        (DaemonCommand.follow client t.sessionId) (some (t.port client).subscribed) =
          some ((t.processCommand env command).1.port client).subscribed) := by
  cases hKind : changesSubscribers command with
  | false =>
    obtain ⟨more, hMore, hSubscribers, hSpoken⟩ := speaks_processCommand t env hKind
    rw [hEffects, List.nil_append] at hMore
    refine .inl ⟨?_, ?_⟩
    · show decide (client ∈ (t.processCommand env command).1.subscribers) =
        decide (client ∈ t.subscribers)
      rw [hSubscribers]
    · rw [hMore]
      exact hSpoken
  | true =>
    right
    cases command with
    | attach c =>
      refine ⟨rfl, ?_, fun thread => ?_⟩
      · show (t.effects ++ (_ ++ _ ++ _)).filterMap _ = _
        rw [hEffects, List.nil_append, List.filterMap_append, List.filterMap_append,
          stamps_map_sendStarted]
        rfl
      · show ((t.effects ++ ([ThreadEffect.track c] ++
          t.activeRequests.map (ThreadEffect.sendStarted c) ++ [ThreadEffect.sendState c])).filterMap
            (ThreadEffect.command? t.sessionId thread)).foldl _
          (some (decide (client ∈ t.subscribers))) = some (decide (client ∈ insert c t.subscribers))
        rw [hEffects, List.nil_append, List.filterMap_append, List.filterMap_append,
          commands_map_sendStarted]
        by_cases hEq : c = client
        · simp [List.filterMap_cons, ThreadEffect.command?, DaemonCommand.follow, hEq]
        · simp [List.filterMap_cons, ThreadEffect.command?, DaemonCommand.follow, hEq, Ne.symm hEq]
    | detach c =>
      refine ⟨rfl, ?_, fun thread => ?_⟩
      · show (t.effects ++ [ThreadEffect.untrack c]).filterMap _ = _
        rw [hEffects]
        rfl
      · show ((t.effects ++ [ThreadEffect.untrack c]).filterMap
          (ThreadEffect.command? t.sessionId thread)).foldl _
          (some (decide (client ∈ t.subscribers))) = some (decide (client ∈ t.subscribers.erase c))
        rw [hEffects, List.nil_append]
        by_cases hEq : c = client
        · simp [ThreadEffect.command?, DaemonCommand.follow, hEq]
        · simp [ThreadEffect.command?, DaemonCommand.follow, hEq, Ne.symm hEq]
    | removeSubscriber c =>
      have hNe : client ≠ c := by
        rintro rfl
        exact hOther rfl
      refine ⟨rfl, ?_, fun thread => ?_⟩
      · show t.effects.filterMap _ = _
        rw [hEffects]
        rfl
      · show (t.effects.filterMap (ThreadEffect.command? t.sessionId thread)).foldl _
          (some (decide (client ∈ t.subscribers))) = some (decide (client ∈ t.subscribers.erase c))
        rw [hEffects]
        simp [hNe]
    | _ => cases hKind

/-- A client that is no subscriber and does not attach stays out. -/
theorem stranger_processCommand (t : Thread) (env : ProcessEnv) {command : SessionCommand}
    (hEffects : t.effects = []) (hOther : command ≠ .attach client) (hOut : client ∉ t.subscribers) :
    client ∉ (t.processCommand env command).1.subscribers ∧
      ∀ e ∈ (t.processCommand env command).1.effects, e ≠ .track client := by
  cases hKind : changesSubscribers command with
  | false =>
    obtain ⟨more, hMore, hSubscribers, hSpoken⟩ := speaks_processCommand t env hKind
    rw [hEffects, List.nil_append] at hMore
    refine ⟨by rwa [hSubscribers], fun e he hEq => ?_⟩
    rw [hMore] at he
    have hTracks := hSpoken.noTrack e he
    rw [hEq] at hTracks
    cases hTracks
  | true =>
    cases command with
    | attach c =>
      have hNe : client ≠ c := by
        rintro rfl
        exact hOther rfl
      refine ⟨fun hMem => ?_, fun e he hEq => ?_⟩
      · exact hOut (Finset.mem_of_mem_insert_of_ne hMem hNe)
      · subst hEq
        change .track client ∈ t.effects ++ (_ ++ _ ++ _) at he
        simp [hEffects, hNe] at he
    | detach c =>
      refine ⟨fun hMem => hOut (Finset.mem_of_mem_erase hMem), fun e he hEq => ?_⟩
      subst hEq
      change .track client ∈ t.effects ++ [_] at he
      simp [hEffects] at he
    | removeSubscriber c =>
      refine ⟨fun hMem => hOut (Finset.mem_of_mem_erase hMem), fun e he => ?_⟩
      change e ∈ t.effects at he
      rw [hEffects] at he
      exact absurd he List.not_mem_nil
    | _ => cases hKind

/-- A thread takes the next command. -/
theorem takes_processNext (hNext : t.processNext env = some t')
    (hStays : .removeSubscriber client ∉ t.queue) :
    (t.port client).Takes client (t'.port client) := by
  unfold processNext at hNext
  split at hNext
  rotate_left
  · cases hNext
  rename_i command rest hPhase hEffects hQueue
  obtain ⟨hFrame, -⟩ := frame_processCommand { t with queue := rest } env command
  have hRunning : ({ t with queue := rest }.processCommand env command).1.phase = .running :=
    hFrame.phase.trans hPhase
  have hPort : t'.port client =
      ({ t with queue := rest }.processCommand env command).1.port client := by
    cases hNext
    exact port_leave _ _ _ hRunning
  have hOther : command ≠ .removeSubscriber client := by
    rintro rfl
    exact hStays (by simp [hQueue])
  have hStranger : (t.port client).queue = [] → command ≠ .attach client := by
    rintro hNone rfl
    simp [port, hQueue, SessionCommand.joins] at hNone
  rw [hPort]
  refine ⟨hFrame.sessionId, ⟨live_of_running hPhase, live_of_running hRunning⟩, hEffects,
    fun c hMem => ?_, ?_, fun hNone hOut => ?_⟩
  · have hMem' : c ∈ rest.filter (SessionCommand.joins client) := by
      have hFilter : c ∈ (_ : Thread).queue.filter (SessionCommand.joins client) := hMem
      rwa [hFrame.queue] at hFilter
    show c ∈ t.queue.filter (SessionCommand.joins client)
    rw [hQueue]
    exact List.Sublist.subset ((List.sublist_cons_self command rest).filter _) hMem'
  · exact speech_processCommand { t with queue := rest } env hEffects hOther
  · have hOut' : client ∉ ({ t with queue := rest } : Thread).subscribers := of_decide_eq_false hOut
    obtain ⟨hAfter, hTracks⟩ :=
      stranger_processCommand { t with queue := rest } env hEffects (hStranger hNone) hOut'
    exact ⟨decide_eq_false hAfter, hTracks⟩

end Thread

end Choreographr.Daemon
