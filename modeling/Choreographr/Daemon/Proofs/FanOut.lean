import Choreographr.Daemon.Proofs.Conns
import Choreographr.Daemon.Proofs.Served

/-!
# Every broadcast is fanned out once

The steps of the daemon are moves of `Served`, and so every run in which the routes of a
client are kept apart (`routesKept`) gives a client that is there exactly the copies that
it is entitled to.
-/

namespace Choreographr.Daemon

open Session Lib

namespace System

/-- A new thread of a session meets no client that the loop still has as a subscriber of one
before it. -/
def cleanStart (s : System) (command : DaemonCommand) : Bool :=
  (s.started command).all fun sid => s.loop.clients.entries.all fun e =>
    s.lost e.1 || !decide (sid ∈ e.2.sessions)

/-- A client that is served as a summary subscriber has wanted all activity when the loop
served the activity subscribers if and only if it does now. -/
def samePath (s : System) (seen : Tag → Finset ClientId) : DaemonCommand → Bool
  | .broadcastSessionStatus sid _ tag =>
      (s.loop.sessionMetadata.get? sid).isNone || s.loop.clients.entries.all fun e =>
        s.lost e.1 || !e.2.wantsSummary || decide (sid ∈ e.2.sessions) ||
          e.2.wantsActivity == decide (e.1 ∈ seen tag)
  | _ => true

/-- The step does not mix up the paths by which a client is served. -/
def routesKept (s : System) (seen : Tag → Finset ClientId) : Action → Bool
  | .loop _ => s.loop.inbox.head?.all fun command => s.cleanStart command && s.samePath seen command
  | _ => true

/-- The clients that want all activity when the loop serves the activity subscribers. -/
def noted (s : System) (seen : Tag → Finset ClientId) : Action → Tag → Finset ClientId
  | .loop _ =>
      match s.loop.inbox with
      | .broadcastActivity _ tag :: _ =>
          Function.update seen tag (s.clientsWith ClientState.wantsActivity)
      | _ => seen
  | _ => seen

/-- The client is connected, its writer is there, and it has not been evicted. -/
def present (s : System) (client : ClientId) : Prop :=
  (s.conns client).up = true ∧ (s.conns client).writerGone = false ∧ (s.conns client).evicted = false

/-- What is known of the broadcasts of each thread, from the events of a run. -/
def tallies (client : ClientId) (os : List Event) (seen : Tag → Finset ClientId)
    (thread : ThreadId) : Tally where
  copies number := os.count (.sent client (.event ⟨thread, number⟩))
  due number := os.any (Event.entitles client ⟨thread, number⟩)
  seen number := decide (client ∈ seen ⟨thread, number⟩)

variable {s s' : System} {client : ClientId} {t : ThreadId → Tally} {thread : ThreadId}
  {th : Thread} {c : ClientId}

/-! ## Threads and ports -/

theorem port_line (hGet : s.threads[thread]? = some th) :
    (s.line client).port thread = th.port client := by
  show (((s.threads.map (Thread.port client))[thread]?).getD Port.absent) = _
  rw [List.getElem?_map, hGet]
  rfl

theorem mem_ports (hGet : s.threads[thread]? = some th) :
    th.port client ∈ (s.line client).ports :=
  List.mem_map.mpr ⟨th, List.mem_of_getElem? hGet, rfl⟩

theorem port_absent (hGet : s.threads[thread]? = none) :
    (s.line client).port thread = Port.absent := by
  show (((s.threads.map (Thread.port client))[thread]?).getD Port.absent) = _
  rw [List.getElem?_map, hGet]
  rfl

theorem port_modifyThread {f : Thread → Thread} (hGet : s.threads[thread]? = some th) (j : ThreadId) :
    ((s.modifyThread thread f).line client).port j =
      if j = thread then (f th).port client else (s.line client).port j := by
  show ((((s.threads.modify thread f).map (Thread.port client))[j]?).getD Port.absent) = _
  rw [List.getElem?_map]
  split
  · rename_i hEq
    rw [hEq, List.getElem?_modify_eq, hGet]
    rfl
  · rename_i hNe
    rw [List.getElem?_modify_ne f s.threads (Ne.symm hNe), ← List.getElem?_map]
    rfl

theorem mem_ports_modifyThread {f : Thread → Thread} (hGet : s.threads[thread]? = some th)
    {q : Port} (hMem : q ∈ ((s.modifyThread thread f).line client).ports) :
    q = (f th).port client ∨ q ∈ (s.line client).ports := by
  obtain ⟨x, hx, rfl⟩ := List.mem_map.mp hMem
  obtain ⟨j, hj⟩ := List.getElem?_of_mem hx
  obtain ⟨y, hOld, rfl | ⟨rfl, rfl⟩⟩ := getElem?_modify_cases hj
  · exact .inr (mem_ports hOld)
  · rw [hGet] at hOld
    cases hOld
    exact .inl rfl

theorem sound_line (hInv : s.core.Inv) : (s.line client).Sound where
  idle j hDead := by
    cases hGet : s.threads[j]? with
    | none =>
      rw [port_absent hGet]
      rfl
    | some th =>
      rw [port_line hGet] at hDead ⊢
      by_contra hEffects
      have hLive := (hInv.threads th (List.mem_of_getElem? hGet)).live_of_effect hEffects
      exact absurd (hDead.symm.trans hLive) Bool.false_ne_true
  apart i j hi hj hSid := by
    have hThere : ∀ {j}, ((s.line client).port j).live = true →
        ∃ th, s.threads[j]? = some th ∧ (s.line client).port j = th.port client := by
      intro j hLive
      cases hGet : s.threads[j]? with
      | none =>
        rw [port_absent hGet] at hLive
        cases hLive
      | some th => exact ⟨th, rfl, port_line hGet⟩
    obtain ⟨a, ha, hPortA⟩ := hThere hi
    obtain ⟨b, hb, hPortB⟩ := hThere hj
    rw [hPortA] at hi hSid
    rw [hPortB] at hj hSid
    have hLiveA : a.livesFor a.sessionId = true := by
      rw [Thread.livesFor, show a.live = true from hi]
      simp
    have hLiveB : b.livesFor a.sessionId = true := by
      rw [Thread.livesFor, show b.live = true from hj, show a.sessionId = b.sessionId from hSid]
      simp
    have hAtMost : s.core.live a.sessionId ≤ 1 := by
      by_cases hDeleted : a.sessionId ∈ s.core.deletedSessions
      · have hSum := ((hInv.session a.sessionId).deleted hDeleted).2.2
        omega
      · have hCount := ((hInv.session a.sessionId).kept hDeleted).2
        have hBound := Bool.toNat_le (s.core.activeSessions.get? a.sessionId).isSome
        omega
    exact eq_of_countP_le_one hAtMost ha hb hLiveA hLiveB

/-! ## Session threads -/

section Threads

variable {th' : Thread} {env : ProcessEnv}

/-- A thread moves, and tells the loop nothing. -/
theorem served_modifyThread (hInv : s.core.Inv) (h : Served client (s.line client) t)
    (hGet : s.threads[thread]? = some th) (f : Thread → Thread)
    (hPipe : ((s.modifyThread thread f).line client).port thread = (f th).port client →
      Pipe client thread ((s.modifyThread thread f).line client)
        ((s.line client).tally (t thread) thread))
    (hId : (f th).sessionId = th.sessionId) (hLive : (f th).live = th.live)
    (hNoRemove : .removeSubscriber client ∉ ((f th).port client).queue)
    (hUnused : (s.line client).used = false → ((f th).port client).subscribed = false ∧
      ((f th).port client).queue = [] ∧ ∀ e ∈ (f th).effects, e ≠ .track client) :
    Served client ((s.modifyThread thread f).line client) t := by
  have hPort : (s.line client).port thread = th.port client := port_line hGet
  have hPorts := @port_modifyThread s client thread th f hGet
  refine h.act (sound_line hInv) ((f th).port client) none rfl rfl (List.append_nil _).symm hPorts
    (fun q hq => mem_ports_modifyThread hGet hq) (fun _ _ => rfl)
    (hPipe ((hPorts thread).trans (if_pos rfl))) ?_ ?_ ?_ hNoRemove hUnused fun command hTold => ?_
  · rw [hPort]
    exact hId
  · rw [hPort]
    exact hLive.symm.trans
  · rw [hPort]
    exact fun hThere => .inl (hLive.trans hThere)
  · cases hTold

theorem served_processStep (hInv : s.core.Inv) (h : Served client (s.line client) t)
    (hStep : s.processStep thread env = some s') : Served client (s'.line client) t := by
  unfold processStep at hStep
  split at hStep
  · cases hStep
  rename_i th hGet
  obtain ⟨th', hNext, rfl⟩ := Option.map_eq_some_iff.mp hStep
  have hPort : (s.line client).port thread = th.port client := port_line hGet
  have hIn : (s.line client).port thread ∈ (s.line client).ports := by
    rw [hPort]
    exact mem_ports hGet
  have hStays : .removeSubscriber client ∉ th.queue := by
    intro hMem
    refine h.noRemove _ hIn ?_
    rw [hPort]
    exact List.mem_filter.mpr ⟨hMem, decide_eq_true rfl⟩
  have hTakes := Thread.takes_processNext hNext hStays
  have hUnused : (s.line client).used = false → (th'.port client).subscribed = false ∧
      (th'.port client).queue = [] ∧ ∀ e ∈ (th'.port client).effects, e ≠ .track client := by
    intro hNot
    obtain ⟨hOut, hNone, -⟩ := (h.unused hNot).2.2 _ hIn
    rw [hPort] at hOut hNone
    obtain ⟨hAfter, hTrack⟩ := hTakes.stranger hNone hOut
    refine ⟨hAfter, List.eq_nil_iff_forall_not_mem.mpr fun c hMem => ?_, hTrack⟩
    have hBefore := hTakes.queue c hMem
    rw [hNone] at hBefore
    exact List.not_mem_nil hBefore
  refine served_modifyThread hInv h hGet (fun _ => th') (fun hNow => ?_) hTakes.sessionId
    (hTakes.live.2.trans hTakes.live.1.symm) (fun hMem => ?_) hUnused
  · refine (h.pipe thread).takes (p := th'.port client) ?_ hNow rfl rfl rfl
      fun hNot => (hUnused hNot).1
    rw [hPort]
    exact hTakes
  · refine h.noRemove _ hIn ?_
    rw [hPort]
    exact hTakes.queue _ hMem

/-- What a session thread does is seen by one client as a command to the loop, and as a copy
of a broadcast to a subscriber. -/
theorem line_performEffect (s : System) (th : Thread) (e : ThreadEffect)
    (hKept : s.lost client = false) (hUsed : client ∈ th.subscribers → (s.conns client).used = true)
    (hSubscribers : ∀ t₀, s.threads[thread]? = some t₀ → t₀.subscribers = th.subscribers) :
    (s.performEffect thread th e).line client =
      (s.line client).perform thread th.sessionId e (decide (client ∈ th.subscribers)) := by
  have hQuiet := @Line.perform_quiet (s.line client) thread th.sessionId e
    (decide (client ∈ th.subscribers))
  have hSame : ∀ {s₁ : System}, s₁.line client = s.line client →
      s₁.line client = { s.line client with inbox := (s.line client).inbox ++ [] } := by
    intro s₁ hEq
    rw [hEq, List.append_nil]
  cases e with
  | write row => exact (hSame (by rfl)).trans (hQuiet fun _ => rfl).symm
  | sendStarted c streamId => exact (hSame (line_send s c rfl)).trans (hQuiet fun _ => rfl).symm
  | sendState c => exact (hSame (line_send s c rfl)).trans (hQuiet fun _ => rfl).symm
  | updateMetadata metadata => exact (hQuiet fun _ => rfl).symm
  | track c => exact (hQuiet fun _ => rfl).symm
  | untrack c => exact (hQuiet fun _ => rfl).symm
  | broadcastSessionStatus status number => exact (hQuiet fun _ => rfl).symm
  | broadcast number =>
    have hReached : client ∈ th.subscribers.filter (fun c => !(s.conns c).writerGone) ↔
        client ∈ th.subscribers := by
      rw [Finset.mem_filter, and_iff_left_iff_imp]
      intro hMem
      rw [writerGone_of_kept (hUsed hMem) hKept]
      rfl
    have hSent := @line_fanOut client
      (s.sendDaemon (.broadcastActivity th.sessionId ⟨thread, number⟩)) ⟨thread, number⟩ th.subscribers
      ((th.subscribers.filter fun c => !(s.conns c).writerGone).sort) (Finset.sort_nodup _ _)
    have hTag : ∀ tag : Tag, (⟨thread, number⟩ : Tag) = tag ↔
        thread = tag.thread ∧ number = tag.number := fun tag => by
        cases tag
        simp
    refine (line_modifyThread _ thread fun t₀ hGet => ?_).trans (hSent.trans ?_)
    · have hSubscribed : decide (client ∈ th.subscribers.filter fun c => !(s.conns c).writerGone) =
          decide (client ∈ t₀.subscribers) := by
        rw [hSubscribers t₀ hGet]
        exact decide_eq_decide.mpr hReached
      show ({ t₀.port client with
        subscribed := decide (client ∈ th.subscribers.filter fun c => !(s.conns c).writerGone) } :
          Port) = t₀.port client
      rw [hSubscribed]
      rfl
    · unfold Line.fanOut Line.perform
      simp only [Finset.mem_sort, hReached, hTag, ThreadEffect.announces, ThreadEffect.command?,
        Option.toList_some, decide_eq_true_eq, Bool.decide_and, and_assoc, Bool.and_assoc]
      rfl

theorem told_of_effect {e : ThreadEffect} {sid : Nat} {command : DaemonCommand}
    (hEq : e.command? sid thread = some command) :
    command ≠ .clientDisconnected client ∧ (∀ j, j ≠ thread → command.stamp j = none) ∧
      (e ≠ .track client → ∀ id m, m ≠ some true → command.follow client id m = m) ∧
      ∀ id, sid ≠ id → ∀ m, command.follow client id m = m := by
  refine ⟨?_, fun j hNe => ?_, fun hOther id m hNot => ?_, fun id hNe m => ?_⟩
  · rintro rfl
    cases e <;> cases hEq
  · cases e <;> cases hEq <;> first | rfl | exact if_neg (Ne.symm hNe)
  · exact follow_of_stranger hEq hOther hNot
  · rcases @follow_of_effect client thread e id sid command hEq m with hSame | ⟨b, -, hSid, -⟩
    · exact hSame
    · exact absurd hSid hNe

theorem served_takeEffect (hInv : s.core.Inv) (h : Served client (s.line client) t)
    (hKept : s.lost client = false) {e : ThreadEffect} {rest : List ThreadEffect}
    (hGet : s.threads[thread]? = some th) (hEffects : th.effects = e :: rest) :
    Served client (((s.modifyThread thread fun t => { t with effects := rest }).performEffect
      thread th e).line client) t := by
  have hPort : (s.line client).port thread = th.port client := port_line hGet
  have hIn : th.port client ∈ (s.line client).ports := mem_ports hGet
  have hAlive : th.live = true :=
    (hInv.threads th (List.mem_of_getElem? hGet)).live_of_effect (by rw [hEffects]; simp)
  have hPorts := @port_modifyThread s client thread th (fun t => { t with effects := rest }) hGet
  have hUnused : (s.line client).used = false → (th.port client).subscribed = false ∧
      (th.port client).queue = [] ∧ ∀ e ∈ (th.port client).effects, e ≠ .track client :=
    fun hNot => (h.unused hNot).2.2 _ hIn
  have hUsed : client ∈ th.subscribers → (s.conns client).used = true := by
    intro hMem
    by_contra hNot
    have hOut := (hUnused (Bool.eq_false_iff.mpr hNot)).1
    exact absurd hMem (of_decide_eq_false hOut)
  rw [line_performEffect (s.modifyThread thread fun t => { t with effects := rest }) th e hKept hUsed
    fun t₀ hGet₀ => ?_]
  · refine h.act (sound_line hInv) { th.port client with effects := rest }
      (e.command? th.sessionId thread) rfl rfl rfl hPorts
      (fun q hq => mem_ports_modifyThread hGet hq) (fun j hNe => ?_) ?_ ?_ ?_ (fun _ => .inl hAlive)
      ?_ (fun hNot => ?_) (fun command hTold => ?_)
    · unfold Line.tally Line.perform
      simp only [Ne.symm hNe, false_and, if_false, Nat.add_zero, decide_false, Bool.false_and,
        Bool.or_false]
      rfl
    · have hBefore := h.pipe thread
      refine @Pipe.perform client thread _ _ _ _ hBefore e rest ?_ ?_ rfl rfl ?_ (fun number => ?_)
        (fun number => ?_) rfl
      · rw [hPort]
        exact hEffects
      · rw [hPort]
        exact (hPorts thread).trans (if_pos rfl)
      · rw [hPort]
        rfl
      · rw [hPort]
        unfold Line.tally Line.perform
        dsimp only
        rw [← Nat.add_assoc]
        congr 1
        cases e.announces number <;> by_cases hMem : client ∈ th.subscribers <;>
          simp [Thread.port, hMem]
      · rw [hPort]
        unfold Line.tally Line.perform
        dsimp only
        rw [← Bool.or_assoc, decide_eq_true rfl, Bool.true_and]
        rfl
    · rw [hPort]
    · rw [hPort]
      exact id
    · exact h.noRemove (th.port client) hIn
    · obtain ⟨hOut, hQueue, hTrack⟩ := hUnused hNot
      refine ⟨hOut, hQueue, fun e' he' => hTrack e' ?_⟩
      show e' ∈ th.effects
      rw [hEffects]
      exact List.mem_cons_of_mem e he'
    · obtain ⟨hLeave, hStamp, hStrange, hFollow⟩ := @told_of_effect client thread e _ _ hTold
      refine ⟨hLeave, hStamp, fun hNot => hStrange ((hUnused hNot).2.2 e ?_),
        fun sid hSid => hFollow sid (hSid hAlive)⟩
      show e ∈ th.effects
      rw [hEffects]
      exact List.mem_cons_self
  · obtain ⟨t₁, hOld, rfl | ⟨-, rfl⟩⟩ := getElem?_modify_cases hGet₀
    · rw [hGet] at hOld
      cases hOld
      rfl
    · rw [hGet] at hOld
      cases hOld
      rfl

theorem served_exitStep (hInv : s.core.Inv) (h : Served client (s.line client) t)
    (hGet : s.threads[thread]? = some th) (hEffects : th.effects = [])
    (hStep : s.exitStep thread th = some s') : Served client (s'.line client) t := by
  have hPort : (s.line client).port thread = th.port client := port_line hGet
  have hIn : th.port client ∈ (s.line client).ports := mem_ports hGet
  unfold exitStep at hStep
  cases hPhase : th.phase with
  | persisting record =>
    rw [hPhase] at hStep
    cases hStep
    have hSame : (({ s with disk := s.disk.write th.sessionId (.record record) } :
        System).modifyThread thread fun t => { t with phase := .reporting }).line client =
          s.line client := by
      refine (line_modifyThread _ thread fun t₀ hGet₀ => ?_).trans rfl
      change s.threads[thread]? = some t₀ at hGet₀
      rw [hGet] at hGet₀
      cases hGet₀
      unfold Thread.port Thread.live
      rw [hPhase]
    rw [hSame]
    exact h
  | reporting =>
    rw [hPhase] at hStep
    cases hStep
    have hPorts := @port_modifyThread (s.sendDaemon (.sessionExited th.sessionId)) client thread th
      (fun t => { t with phase := .ending }) hGet
    refine h.act (sound_line hInv) (({ th with phase := .ending } : Thread).port client)
      (some (.sessionExited th.sessionId)) rfl rfl rfl hPorts
      (fun q hq => mem_ports_modifyThread (s := s.sendDaemon (.sessionExited th.sessionId)) hGet hq)
      (fun _ _ => rfl) ?_ ?_ (fun hLive => ?_) (fun _ => .inr rfl) ?_ (fun hNot => ?_)
      (fun command hTold => ?_)
    · have hPosted := @Pipe.post client thread (s.line client) _ (.sessionExited th.sessionId)
        (h.pipe thread) rfl ((sound_line hInv).idle thread) fun _ _ _ => rfl
      refine hPosted.congr rfl rfl rfl hPort ((hPorts thread).trans (if_pos rfl)) rfl rfl rfl rfl
        fun hLive => ?_
      cases hLive
    · rw [hPort]
      rfl
    · cases hLive
    · exact h.noRemove (th.port client) hIn
    · exact (h.unused hNot).2.2 (th.port client) hIn
    · cases hTold
      exact ⟨by simp, fun _ _ => rfl, fun _ _ _ _ => rfl, fun _ _ _ => rfl⟩
  | ending =>
    rw [hPhase] at hStep
    cases hStep
    have hDead : th.live = false := by
      rw [Thread.live, hPhase]
    exact served_modifyThread hInv h hGet Thread.kill
      (fun hNow => (h.pipe thread).congr rfl rfl rfl hPort hNow rfl rfl hEffects.symm rfl
        fun hLive => absurd hLive Bool.false_ne_true)
      rfl hDead.symm List.not_mem_nil fun hNot =>
        ⟨((h.unused hNot).2.2 _ hIn).1, rfl, fun e he => absurd he List.not_mem_nil⟩
  | running =>
    rw [hPhase] at hStep
    cases hStep
  | finished =>
    rw [hPhase] at hStep
    cases hStep

theorem served_threadStep (hInv : s.core.Inv)
    (h : s.lost client = false → Served client (s.line client) t) (hKept : s'.lost client = false)
    (hStep : s.threadStep thread = some s') : Served client (s'.line client) t := by
  have hBefore : s.lost client = false := by
    unfold lost at hKept ⊢
    rwa [conns_threadStep hStep] at hKept
  unfold threadStep at hStep
  split at hStep
  · cases hStep
  rename_i th hGet
  split at hStep
  · rename_i e rest hEffects
    cases hStep
    exact served_takeEffect hInv (h hBefore) hBefore hGet hEffects
  · rename_i hEffects
    exact served_exitStep hInv (h hBefore) hGet hEffects hStep

/-- A thread is sent a command: no removal of the client, and an attach only if it is there. -/
theorem served_sendSession (hInv : s.core.Inv) (h : Served client (s.line client) t)
    (thread : ThreadId) {command : SessionCommand} (hRemove : command ≠ .removeSubscriber client)
    (hAttach : command = .attach client → (s.conns client).used = true) :
    Served client ((s.sendSession thread command).line client) t := by
  cases hJoins : command.joins client with
  | false =>
    rw [line_sendSession s thread hJoins]
    exact h
  | true =>
    obtain rfl : command = .attach client := by
      cases command with
      | attach c => rw [of_decide_eq_true hJoins]
      | removeSubscriber c => exact absurd (by rw [of_decide_eq_true hJoins]) hRemove
      | _ => cases hJoins
    cases hGet : s.threads[thread]? with
    | none =>
      have hSame : (s.sendSession thread (.attach client)).line client = s.line client := by
        apply line_modifyThread
        intro t₀ hGet₀
        rw [hGet] at hGet₀
        cases hGet₀
      rw [hSame]
      exact h
    | some th =>
      have hIn : th.port client ∈ (s.line client).ports := mem_ports hGet
      have hPort : (s.line client).port thread = th.port client := port_line hGet
      set f : Thread → Thread := fun t =>
        if t.finished then t else { t with queue := t.queue ++ [.attach client] }
      have hSame : ∃ queue, (f th).port client = { th.port client with queue := queue } ∧
          .removeSubscriber client ∉ queue := by
        have hBefore := h.noRemove (th.port client) hIn
        by_cases hFinished : th.finished = true
        · exact ⟨_, congrArg (Thread.port client) (if_pos hFinished), hBefore⟩
        · have hPush : f th = { th with queue := th.queue ++ [.attach client] } := if_neg hFinished
          refine ⟨(th.queue ++ [SessionCommand.attach client]).filter (SessionCommand.joins client),
            congrArg (Thread.port client) hPush, fun hMem => ?_⟩
          rw [List.filter_append] at hMem
          rcases List.mem_append.mp hMem with hMem | hMem
          · exact hBefore hMem
          · cases List.mem_singleton.mp (List.mem_filter.mp hMem).1
      obtain ⟨queue, hEq, hNone⟩ := hSame
      refine served_modifyThread hInv h hGet f (fun hNow => ?_) (congrArg Port.sessionId hEq)
        (congrArg Port.live hEq) (hEq ▸ hNone) fun hNot =>
          absurd ((hAttach rfl).symm.trans hNot) (by simp)
      exact (h.pipe thread).congr rfl rfl rfl hPort (hNow.trans hEq) rfl rfl rfl rfl id

end Threads

/-! ## Connections -/

theorem lost_of_conns (h : s'.conns = s.conns) : s'.lost client = s.lost client := by
  unfold lost
  rw [h]

theorem follow_of_fromClient {command : DaemonCommand} (h : command.fromClient = true) {sid : Nat}
    {m : Option Bool} (hSome : m ≠ none) : command.follow client sid m = m := by
  cases m with
  | none => exact absurd rfl hSome
  | some b =>
    cases command <;> first | rfl | exact ite_self _ | cases h

theorem stamp_of_fromClient {command : DaemonCommand} (h : command.fromClient = true)
    (thread : ThreadId) : command.stamp thread = none := by
  cases command <;> first | rfl | cases h

theorem served_connStep (hInv : s.core.Inv) (hOk : (s.desk c).Ok c) (hOwn : s.Own)
    (h : s.lost client = false → Served client (s.line client) t) (hKept : s'.lost client = false)
    (hStep : s.connStep c = some s') : Served client (s'.line client) t := by
  unfold connStep at hStep
  split at hStep
  · cases hStep
  rename_i e rest hEffects
  cases hStep
  have hUsed : (s.conns c).used = true := eq_true_of_ne_false (used_of_effect hOk hEffects)
  have hE := hOwn c e (by rw [hEffects]; exact List.mem_cons_self)
  set s₁ := s.setConn c { s.conns c with effects := rest }
  have hLine : s₁.line client = s.line client := line_setConn s c rfl rfl rfl rfl
  have hBefore : s.lost client = false := by
    rw [lost_of_conns (conns_performConnEffect s₁ c e)] at hKept
    exact (congrArg Line.lost hLine).symm.trans hKept
  have hInv₁ : s₁.core.Inv := hInv
  have hServed : Served client (s₁.line client) t := by
    rw [hLine]
    exact h hBefore
  have hUsed₁ : (s₁.conns c).used = true := by
    rw [conns_setConn_self]
    exact hUsed
  cases e with
  | daemon command hFrom =>
    refine hServed.post (sound_line hInv₁) (fun hEq => ?_) (stamp_of_fromClient hFrom)
      fun sid m hSome => ?_
    · by_cases hSelf : client = c
      · subst hSelf
        have hUp := hE.2 hEq
        unfold lost at hBefore
        rw [hUsed, hUp] at hBefore
        cases hBefore
      · exact (hE.1 client hSelf).1 hEq
    · by_cases hSelf : client = c
      · subst hSelf
        exact follow_of_fromClient hFrom (hSome hUsed₁)
      · exact (hE.1 client hSelf).2 sid m
  | attach sid thread =>
    refine served_sendSession hInv₁ hServed thread (by simp) fun hEq => ?_
    cases hEq
    exact hUsed₁
  | detach thread => exact served_sendSession hInv₁ hServed thread (by simp) (by simp)
  | runInput thread => exact served_sendSession hInv₁ hServed thread (by simp) (by simp)
  | edit thread => exact served_sendSession hInv₁ hServed thread (by simp) (by simp)
  | reply message =>
    show Served client ((s₁.send c message).line client) t
    rw [line_send s₁ c hE]
    exact hServed

theorem served_requestStep {request : Request}
    (h : s.lost client = false → Served client (s.line client) t) (hKept : s'.lost client = false)
    (hStep : s.requestStep c request = some s') : Served client (s'.line client) t := by
  unfold requestStep at hStep
  split at hStep
  · cases hStep
    have hLine : (s.setConn c { s.conns c with
        effects := (request.effects c (s.conns c).attachedSession).1,
        waiting := (request.effects c (s.conns c).attachedSession).2 }).line client = s.line client :=
      line_setConn s c rfl rfl rfl rfl
    rw [hLine]
    exact h ((congrArg Line.lost hLine).symm.trans hKept)
  · cases hStep

/-- A connection that is torn down, or whose writer ends, is the only one that is lost. -/
theorem served_setConn {conn : Conn} (h : s.lost client = false → Served client (s.line client) t)
    (hUsed : conn.used = (s.conns c).used)
    (hLost : conn.used = true → conn.up = false ∨ conn.writerGone = true)
    (hKept : (s.setConn c conn).lost client = false) :
    Served client ((s.setConn c conn).line client) t := by
  have hLine : (s.setConn c conn).line client = s.line client := by
    by_cases hEq : client = c
    · subst hEq
      have hNot : conn.used = false := by
        by_contra hThere
        unfold lost at hKept
        rw [conns_setConn_self] at hKept
        rcases hLost (Bool.not_eq_false _ ▸ hThere) with hUp | hGone
        · simp [Bool.not_eq_false _ ▸ hThere, hUp] at hKept
        · simp [Bool.not_eq_false _ ▸ hThere, hGone] at hKept
      have hBefore : s.lost client = false := by
        unfold lost
        rw [← hUsed, hNot]
        rfl
      unfold line
      rw [hKept, hBefore, conns_setConn_self, hUsed]
      rfl
    · unfold line lost
      rw [conns_setConn_other s hEq]
      rfl
  rw [hLine]
  exact h ((congrArg Line.lost hLine).symm.trans hKept)

theorem served_disconnectStep (h : s.lost client = false → Served client (s.line client) t)
    (hKept : s'.lost client = false) (hStep : s.disconnectStep c = some s') :
    Served client (s'.line client) t := by
  unfold disconnectStep at hStep
  split at hStep
  · cases hStep
    exact served_setConn h (by rfl) (fun _ => .inl rfl) hKept
  · cases hStep

theorem served_connectStep (hInv : s.core.Inv)
    (h : s.lost client = false → Served client (s.line client) t) (hKept : s'.lost client = false)
    (hStep : s.connectStep c = some s') : Served client (s'.line client) t := by
  unfold connectStep at hStep
  split at hStep
  · cases hStep
  rename_i hUnused
  cases hStep
  by_cases hEq : client = c
  · subst hEq
    have hNot : (s.conns client).used = false := Bool.eq_false_iff.mpr hUnused
    have hBefore : s.lost client = false := by
      unfold lost
      rw [hNot]
      rfl
    refine (h hBefore).connect hNot ?_ rfl rfl rfl rfl rfl
    exact congrArg Conn.used (conns_setConn_self s client _)
  · have hLine : (s.setConn c { up := true, used := true }).line client = s.line client := by
      unfold line lost
      rw [conns_setConn_other s hEq]
      rfl
    have hBefore : s.lost client = false := (congrArg Line.lost hLine).symm.trans hKept
    refine Served.post (k := (s.setConn c { up := true, used := true }).line client) ?_
      (sound_line hInv) (by simp) (fun _ => rfl) fun sid m _ => if_neg fun hSelf => hEq hSelf.symm
    rw [hLine]
    exact h hBefore

/-! ## The loop -/

section Loop

variable {os : List Event} {seen : Tag → Finset ClientId} {env : LoopEnv} {command : DaemonCommand}
  {rest : List DaemonCommand}

theorem mem_clientsWith {p : ClientState → Bool} :
    client ∈ s.clientsWith p ↔ (s.loop.clients.get? client).any p = true := by
  unfold clientsWith
  rw [List.mem_toFinset, List.mem_map]
  constructor
  · rintro ⟨e, he, rfl⟩
    obtain ⟨hEntry, hP⟩ := List.mem_filter.mp he
    rw [show s.loop.clients.get? e.1 = some e.2 from OrdMap.get?_eq_some_iff.mpr hEntry]
    exact hP
  · intro hAny
    obtain ⟨st, hGet, hP⟩ := (Option.any_eq_true _ _).mp hAny
    exact ⟨(client, st), List.mem_filter.mpr ⟨OrdMap.get?_eq_some_iff.mp hGet, hP⟩, rfl⟩

/-- The loop fans a broadcast out on one path. -/
theorem stays_fanOutEvent (s : System) (p skip : ClientState → Bool) (tag : Tag) :
    Stays
      ((s.line client).fanOut tag ((s.line client).entry.any fun st => !skip st)
        ((s.line client).entry.any p))
      (((s.emit [.fanOut tag (s.clientsWith p)]).fanOutClients skip (.event tag)).line client) where
  used := rfl
  lost := id
  same hUsed hKept := by
    set s₁ : System :=
      { s with
        loop :=
          { s.loop with
            clients := s.loop.clients.filter fun c st => skip st || !(s.conns c).writerGone } }
    set reached := s.loop.clients.entries.filter fun (e : ClientId × ClientState) =>
      !skip e.2 && !(s.conns e.1).writerGone
    have hNodup : (reached.map Prod.fst).Nodup :=
      (s.loop.clients.keys_nodup).sublist (List.filter_sublist.map Prod.fst)
    have hEmit : (s.emit [.fanOut tag (s.clientsWith p)]).fanOutClients skip (.event tag) =
        s₁.emit (.fanOut tag (s.clientsWith p) ::
          (reached.map Prod.fst).map fun c => .sent c (.event tag)) := by
      unfold fanOutClients emit
      rw [List.map_map]
      dsimp only
      rw [List.append_assoc]
      rfl
    have hLine : s₁.line client = s.line client := (s.stays_forget skip).same hUsed hKept
    have hReached : decide (client ∈ reached.map Prod.fst) =
        (s.line client).entry.any fun st => !skip st := by
      rw [Bool.eq_iff_iff, decide_eq_true_eq]
      constructor
      · intro hMem
        obtain ⟨e, he, rfl⟩ := List.mem_map.mp hMem
        obtain ⟨hEntry, hNot⟩ := List.mem_filter.mp he
        refine (Option.any_eq_true _ _).mpr ⟨e.2, OrdMap.get?_eq_some_iff.mpr hEntry, ?_⟩
        exact (Bool.and_eq_true_iff.mp hNot).1
      · intro hAny
        obtain ⟨st, hGet, hNot⟩ := (Option.any_eq_true _ _).mp hAny
        refine List.mem_map.mpr ⟨(client, st), List.mem_filter.mpr ⟨?_, ?_⟩, rfl⟩
        · exact OrdMap.get?_eq_some_iff.mp hGet
        · rw [writerGone_of_kept (used_of_get? hUsed hGet) hKept, hNot]
          rfl
    have hEntitled : decide (client ∈ s.clientsWith p) = (s.line client).entry.any p := by
      rw [Bool.eq_iff_iff, decide_eq_true_eq]
      exact mem_clientsWith
    rw [hEmit, line_fanOut s₁ tag _ hNodup, hLine, hReached, hEntitled]

/-- A session for which the loop starts a thread has none, and no exit of one is on its way. -/
theorem started_idle {sid : Nat} (hInv : s.core.Inv) (h : s.started command = some sid) :
    s.core.live sid = 0 ∧ s.core.exits sid = 0 := by
  have hIdle : sid ∉ s.loop.deletedSessions → s.loop.activeSessions.get? sid = none →
      s.core.live sid = 0 ∧ s.core.exits sid = 0 := by
    intro hKept hNone
    have hCount := ((hInv.session sid).kept hKept).2
    rw [show s.core.activeSessions.get? sid = none from hNone] at hCount
    exact Nat.add_eq_zero_iff.mp hCount
  cases command with
  | createSession c params =>
    cases h
    obtain ⟨hKept, hNone, -⟩ := (hInv.session s.loop.nextSessionId).fresh le_rfl
    exact hIdle hKept hNone
  | attachSession c id =>
    change (if _ then none else some id) = some sid at h
    split at h
    · cases h
    · rename_i hNot
      cases h
      rw [not_or, not_or] at hNot
      exact hIdle hNot.1 (Option.not_isSome_iff_eq_none.mp hNot.2.1)
  | _ => cases h

theorem lost_handleCommand (h : s.lost client = true) (env : LoopEnv) (command : DaemonCommand) :
    (s.handleCommand env command).lost client = true := by
  by_cases hLeaves : command = .clientDisconnected client
  · rw [hLeaves]
    exact (lost_of_conns (conns_removeClient s client)).trans h
  · cases hFanOut : command.isFanOut with
    | false =>
      obtain ⟨entry, more, -, -, -, hStays⟩ := stays_handleCommand s env hFanOut hLeaves
      exact hStays.lost h
    | true =>
      cases command with
      | broadcastActivity sid tag => exact (stays_fanOutEvent s _ _ tag).lost h
      | broadcastSessionStatus sid status tag =>
        show (s.handleBroadcastSessionStatus sid status tag).lost client = true
        unfold handleBroadcastSessionStatus
        split
        · exact h
        · exact (stays_fanOutEvent { s with loop := _ } _ _ tag).lost h
      | _ => cases hFanOut

/-- The loop takes a command that fans nothing out. -/
theorem served_taken (hInv : s.core.Inv) (h : Served client (s.line client) t)
    (hBefore : s.lost client = false) (hInbox : s.loop.inbox = command :: rest)
    (hFanOut : command.isFanOut = false) (hClean : s.cleanStart command = true)
    (hStep : s' = env.overLag.foldl handleEvictClient ((s.popped rest).handleCommand env command))
    (hKept : s'.lost client = false) : Served client (s'.line client) t := by
  have hLeaves : command ≠ .clientDisconnected client := by
    rintro rfl
    refine h.noLeave ?_
    show .clientDisconnected client ∈ s.loop.inbox
    rw [hInbox]
    exact List.mem_cons_self
  obtain ⟨entry, more, hEntry, hIds, hFresh, hStays⟩ :=
    stays_handleCommand (s.popped rest) env hFanOut hLeaves
  have hEvicted := hStays.trans (stays_evictions env.overLag _)
  have hUsed : entry ≠ none → (s.line client).used = true := by
    intro hSome
    by_contra hNot
    exact hSome (h.entry_of_unused hInbox (Bool.eq_false_iff.mpr hNot) (hEntry 0))
  have hLine : s'.line client = { (s.popped rest).line client with
      entry := entry, ports := ((s.popped rest).line client).ports ++ more } := by
    rw [hStep]
    exact hEvicted.same hUsed (by rw [← hStep]; exact hKept)
  rw [hLine]
  have hStarted : ∀ p ∈ more, s.started command = some p.sessionId := by
    intro p hp
    have hMem : p.sessionId ∈ ((s.popped rest).started command).toList := by
      rw [← hIds]
      exact List.mem_map.mpr ⟨p, hp, rfl⟩
    exact Option.mem_toList.mp hMem
  refine h.taken hInbox hEntry hFresh (fun p hp => ?_) (fun p hp hSub => ?_)
  · obtain ⟨hLive, hExits⟩ := started_idle hInv (hStarted p hp)
    refine ⟨fun q hq hqLive hSid => ?_, fun hMem => ?_⟩
    · obtain ⟨th, hth, rfl⟩ := List.mem_map.mp hq
      have hPos : 0 < s.core.live p.sessionId := by
        apply Core.live_pos (c := s.core) hth
        rw [Thread.livesFor, show th.live = true from hqLive,
          show th.sessionId = p.sessionId from hSid]
        simp
      omega
    · have hPos : 0 < s.core.exits p.sessionId := by
        refine List.countP_pos_iff.mpr ⟨.sessionExited p.sessionId, ?_, decide_eq_true rfl⟩
        show .sessionExited p.sessionId ∈ s.loop.inbox
        rw [hInbox]
        exact List.mem_cons_of_mem _ hMem
      omega
  · have hSame : command.follow client p.sessionId
        (membership p.sessionId (s.line client).entry) =
          membership p.sessionId (s.line client).entry := by
      have hIs := hStarted p hp
      cases command <;> first | rfl | cases hIs
    rw [hEntry, show ((s.popped rest).line client).entry = (s.line client).entry from rfl,
      hSame] at hSub
    obtain ⟨st, hGet, hIn⟩ := Option.map_eq_some_iff.mp hSub
    have hAll : (s.started command).all (fun sid => s.loop.clients.entries.all fun e =>
        s.lost e.1 || !decide (sid ∈ e.2.sessions)) = true := hClean
    rw [hStarted p hp, Option.all_some, List.all_eq_true] at hAll
    have hOne := hAll (client, st) (OrdMap.get?_eq_some_iff.mp hGet)
    rw [hBefore, hIn] at hOne
    cases hOne

theorem tallies_update {tag : Tag} {clients : Finset ClientId} {thread : ThreadId}
    (hNe : thread ≠ tag.thread) :
    tallies client os (Function.update seen tag clients) thread = tallies client os seen thread := by
  have hOther : ∀ number, (⟨thread, number⟩ : Tag) ≠ tag := by
    rintro number rfl
    exact hNe rfl
  unfold tallies
  simp only [Function.update_of_ne (hOther _)]

/-- The loop serves the activity subscribers. -/
theorem served_activity {sid : Nat} {tag : Tag}
    (h : Served client (s.line client) (tallies client os seen))
    (hInbox : s.loop.inbox = .broadcastActivity sid tag :: rest)
    (hStep : s' = env.overLag.foldl handleEvictClient
      ((s.popped rest).handleBroadcastActivity sid tag)) (hKept : s'.lost client = false) :
    Served client (s'.line client)
      (tallies client os (Function.update seen tag (s.clientsWith ClientState.wantsActivity))) := by
  set k := s.line client with hk
  have hStays := (@stays_fanOutEvent client (s.popped rest) ClientState.wantsActivity
    (fun st => !st.wantsActivity || decide (sid ∈ st.sessions)) tag).trans
      (stays_evictions env.overLag _)
  have hLine : s'.line client = Line.fanOut { k with inbox := rest } tag
      (k.entry.any fun st => st.wantsActivity && !decide (sid ∈ st.sessions))
      (k.entry.any ClientState.wantsActivity) := by
    rw [hStep] at hKept ⊢
    refine (hStays.same h.used_of_entry hKept).trans ?_
    simp only [Bool.not_or, Bool.not_not]
    rfl
  rw [hLine]
  refine h.fanOut hInbox (fun _ _ => rfl) (fun thread hNe => tallies_update hNe) ?_
  refine (h.pipe tag.thread).activity hInbox rfl rfl rfl rfl Served.tally_fanOut.1
    Served.tally_fanOut.2.1 ?_ fun n hNe => ?_
  · show decide (client ∈ Function.update seen tag _ tag) = _
    rw [Function.update_self, Bool.eq_iff_iff, decide_eq_true_eq]
    exact mem_clientsWith
  · obtain ⟨hCopies, hDue⟩ := Served.tally_fanOut.2.2 n hNe
    refine ⟨hCopies, hDue, ?_⟩
    have hTag : (⟨tag.thread, n⟩ : Tag) ≠ tag := fun hEq => hNe (congrArg Tag.number hEq)
    show decide (client ∈ Function.update seen tag _ ⟨tag.thread, n⟩) = _
    rw [Function.update_of_ne hTag]
    rfl

/-- The loop serves the summary subscribers. -/
theorem served_status {sid : Nat} {status : SessionStatus} {tag : Tag}
    (h : Served client (s.line client) (tallies client os seen)) (hBefore : s.lost client = false)
    (hInbox : s.loop.inbox = .broadcastSessionStatus sid status tag :: rest)
    (hPath : s.samePath seen (.broadcastSessionStatus sid status tag) = true)
    (hStep : s' = env.overLag.foldl handleEvictClient
      ((s.popped rest).handleBroadcastSessionStatus sid status tag))
    (hKept : s'.lost client = false) : Served client (s'.line client) (tallies client os seen) := by
  set k := s.line client with hk
  unfold handleBroadcastSessionStatus at hStep
  have hListed : (s.popped rest).loop.sessionMetadata = s.loop.sessionMetadata := rfl
  rw [hListed] at hStep
  cases hGet : s.loop.sessionMetadata.get? sid with
  | none =>
    rw [hGet] at hStep
    have hLine : s'.line client = { k with inbox := rest } := by
      rw [hStep] at hKept ⊢
      exact ((stays_evictions env.overLag (s.popped rest)).same h.used_of_entry hKept).trans rfl
    rw [hLine]
    exact h.pop hInbox rfl rfl (fun _ => rfl) (List.append_nil _).symm
      (fun p hp => absurd hp List.not_mem_nil)
      fun thread => (h.pipe thread).pop hInbox rfl rfl rfl fun _ => rfl
  | some metadata =>
    rw [hGet] at hStep
    dsimp only at hStep
    set s₁ : System := { s.popped rest with loop := _ }
    have hStays := (@stays_fanOutEvent client s₁ ClientState.wantsSummary
      (fun st => !st.wantsSummary || decide (sid ∈ st.sessions) || st.wantsActivity) tag).trans
        (stays_evictions env.overLag _)
    have hLine : s'.line client = Line.fanOut { k with inbox := rest } tag
        (k.entry.any fun st => st.wantsSummary && !decide (sid ∈ st.sessions) && !st.wantsActivity)
        (k.entry.any ClientState.wantsSummary) := by
      rw [hStep] at hKept ⊢
      refine (hStays.same h.used_of_entry hKept).trans ?_
      simp only [Bool.not_or, Bool.not_not]
      rfl
    rw [hLine]
    refine h.fanOut hInbox (fun _ _ => rfl) (fun _ _ => rfl) ?_
    refine (h.pipe tag.thread).status hInbox rfl rfl rfl rfl Served.tally_fanOut.1
      Served.tally_fanOut.2.1 rfl Served.tally_fanOut.2.2 fun st hEntry hWants hOut => ?_
    have hAll : ((s.loop.sessionMetadata.get? sid).isNone || s.loop.clients.entries.all fun e =>
        s.lost e.1 || !e.2.wantsSummary || decide (sid ∈ e.2.sessions) ||
          e.2.wantsActivity == decide (e.1 ∈ seen tag)) = true := hPath
    rw [hGet, Option.isNone_some, Bool.false_or, List.all_eq_true] at hAll
    have hOne := hAll (client, st) (OrdMap.get?_eq_some_iff.mp hEntry)
    rw [hBefore, hWants, decide_eq_false hOut] at hOne
    exact eq_of_beq hOne

theorem noted_other (h : ∀ sid tag, command ≠ .broadcastActivity sid tag)
    (hInbox : s.loop.inbox = command :: rest) : s.noted seen (.loop env) = seen := by
  unfold noted
  rw [hInbox]
  cases command with
  | broadcastActivity sid tag => exact absurd rfl (h sid tag)
  | _ => rfl

theorem served_loopStep (hInv : s.core.Inv)
    (h : s.lost client = false → Served client (s.line client) (tallies client os seen))
    (hKept : s'.lost client = false) (hRoutes : s.routesKept seen (.loop env) = true)
    (hStep : s.loopStep env = some s') :
    Served client (s'.line client) (tallies client os (s.noted seen (.loop env))) := by
  unfold loopStep at hStep
  split at hStep
  · cases hStep
  rename_i command rest hInbox
  split at hStep
  rotate_left
  · cases hStep
  have hStep' : s' = env.overLag.foldl handleEvictClient
      ((s.popped rest).handleCommand env command) := (Option.some.inj hStep).symm
  have hBefore : s.lost client = false := by
    by_contra hLost
    have hHandled := @lost_handleCommand (s.popped rest) client (Bool.not_eq_false _ ▸ hLost) env
      command
    have hAfter := (@stays_evictions client env.overLag
      ((s.popped rest).handleCommand env command)).lost hHandled
    rw [hStep'] at hKept
    exact absurd (hAfter.symm.trans hKept) (by simp)
  change s.loop.inbox.head?.all _ = true at hRoutes
  rw [hInbox, List.head?_cons, Option.all_some, Bool.and_eq_true] at hRoutes
  cases hFanOut : command.isFanOut with
  | false =>
    rw [noted_other (fun sid tag hEq => by rw [hEq] at hFanOut; cases hFanOut) hInbox]
    exact served_taken hInv (h hBefore) hBefore hInbox hFanOut hRoutes.1 hStep' hKept
  | true =>
    cases command with
    | broadcastActivity sid tag =>
      have hNoted : s.noted seen (.loop env) =
          Function.update seen tag (s.clientsWith ClientState.wantsActivity) := by
        unfold noted
        rw [hInbox]
      rw [hNoted]
      exact served_activity (h hBefore) hInbox hStep' hKept
    | broadcastSessionStatus sid status tag =>
      rw [noted_other (by simp) hInbox]
      exact served_status (h hBefore) hBefore hInbox hRoutes.2 hStep' hKept
    | _ => cases hFanOut

end Loop

/-! ## Steps of the daemon -/

section Steps

variable {os : List Event} {seen : Tag → Finset ClientId}

theorem served_workerStep {thread : ThreadId} {streamId : Nat} {move : WorkerMove}
    (hInv : s.core.Inv) (h : Served client (s.line client) t)
    (hStep : s.workerStep thread streamId move = some s') : Served client (s'.line client) t := by
  unfold workerStep at hStep
  split at hStep
  · cases hStep
  split at hStep
  rotate_left
  · cases hStep
  cases hStep
  cases move with
  | writeTurn turnId turn => exact h
  | writeAttachment turnId slot data => exact h
  | broadcast =>
    rw [show (s.performMove thread _ streamId .broadcast).line client = s.line client from
      line_sendSession s thread rfl]
    exact h
  | statusChanged status =>
    rw [show (s.performMove thread _ streamId (.statusChanged status)).line client = s.line client
      from line_sendSession s thread rfl]
    exact h
  | createSession params =>
    exact h.post (sound_line hInv) (by simp) (fun _ => rfl) fun _ _ _ => rfl
  | finish =>
    rw [show (s.performMove thread _ streamId .finish).line client = s.line client from
      (line_sendSession _ thread rfl).trans (line_modifyThread s thread fun _ _ => rfl)]
    exact h

theorem served_finalizeStep {index : Nat} (hInv : s.core.Inv) (h : Served client (s.line client) t)
    (hStep : s.finalizeStep index = some s') : Served client (s'.line client) t := by
  unfold finalizeStep at hStep
  split at hStep
  · cases hStep
  split at hStep
  · cases hStep
    exact h
  · cases hStep
    exact h
  · cases hStep
    exact h.post (sound_line hInv) (by simp) (fun _ => rfl) fun _ _ _ => rfl

theorem unused_of_crash (hKept : s.crash.lost client = false) : (s.conns client).used = false := by
  by_contra hUsed
  have hThere : (s.conns client).used = true := Bool.not_eq_false _ ▸ hUsed
  change ((s.conns client).used && (!false || true || (s.conns client).evicted)) = false at hKept
  rw [hThere] at hKept
  cases hKept

theorem served_crash (h : Served client (s.line client) t) (hUnused : (s.conns client).used = false) :
    Served client (s.crash.line client) t := by
  refine @Served.restart client _ (s.crash.line client) t h hUnused rfl rfl rfl rfl rfl
    (fun q hq => ?_) fun j => ?_
  · obtain ⟨th, hth, rfl⟩ := List.mem_map.mp hq
    obtain ⟨th₀, hth₀, rfl⟩ := List.mem_map.mp hth
    exact ⟨((h.unused hUnused).2.2 _ (List.mem_map.mpr ⟨th₀, hth₀, rfl⟩)).1, rfl, rfl⟩
  · have hKilled : s.crash.threads[j]? = s.threads[j]?.map Thread.kill := List.getElem?_map
    cases hGet : s.threads[j]? with
    | none =>
      rw [hGet] at hKilled
      rw [port_absent hGet, port_absent hKilled]
      exact ⟨rfl, rfl, rfl⟩
    | some th =>
      rw [hGet] at hKilled
      rw [port_line hGet, port_line hKilled]
      exact ⟨rfl, rfl, rfl⟩

theorem lost_of_unused (h : (s.conns client).used = false) : s.lost client = false := by
  unfold lost
  rw [h]
  rfl

theorem served_crashDuring {n : Nat} (h : s.lost client = false → Served client (s.line client) t)
    (hKept : s'.lost client = false) (hStep : s.crashDuring n = some s') :
    Served client (s'.line client) t := by
  unfold crashDuring at hStep
  split at hStep
  rotate_left
  · cases hStep
  rename_i c id rest hInbox
  cases hStep
  set done : System := ((s.deleteTargets id).take n).foldl deleteAndForget (s.forgetChildren id)
  have hStays : Stays (s.line client) (done.line client) :=
    @stays_foldl client _ _ stays_deleteAndForget _ (s.forgetChildren id)
  have hUnused : (done.conns client).used = false := unused_of_crash hKept
  have hBefore : s.lost client = false := lost_of_unused (hStays.used.symm.trans hUnused)
  refine served_crash ?_ hUnused
  rw [hStays.same (h hBefore).used_of_entry (lost_of_unused hUnused)]
  exact h hBefore

/-- Every step of the daemon that keeps the routes apart serves a client that stays. -/
theorem served_next {a : Action} (hInv : s.core.Inv) (hOk : ∀ c, (s.desk c).Ok c) (hOwn : s.Own)
    (h : s.lost client = false → Served client (s.line client) (tallies client os seen))
    (hKept : s'.lost client = false) (hRoutes : s.routesKept seen a = true)
    (hStep : s.next a = some s') :
    Served client (s'.line client) (tallies client os (s.noted seen a)) := by
  have hSame : s'.conns = s.conns → Served client (s.line client) (tallies client os seen) :=
    fun hConns => h ((lost_of_conns hConns).symm.trans hKept)
  cases a with
  | connect c => exact served_connectStep hInv h hKept hStep
  | request c request => exact served_requestStep h hKept hStep
  | conn c => exact served_connStep hInv (hOk c) hOwn h hKept hStep
  | disconnect c => exact served_disconnectStep h hKept hStep
  | writerExit c =>
    cases hStep
    exact served_setConn h rfl (fun _ => .inr rfl) hKept
  | loop env => exact served_loopStep hInv h hKept hRoutes hStep
  | process thread env => exact served_processStep hInv (hSame (conns_processStep hStep)) hStep
  | thread thread => exact served_threadStep hInv h hKept hStep
  | worker thread streamId move =>
    exact served_workerStep hInv (hSame (conns_workerStep hStep)) hStep
  | runChild thread =>
    cases hStep
    rw [show (s.sendSession thread .runChildInput).line client = s.line client from
      line_sendSession s thread rfl]
    exact hSame rfl
  | finalize index => exact served_finalizeStep hInv (hSame (conns_finalizeStep hStep)) hStep
  | overLag c =>
    cases hStep
    exact (hSame rfl).post (sound_line hInv) (by simp) (fun _ => rfl) fun _ _ _ => rfl
  | crash =>
    cases hStep
    have hUnused := unused_of_crash hKept
    exact served_crash (h (lost_of_unused hUnused)) hUnused
  | crashDuring n => exact served_crashDuring h hKept hStep

end Steps

/-! ## Runs -/

/-- The daemon, with a record of the clients that wanted all activity when the loop served
the activity subscribers. -/
def watched : Machine (System × (Tag → Finset ClientId)) Action Event where
  step w a := (w.1.step a).map fun r => ((r.1, w.1.noted w.2 a), r.2)

section Runs

variable {os os' : List Event} {w w' : System × (Tag → Finset ClientId)} {a : Action}

/-- What every run keeps, and what it keeps for a client that stays. -/
structure FanInv (client : ClientId) (os : List Event) (w : System × (Tag → Finset ClientId)) :
    Prop where
  core : w.1.core.Inv
  ok : ∀ c, (w.1.desk c).Ok c
  own : w.1.Own
  served : w.1.lost client = false →
    Served client (line { w.1 with events := [] } client) (tallies client os w.2)

theorem fanInv_init (client : ClientId) : FanInv client [] (init, fun _ => ∅) where
  core := inv_init
  ok := (deskInv_init client).ok
  own _ _ he := absurd he List.not_mem_nil
  served _ := by
    have hPort : ∀ j, (line init client).port j = Port.absent := fun _ => rfl
    refine ⟨List.not_mem_nil, fun p hp => absurd hp List.not_mem_nil, ?_, fun _ => ⟨rfl, ?_, ?_⟩, ?_,
      fun j => ⟨trivial, List.Pairwise.nil, ?_, ?_, fun _ _ => ⟨rfl, rfl, rfl⟩, fun _ => rfl⟩⟩
    · intro hUsed
      cases hUsed
    · exact fun command hMem => absurd hMem List.not_mem_nil
    · exact fun p hp => absurd hp List.not_mem_nil
    · intro sid before command after hSplit
      have hNil : [] = before ++ command :: after := hSplit
      simp at hNil
    · exact fun i hMem => absurd hMem List.not_mem_nil
    · intro hLive
      cases hLive

theorem served_rebase {seen : Tag → Finset ClientId}
    (h : Served client (s.line client) (tallies client os seen)) :
    Served client (line { s with events := [] } client) (tallies client (os ++ s.events) seen) := by
  refine ⟨h.noLeave, h.noRemove, h.registered, h.unused, h.sourced, fun j => ?_⟩
  have hTally : (line { s with events := [] } client).tally
      (tallies client (os ++ s.events) seen j) j =
        (s.line client).tally (tallies client os seen j) j := by
    unfold Line.tally tallies line
    simp [List.count_append, List.any_append]
  rw [hTally]
  exact (h.pipe j).congr rfl rfl rfl rfl rfl rfl rfl rfl rfl id

theorem fanInv_step (h : FanInv client os w) (hStep : watched.step w a = some (w', os'))
    (hRoutes : w.1.routesKept w.2 a = true) : FanInv client (os ++ os') w' := by
  obtain ⟨⟨s', events⟩, hNext, hEq⟩ := Option.map_eq_some_iff.mp hStep
  cases hEq
  have hCore := (advances_step h.core hNext).1
  obtain ⟨s', hNext, hEq⟩ := Option.map_eq_some_iff.mp hNext
  cases hEq
  set s₀ : System := { w.1 with events := [] }
  have hInv₀ : s₀.core.Inv := h.core.mark []
  have hOk₀ : ∀ c, (s₀.desk c).Ok c := fun c =>
    ⟨(h.ok c).unused, (h.ok c).waiting, (h.ok c).free, (h.ok c).first, (h.ok c).targets,
      (h.ok c).noSnapshot⟩
  have hOwn₀ : s₀.Own := h.own
  refine ⟨hCore, ok_next hInv₀ hOk₀ hNext, own_next hOwn₀ hNext, fun hKept => ?_⟩
  have hRoutes₀ : s₀.routesKept w.2 a = true := by
    rw [← hRoutes]
    cases a <;> rfl
  have hNoted : s₀.noted w.2 a = w.1.noted w.2 a := by cases a <;> rfl
  have hServed := served_next hInv₀ hOk₀ hOwn₀ h.served hKept hRoutes₀ hNext
  rw [hNoted] at hServed
  exact served_rebase hServed

theorem lost_of_present (h : s.present client) : s.lost client = false := by
  unfold lost
  rw [h.1, h.2.1, h.2.2]
  exact Bool.and_false _

/-- In every run that keeps the routes apart, a client that is there has one copy of each
broadcast that it was entitled to on some path, and no copy of any other. -/
theorem fanned_out_once_of_routesKept {as : List Action}
    (hRun : (watched.guard fun w a => w.1.routesKept w.2 a = true).exec (init, fun _ => ∅) as =
      some (w, os)) (hPresent : w.1.present client) (tag : Tag) :
    os.count (.sent client (.event tag)) =
      if os.any (Event.entitles client tag) = true then 1 else 0 := by
  have hFan := Machine.exec_invariant (P := FanInv client)
    (fun h hStep => by
      obtain ⟨hRoutes, hStep⟩ := Machine.guard_step_eq_some.mp hStep
      exact fanInv_step h hStep hRoutes)
    (fanInv_init client) hRun
  have hExact := ((hFan.served (lost_of_present hPresent)).pipe tag.thread).exact tag.number
  unfold Line.tally tallies line at hExact
  simpa using hExact

/-- A second client wants all activity, and the first, which is attached, runs a request. -/
def watchedRun : List Action :=
  attachRun ++ [Action.connect 1, Action.request 1 .subscribeAllActivity, Action.conn 1,
    Action.loop sampleLoopEnv, Action.loop sampleLoopEnv, Action.loop sampleLoopEnv,
    Action.loop sampleLoopEnv, Action.request 0 .runInput, Action.conn 0,
    Action.process 0 sampleProcessEnv, Action.thread 0, Action.loop sampleLoopEnv]

theorem sample_fanned_out_once :
    ∃ w os, (watched.guard fun w a => w.1.routesKept w.2 a = true).exec (init, fun _ => ∅) watchedRun =
        some (w, os) ∧ w.1.present 1 ∧ os.any (Event.entitles 1 ⟨0, 0⟩) = true ∧
      os.count (.sent 1 (.event ⟨0, 0⟩)) =
        if os.any (Event.entitles 1 ⟨0, 0⟩) = true then 1 else 0 := by
  have hCheck : (watched.guard fun w a => w.1.routesKept w.2 a = true).check (init, fun _ => ∅)
      watchedRun (fun w os => (w.1.conns 1).up && !(w.1.conns 1).writerGone &&
        !(w.1.conns 1).evicted && os.any (Event.entitles 1 ⟨0, 0⟩)) = true := by
    decide +kernel
  obtain ⟨w, os, hRun, hTest⟩ := Machine.exists_of_check hCheck
  simp only [Bool.and_eq_true, Bool.not_eq_true'] at hTest
  obtain ⟨⟨⟨hUp, hWriter⟩, hEvicted⟩, hEntitled⟩ := hTest
  have hPresent : w.1.present 1 := ⟨hUp, hWriter, hEvicted⟩
  exact ⟨w, os, hRun, hPresent, hEntitled, fanned_out_once_of_routesKept hRun hPresent ⟨0, 0⟩⟩

end Runs

end System

end Choreographr.Daemon
