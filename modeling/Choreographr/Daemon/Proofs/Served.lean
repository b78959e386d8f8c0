import Choreographr.Daemon.Proofs.Pipe

/-!
# A client that stays is served

`Served` says what holds of a client that is not lost, about all threads together. The
moves of the system, seen from one client, keep it: something is sent to the loop, a
thread does something, the loop takes a command, the client is accepted, the daemon is
opened again.
-/

namespace Choreographr.Daemon

open Session Lib

/-- What holds of a client that is not lost. -/
structure Served (client : ClientId) (k : Line) (t : ThreadId → Tally) : Prop where
  noLeave : .clientDisconnected client ∉ k.inbox
  noRemove : ∀ p ∈ k.ports, .removeSubscriber client ∉ p.queue
  registered : k.used = true → k.entry ≠ none ∨ .registerClientWriter client ∈ k.inbox
  /-- Nobody knows a client that has not been connected. -/
  unused : k.used = false → k.entry = none ∧
    (∀ command ∈ k.inbox, ∀ sid m, m ≠ some true → command.follow client sid m = m) ∧
    ∀ p ∈ k.ports, p.subscribed = false ∧ p.queue = [] ∧ ∀ e ∈ p.effects, e ≠ .track client
  /-- What the loop is told about the subscribers of a session comes before the exit of the
  thread that told it. -/
  sourced : ∀ sid before command after, k.inbox = before ++ command :: after →
    (∀ p ∈ k.ports, p.live = true → p.sessionId ≠ sid) → .sessionExited sid ∉ after →
      ∀ m, m ≠ none → command.follow client sid m = m
  pipe : ∀ thread, Pipe client thread k (k.tally (t thread) thread)

/-- No session has two threads that are alive, and a thread that is not alive has nothing
left to do. -/
structure Line.Sound (k : Line) : Prop where
  idle : ∀ thread, (k.port thread).live = false → (k.port thread).effects = []
  apart : ∀ i j, (k.port i).live = true → (k.port j).live = true →
    (k.port i).sessionId = (k.port j).sessionId → i = j

namespace Served

variable {client : ClientId} {k k' : Line} {t : ThreadId → Tally} {thread : ThreadId}
  {command : DaemonCommand} {p : Port} {rest : List DaemonCommand} {entry : Option ClientState}

theorem mem_ports_of_live {j : ThreadId} (h : (k.port j).live = true) : k.port j ∈ k.ports := by
  unfold Line.port at h ⊢
  cases hGet : k.ports[j]? with
  | none =>
    rw [hGet] at h
    cases h
  | some q => exact List.mem_of_getElem? hGet

/-- A command that says nothing new of the client is sent to the loop. -/
theorem post (h : Served client k t) (hSound : k.Sound)
    (hLeave : command ≠ .clientDisconnected client)
    (hStamp : ∀ thread, command.stamp thread = none)
    (hFollow : ∀ sid m, (k.used = true → m ≠ none) → command.follow client sid m = m) :
    Served client { k with inbox := k.inbox ++ [command] } t where
  noLeave hMem := by
    rcases List.mem_append.mp hMem with hMem | hMem
    · exact h.noLeave hMem
    · exact hLeave (List.mem_singleton.mp hMem).symm
  noRemove := h.noRemove
  registered hUsed := (h.registered hUsed).imp_right fun hMem => List.mem_append_left _ hMem
  unused hUnused := by
    obtain ⟨hEntry, hInbox, hPorts⟩ := h.unused hUnused
    refine ⟨hEntry, fun c hMem sid m hOut => ?_, hPorts⟩
    rcases List.mem_append.mp hMem with hMem | hMem
    · exact hInbox c hMem sid m hOut
    · rw [List.mem_singleton.mp hMem]
      exact hFollow sid m fun hUsed => absurd (hUnused.symm.trans hUsed) Bool.false_ne_true
  sourced sid before c after hSplit hDead hExit m hSome := by
    rcases append_singleton_eq_split hSplit with ⟨-, rfl, -⟩ | ⟨after', rfl, hOld⟩
    · exact hFollow sid m fun _ => hSome
    · exact h.sourced sid before c after' hOld hDead
        (fun hMem => hExit (List.mem_append_left _ hMem)) m hSome
  pipe thread := (h.pipe thread).post (hStamp thread) (hSound.idle thread) fun _ m hSome =>
    hFollow _ m hSome

/-- A thread does something, and may tell the loop. -/
theorem act (h : Served client k t) (hSound : k.Sound) (p : Port) (told : Option DaemonCommand)
    (hUsed : k'.used = k.used) (hEntry : k'.entry = k.entry)
    (hInbox : k'.inbox = k.inbox ++ told.toList)
    (hPort : ∀ j, k'.port j = if j = thread then p else k.port j)
    (hMem : ∀ q ∈ k'.ports, q = p ∨ q ∈ k.ports)
    (hTally : ∀ j, j ≠ thread → k'.tally (t j) j = k.tally (t j) j)
    (hPipe : Pipe client thread k' (k'.tally (t thread) thread))
    (hId : p.sessionId = (k.port thread).sessionId)
    (hAlive : p.live = true → (k.port thread).live = true)
    (hLive : (k.port thread).live = true → p.live = true ∨ told = some (.sessionExited p.sessionId))
    (hNoRemove : .removeSubscriber client ∉ p.queue)
    (hUnused : k.used = false → p.subscribed = false ∧ p.queue = [] ∧
      ∀ e ∈ p.effects, e ≠ .track client)
    (hTold : ∀ command, told = some command → command ≠ .clientDisconnected client ∧
      (∀ j, j ≠ thread → command.stamp j = none) ∧
      (k.used = false → ∀ sid m, m ≠ some true → command.follow client sid m = m) ∧
      ∀ sid, (p.live = true → p.sessionId ≠ sid) → ∀ m, command.follow client sid m = m) :
    Served client k' t := by
  have hDeadBefore : ∀ sid, (∀ q ∈ k'.ports, q.live = true → q.sessionId ≠ sid) →
      told ≠ some (.sessionExited sid) → ∀ q ∈ k.ports, q.live = true → q.sessionId ≠ sid := by
    intro sid hDead hStays q hq hqLive hSid
    obtain ⟨j, hGet⟩ := List.getElem?_of_mem hq
    have hAt : k.port j = q := by rw [Line.port, hGet, Option.getD_some]
    by_cases hEq : j = thread
    · have hBefore : (k.port thread).live = true := by rw [← hEq, hAt, hqLive]
      have hSame : p.sessionId = sid := by rw [hId, ← hEq, hAt, hSid]
      rcases hLive hBefore with hThere | hExits
      · have hNow : k'.port thread = p := by rw [hPort, if_pos rfl]
        exact hDead p (hNow ▸ mem_ports_of_live (by rw [hNow, hThere])) hThere hSame
      · rw [hSame] at hExits
        exact hStays hExits
    · have hNow : k'.port j = q := by rw [hPort, if_neg hEq, hAt]
      exact hDead q (hNow ▸ mem_ports_of_live (by rw [hNow, hqLive])) hqLive hSid
  refine ⟨fun hLeave => ?_, fun q hq => ?_, fun hThere => ?_, fun hThere => ?_,
    fun sid before command after hSplit hDead hExit m hSome => ?_, fun j => ?_⟩
  · rw [hInbox] at hLeave
    rcases List.mem_append.mp hLeave with hLeave | hLeave
    · exact h.noLeave hLeave
    · exact (hTold _ (Option.mem_toList.mp hLeave)).1 rfl
  · rcases hMem q hq with rfl | hq
    · exact hNoRemove
    · exact h.noRemove q hq
  · rw [hUsed] at hThere
    rw [hEntry, hInbox]
    exact (h.registered hThere).imp_right fun hRegister => List.mem_append_left _ hRegister
  · rw [hUsed] at hThere
    obtain ⟨hNone, hOld, hPorts⟩ := h.unused hThere
    refine ⟨hEntry.trans hNone, fun command hCommand => ?_, fun q hq => ?_⟩
    · rw [hInbox] at hCommand
      rcases List.mem_append.mp hCommand with hCommand | hCommand
      · exact hOld command hCommand
      · exact (hTold command (Option.mem_toList.mp hCommand)).2.2.1 hThere
    · rcases hMem q hq with rfl | hq
      · exact hUnused hThere
      · exact hPorts q hq
  · rw [hInbox] at hSplit
    cases told with
    | none =>
      rw [Option.toList_none, List.append_nil] at hSplit
      exact h.sourced sid before command after hSplit (hDeadBefore sid hDead (by simp)) hExit m hSome
    | some last =>
      rcases append_singleton_eq_split hSplit with ⟨-, rfl, -⟩ | ⟨after', rfl, hOld⟩
      · refine (hTold last rfl).2.2.2 sid (fun hThere hSid => ?_) m
        have hNow : k'.port thread = p := by rw [hPort, if_pos rfl]
        exact hDead p (hNow ▸ mem_ports_of_live (by rw [hNow, hThere])) hThere hSid
      · refine h.sourced sid before command after' hOld (hDeadBefore sid hDead fun hEq => ?_)
          (fun hMem => hExit (List.mem_append_left _ hMem)) m hSome
        rw [Option.some.inj hEq] at hExit
        exact hExit (List.mem_append_right _ (List.mem_singleton_self _))
  · by_cases hEq : j = thread
    · rw [hEq]
      exact hPipe
    rw [hTally j hEq]
    have hSame : k'.port j = k.port j := by rw [hPort, if_neg hEq]
    cases told with
    | none =>
      rw [Option.toList_none, List.append_nil] at hInbox
      exact (h.pipe j).of_same hUsed hEntry hInbox hSame
    | some last =>
      obtain ⟨-, hStamp, -, hFollow⟩ := hTold last rfl
      have hPosted := (h.pipe j).post (hStamp j hEq) (hSound.idle j) fun hThere m _ =>
        hFollow _ (fun hAlso hSid => hEq (hSound.apart j thread hThere (hAlive hAlso)
          (by rw [← hSid, hId]))) m
      exact hPosted.of_same hUsed hEntry hInbox hSame

/-- The client is accepted. -/
theorem connect (h : Served client k t) (hUnused : k.used = false) (hUsed : k'.used = true)
    (hEntry : k'.entry = k.entry) (hInbox : k'.inbox = k.inbox ++ [.registerClientWriter client])
    (hPorts : k'.ports = k.ports) (hHeard : k'.heard = k.heard)
    (hEntitled : k'.entitled = k.entitled) : Served client k' t := by
  obtain ⟨hNone, hStrange, hOut⟩ := h.unused hUnused
  have hPort : ∀ j, k'.port j = k.port j := fun j => by rw [Line.port, hPorts, Line.port]
  have hStranger : ∀ j, (k.port j).subscribed = false ∧
      ∀ e ∈ (k.port j).effects, e ≠ .track client := by
    intro j
    unfold Line.port
    cases hGet : k.ports[j]? with
    | none => exact ⟨rfl, fun e he => absurd he List.not_mem_nil⟩
    | some q =>
      obtain ⟨hSubscribed, -, hTrack⟩ := hOut q (List.mem_of_getElem? hGet)
      exact ⟨hSubscribed, hTrack⟩
  refine ⟨fun hMem => ?_, ?_, fun _ => .inr ?_, fun hStill => ?_,
    fun sid before command after hSplit hDead hExit m hSome => ?_, fun j => ?_⟩
  · rw [hInbox] at hMem
    rcases List.mem_append.mp hMem with hMem | hMem
    · exact h.noLeave hMem
    · cases List.mem_singleton.mp hMem
  · rw [hPorts]
    exact h.noRemove
  · rw [hInbox]
    exact List.mem_append_right _ (List.mem_singleton_self _)
  · rw [hUsed] at hStill
    cases hStill
  · rw [hInbox] at hSplit
    rw [hPorts] at hDead
    rcases append_singleton_eq_split hSplit with ⟨-, rfl, -⟩ | ⟨after', rfl, hOld⟩
    · cases m with
      | none => exact absurd rfl hSome
      | some b => exact if_pos rfl
    · exact h.sourced sid before command after' hOld hDead
        (fun hMem => hExit (List.mem_append_left _ hMem)) m hSome
  · have hTally : k'.tally (t j) j = k.tally (t j) j := by
      unfold Line.tally
      rw [hHeard, hEntitled]
    rw [hTally]
    refine (h.pipe j).connect (fun command hMem sid m hNot => ?_) hNone (hStranger j).1 (hPort j)
      hUsed hEntry hInbox
    rcases List.mem_append.mp hMem with hMem | hMem
    · exact hStrange command hMem sid m hNot
    · obtain ⟨e, he, hEq⟩ := List.mem_filterMap.mp hMem
      exact follow_of_stranger hEq ((hStranger j).2 e he) hNot

/-- A client that has been accepted and still has no entry is going to be registered. -/
theorem registering (h : Served client k t) {sid : Nat} (hInbox : k.inbox = command :: rest)
    (hUsed : k.used = true)
    (hEntry : membership sid entry = command.follow client sid (membership sid k.entry))
    (hNone : entry = none) : .registerClientWriter client ∈ rest := by
  rw [hNone] at hEntry
  have hBefore : k.entry = none := by
    by_contra hSome
    exact follow_ne_none command (mt Option.map_eq_none_iff.mp hSome) hEntry.symm
  have hRegister := (h.registered hUsed).resolve_left fun hSome => hSome hBefore
  rw [hInbox] at hRegister
  refine (List.mem_cons.mp hRegister).resolve_left ?_
  rintro rfl
  rw [hBefore] at hEntry
  exact absurd hEntry (by simp [membership, DaemonCommand.follow])

theorem entry_of_unused (h : Served client k t) {sid : Nat} (hInbox : k.inbox = command :: rest)
    (hUnused : k.used = false)
    (hEntry : membership sid entry = command.follow client sid (membership sid k.entry)) :
    entry = none := by
  obtain ⟨hNone, hOld, -⟩ := h.unused hUnused
  have hIn : command ∈ k.inbox := by
    rw [hInbox]
    exact List.mem_cons_self
  rw [hNone, hOld command hIn sid (membership sid none) (by simp [membership])] at hEntry
  exact Option.map_eq_none_iff.mp hEntry

/-- The loop takes a command, and may start threads. -/
theorem pop (h : Served client k t) {t' : ThreadId → Tally} {more : List Port}
    (hInbox : k.inbox = command :: rest) (hUsed : k'.used = k.used) (hInbox' : k'.inbox = rest)
    (hEntry : ∀ sid, membership sid k'.entry = command.follow client sid (membership sid k.entry))
    (hPorts : k'.ports = k.ports ++ more) (hFresh : ∀ p ∈ more, p.Fresh)
    (hPipe : ∀ thread, Pipe client thread k' (k'.tally (t' thread) thread)) :
    Served client k' t' := by
  refine ⟨fun hMem => h.noLeave ?_, fun q hq => ?_, fun hThere => ?_, fun hUnused => ?_,
    fun sid before c after hSplit hDead hExit m hSome => ?_, hPipe⟩
  · rw [hInbox]
    rw [hInbox'] at hMem
    exact List.mem_cons_of_mem command hMem
  · rw [hPorts] at hq
    rcases List.mem_append.mp hq with hq | hq
    · exact h.noRemove q hq
    · rw [(hFresh q hq).queue]
      exact List.not_mem_nil
  · rw [hUsed] at hThere
    rw [hInbox']
    by_cases hNone : k'.entry = none
    · exact .inr (h.registering hInbox hThere (hEntry 0) hNone)
    · exact .inl hNone
  · rw [hUsed] at hUnused
    obtain ⟨-, hOld, hOut⟩ := h.unused hUnused
    refine ⟨h.entry_of_unused hInbox hUnused (hEntry 0), fun c hMem => hOld c ?_, fun q hq => ?_⟩
    · rw [hInbox]
      rw [hInbox'] at hMem
      exact List.mem_cons_of_mem command hMem
    · rw [hPorts] at hq
      rcases List.mem_append.mp hq with hq | hq
      · exact hOut q hq
      · obtain ⟨metadata, hEffects⟩ := (hFresh q hq).effects
        refine ⟨(hFresh q hq).subscribed, (hFresh q hq).queue, fun e he hEq => ?_⟩
        rw [hEffects, hEq] at he
        cases List.mem_singleton.mp he
  · refine h.sourced sid (command :: before) c after ?_ (fun q hq => hDead q ?_) hExit m hSome
    · rw [hInbox, ← hInbox', hSplit]
      rfl
    · rw [hPorts]
      exact List.mem_append_left _ hq

/-- Where nothing is said about the subscribers of a session, a client that is on its way to
be registered is no subscriber. -/
theorem foldl_follow_none {sid : Nat} {xs : List DaemonCommand}
    (hQuiet : ∀ command ∈ xs, ∀ m, m ≠ none → command.follow client sid m = m)
    (hMem : .registerClientWriter client ∈ xs) :
    xs.foldl (DaemonCommand.follow client sid) none = some false := by
  induction xs with
  | nil => cases hMem
  | cons x rest ih =>
    have hRest : ∀ command ∈ rest, ∀ m, m ≠ none → command.follow client sid m = m :=
      fun command hIn => hQuiet command (List.mem_cons_of_mem x hIn)
    rw [List.foldl_cons]
    rcases @follow_none_cases client x sid with hNone | hSome
    · rw [hNone]
      refine ih hRest ((List.mem_cons.mp hMem).resolve_left ?_)
      rintro rfl
      rw [show (DaemonCommand.registerClientWriter client).follow client sid none = some false from
        if_pos rfl] at hNone
      cases hNone
    · rw [hSome]
      exact foldl_follow_of_forall fun command hIn => hRest command hIn _ (by simp)

/-- The loop takes a command that fans nothing out. -/
theorem taken (h : Served client k t) {more : List Port} (hInbox : k.inbox = command :: rest)
    (hEntry : ∀ sid, membership sid entry = command.follow client sid (membership sid k.entry))
    (hFresh : ∀ p ∈ more, p.Fresh)
    (hAlone : ∀ p ∈ more, (∀ q ∈ k.ports, q.live = true → q.sessionId ≠ p.sessionId) ∧
      .sessionExited p.sessionId ∉ rest)
    (hClean : ∀ p ∈ more, membership p.sessionId entry ≠ some true) :
    Served client { k with inbox := rest, entry := entry, ports := k.ports ++ more } t := by
  refine h.pop hInbox rfl rfl hEntry rfl hFresh fun j => ?_
  have hPopped : Pipe client j { k with inbox := rest, entry := entry } (k.tally (t j) j) :=
    (h.pipe j).pop hInbox rfl rfl rfl hEntry
  by_cases hOld : j < k.ports.length
  · have hPort : (k.ports ++ more)[j]? = k.ports[j]? := List.getElem?_append_left hOld
    have hSame : Line.port { k with inbox := rest, entry := entry, ports := k.ports ++ more } j =
        k.port j := by rw [Line.port, hPort, Line.port]
    exact hPopped.of_same rfl rfl rfl hSame
  have hAbsent : k.port j = Port.absent := by
    rw [Line.port, List.getElem?_eq_none_iff.mpr (Nat.not_lt.mp hOld), Option.getD_none]
  have hPort : (k.ports ++ more)[j]? = more[j - k.ports.length]? :=
    List.getElem?_append_right (Nat.not_lt.mp hOld)
  cases hGet : more[j - k.ports.length]? with
  | none =>
    have hSame : Line.port { k with inbox := rest, entry := entry, ports := k.ports ++ more } j =
        k.port j := by rw [Line.port, hPort, hGet, hAbsent, Option.getD_none]
    exact hPopped.of_same rfl rfl rfl hSame
  | some p =>
    have hIn := List.mem_of_getElem? hGet
    have hNew : Line.port { k with inbox := rest, entry := entry, ports := k.ports ++ more } j =
        p := by
      rw [Line.port, hPort, hGet, Option.getD_some]
    refine hPopped.start hAbsent hNew (hFresh p hIn) rfl rfl rfl ?_
    obtain ⟨hDead, hExit⟩ := hAlone p hIn
    -- No thread before it has left anything in the inbox.
    have hQuiet : ∀ c ∈ rest, ∀ m, m ≠ none → c.follow client p.sessionId m = m := by
      intro c hc m hSome
      obtain ⟨before, after, rfl⟩ := List.append_of_mem hc
      refine h.sourced p.sessionId (command :: before) c after hInbox hDead (fun hMem => hExit ?_) m
        hSome
      exact List.mem_append_right _ (List.mem_cons_of_mem c hMem)
    have hFound := hEntry p.sessionId
    show rest.foldl (DaemonCommand.follow client p.sessionId) (membership p.sessionId entry) =
      if k.used then some false else none
    cases hUsed : k.used with
    | false =>
      rw [h.entry_of_unused hInbox hUsed hFound]
      apply foldl_follow_of_forall
      intro c hc
      exact (h.unused hUsed).2.1 c (by rw [hInbox]; exact List.mem_cons_of_mem _ hc) _ _
        (by simp [membership])
    | true =>
      cases hThere : entry with
      | some st =>
        have hNot : membership p.sessionId (some st) = some false := by
          have hClean' := hClean p hIn
          rw [hThere] at hClean'
          exact congrArg some (by simpa [membership] using hClean')
        rw [hNot]
        exact foldl_follow_of_forall fun c hc => hQuiet c hc _ (by simp)
      | none => exact foldl_follow_none hQuiet (h.registering hInbox hUsed hFound hThere)

/-- The daemon is opened again; a client that was connected is lost. -/
theorem restart (h : Served client k t) (hUnused : k.used = false) (hUsed : k'.used = k.used)
    (hEntry : k'.entry = none) (hInbox : k'.inbox = []) (hHeard : k'.heard = k.heard)
    (hEntitled : k'.entitled = k.entitled)
    (hPorts : ∀ q ∈ k'.ports, q.subscribed = false ∧ q.queue = [] ∧ q.effects = [])
    (hPort : ∀ j, (k'.port j).effects = [] ∧ (k'.port j).live = false ∧
      (k'.port j).broadcasts = (k.port j).broadcasts) : Served client k' t := by
  refine ⟨?_, fun q hq => ?_, fun hThere => ?_, fun _ => ⟨hEntry, ?_, fun q hq => ?_⟩,
    fun sid before command after hSplit => ?_, fun j => ?_⟩
  · rw [hInbox]
    exact List.not_mem_nil
  · rw [(hPorts q hq).2.1]
    exact List.not_mem_nil
  · rw [hUsed, hUnused] at hThere
    cases hThere
  · rw [hInbox]
    exact fun command hMem => absurd hMem List.not_mem_nil
  · obtain ⟨hSubscribed, hQueue, hEffects⟩ := hPorts q hq
    refine ⟨hSubscribed, hQueue, ?_⟩
    rw [hEffects]
    exact fun e he => absurd he List.not_mem_nil
  · rw [hInbox] at hSplit
    simp at hSplit
  · have hTally : k'.tally (t j) j = k.tally (t j) j := by
      unfold Line.tally
      rw [hHeard, hEntitled]
    obtain ⟨hEffects, hLive, hBroadcasts⟩ := hPort j
    rw [hTally]
    exact (h.pipe j).restart hInbox hEffects hLive hBroadcasts

theorem tally_fanOut {k : Line} {t : Tally} {tag : Tag} {reached entitled : Bool} :
    ((k.fanOut tag reached entitled).tally t tag.thread).copies tag.number =
        (k.tally t tag.thread).copies tag.number + (if reached = true then 1 else 0) ∧
      ((k.fanOut tag reached entitled).tally t tag.thread).due tag.number =
        ((k.tally t tag.thread).due tag.number || entitled) ∧
      ∀ n, n ≠ tag.number →
        ((k.fanOut tag reached entitled).tally t tag.thread).copies n =
            (k.tally t tag.thread).copies n ∧
          ((k.fanOut tag reached entitled).tally t tag.thread).due n =
            (k.tally t tag.thread).due n := by
  have hSelf : tag = ⟨tag.thread, tag.number⟩ := rfl
  refine ⟨?_, ?_, fun n hNe => ?_⟩
  · unfold Line.tally Line.fanOut
    simp only [← hSelf, true_and, Nat.add_assoc]
  · unfold Line.tally Line.fanOut
    simp only [← hSelf, decide_true, Bool.true_and, Bool.or_assoc]
  · have hOther : tag ≠ ⟨tag.thread, n⟩ := by
      intro hEq
      exact hNe (congrArg Tag.number hEq).symm
    unfold Line.tally Line.fanOut
    simp only [hOther, false_and, if_false, Nat.add_zero, decide_false, Bool.false_and,
      Bool.or_false, and_self]

theorem used_of_entry (h : Served client k t) (hSome : k.entry ≠ none) : k.used = true := by
  by_contra hNot
  exact hSome (h.unused (Bool.eq_false_iff.mpr hNot)).1

/-- The loop fans a broadcast out on one path. -/
theorem fanOut (h : Served client k t) {t' : ThreadId → Tally} {tag : Tag} {reached entitled : Bool}
    (hInbox : k.inbox = command :: rest) (hFollow : ∀ sid m, command.follow client sid m = m)
    (hSame : ∀ thread, thread ≠ tag.thread → t' thread = t thread)
    (hPipe : Pipe client tag.thread (Line.fanOut { k with inbox := rest } tag reached entitled)
      ((Line.fanOut { k with inbox := rest } tag reached entitled).tally (t' tag.thread) tag.thread)) :
    Served client (Line.fanOut { k with inbox := rest } tag reached entitled) t' := by
  refine h.pop hInbox rfl rfl (fun sid => (hFollow sid _).symm) (List.append_nil _).symm
    (fun p hp => absurd hp List.not_mem_nil) fun thread => ?_
  by_cases hEq : thread = tag.thread
  · rw [hEq]
    exact hPipe
  · have hTally : (Line.fanOut { k with inbox := rest } tag reached entitled).tally (t' thread)
        thread = k.tally (t thread) thread := by
      have hNe : ∀ number, tag ≠ ⟨thread, number⟩ := by
        rintro number rfl
        exact hEq rfl
      unfold Line.tally Line.fanOut
      simp only [hNe, false_and, if_false, Nat.add_zero, decide_false, Bool.false_and, Bool.or_false,
        hSame thread hEq]
    rw [hTally]
    exact (h.pipe thread).pop hInbox rfl rfl rfl fun sid => (hFollow sid _).symm

end Served

end Choreographr.Daemon
