import Choreographr.Daemon.Proofs.Pipeline

/-!
# One client and the broadcasts of one thread

`Pipe` says that a client has the copies that it is entitled to of the broadcasts of a
thread, and that the loop will know so when it comes to serve it on the other paths. The
operations of the system on a client that stays keep it.
-/

namespace Choreographr.Daemon

open Session Lib

/-! ## The pipeline of a thread -/

namespace Line

/-- What the client has to do with a thread. -/
def port (k : Line) (thread : ThreadId) : Port := (k.ports[thread]?).getD Port.absent

/-- What the loop still hears of a thread, and of all others before it. -/
def pipeline (k : Line) (thread : ThreadId) : List DaemonCommand :=
  k.inbox ++ (k.port thread).commands thread

/-- What is known after the last step, from what was known before. -/
def tally (k : Line) (t : Tally) (thread : ThreadId) : Tally where
  copies number := t.copies number + k.heard ⟨thread, number⟩
  due number := t.due number || k.entitled ⟨thread, number⟩
  seen := t.seen

end Line

/-- The client has the copies of the broadcasts of a thread that it is entitled to, and the
loop will know what it has when it comes to serve it on the other paths. -/
structure Pipe (client : ClientId) (thread : ThreadId) (k : Line) (t : Tally) : Prop where
  fits : Fits client thread (k.port thread).sessionId (t.expecting (k.port thread))
    (membership (k.port thread).sessionId k.entry) (k.pipeline thread)
  sorted : ((k.pipeline thread).filterMap (DaemonCommand.stamp thread)).Pairwise (· < ·)
  made : ∀ i ∈ (k.pipeline thread).filterMap (DaemonCommand.stamp thread),
    i < 2 * (k.port thread).broadcasts
  /-- In the end the loop knows whether the client is a subscriber. -/
  member : (k.port thread).live = true →
    (k.pipeline thread).foldl (DaemonCommand.follow client (k.port thread).sessionId)
      (membership (k.port thread).sessionId k.entry) =
        if k.used then some (k.port thread).subscribed else none
  silent : ∀ number, (k.port thread).broadcasts ≤ number ∨
    (k.port thread).effects.any (ThreadEffect.announces number) = true → t.silent number
  exact : ∀ number, t.copies number = if t.due number = true then 1 else 0

section Commands

variable {client : ClientId} {thread : ThreadId} {p : Port} {t : Tally} {e : ThreadEffect}
  {number sid sid' : Nat} {command : DaemonCommand}

/-- What a thread tells the loop about the membership of a client. -/
theorem follow_of_effect (hEq : e.command? sid' thread = some command) (m : Option Bool) :
    command.follow client sid m = m ∨ ∃ b, (e = .track client ∨ e = .untrack client ∧ b = false) ∧
      sid' = sid ∧ command.follow client sid m = m.map fun _ => b := by
  cases e with
  | write row => cases hEq
  | sendStarted c streamId => cases hEq
  | sendState c => cases hEq
  | track c =>
    cases hEq
    by_cases hBoth : c = client ∧ sid' = sid
    · exact .inr ⟨true, .inl (by rw [hBoth.1]), hBoth.2, if_pos hBoth⟩
    · exact .inl (if_neg hBoth)
  | untrack c =>
    cases hEq
    by_cases hBoth : c = client ∧ sid' = sid
    · exact .inr ⟨false, .inr ⟨by rw [hBoth.1], rfl⟩, hBoth.2, if_pos hBoth⟩
    · exact .inl (if_neg hBoth)
  | _ =>
    cases hEq
    exact .inl rfl

theorem foldl_commands_none (sid : Nat) :
    (p.commands thread).foldl (DaemonCommand.follow client sid) none = none := by
  apply foldl_follow_of_forall
  intro command hMem
  obtain ⟨e, -, hEq⟩ := List.mem_filterMap.mp hMem
  rcases follow_of_effect hEq none with hSame | ⟨b, -, -, hSame⟩ <;> exact hSame

/-- A client that is no subscriber becomes one only if the thread tells the loop so. -/
theorem follow_of_stranger (hEq : e.command? sid' thread = some command)
    (hOther : e ≠ .track client) {m : Option Bool} (hOut : m ≠ some true) :
    command.follow client sid m = m := by
  rcases follow_of_effect hEq m with hSame | ⟨b, hTrack | ⟨-, rfl⟩, -, hSame⟩
  · exact hSame
  · exact absurd hTrack hOther
  · rw [hSame]
    rcases m with _ | _ | _
    · rfl
    · rfl
    · exact absurd rfl hOut

theorem follow_ne_none (command : DaemonCommand) {m : Option Bool} (h : m ≠ none) :
    command.follow client sid m ≠ none := by
  obtain ⟨b, rfl⟩ := Option.ne_none_iff_exists'.mp h
  cases command <;> dsimp only [DaemonCommand.follow] <;> try split
  all_goals exact Option.some_ne_none _

theorem follow_none_cases (command : DaemonCommand) (sid : Nat) :
    command.follow client sid none = none ∨ command.follow client sid none = some false := by
  cases command <;> dsimp only [DaemonCommand.follow] <;> try split
  all_goals first | exact .inl rfl | exact .inr rfl

theorem follow_of_noTrack (hTrack : e.tracks = false) (hEq : e.command? sid' thread = some command)
    (m : Option Bool) : command.follow client sid m = m := by
  rcases @follow_of_effect client thread e sid sid' command hEq m with
    hSame | ⟨b, rfl | ⟨rfl, -⟩, -⟩
  · exact hSame
  · cases hTrack
  · cases hTrack

theorem mem_stamps_of_announces {effects : List ThreadEffect}
    (h : effects.any (ThreadEffect.announces number) = true) :
    2 * number ∈ effects.filterMap ThreadEffect.stamp := by
  obtain ⟨e, hMem, hAnnounces⟩ := List.any_eq_true.mp h
  refine List.mem_filterMap.mpr ⟨e, hMem, ?_⟩
  cases e with
  | broadcast n => rw [ThreadEffect.stamp, of_decide_eq_true hAnnounces]
  | _ => cases hAnnounces

theorem expecting_of_not (h : p.effects.any (ThreadEffect.announces number) = false) :
    (t.expecting p).copies number = t.copies number := by
  show (if p.effects.any (ThreadEffect.announces number) = true then _ else _) = _
  rw [h]
  rfl

theorem expecting_of_announces (h : p.effects.any (ThreadEffect.announces number) = true) :
    (t.expecting p).copies number = p.subscribed.toNat := if_pos h

end Commands

namespace Port.Takes

variable {client : ClientId} {thread : ThreadId} {p p' : Port} {t : Tally}

theorem le (h : p.Takes client p') : p.broadcasts ≤ p'.broadcasts := by
  rcases h.speech with ⟨-, hSpoken⟩ | ⟨hSame, -, -⟩
  · exact hSpoken.le
  · exact hSame.ge

theorem sorted (h : p.Takes client p') :
    ((p'.commands thread).filterMap (DaemonCommand.stamp thread)).Pairwise (· < ·) := by
  rw [Port.stamps_commands]
  rcases h.speech with ⟨-, hSpoken⟩ | ⟨-, hNone, -⟩
  · exact hSpoken.sorted
  · rw [hNone]
    exact List.Pairwise.nil

theorem range (h : p.Takes client p') :
    ∀ i ∈ (p'.commands thread).filterMap (DaemonCommand.stamp thread),
      2 * p.broadcasts ≤ i ∧ i < 2 * p'.broadcasts := by
  rw [Port.stamps_commands]
  rcases h.speech with ⟨-, hSpoken⟩ | ⟨-, hNone, -⟩
  · exact hSpoken.range
  · rw [hNone]
    exact fun i hMem => absurd hMem List.not_mem_nil

theorem announced (h : p.Takes client p') {number : Nat}
    (hAny : p'.effects.any (ThreadEffect.announces number) = true) : p.broadcasts ≤ number := by
  have hStamp := mem_stamps_of_announces hAny
  rw [← @Port.stamps_commands 0] at hStamp
  have hRange := (h.range _ hStamp).1
  omega

/-- Every broadcast is made with the subscribers that the loop will know. -/
theorem fits (h : p.Takes client p') {used : Bool} (hStranger : used = false → p'.subscribed = false)
    (hSilent : ∀ number, p.broadcasts ≤ number → t.silent number) :
    Fits client thread p.sessionId (t.expecting p') (if used then some p.subscribed else none)
      (p'.commands thread) := by
  rcases h.speech with ⟨hSubscribed, hSpoken⟩ | ⟨-, hNone, -⟩
  · have hCopies : ∀ number, p'.effects.any (ThreadEffect.announces number) = true →
        (t.expecting p').copies number =
          if (if used then some p.subscribed else none) = some true then 1 else 0 := by
      intro number hAny
      rw [expecting_of_announces hAny]
      cases used with
      | true =>
        rw [hSubscribed]
        cases p.subscribed <;> rfl
      | false =>
        rw [hStranger rfl]
        rfl
    refine (fits_iff_forall fun command hMem => ?_).mpr fun command hMem => ?_
    · obtain ⟨e, he, hEq⟩ := List.mem_filterMap.mp hMem
      exact follow_of_noTrack (hSpoken.noTrack e he) hEq _
    · obtain ⟨e, he, hEq⟩ := List.mem_filterMap.mp hMem
      cases e with
      | broadcast number =>
        cases hEq
        intro _
        have hAny : p'.effects.any (ThreadEffect.announces number) = true :=
          List.any_eq_true.mpr ⟨_, he, decide_eq_true rfl⟩
        exact ⟨h.sessionId, (hSilent number (h.announced hAny)).2.2, hCopies number hAny⟩
      | broadcastSessionStatus status number =>
        cases hEq
        intro _
        have hAny := hSpoken.whole status number he
        have hSeen : (t.expecting p').seen number = false :=
          (hSilent number (h.announced hAny)).2.2
        refine ⟨h.sessionId, ?_⟩
        rw [hCopies number hAny, hSeen]
        simp
      | write row => cases hEq
      | sendStarted c streamId => cases hEq
      | sendState c => cases hEq
      | _ =>
        cases hEq
        trivial
  · refine Fits.of_stamps ?_
    rw [Port.stamps_commands, hNone]

theorem member (h : p.Takes client p') (used : Bool) :
    (p'.commands thread).foldl (DaemonCommand.follow client p.sessionId)
      (if used then some p.subscribed else none) = if used then some p'.subscribed else none := by
  cases used with
  | true =>
    rcases h.speech with ⟨hSubscribed, hSpoken⟩ | ⟨-, -, hFollow⟩
    · rw [hSubscribed]
      apply foldl_follow_of_forall
      intro command hMem
      obtain ⟨e, he, hEq⟩ := List.mem_filterMap.mp hMem
      exact follow_of_noTrack (hSpoken.noTrack e he) hEq _
    · exact hFollow thread
  | false => exact foldl_commands_none p.sessionId

end Port.Takes

namespace Pipe

variable {client : ClientId} {thread : ThreadId} {k k' : Line} {t t' : Tally}
  {command : DaemonCommand} {p : Port} {rest : List DaemonCommand} {number : Nat}

/-- What a pipe does not see. -/
theorem congr {p p' : Port} (h : Pipe client thread k t) (hUsed : k'.used = k.used)
    (hEntry : k'.entry = k.entry) (hInbox : k'.inbox = k.inbox) (hPort : k.port thread = p)
    (hPort' : k'.port thread = p') (hId : p'.sessionId = p.sessionId)
    (hSubscribed : p'.subscribed = p.subscribed) (hEffects : p'.effects = p.effects)
    (hBroadcasts : p'.broadcasts = p.broadcasts) (hLive : p'.live = true → p.live = true) :
    Pipe client thread k' t := by
  subst hPort hPort'
  have hCommands : (k'.port thread).commands thread = (k.port thread).commands thread := by
    rw [Port.commands, hEffects, hId, Port.commands]
  have hPipeline : k'.pipeline thread = k.pipeline thread := by
    rw [Line.pipeline, hInbox, hCommands, Line.pipeline]
  have hExpecting : t.expecting (k'.port thread) = t.expecting (k.port thread) := by
    unfold Tally.expecting
    rw [hEffects, hSubscribed]
  refine ⟨?_, ?_, ?_, fun hThere => ?_, ?_, h.exact⟩
  · rw [hId, hEntry, hPipeline, hExpecting]
    exact h.fits
  · rw [hPipeline]
    exact h.sorted
  · rw [hPipeline, hBroadcasts]
    exact h.made
  · rw [hId, hEntry, hPipeline, hUsed, hSubscribed]
    exact h.member (hLive hThere)
  · rw [hBroadcasts, hEffects]
    exact h.silent

theorem of_same (h : Pipe client thread k t) (hUsed : k'.used = k.used) (hEntry : k'.entry = k.entry)
    (hInbox : k'.inbox = k.inbox) (hPort : k'.port thread = k.port thread) :
    Pipe client thread k' t :=
  h.congr hUsed hEntry hInbox rfl hPort rfl rfl rfl rfl id

/-- Something else is sent to the loop. -/
theorem post (h : Pipe client thread k t) (hStamp : command.stamp thread = none)
    (hIdle : (k.port thread).live = false → (k.port thread).effects = [])
    (hFollow : (k.port thread).live = true → ∀ m, (k.used = true → m ≠ none) →
      command.follow client (k.port thread).sessionId m = m) :
    Pipe client thread { k with inbox := k.inbox ++ [command] } t := by
  have hPort : Line.port { k with inbox := k.inbox ++ [command] } thread = k.port thread := rfl
  obtain ⟨hInbox, hCommands⟩ := fits_append.mp h.fits
  set m := membership (k.port thread).sessionId k.entry
  have hStamps : (Line.pipeline { k with inbox := k.inbox ++ [command] } thread).filterMap
      (DaemonCommand.stamp thread) =
      (k.pipeline thread).filterMap (DaemonCommand.stamp thread) := by
    unfold Line.pipeline
    rw [hPort, List.append_assoc, List.filterMap_append, List.filterMap_append,
      List.filterMap_append, List.filterMap_cons_none hStamp, List.filterMap_nil, List.nil_append]
  -- The membership at the end of the inbox is known only while the thread is alive.
  have hEnd : (k.port thread).live = true →
      command.follow client (k.port thread).sessionId
        (k.inbox.foldl (DaemonCommand.follow client (k.port thread).sessionId) m) =
      k.inbox.foldl (DaemonCommand.follow client (k.port thread).sessionId) m := by
    intro hLive
    apply hFollow hLive
    intro hUsed hNone
    have hMember := h.member hLive
    unfold Line.pipeline at hMember
    rw [List.foldl_append, hNone, foldl_commands_none, if_pos hUsed] at hMember
    cases hMember
  refine ⟨?_, ?_, ?_, fun hLive => ?_, h.silent, h.exact⟩
  · show Fits client thread (k.port thread).sessionId (t.expecting (k.port thread)) m
      ((k.inbox ++ [command]) ++ (k.port thread).commands thread)
    rw [List.append_assoc, fits_append, List.singleton_append]
    refine ⟨hInbox, DaemonCommand.fits_of_stamp hStamp, ?_⟩
    cases hLive : (k.port thread).live with
    | false =>
      have hNone : (k.port thread).commands thread = [] := by
        rw [Port.commands, hIdle hLive]
        rfl
      rw [hNone]
      trivial
    | true =>
      rw [hEnd hLive]
      exact hCommands
  · rw [hStamps]
    exact h.sorted
  · rw [hStamps]
    exact h.made
  · have hMember := h.member hLive
    unfold Line.pipeline at hMember ⊢
    rw [List.foldl_append] at hMember
    rw [hPort, List.foldl_append, List.foldl_append, List.foldl_cons, List.foldl_nil, hEnd hLive]
    exact hMember

theorem member_idle (h : Pipe client thread k t) (hLive : (k.port thread).live = true)
    (hIdle : (k.port thread).effects = []) :
    k.inbox.foldl (DaemonCommand.follow client (k.port thread).sessionId)
      (membership (k.port thread).sessionId k.entry) =
        if k.used then some (k.port thread).subscribed else none := by
  have hMember := h.member hLive
  rwa [Line.pipeline, Port.commands, hIdle, List.filterMap_nil, List.append_nil] at hMember

/-- The thread takes a command. -/
theorem takes (h : Pipe client thread k t) (hTakes : (k.port thread).Takes client p)
    (hPort : k'.port thread = p) (hUsed : k'.used = k.used) (hEntry : k'.entry = k.entry)
    (hInbox : k'.inbox = k.inbox) (hStranger : k.used = false → p.subscribed = false) :
    Pipe client thread k' t := by
  have hMember := h.member_idle hTakes.live.1 hTakes.idle
  have hInboxFits := (fits_append.mp h.fits).1
  have hCommands : (k.port thread).commands thread = [] := by
    rw [Port.commands, hTakes.idle]
    rfl
  have hSorted := h.sorted
  have hMade := h.made
  rw [Line.pipeline, hCommands, List.append_nil] at hSorted hMade
  have hPipeline : k'.pipeline thread = k.inbox ++ p.commands thread := by
    rw [Line.pipeline, hInbox, hPort]
  -- Nothing that is on its way is announced again.
  have hOld : ∀ i ∈ k.inbox.filterMap (DaemonCommand.stamp thread),
      (t.expecting p).copies (i / 2) = (t.expecting (k.port thread)).copies (i / 2) := by
    intro i hMem
    have hBelow := hMade i hMem
    have hNot : p.effects.any (ThreadEffect.announces (i / 2)) = false := by
      by_contra hAny
      have hRange := hTakes.announced (Bool.not_eq_false _ ▸ hAny)
      omega
    rw [expecting_of_not hNot, expecting_of_not (by rw [hTakes.idle]; rfl)]
  refine ⟨?_, ?_, ?_, fun _ => ?_, fun number hNumber => ?_, h.exact⟩
  · rw [hPipeline, hPort, hEntry, hTakes.sessionId, fits_append]
    refine ⟨hInboxFits.imp fun command hMem m' hFits =>
      DaemonCommand.fits_congr hFits .rfl fun i hStamp => ?_, ?_⟩
    · exact ⟨hOld i (List.mem_filterMap.mpr ⟨command, hMem, hStamp⟩), rfl⟩
    · rw [hMember]
      exact hTakes.fits hStranger fun number hLe => h.silent number (.inl hLe)
  · rw [hPipeline, List.filterMap_append, List.pairwise_append]
    refine ⟨hSorted, hTakes.sorted, fun i hi j hj => ?_⟩
    have hBelow := hMade i hi
    have hAbove := (hTakes.range j hj).1
    omega
  · rw [hPipeline, hPort, List.filterMap_append]
    intro i hMem
    rcases List.mem_append.mp hMem with hi | hi
    · have hBelow := hMade i hi
      have hMore := hTakes.le
      omega
    · exact (hTakes.range i hi).2
  · rw [hPipeline, hPort, hEntry, hUsed, hTakes.sessionId, List.foldl_append, hMember]
    exact hTakes.member k.used
  · rw [hPort] at hNumber
    apply h.silent number
    rcases hNumber with hNumber | hNumber
    · exact .inl (hTakes.le.trans hNumber)
    · exact .inl (hTakes.announced hNumber)

theorem pairwise_commands (h : Pipe client thread k t) :
    ((k.port thread).effects.filterMap ThreadEffect.stamp).Pairwise (· < ·) := by
  have hSorted := h.sorted
  rw [Line.pipeline, List.filterMap_append, Port.stamps_commands] at hSorted
  exact (List.pairwise_append.mp hSorted).2.1

/-- A broadcast is announced once, and until then the client has no copy of it. -/
theorem once (h : Pipe client thread k t) {e : ThreadEffect} {rest : List ThreadEffect}
    (hEffects : (k.port thread).effects = e :: rest) (hAnnounces : e.announces number = true) :
    t.silent number ∧ number < (k.port thread).broadcasts ∧
      rest.any (ThreadEffect.announces number) = false := by
  obtain rfl : e = .broadcast number := by
    cases e with
    | broadcast n => rw [of_decide_eq_true hAnnounces]
    | _ => cases hAnnounces
  have hFirst : (k.port thread).effects.any (ThreadEffect.announces number) = true := by
    rw [hEffects, List.any_cons, hAnnounces, Bool.true_or]
  refine ⟨h.silent number (.inr hFirst), ?_, ?_⟩
  · have hStamp := mem_stamps_of_announces hFirst
    rw [← @Port.stamps_commands thread] at hStamp
    have hBelow := h.made (2 * number)
      (by rw [Line.pipeline, List.filterMap_append]; exact List.mem_append_right _ hStamp)
    omega
  · by_contra hAgain
    have hStamp := mem_stamps_of_announces (Bool.not_eq_false _ ▸ hAgain)
    have hSorted := h.pairwise_commands
    have hHead : ThreadEffect.stamp (.broadcast number) = some (2 * number) := rfl
    rw [hEffects, List.filterMap_cons_some hHead, List.pairwise_cons] at hSorted
    have hAfter := hSorted.1 _ hStamp
    omega

/-- The thread does the next thing on its list. -/
theorem perform (h : Pipe client thread k t) {e : ThreadEffect} {rest : List ThreadEffect}
    (hEffects : (k.port thread).effects = e :: rest)
    (hPort : k'.port thread = { k.port thread with effects := rest }) (hUsed : k'.used = k.used)
    (hEntry : k'.entry = k.entry)
    (hInbox : k'.inbox = k.inbox ++ (e.command? (k.port thread).sessionId thread).toList)
    (hCopies : ∀ number, t'.copies number =
      t.copies number + if e.announces number then (k.port thread).subscribed.toNat else 0)
    (hDue : ∀ number, t'.due number =
      (t.due number || (e.announces number && (k.port thread).subscribed)))
    (hSeen : t'.seen = t.seen) : Pipe client thread k' t' := by
  have hId : (k'.port thread).sessionId = (k.port thread).sessionId := by rw [hPort]
  have hRest : (k'.port thread).effects = rest := by rw [hPort]
  have hPipeline : k'.pipeline thread = k.pipeline thread := by
    rw [Line.pipeline, Line.pipeline, hInbox, Port.commands, Port.commands, hId, hRest, hEffects,
      List.append_assoc]
    congr 1
    cases hCommand : e.command? (k.port thread).sessionId thread with
    | none => rw [List.filterMap_cons_none hCommand, Option.toList_none, List.nil_append]
    | some command =>
      rw [List.filterMap_cons_some hCommand, Option.toList_some, List.singleton_append]
  have hAny : ∀ number, (k.port thread).effects.any (ThreadEffect.announces number) =
      (e.announces number || rest.any (ThreadEffect.announces number)) := by
    intro number
    rw [hEffects, List.any_cons]
  have hOnce := fun number => @once client thread k t number h e rest hEffects
  have hExpecting : ∀ number,
      (t'.expecting (k'.port thread)).copies number =
        (t.expecting (k.port thread)).copies number := by
    intro number
    show (if (k'.port thread).effects.any _ = true then _ else _) = if _ = true then _ else _
    rw [hAny, hRest, hCopies, hPort]
    cases hAnnounces : e.announces number with
    | false => rfl
    | true =>
      obtain ⟨hSilent, -, hNot⟩ := hOnce number hAnnounces
      rw [hNot, hSilent.1]
      simp
  refine ⟨?_, ?_, ?_, fun hLive => ?_, fun number hNumber => ?_, fun number => ?_⟩
  · rw [hPipeline, hId, hEntry]
    refine h.fits.imp fun command _ m hFits => DaemonCommand.fits_congr hFits .rfl fun i _ => ?_
    exact ⟨hExpecting _, congrFun hSeen _⟩
  · rw [hPipeline]
    exact h.sorted
  · rw [hPipeline, hPort]
    exact h.made
  · rw [hPipeline, hId, hEntry, hUsed, hPort]
    rw [hPort] at hLive
    exact h.member hLive
  · rw [hPort] at hNumber
    have hOther : e.announces number = false := by
      by_contra hAnnounces
      obtain ⟨-, hBelow, hNot⟩ := hOnce number (Bool.not_eq_false _ ▸ hAnnounces)
      rcases hNumber with hNumber | hNumber
      · exact absurd hNumber (Nat.not_le.mpr hBelow)
      · rw [hNot] at hNumber
        cases hNumber
    have hSilent := h.silent number
      (hNumber.imp_right fun hRest => by rw [hAny, hRest, Bool.or_true])
    refine ⟨?_, ?_, by rw [hSeen]; exact hSilent.2.2⟩
    · rw [hCopies, hOther, hSilent.1]
      rfl
    · rw [hDue, hOther, hSilent.2.1]
      rfl
  · rw [hCopies, hDue]
    cases hAnnounces : e.announces number with
    | false => simpa using h.exact number
    | true =>
      obtain ⟨hSilent, -, -⟩ := hOnce number hAnnounces
      rw [hSilent.1, hSilent.2.1]
      cases (k.port thread).subscribed <;> rfl

/-- The loop takes a command. -/
theorem pop (h : Pipe client thread k t) (hInbox : k.inbox = command :: rest)
    (hPort : k'.port thread = k.port thread) (hUsed : k'.used = k.used) (hInbox' : k'.inbox = rest)
    (hEntry : ∀ sid, membership sid k'.entry = command.follow client sid (membership sid k.entry)) :
    Pipe client thread k' t := by
  have hPipeline : k.pipeline thread = command :: k'.pipeline thread := by
    rw [Line.pipeline, hInbox, Line.pipeline, hInbox', hPort, List.cons_append]
  have hFits := h.fits
  have hSorted := h.sorted
  have hMade := h.made
  have hMember := h.member
  rw [hPipeline] at hFits hSorted hMade hMember
  have hSub : ((k'.pipeline thread).filterMap (DaemonCommand.stamp thread)).Sublist
      ((command :: k'.pipeline thread).filterMap (DaemonCommand.stamp thread)) :=
    (List.sublist_cons_self _ _).filterMap _
  refine ⟨?_, hSorted.sublist hSub, fun i hMem => ?_, fun hLive => ?_, ?_, h.exact⟩
  · rw [hPort, hEntry]
    exact hFits.2
  · rw [hPort]
    exact hMade i (hSub.subset hMem)
  · rw [hPort] at hLive ⊢
    rw [hEntry, hUsed]
    exact hMember hLive
  · rw [hPort]
    exact h.silent

/-- The loop has served one broadcast on one more path. -/
theorem serve (h : Pipe client thread k t) (hMade : number < (k.port thread).broadcasts)
    (hNot : (k.port thread).effects.any (ThreadEffect.announces number) = false)
    (hOther : ∀ n, n ≠ number → t'.copies n = t.copies n ∧ t'.due n = t.due n ∧ t'.seen n = t.seen n)
    (hActivity : 2 * number ∉ (k.pipeline thread).filterMap (DaemonCommand.stamp thread))
    (hStatus : 2 * number + 1 ∈ (k.pipeline thread).filterMap (DaemonCommand.stamp thread) →
      ∀ m : Option Bool,
        t.copies number = (if m = some true ∨ t.seen number = true then 1 else 0) →
        t'.copies number = if m = some true ∨ t'.seen number = true then 1 else 0)
    (hExact : t'.copies number = if t'.due number = true then 1 else 0) :
    Pipe client thread k t' := by
  have hExpecting : ∀ n, n ≠ number →
      (t'.expecting (k.port thread)).copies n = (t.expecting (k.port thread)).copies n := by
    intro n hNe
    show (if _ = true then _ else _) = if _ = true then _ else _
    rw [(hOther n hNe).1]
  refine ⟨h.fits.imp fun command hMem m hFits => ?_, h.sorted, h.made, h.member, fun n hNumber => ?_,
    fun n => ?_⟩
  · by_cases hStamp : command.stamp thread = some (2 * number + 1)
    · have hMem' := hStatus (List.mem_filterMap.mpr ⟨command, hMem, hStamp⟩)
      cases command with
      | broadcastSessionStatus sid status tag =>
        intro hThread
        have hTag : tag.number = number := by
          rw [DaemonCommand.stamp, if_pos hThread] at hStamp
          have hEq := Option.some.inj hStamp
          omega
        obtain ⟨hSid, hCopies⟩ := hFits hThread
        rw [hTag, expecting_of_not hNot] at hCopies
        refine ⟨hSid, ?_⟩
        rw [hTag, expecting_of_not hNot]
        exact hMem' m hCopies
      | broadcastActivity sid tag =>
        intro hThread
        rw [DaemonCommand.stamp, if_pos hThread] at hStamp
        have hEq := Option.some.inj hStamp
        omega
      | _ => cases hStamp
    · refine DaemonCommand.fits_congr hFits .rfl fun i hi => ?_
      have hNe : i / 2 ≠ number := by
        intro hEq
        rcases Nat.mod_two_eq_zero_or_one i with hEven | hOdd
        · have hDouble : i = 2 * number := by omega
          rw [hDouble] at hi
          exact hActivity (List.mem_filterMap.mpr ⟨command, hMem, hi⟩)
        · have hDouble : i = 2 * number + 1 := by omega
          rw [hDouble] at hi
          exact hStamp hi
      exact ⟨hExpecting _ hNe, (hOther _ hNe).2.2⟩
  · have hNe : n ≠ number := by
      rintro rfl
      rcases hNumber with hNumber | hNumber
      · exact absurd hNumber (Nat.not_le.mpr hMade)
      · rw [hNot] at hNumber
        cases hNumber
    obtain ⟨hCopies, hDue, hSeen⟩ := hOther n hNe
    have hSilent := h.silent n hNumber
    exact ⟨hCopies.trans hSilent.1, hDue.trans hSilent.2.1, hSeen.trans hSilent.2.2⟩
  · by_cases hEq : n = number
    · rw [hEq]
      exact hExact
    · obtain ⟨hCopies, hDue, -⟩ := hOther n hEq
      rw [hCopies, hDue]
      exact h.exact n

/-- The loop takes a broadcast from the inbox, which has been announced. -/
theorem head (h : Pipe client thread k t) {i : Nat} (hInbox : k.inbox = command :: rest)
    (hStamp : command.stamp thread = some i) (hFollow : ∀ sid m, command.follow client sid m = m)
    (hPort : k'.port thread = k.port thread) (hUsed : k'.used = k.used) (hInbox' : k'.inbox = rest)
    (hEntry : k'.entry = k.entry) :
    Pipe client thread k' t ∧ i / 2 < (k'.port thread).broadcasts ∧
      (k'.port thread).effects.any (ThreadEffect.announces (i / 2)) = false ∧
      (∀ j ∈ (k'.pipeline thread).filterMap (DaemonCommand.stamp thread), i < j) ∧
      command.fits thread (k'.port thread).sessionId (t.expecting (k'.port thread))
        (membership (k'.port thread).sessionId k.entry) := by
  have hFits := h.fits
  have hSorted := h.sorted
  have hMade := h.made i
  have hPipeline : k.pipeline thread = command :: k'.pipeline thread := by
    rw [Line.pipeline, hInbox, Line.pipeline, hInbox', hPort, List.cons_append]
  rw [hPipeline] at hFits hSorted hMade
  rw [List.filterMap_cons_some hStamp] at hSorted hMade
  have hBelow := hMade List.mem_cons_self
  obtain ⟨hAfter, -⟩ := List.pairwise_cons.mp hSorted
  refine ⟨h.pop hInbox hPort hUsed hInbox' fun sid => by rw [hEntry, hFollow], ?_, ?_, hAfter, ?_⟩
  · rw [hPort]
    omega
  · by_contra hAny
    have hAgain := mem_stamps_of_announces (Bool.not_eq_false _ ▸ hAny)
    rw [← @Port.stamps_commands thread] at hAgain
    have hLater := hAfter _ (by
      rw [Line.pipeline, List.filterMap_append]
      exact List.mem_append_right _ hAgain)
    omega
  · rw [hPort]
    exact hFits.1

/-- The loop serves the activity subscribers. -/
theorem activity (h : Pipe client thread k t) {sid : Nat}
    (hInbox : k.inbox = .broadcastActivity sid ⟨thread, number⟩ :: rest)
    (hPort : k'.port thread = k.port thread) (hUsed : k'.used = k.used) (hInbox' : k'.inbox = rest)
    (hEntry : k'.entry = k.entry) (hCopies : t'.copies number = t.copies number +
      if k.entry.any (fun st => st.wantsActivity && !decide (sid ∈ st.sessions)) = true then 1 else 0)
    (hDue : t'.due number = (t.due number || k.entry.any ClientState.wantsActivity))
    (hSeen : t'.seen number = k.entry.any ClientState.wantsActivity)
    (hOther : ∀ n, n ≠ number → t'.copies n = t.copies n ∧ t'.due n = t.due n ∧ t'.seen n = t.seen n) :
    Pipe client thread k' t' := by
  have hStamp : (DaemonCommand.broadcastActivity sid ⟨thread, number⟩).stamp thread =
      some (2 * number) := if_pos rfl
  obtain ⟨hPop, hMade, hNot, hLater, hFits⟩ :=
    h.head hInbox hStamp (fun _ _ => rfl) hPort hUsed hInbox' hEntry
  rw [show 2 * number / 2 = number by omega] at hMade hNot
  obtain ⟨hSid, hUnseen, hCount⟩ := hFits rfl
  rw [expecting_of_not hNot, ← hSid] at hCount
  have hExact := h.exact number
  have hFound : t'.copies number = if t'.due number = true then 1 else 0 := by
    rw [hCopies, hDue]
    cases hThere : k.entry with
    | none => simpa [hThere] using hExact
    | some st =>
      rw [hThere] at hCount
      cases hWants : st.wantsActivity with
      | false => simpa [hWants] using hExact
      | true =>
        rw [hCount]
        by_cases hSub : sid ∈ st.sessions <;> simp [membership, hWants, hSub]
  refine hPop.serve hMade hNot hOther (fun hMem => ?_) (fun _ m hBefore => ?_) hFound
  · exact absurd (hLater _ hMem) (Nat.lt_irrefl _)
  · have hUnseen' : t.seen number = false := hUnseen
    rw [hUnseen'] at hBefore
    rw [hFound, hDue, hSeen]
    cases hWants : k.entry.any ClientState.wantsActivity with
    | true => simp
    | false =>
      have hDueEq : (t.due number = true) ↔ m = some true := by
        rw [hExact] at hBefore
        by_cases hIs : t.due number = true <;> by_cases hM : m = some true <;>
          simp [hIs, hM] at hBefore ⊢
      simp [hDueEq]

/-- The loop serves the summary subscribers of a session that is listed. -/
theorem status (h : Pipe client thread k t) {sid : Nat} {status : SessionStatus}
    (hInbox : k.inbox = .broadcastSessionStatus sid status ⟨thread, number⟩ :: rest)
    (hPort : k'.port thread = k.port thread) (hUsed : k'.used = k.used) (hInbox' : k'.inbox = rest)
    (hEntry : k'.entry = k.entry) (hCopies : t'.copies number = t.copies number +
      if k.entry.any (fun st => st.wantsSummary && !decide (sid ∈ st.sessions) &&
        !st.wantsActivity) = true then 1 else 0)
    (hDue : t'.due number = (t.due number || k.entry.any ClientState.wantsSummary))
    (hSeen : t'.seen = t.seen)
    (hOther : ∀ n, n ≠ number → t'.copies n = t.copies n ∧ t'.due n = t.due n)
    (hPath : ∀ st, k.entry = some st → st.wantsSummary = true → sid ∉ st.sessions →
      st.wantsActivity = t.seen number) : Pipe client thread k' t' := by
  have hStamp : (DaemonCommand.broadcastSessionStatus sid status ⟨thread, number⟩).stamp thread =
      some (2 * number + 1) := if_pos rfl
  obtain ⟨hPop, hMade, hNot, hLater, hFits⟩ :=
    h.head hInbox hStamp (fun _ _ => rfl) hPort hUsed hInbox' hEntry
  rw [show (2 * number + 1) / 2 = number by omega] at hMade hNot
  obtain ⟨hSid, hCount⟩ := hFits rfl
  have hSeenEq : (t.expecting (k'.port thread)).seen number = t.seen number := rfl
  rw [expecting_of_not hNot, ← hSid, hSeenEq] at hCount
  have hExact := h.exact number
  have hFound : t'.copies number = if t'.due number = true then 1 else 0 := by
    rw [hCopies, hDue]
    cases hThere : k.entry with
    | none => simpa [hThere] using hExact
    | some st =>
      rw [hThere] at hCount
      cases hWants : st.wantsSummary with
      | false => simpa [hWants] using hExact
      | true =>
        rw [hCount]
        by_cases hSub : sid ∈ st.sessions
        · simp [membership, hWants, hSub]
        · rw [← hPath st hThere hWants hSub]
          cases hActivity : st.wantsActivity <;> simp [membership, hWants, hSub, hActivity]
  refine hPop.serve hMade hNot (fun n hNe => ?_) (fun hMem => ?_) (fun hMem _ _ => ?_) hFound
  · obtain ⟨hCopies', hDue'⟩ := hOther n hNe
    exact ⟨hCopies', hDue', by rw [hSeen]⟩
  · have hLess := hLater _ hMem
    omega
  · exact absurd (hLater _ hMem) (Nat.lt_irrefl _)

/-- The thread is started, and no record of the client is left from one before it. -/
theorem start (h : Pipe client thread k t) (hNone : k.port thread = Port.absent)
    (hPort : k'.port thread = p) (hFresh : p.Fresh) (hUsed : k'.used = k.used)
    (hEntry : k'.entry = k.entry) (hInbox : k'.inbox = k.inbox)
    (hMember : k.inbox.foldl (DaemonCommand.follow client p.sessionId)
      (membership p.sessionId k.entry) = if k.used then some false else none) :
    Pipe client thread k' t := by
  obtain ⟨metadata, hEffects⟩ := hFresh.effects
  have hCommands : p.commands thread = [.updateMetadata p.sessionId metadata] := by
    rw [Port.commands, hEffects]
    rfl
  have hPipeline : k'.pipeline thread = k.inbox ++ [.updateMetadata p.sessionId metadata] := by
    rw [Line.pipeline, hInbox, hPort, hCommands]
  have hMade := h.made
  rw [Line.pipeline, hNone] at hMade
  have hStamps : (k'.pipeline thread).filterMap (DaemonCommand.stamp thread) = [] := by
    rw [hPipeline]
    apply List.eq_nil_iff_forall_not_mem.mpr
    intro i hMem
    rw [List.filterMap_append] at hMem
    rcases List.mem_append.mp hMem with hMem | hMem
    · have hBelow := hMade i (by rw [List.filterMap_append]; exact List.mem_append_left _ hMem)
      exact absurd hBelow (Nat.not_lt_zero i)
    · cases hMem
  refine ⟨Fits.of_stamps hStamps, ?_, ?_, fun _ => ?_, fun number _ => ?_, h.exact⟩
  · rw [hStamps]
    exact List.Pairwise.nil
  · rw [hStamps]
    exact fun i hMem => absurd hMem List.not_mem_nil
  · rw [hPipeline, hPort, hEntry, hUsed, hFresh.subscribed, List.foldl_append, hMember]
    rfl
  · apply h.silent number
    rw [hNone]
    exact .inl (Nat.zero_le number)

/-- A client is accepted that no command and no thread knows. -/
theorem connect (h : Pipe client thread k t)
    (hFollow : ∀ command ∈ k.pipeline thread, ∀ sid m, m ≠ some true →
      command.follow client sid m = m)
    (hNone : k.entry = none) (hOut : (k.port thread).subscribed = false)
    (hPort : k'.port thread = k.port thread) (hUsed : k'.used = true) (hEntry : k'.entry = k.entry)
    (hInbox : k'.inbox = k.inbox ++ [.registerClientWriter client]) :
    Pipe client thread k' t := by
  have hPipeline : k'.pipeline thread =
      k.inbox ++ .registerClientWriter client :: (k.port thread).commands thread := by
    rw [Line.pipeline, hInbox, hPort, List.append_assoc]
    rfl
  have hInboxFollow : ∀ command ∈ k.inbox, command.follow client (k.port thread).sessionId none =
      none := fun command hMem => hFollow command (List.mem_append_left _ hMem) _ none (by simp)
  have hCommandsFollow : ∀ m, m ≠ some true → ∀ command ∈ (k.port thread).commands thread,
      command.follow client (k.port thread).sessionId m = m :=
    fun m hOut command hMem => hFollow command (List.mem_append_right _ hMem) _ m hOut
  have hRegister : (DaemonCommand.registerClientWriter client).follow client
      (k.port thread).sessionId none = some false := if_pos rfl
  have hStamps : (k'.pipeline thread).filterMap (DaemonCommand.stamp thread) =
      (k.pipeline thread).filterMap (DaemonCommand.stamp thread) := by
    rw [hPipeline, Line.pipeline, List.filterMap_append, List.filterMap_append,
      List.filterMap_cons_none rfl]
  obtain ⟨hInboxFits, hCommandsFits⟩ := fits_append.mp h.fits
  rw [hNone] at hInboxFits hCommandsFits
  rw [show membership (k.port thread).sessionId none = none from rfl] at hInboxFits hCommandsFits
  rw [foldl_follow_of_forall hInboxFollow] at hCommandsFits
  refine ⟨?_, ?_, ?_, fun _ => ?_, ?_, h.exact⟩
  · rw [hPipeline, hPort, hEntry, hNone, fits_append]
    refine ⟨hInboxFits, trivial, ?_⟩
    rw [show membership (k.port thread).sessionId none = none from rfl,
      foldl_follow_of_forall hInboxFollow, hRegister]
    rw [fits_iff_forall (hCommandsFollow none (by simp))] at hCommandsFits
    refine (fits_iff_forall (hCommandsFollow _ (by simp))).mpr fun command hMem => ?_
    have hFits := hCommandsFits command hMem
    exact DaemonCommand.fits_congr hFits (by simp) fun _ _ => ⟨rfl, rfl⟩
  · rw [hStamps]
    exact h.sorted
  · rw [hStamps, hPort]
    exact h.made
  · rw [hPipeline, hPort, hEntry, hNone, hUsed, hOut, List.foldl_append, List.foldl_cons,
      show membership (k.port thread).sessionId none = none from rfl,
      foldl_follow_of_forall hInboxFollow, hRegister,
      foldl_follow_of_forall (hCommandsFollow _ (by simp))]
    rfl
  · rw [hPort]
    exact h.silent

/-- Every thread is ended. -/
theorem restart (h : Pipe client thread k t) (hInbox : k'.inbox = [])
    (hEffects : (k'.port thread).effects = []) (hLive : (k'.port thread).live = false)
    (hBroadcasts : (k'.port thread).broadcasts = (k.port thread).broadcasts) :
    Pipe client thread k' t := by
  have hPipeline : k'.pipeline thread = [] := by
    rw [Line.pipeline, hInbox, Port.commands, hEffects]
    rfl
  refine ⟨?_, ?_, ?_, fun hThere => ?_, fun number hNumber => ?_, h.exact⟩
  · rw [hPipeline]
    trivial
  · rw [hPipeline]
    exact List.Pairwise.nil
  · rw [hPipeline]
    exact fun i hMem => absurd hMem List.not_mem_nil
  · rw [hLive] at hThere
    cases hThere
  · apply h.silent number
    rw [hBroadcasts, hEffects] at hNumber
    rcases hNumber with hNumber | hNumber
    · exact .inl hNumber
    · cases hNumber

end Pipe

end Choreographr.Daemon
