import Choreographr.Session.Proofs.Runs

/-!
# What a request carries

Providers refuse a request in which a tool call has no result right after it
or a result has no call. Every turn that a session can hold answers its calls
one by one, so the projection of any history it can reach is accepted: each
assistant message with calls is followed by their results and then by
something else. Undone turns are not projected, and pixels are attached only
to turns of the request in flight, for a model that can see them.
-/

namespace Choreographr.Session

open Lib

variable {m : ChatRequestMessage} {t : Turn}

/-! ## Calls and answers -/

/-- The messages after an assistant message start with one tool message for
each call, in order, and go on with something else, if they go on. -/
def AnsweredBy (calls : List AssistantToolCall) (after : List ChatRequestMessage) : Prop :=
  ∃ answers others,
    after = answers ++ others ∧
      answers.map (fun m => (m.role, m.toolCallId)) = calls.map (fun c => (Role.tool, some c.id)) ∧
      ∀ m ∈ others.head?, m.role ≠ .tool

/-- Each message is followed by the answers to its calls; a tool message without calls may be
followed by the next answer. -/
def CallsAnswered (messages : List ChatRequestMessage) : Prop :=
  ∀ m after, (m :: after) <:+ messages → m.role ≠ .tool ∨ m.toolCalls ≠ none →
    AnsweredBy (m.toolCalls.getD []) after

/-- The list does not start with a tool message. -/
def NoToolFirst (messages : List ChatRequestMessage) : Prop :=
  ∀ m ∈ messages.head?, m.role ≠ .tool

theorem NoToolFirst.append {xs ys : List ChatRequestMessage} (hx : NoToolFirst xs)
    (hy : NoToolFirst ys) : NoToolFirst (xs ++ ys) := by
  cases xs with
  | nil => exact hy
  | cons x rest => exact hx

theorem noToolFirst_of_forall {messages : List ChatRequestMessage}
    (h : ∀ m ∈ messages, m.role ≠ .tool) : NoToolFirst messages :=
  fun m hm => h m (List.mem_of_mem_head? hm)

theorem callsAnswered_cons {rest : List ChatRequestMessage} :
    CallsAnswered (m :: rest) ↔
      (m.role ≠ .tool ∨ m.toolCalls ≠ none → AnsweredBy (m.toolCalls.getD []) rest) ∧
        CallsAnswered rest := by
  constructor
  · intro h
    exact ⟨h m rest (List.suffix_refl _),
      fun m' after hSuffix => h m' after (hSuffix.trans (List.suffix_cons m rest))⟩
  · rintro ⟨hHead, hRest⟩ m' after hSuffix
    rcases List.suffix_cons_iff.mp hSuffix with hEq | hSuffix
    · cases hEq
      exact hHead
    · exact hRest m' after hSuffix

theorem callsAnswered_nil : CallsAnswered [] := by
  intro m after hSuffix
  cases List.eq_nil_of_suffix_nil hSuffix

theorem AnsweredBy.append {calls : List AssistantToolCall} {xs ys : List ChatRequestMessage}
    (h : AnsweredBy calls xs) (hy : NoToolFirst ys) : AnsweredBy calls (xs ++ ys) := by
  obtain ⟨answers, others, rfl, hAnswers, hOthers⟩ := h
  exact ⟨answers, others ++ ys, List.append_assoc .., hAnswers, NoToolFirst.append hOthers hy⟩

theorem CallsAnswered.append {xs ys : List ChatRequestMessage} (hx : CallsAnswered xs)
    (hy : CallsAnswered ys) (hFirst : NoToolFirst ys) : CallsAnswered (xs ++ ys) := by
  induction xs with
  | nil => exact hy
  | cons x rest ih =>
    obtain ⟨hHead, hRest⟩ := callsAnswered_cons.mp hx
    exact callsAnswered_cons.mpr
      ⟨fun hAsks => (hHead hAsks).append hFirst, ih hRest⟩

theorem callsAnswered_of_noCalls {messages : List ChatRequestMessage}
    (h : ∀ m ∈ messages, m.toolCalls = none ∧ m.role ≠ .tool) : CallsAnswered messages := by
  intro m after hSuffix _
  rw [(h m (hSuffix.subset List.mem_cons_self)).1]
  exact ⟨[], after, rfl, rfl, fun m' hm => (h m' (hSuffix.subset
    (List.mem_cons_of_mem m (List.mem_of_mem_head? hm)))).2⟩

theorem callsAnswered_toolMessages (id : Nat) (t : Turn) : CallsAnswered (toolMessages id t) := by
  intro m after hSuffix hAsks
  obtain ⟨r, _, rfl⟩ := List.mem_map.mp (hSuffix.subset List.mem_cons_self)
  rcases hAsks with hRole | hCalls
  · exact absurd rfl hRole
  · exact absurd rfl hCalls

/-! ## One turn -/

theorem userMessage_plain {id : Nat} :
    ∀ m ∈ userMessage id t, m.role = .user ∧ m.toolCalls = none ∧ m.images = [] := by
  intro m hm
  rw [userMessage] at hm
  split at hm
  · cases hm
  · rw [List.mem_singleton] at hm
    subst hm
    exact ⟨rfl, rfl, rfl⟩

theorem toolResultImageMessages_plain {id : Nat} {vision attachImages : Bool} :
    ∀ m ∈ toolResultImageMessages id t vision attachImages,
      m.role = .user ∧ m.toolCalls = none := by
  intro m hm
  obtain ⟨r, _, hr⟩ := List.mem_filterMap.mp hm
  split at hr
  · cases hr
  · cases hr
    exact ⟨rfl, rfl⟩

/-- A turn without an assistant message has no calls; otherwise the message has the
turn's text, its calls and, if replayed, its artifact. -/
theorem assistantMessage_cases (id : Nat) (t : Turn) (includeArtifact : Bool) :
    (assistantMessage id t includeArtifact = [] ∧ t.toolCalls = []) ∨
      ∃ m, assistantMessage id t includeArtifact = [m] ∧ m.role = .assistant ∧
        m.content = t.assistantText ∧
        m.toolCalls.getD [] = t.toolCalls.map (fun c =>
          { id := c.callId, name := c.name, arguments := c.argumentsJson, caller := c.caller }) ∧
        m.reasoningArtifact = if includeArtifact then t.reasoningArtifact else none := by
  rw [assistantMessage]
  split
  · refine .inr ⟨_, rfl, rfl, rfl, ?_, rfl⟩
    cases t.toolCalls <;> simp
  · rename_i hMessage
    refine .inl ⟨rfl, ?_⟩
    cases hCalls : t.toolCalls with
    | nil => rfl
    | cons c rest => simp [hCalls] at hMessage

/-- A turn that the history shows. -/
def LiveTurn (turns : Turns) (t : Turn) : Prop := ∃ e ∈ turns.entries, e.2 = t ∧ t.undone = false

theorem mem_historyMessages {env : Env} {providerSlug model : String}
    {inFlightFromTurn : Option Nat} {turns : Turns}
    (h : m ∈ historyMessages env providerSlug model inFlightFromTurn turns.entries) :
    ∃ e ∈ turns.entries, e.2.undone = false ∧
      m ∈ turnMessages env providerSlug model inFlightFromTurn e.1 e.2 := by
  obtain ⟨e, he, hm⟩ := List.mem_flatMap.mp h
  split at hm
  · cases hm
  · rename_i hLive
    exact ⟨e, he, by simpa using hLive, hm⟩

/-- Only the assistant message of a turn has calls and an artifact, and they are the
turn's. -/
theorem turnMessage_cases {env : Env} {providerSlug model : String} {inFlightFromTurn : Option Nat}
    {id : Nat} (hm : m ∈ turnMessages env providerSlug model inFlightFromTurn id t) :
    (m.role ≠ .assistant ∧ m.role ≠ .system ∧ m.reasoningArtifact = none) ∨
      (m.role = .assistant ∧ m.content = t.assistantText ∧
        m.toolCalls.getD [] = t.toolCalls.map (fun c =>
          { id := c.callId, name := c.name, arguments := c.argumentsJson, caller := c.caller }) ∧
        (m.reasoningArtifact = none ∨ m.reasoningArtifact = t.reasoningArtifact)) := by
  unfold turnMessages at hm
  dsimp only at hm
  generalize includeReasoningArtifact t providerSlug model _ _ = includeArtifact at hm
  rw [List.mem_append, List.mem_append, List.mem_append] at hm
  rcases hm with ((hUser | hAssistant) | hTool) | hImage
  · rw [userMessage] at hUser
    split at hUser
    · cases hUser
    · cases List.mem_singleton.mp hUser
      exact .inl ⟨by simp, by simp, rfl⟩
  · right
    rcases assistantMessage_cases id t includeArtifact with
      ⟨hMessage, -⟩ | ⟨m', hMessage, hRole, hText, hCalls, hArtifact⟩
    · rw [hMessage] at hAssistant
      cases hAssistant
    · rw [hMessage] at hAssistant
      cases List.mem_singleton.mp hAssistant
      refine ⟨hRole, hText, hCalls, ?_⟩
      cases includeArtifact with
      | false => exact .inl hArtifact
      | true => exact .inr hArtifact
  · obtain ⟨r, -, rfl⟩ := List.mem_map.mp hTool
    exact .inl ⟨by simp, by simp, rfl⟩
  · obtain ⟨r, -, hr⟩ := List.mem_filterMap.mp hImage
    split at hr
    · cases hr
    · cases hr
      exact .inl ⟨by simp, by simp, rfl⟩

/-- The assistant message of a well-formed turn and the tool messages after it. -/
theorem callsAnswered_assistant (id : Nat) (h : t.Paired) (includeArtifact : Bool) :
    CallsAnswered (assistantMessage id t includeArtifact ++ toolMessages id t) ∧
      NoToolFirst (assistantMessage id t includeArtifact ++ toolMessages id t) := by
  have hTools := callsAnswered_toolMessages id t
  have hAnswers : (toolMessages id t).map (fun m => (m.role, m.toolCallId)) =
      t.toolCalls.map (fun c => (Role.tool, some c.callId)) := by
    have hIds := congrArg (List.map fun callId => (Role.tool, some callId)) h
    simpa [toolMessages, Function.comp_def] using hIds
  rw [assistantMessage]
  split
  · refine ⟨callsAnswered_cons.mpr ⟨?_, hTools⟩, ?_⟩
    · intro _
      refine ⟨toolMessages id t, [], (List.append_nil _).symm, ?_, by simp⟩
      rw [hAnswers]
      cases t.toolCalls with
      | nil => rfl
      | cons c rest => simp
    · intro m hm hRole
      cases hm
      cases hRole
  · -- without an assistant message there are no calls, hence no results
    rename_i hNone
    have hCalls : t.toolCalls = [] := by
      simp only [Bool.or_eq_true, Bool.not_eq_true', not_or] at hNone
      exact List.isEmpty_iff.mp (Bool.not_eq_false _ ▸ hNone.2)
    have hNil : toolMessages id t = [] := by
      rw [hCalls] at hAnswers
      exact List.map_eq_nil_iff.mp hAnswers
    rw [hNil]
    exact ⟨callsAnswered_nil, by simp [NoToolFirst]⟩

theorem callsAnswered_turnMessages (env : Env) (providerSlug model : String)
    (inFlightFromTurn : Option Nat) (id : Nat) (h : t.Paired) :
    CallsAnswered (turnMessages env providerSlug model inFlightFromTurn id t) ∧
      NoToolFirst (turnMessages env providerSlug model inFlightFromTurn id t) := by
  obtain ⟨hAnswered, hFirst⟩ := callsAnswered_assistant id h
    (includeReasoningArtifact t providerSlug model
      (env.modelReasoningPassback providerSlug model) (env.echoRequirePresent providerSlug model))
  have hPlain : ∀ m ∈ userMessage id t, m.toolCalls = none ∧ m.role ≠ .tool := by
    intro m hm
    obtain ⟨hRole, hCalls, -⟩ := userMessage_plain m hm
    exact ⟨hCalls, by simp [hRole]⟩
  have hUser := callsAnswered_of_noCalls hPlain
  have hUserFirst := noToolFirst_of_forall fun m hm => (hPlain m hm).2
  have hImages : ∀ vision attachImages,
      CallsAnswered (toolResultImageMessages id t vision attachImages) ∧
        NoToolFirst (toolResultImageMessages id t vision attachImages) := by
    intro vision attachImages
    have hPlain : ∀ m ∈ toolResultImageMessages id t vision attachImages,
        m.toolCalls = none ∧ m.role ≠ .tool := by
      intro m hm
      obtain ⟨hRole, hCalls⟩ := toolResultImageMessages_plain m hm
      exact ⟨hCalls, by simp [hRole]⟩
    exact ⟨callsAnswered_of_noCalls hPlain, noToolFirst_of_forall fun m hm => (hPlain m hm).2⟩
  unfold turnMessages
  dsimp only
  rw [List.append_assoc (userMessage id t)]
  exact ⟨(hUser.append hAnswered hFirst).append (hImages _ _).1 (hImages _ _).2,
    (hUserFirst.append hFirst).append (hImages _ _).2⟩

/-! ## A history -/

variable {env : Env} {providerSlug model : String} {inFlightFromTurn : Option Nat}

theorem callsAnswered_history {entries : List (Nat × Turn)} (h : ∀ e ∈ entries, e.2.Paired) :
    CallsAnswered (historyMessages env providerSlug model inFlightFromTurn entries) ∧
      NoToolFirst (historyMessages env providerSlug model inFlightFromTurn entries) := by
  induction entries with
  | nil => exact ⟨callsAnswered_nil, by simp [NoToolFirst, historyMessages]⟩
  | cons e rest ih =>
    obtain ⟨hAnswered, hFirst⟩ := ih fun e he => h e (List.mem_cons_of_mem _ he)
    rw [historyMessages, List.flatMap_cons]
    split
    · exact ⟨hAnswered, hFirst⟩
    · have hTurn := callsAnswered_turnMessages env providerSlug model inFlightFromTurn e.1
        (h e List.mem_cons_self)
      exact ⟨hTurn.1.append hAnswered hFirst, hTurn.2.append hFirst⟩

theorem historyMessages_filter (entries : List (Nat × Turn)) :
    historyMessages env providerSlug model inFlightFromTurn
        (entries.filter fun e => !e.2.undone) =
      historyMessages env providerSlug model inFlightFromTurn entries := by
  induction entries with
  | nil => rfl
  | cons e rest ih =>
    simp only [historyMessages] at ih ⊢
    cases hUndone : e.2.undone with
    | true => simp [hUndone, ih]
    | false => simp [hUndone, ih]

theorem imagePayload_pixels {r : ToolResultRecord} {image : ImageReference}
    {vision attachImages : Bool} (h : (imagePayload r image vision attachImages).2 ≠ []) :
    vision = true ∧ attachImages = true := by
  cases attachImages with
  | false => exact absurd rfl h
  | true =>
    cases vision with
    | false => exact absurd rfl h
    | true => exact ⟨rfl, rfl⟩

/-- A message with pixels belongs to an image of the request in flight. -/
theorem images_of_turnMessages {id : Nat}
    (hm : m ∈ turnMessages env providerSlug model inFlightFromTurn id t) (hImages : m.images ≠ []) :
    env.modelSupportsVision providerSlug model = true ∧
      ∃ first, inFlightFromTurn = some first ∧ first ≤ id := by
  unfold turnMessages at hm
  rcases List.mem_append.mp hm with hm | hm
  · rcases List.mem_append.mp hm with hm | hm
    · rcases List.mem_append.mp hm with hm | hm
      · exact absurd (userMessage_plain m hm).2.2 hImages
      · rw [assistantMessage] at hm
        split at hm
        · rw [List.mem_singleton] at hm
          subst hm
          exact absurd rfl hImages
        · cases hm
    · obtain ⟨r, _, rfl⟩ := List.mem_map.mp hm
      exact absurd rfl hImages
  · obtain ⟨r, _, hr⟩ := List.mem_filterMap.mp hm
    split at hr
    · cases hr
    · cases hr
      obtain ⟨hVision, hAttach⟩ := imagePayload_pixels hImages
      refine ⟨hVision, ?_⟩
      cases inFlightFromTurn with
      | none => cases hAttach
      | some first => exact ⟨first, rfl, of_decide_eq_true hAttach⟩

/-! ## Reachable histories -/

/-- What providers and the image policy ask of the messages of a request. -/
structure WellProjected (env : Env) (turns : Turns) (systemPrompt : Option String)
    (providerSlug model : String) (inFlightFromTurn : Option Nat)
    (messages : List ChatRequestMessage) : Prop where
  answered : CallsAnswered messages
  first : NoToolFirst messages
  /-- The messages would be the same without the undone turns. -/
  live : messages = buildChatRequestMessages env (turns.filter fun _ t => !t.undone) systemPrompt
    providerSlug model inFlightFromTurn
  /-- Pixels come from a turn of the request in flight. -/
  pixels : ∀ m ∈ messages, m.images ≠ [] →
    env.modelSupportsVision providerSlug model = true ∧
      ∃ first id t, inFlightFromTurn = some first ∧ first ≤ id ∧
        turns.get? id = some t ∧ t.undone = false ∧
        m ∈ turnMessages env providerSlug model inFlightFromTurn id t

theorem wellProjected_of_turnsOk {turns : Turns} (h : TurnsOk turns)
    (systemPrompt : Option String) :
    WellProjected env turns systemPrompt providerSlug model inFlightFromTurn
      (buildChatRequestMessages env turns systemPrompt providerSlug model inFlightFromTurn) := by
  have hPrompt : ∀ m ∈ promptMessages systemPrompt,
      (m.toolCalls = none ∧ m.role ≠ .tool) ∧ m.images = [] := by
    intro m hm
    cases systemPrompt with
    | none => cases hm
    | some prompt =>
      rw [promptMessages, List.mem_singleton] at hm
      subst hm
      exact ⟨⟨rfl, by simp⟩, rfl⟩
  have hHistory : CallsAnswered (historyMessages env providerSlug model inFlightFromTurn
        turns.entries) ∧
      NoToolFirst (historyMessages env providerSlug model inFlightFromTurn turns.entries) :=
    callsAnswered_history fun e he => (h e he).1.paired
  obtain ⟨hAnswered, hFirst⟩ := hHistory
  constructor
  · exact (callsAnswered_of_noCalls fun m hm => (hPrompt m hm).1).append hAnswered hFirst
  · exact (noToolFirst_of_forall fun m hm => (hPrompt m hm).1.2).append hFirst
  · exact congrArg (_ ++ ·) (historyMessages_filter turns.entries).symm
  · intro m hm hImages
    rcases List.mem_append.mp hm with hm | hm
    · exact absurd (hPrompt m hm).2 hImages
    · obtain ⟨⟨id, t⟩, hEntry, hm⟩ := List.mem_flatMap.mp hm
      split at hm
      · cases hm
      · rename_i hLive
        obtain ⟨hVision, first, hFlight, hLe⟩ := images_of_turnMessages hm hImages
        exact ⟨hVision, first, id, t, hFlight, hLe, OrdMap.get?_eq_some_iff.mpr hEntry,
          by simpa using hLive, hm⟩

/-- The turns a request can be built from: those of the session thread, those
of its worker, and those a restart would load. -/
def Holds (env : Env) (s : System) (turns : Turns) : Prop :=
  turns = s.main.turns ∨ (∃ w, s.worker = some w ∧ turns = w.session.turns) ∨
    turns = OrdMap.empty.insertAll (s.db.readTurns env.sessionId)

theorem Holds.elim {s : System} {turns : Turns} {P : Turns → Prop} (h : Holds env s turns)
    (main : P s.main.turns) (worker : ∀ w, s.worker = some w → P w.session.turns)
    (rows : P (OrdMap.empty.insertAll (s.db.readTurns env.sessionId))) : P turns := by
  rcases h with rfl | ⟨w, hWorker, rfl⟩ | rfl
  · exact main
  · exact worker w hWorker
  · exact rows

theorem turnsOk_of_holds {config : SessionConfig} {slug : Option String}
    {actions : List Action} {s : System} {os : List Output} {turns : Turns}
    (h : (system env).exec (System.init env config slug) actions = some (s, os))
    (hTurns : Holds env s turns) : TurnsOk turns := by
  have hInv := inv_exec h
  exact hTurns.elim hInv.turns (fun _ hWorker => (hInv.of_worker hWorker).2.2.session.turns)
    hInv.rows.load

/-- Every request that can be built in any reachable state is well formed. -/
theorem buildChatRequestMessages_wellProjected {config : SessionConfig} {slug : Option String}
    {actions : List Action} {s : System} {os : List Output} {turns : Turns}
    (h : (system env).exec (System.init env config slug) actions = some (s, os))
    (hTurns : Holds env s turns) (systemPrompt : Option String) (providerSlug model : String)
    (inFlightFromTurn : Option Nat) :
    WellProjected env turns systemPrompt providerSlug model inFlightFromTurn
      (buildChatRequestMessages env turns systemPrompt providerSlug model inFlightFromTurn) :=
  wellProjected_of_turnsOk (turnsOk_of_holds h hTurns) systemPrompt

/-- An undone run, then a run that has one of two answers, with an image. -/
theorem buildChatRequestMessages_wellProjected_midBatch :
    ∃ s os w,
      (system sampleEnv).exec (System.init sampleEnv (sampleConfig "chained") none)
          (sampleRun "list the files"
              [.enter [], .iterate 1 "" 0, .finalText { content := "none" }, .finalize none,
                .finish] 7 ++ [.command 10 .undo] ++
            sampleRun "take a picture"
              [.enter [], .iterate 11 "" 0,
                .toolUse { toolCalls :=
                  [⟨"call_1", "screenshot", "\x7b\x7d", none⟩,
                    ⟨"call_2", "shell", "\x7b\x7d", none⟩] },
                .tool .dispatch,
                .tool (.handle 0 (.finished
                  { content := "taken", imageRef := some ⟨"/tmp/a.png", "image/png", 1, 1, [1, 2]⟩ })
                  none)] 0) = some (s, os) ∧
        s.worker = some w ∧ w.session.turns.keys = [0, 1] ∧
        (w.session.turns.get? 0).map Turn.undone = some true ∧
        WellProjected sampleEnv w.session.turns (some "") "openai" "chained" (some 1)
          (buildChatRequestMessages sampleEnv w.session.turns (some "") "openai" "chained"
            (some 1)) := by
  have hCheck : (system sampleEnv).check (System.init sampleEnv (sampleConfig "chained") none)
      (sampleRun "list the files"
          [.enter [], .iterate 1 "" 0, .finalText { content := "none" }, .finalize none,
            .finish] 7 ++ [.command 10 .undo] ++
        sampleRun "take a picture"
          [.enter [], .iterate 11 "" 0,
            .toolUse { toolCalls :=
              [⟨"call_1", "screenshot", "\x7b\x7d", none⟩,
                ⟨"call_2", "shell", "\x7b\x7d", none⟩] },
            .tool .dispatch,
            .tool (.handle 0 (.finished
              { content := "taken", imageRef := some ⟨"/tmp/a.png", "image/png", 1, 1, [1, 2]⟩ })
              none)] 0)
      (fun s _ => s.worker.any fun w => decide (w.session.turns.keys = [0, 1] ∧
        (w.session.turns.get? 0).map Turn.undone = some true)) = true := by
    decide +kernel
  obtain ⟨s, os, hExec, hTest⟩ := Machine.exists_of_check hCheck
  obtain ⟨w, hWorker, hTest⟩ := (Option.any_eq_true _ _).mp hTest
  obtain ⟨hKeys, hUndone⟩ := of_decide_eq_true hTest
  exact ⟨s, os, w, hExec, hWorker, hKeys, hUndone,
    buildChatRequestMessages_wellProjected hExec (.inr (.inl ⟨w, hWorker, rfl⟩)) _ _ _ _⟩

end Choreographr.Session
