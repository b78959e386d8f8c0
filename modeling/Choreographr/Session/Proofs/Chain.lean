import Choreographr.Session.Proofs.Runs
import Choreographr.Session.Proofs.Transcript

/-!
# Response chains

A request that names a previous response sends only the messages after the last
assistant message; the server supplies the rest from what it holds under that
response. `ChainOk` says that a remembered response id is fit for this: the
server holds under it the visible conversation up to its last assistant
message. A reply on a route that chains makes it true, and tool results and new
input keep it true.

Three steps can break it while an id is remembered: a reply on a route that does
not chain, which leaves the old id in place; a redo, which brings back turns
that the chain does not have; and a truncated call whose final write fails,
because the id is forgotten only after the write. `chainsSafely` excludes
exactly these.
-/

namespace Choreographr.Session

open Lib

variable {server : Server} {f : Turn → Turn}

/-! ## Visible turns -/

def userParts (id : Nat) (t : Turn) : List VisibleMessage :=
  match t.userText with
  | none => []
  | some text => [⟨id, .user text⟩]

def resultParts (id : Nat) (t : Turn) : List VisibleMessage :=
  t.toolResults.map (fun r => ⟨id, .tool r.callId r.content⟩) ++
    t.toolResults.filterMap fun r => r.image.map fun i => ⟨id, .image r.callId i.path⟩

theorem userParts_noAssistant (id : Nat) (t : Turn) :
    ∀ v ∈ userParts id t, v.isAssistant = false := by
  intro v hv
  rw [userParts] at hv
  split at hv
  · cases hv
  · rw [List.mem_singleton] at hv
    subst hv
    rfl

theorem resultParts_noAssistant (id : Nat) (t : Turn) :
    ∀ v ∈ resultParts id t, v.isAssistant = false := by
  intro v hv
  rcases List.mem_append.mp hv with hv | hv
  · obtain ⟨r, _, rfl⟩ := List.mem_map.mp hv
    rfl
  · obtain ⟨r, _, hr⟩ := List.mem_filterMap.mp hv
    obtain ⟨image, _, rfl⟩ := Option.map_eq_some_iff.mp hr
    rfl

/-- A turn that the assistant has answered. -/
def Turn.Replied (t : Turn) : Prop := t.assistantText.isSome = true ∨ t.toolCalls ≠ []

theorem visibleOfTurn_blank {id : Nat} {t : Turn} (h : t.Blank) :
    visibleOfTurn id t = userParts id t := by
  obtain ⟨now, text, rfl⟩ := h
  cases text <;> rfl

theorem visibleOfTurn_replied {id : Nat} {t : Turn} (hLive : t.undone = false) (h : t.Replied) :
    visibleOfTurn id t =
      userParts id t ++ ⟨id, .assistant t.assistantText t.toolCalls⟩ :: resultParts id t := by
  have hReplied : (t.assistantText.isSome || !t.toolCalls.isEmpty) = true := by
    simpa [Turn.Replied] using h
  rw [visibleOfTurn, if_neg (by simp [hLive]), turnParts, if_pos hReplied]
  simp only [List.map_append, List.map_map, List.map_filterMap, Option.map_map, resultParts,
    userParts, List.append_assoc]
  cases t.userText <;> rfl

theorem CurrentTurn.visible {base turns : Turns} {id : Nat} {t : Turn}
    (h : CurrentTurn base turns id t) :
    ∃ earlier, visibleMessages turns = earlier ++ visibleOfTurn id t ∧
      ∀ f, visibleMessages (turns.modify id f) = earlier ++ visibleOfTurn id (f t) := by
  obtain ⟨earlier, hSplit, _⟩ := h.split
  refine ⟨(base.entries ++ earlier).flatMap fun e => visibleOfTurn e.1 e.2, ?_, ?_⟩
  · rw [visibleMessages, hSplit, List.flatMap_append, List.flatMap_singleton]
  · intro f
    rw [visibleMessages, OrdMap.modify_entries_of_last hSplit f, List.flatMap_append,
      List.flatMap_singleton]

theorem visibleMessages_insert_next (turns : Turns) (t : Turn) :
    visibleMessages (turns.insert (SessionState.nextTurnIdOf turns) t) =
      visibleMessages turns ++ visibleOfTurn (SessionState.nextTurnIdOf turns) t := by
  rw [visibleMessages, insert_next_entries, List.flatMap_append, List.flatMap_singleton]
  rfl

/-! ## What a server holds -/

/-- Everything that `server` holds is still there in `server'`. -/
def Server.Keeps (server server' : Server) : Prop :=
  ∀ slug p held, server.heldFor slug p = some held → server'.heldFor slug p = some held

theorem Server.heldFor_store_self (server : Server) (slug p : String)
    (messages : List VisibleMessage) :
    (server.store slug p messages).heldFor slug p = some messages := by
  simp [heldFor, store]

theorem Server.keeps_store {slug p : String} {messages : List VisibleMessage}
    (h : server.heldFor slug p = none) : server.Keeps (server.store slug p messages) := by
  intro slug' p' held hHeld
  have hNe : (slug', p') ≠ (slug, p) := by
    intro hEq
    cases hEq
    rw [h] at hHeld
    cases hHeld
  simpa [heldFor, store, List.lookup_cons, beq_eq_false_iff_ne.mpr hNe] using hHeld

/-- The server keeps what it holds, and learns the new response. -/
theorem remember_spec {env : Env} {server' : Server} {w : Worker} {turnId : Nat}
    {request : InferenceRequest} {responseId text : Option String}
    {calls : List AssistantToolCallRecord}
    (h : Worker.remember env server w turnId request responseId text calls = some server') :
    server.Keeps server' ∧
      ∀ p, responseId = some p →
        server'.heldFor w.slug p =
          some (requestContext env server w.slug w.model request ++
            [⟨turnId, .assistant text calls⟩]) := by
  simp only [Worker.remember] at h
  split at h
  · cases h
    refine ⟨fun _ _ _ hHeld => hHeld, ?_⟩
    intro p hp
    cases hp
  · rename_i r
    split at h
    · cases h
    · rename_i hNew
      cases h
      refine ⟨Server.keeps_store (by simpa using hNew), ?_⟩
      intro p hp
      cases hp
      exact Server.heldFor_store_self ..

/-- The server holds under `p` the conversation up to its last assistant
message. -/
def Server.HoldsChain (server : Server) (slug p : String) (turns : Turns) : Prop :=
  ∃ held, server.heldFor slug p = some held ∧
    UpToLast VisibleMessage.isAssistant held (visibleMessages turns)

theorem Server.HoldsChain.keeps {server' : Server} {slug p : String} {turns : Turns}
    (h : server.HoldsChain slug p turns) (hKeeps : server.Keeps server') :
    server'.HoldsChain slug p turns := by
  obtain ⟨held, hHeld, hUpTo⟩ := h
  exact ⟨held, hKeeps slug p held hHeld, hUpTo⟩

/-- The remembered response id can be continued. -/
def ChainOk (server : Server) (config : SessionConfig) (turns : Turns) : Prop :=
  ∀ p slug model, config.lastResponseId = some p →
    config.lastResponseIdProducer = some ⟨slug, model⟩ → server.HoldsChain slug p turns

namespace ChainOk

variable {server' : Server} {config config' : SessionConfig} {turns turns' : Turns}

theorem of_none (h : config.lastResponseId = none) : ChainOk server config turns := by
  intro p slug model hId
  rw [h] at hId
  cases hId

theorem transfer (h : ChainOk server config turns)
    (hId : config'.lastResponseId = config.lastResponseId)
    (hProducer : config'.lastResponseIdProducer = config.lastResponseIdProducer)
    (hHolds : ∀ slug p, server.HoldsChain slug p turns → server'.HoldsChain slug p turns') :
    ChainOk server' config' turns' := by
  intro p slug model hp hs
  exact hHolds slug p (h p slug model (hId ▸ hp) (hProducer ▸ hs))

theorem keeps (h : ChainOk server config turns) (hKeeps : server.Keeps server') :
    ChainOk server' config turns := h.transfer rfl rfl fun _ _ hHolds => hHolds.keeps hKeeps

end ChainOk

/-! ## Changes of the conversation -/

/-- `t'` differs from `t` at most in what comes after the reply. -/
structure SameReply (t t' : Turn) : Prop where
  userText : t'.userText = t.userText
  assistantText : t'.assistantText = t.assistantText
  toolCalls : t'.toolCalls = t.toolCalls
  undone : t'.undone = t.undone

theorem sameReply_recordToolCompletions (env : Env) (t : Turn) (completions : List Completion) :
    SameReply t (t.recordToolCompletions env completions) := by
  refine Turn.recordToolCompletions_induction (P := fun t' => SameReply t t') ?_
    ⟨rfl, rfl, rfl, rfl⟩ completions
  intro t' c h
  rw [Turn.recordToolCompletion]
  cases c.displayedImage <;> exact ⟨h.userText, h.assistantText, h.toolCalls, h.undone⟩

theorem sameReply_ended (b : Batch) (t : Turn) : SameReply t (Worker.ended b t) := by
  rw [Worker.ended]
  split <;> exact ⟨rfl, rfl, rfl, rfl⟩

namespace Server.HoldsChain

variable {slug p : String} {base turns : Turns} {id : Nat} {t : Turn}

theorem startTurn (h : server.HoldsChain slug p turns) (hBlank : t.Blank) :
    server.HoldsChain slug p (turns.insert (SessionState.nextTurnIdOf turns) t) := by
  obtain ⟨held, hHeld, hUpTo⟩ := h
  refine ⟨held, hHeld, ?_⟩
  rw [visibleMessages_insert_next, visibleOfTurn_blank hBlank]
  exact hUpTo.append (userParts_noAssistant _ _)

/-- So do the results of a turn that was answered. -/
theorem modify (h : server.HoldsChain slug p turns) (hTurn : CurrentTurn base turns id t)
    (hReplied : t.Replied) (hSame : SameReply t (f t)) :
    server.HoldsChain slug p (turns.modify id f) := by
  obtain ⟨held, hHeld, hUpTo⟩ := h
  refine ⟨held, hHeld, ?_⟩
  obtain ⟨earlier, hVisible, hModify⟩ := hTurn.visible
  have hReplied' : (f t).Replied := by
    rw [Turn.Replied, hSame.assistantText, hSame.toolCalls]
    exact hReplied
  have hUser : userParts id (f t) = userParts id t := by
    rw [userParts, hSame.userText]
    rfl
  rw [hVisible, visibleOfTurn_replied hTurn.live hReplied, ← List.append_assoc] at hUpTo
  rw [hModify, visibleOfTurn_replied (hSame.undone.trans hTurn.live) hReplied', hUser,
    hSame.assistantText, hSame.toolCalls, ← List.append_assoc]
  exact hUpTo.change rfl (resultParts_noAssistant _ _) (resultParts_noAssistant _ _)

theorem annotate {error : String} (h : server.HoldsChain slug p turns)
    (hTurn : CurrentTurn base turns id t) :
    server.HoldsChain slug p (turns.modify id fun t => { t with error := some error }) := by
  obtain ⟨held, hHeld, hUpTo⟩ := h
  obtain ⟨earlier, hVisible, hModify⟩ := hTurn.visible
  refine ⟨held, hHeld, ?_⟩
  rw [hModify]
  rw [hVisible] at hUpTo
  exact hUpTo

theorem reply (hTurn : CurrentTurn base turns id t) (hBlank : t.Blank)
    (hLive : (f t).undone = false) (hUser : (f t).userText = t.userText) (hReplied : (f t).Replied)
    (hHeld : server.heldFor slug p = some (visibleMessages turns ++
      [⟨id, .assistant (f t).assistantText (f t).toolCalls⟩])) :
    server.HoldsChain slug p (turns.modify id f) := by
  refine ⟨_, hHeld, ?_⟩
  obtain ⟨earlier, hVisible, hModify⟩ := hTurn.visible
  have hUserParts : userParts id (f t) = userParts id t := by
    rw [userParts, hUser]
    rfl
  rw [hModify, visibleOfTurn_replied hLive hReplied, hUserParts, hVisible,
    visibleOfTurn_blank hBlank, ← List.append_assoc]
  exact UpToLast.intro rfl (resultParts_noAssistant _ _)

end Server.HoldsChain

/-! ## The chain of a worker -/

namespace Worker

/-- The id that the next request would continue can be continued. -/
def PrevOk (server : Server) (w : Worker) : Prop :=
  ∀ p, w.prevRespId = some p → server.HoldsChain w.slug p w.session.turns

/-- What each phase says about the chain. While a truncated call is on its way
to the database, the remembered id is out of date. -/
def ChainPhase (env : Env) (server : Server) (w : Worker) : Phase → Prop
  | .spawned => ChainOk server w.session.config w.session.turns
  | .top => ChainOk server w.session.config w.session.turns ∧ w.PrevOk server
  | .awaiting _ request =>
      ChainOk server w.session.config w.session.turns ∧ w.PrevOk server ∧
        ∃ prompt first, request =
          ⟨buildChatRequestMessages env w.session.turns prompt w.slug w.model first, w.prevRespId⟩
  | .finalizing _ next =>
      next ≠ .truncated → ChainOk server w.session.config w.session.turns
  | .tools turnId _ =>
      ChainOk server w.session.config w.session.turns ∧ w.PrevOk server ∧
        ∀ t, w.session.turns.get? turnId = some t → t.Replied
  | .returning _ snapshot => ChainOk server snapshot.config snapshot.turns

structure ChainRun (env : Env) (server : Server) (w : Worker) : Prop where
  start : ChainOk server w.initialSnapshot.config w.initialSnapshot.turns
  phase : w.ChainPhase env server w.phase

/-- Whatever the route, a provider that has received a request has been shown
the visible conversation. -/
theorem requestContext_eq {env : Env} {w : Worker} {prompt : Option String} {first : Option Nat}
    (h : w.PrevOk server) :
    requestContext env server w.slug w.model
        ⟨buildChatRequestMessages env w.session.turns prompt w.slug w.model first, w.prevRespId⟩ =
      visibleMessages w.session.turns := by
  rw [requestContext]
  cases hPrev : w.prevRespId with
  | none => exact transcript_buildChatRequestMessages
  | some p =>
    dsimp only
    split
    · obtain ⟨held, hHeld, hUpTo⟩ := h p hPrev
      rw [hHeld]
      exact held_append_tail hUpTo
    · exact transcript_buildChatRequestMessages

/-- The event does not leave a response id behind that has lost the
conversation: a reply is recorded on a route that chains, a truncated call is
written, or there is no id to leave behind. -/
def keepsChain (env : Env) (w : Worker) : WorkerEvent → Bool
  | .finalText _ | .toolUse _ =>
      chainsViaResponseId env w.slug w.model || w.session.config.lastResponseId.isNone
  | .finalize (some _) =>
      match w.phase with
      | .finalizing _ .truncated => w.session.config.lastResponseId.isNone
      | _ => true
  | _ => true

theorem repliedConfig_chain (env : Env) (w : Worker) (usage : Option TokenUsage)
    (responseId : Option String) :
    chainsViaResponseId env w.slug w.model = true ∧
        (w.repliedConfig env usage responseId).lastResponseId = responseId ∧
        (w.repliedConfig env usage responseId).lastResponseIdProducer = some ⟨w.slug, w.model⟩ ∨
      chainsViaResponseId env w.slug w.model = false ∧
        (w.repliedConfig env usage responseId).lastResponseId =
          w.session.config.lastResponseId := by
  rw [repliedConfig, recordResponseId]
  split
  · rename_i hChains
    exact Or.inl ⟨hChains, rfl, rfl⟩
  · rename_i hChains
    refine Or.inr ⟨by simpa using hChains, ?_⟩
    cases usage <;> rfl

namespace ChainRun

variable {env : Env} {server' : Server} {w w' : Worker} {base : Turns} {turnId : Nat}

/-- The chain after a reply, remembered and in the loop. -/
theorem reply {request : InferenceRequest} (usage : Option TokenUsage)
    {responseId text : Option String} {calls : List AssistantToolCallRecord}
    (h : w.ChainRun env server) (hRun : WorkerInv base w)
    (hPhase : w.phase = .awaiting turnId request)
    (hServer : remember env server w turnId request responseId text calls = some server')
    (hf : ∀ t, (f t).undone = t.undone ∧ (f t).userText = t.userText ∧
      (f t).assistantText = text ∧ (f t).toolCalls = calls)
    (hReplied : text.isSome = true ∨ calls ≠ [])
    (hOk : (chainsViaResponseId env w.slug w.model || w.session.config.lastResponseId.isNone) =
      true) :
    server.Keeps server' ∧
      ChainOk server' (w.repliedConfig env usage responseId) (w.session.turns.modify turnId f) ∧
      ∀ p, responseId = some p → server'.HoldsChain w.slug p (w.session.turns.modify turnId f) := by
  have hChain := h.phase
  have hCurrent := hRun.phase
  rw [hPhase] at hChain hCurrent
  obtain ⟨_, hPrev, prompt, first, rfl⟩ := hChain
  obtain ⟨t, hTurn, hBlank⟩ := hCurrent
  obtain ⟨hKeeps, hHeld⟩ := remember_spec hServer
  obtain ⟨hLive, hUser, hText, hCalls⟩ := hf t
  have hHolds : ∀ p, responseId = some p →
      server'.HoldsChain w.slug p (w.session.turns.modify turnId f) := by
    intro p hp
    refine .reply hTurn hBlank (hLive.trans hTurn.live) hUser ?_ ?_
    · rw [Turn.Replied, hText, hCalls]
      exact hReplied
    · rw [hHeld p hp, requestContext_eq hPrev, hText, hCalls]
  refine ⟨hKeeps, ?_, hHolds⟩
  rcases repliedConfig_chain env w usage responseId with ⟨_, hId, hProducer⟩ | ⟨hChains, hId⟩
  · intro p slug model hp hs
    rw [hProducer] at hs
    cases hs
    exact hHolds p (hId ▸ hp)
  · refine .of_none (hId.trans ?_)
    simpa [hChains] using hOk

/-- A step of the results of the current turn. -/
theorem modify (config : SessionConfig) {b : Batch} (h : w.ChainRun env server)
    (hRun : WorkerInv base w) (hPhase : w.phase = .tools turnId b) (hf : ∀ t, SameReply t (f t))
    (hId : config.lastResponseId = w.session.config.lastResponseId)
    (hProducer : config.lastResponseIdProducer = w.session.config.lastResponseIdProducer) :
    ChainOk server config (w.session.turns.modify turnId f) ∧
      (∀ p, w.prevRespId = some p →
        server.HoldsChain w.slug p (w.session.turns.modify turnId f)) ∧
      ∀ t, (w.session.turns.modify turnId f).get? turnId = some t → t.Replied := by
  have hChain := h.phase
  have hCurrent := hRun.phase
  rw [hPhase] at hChain hCurrent
  obtain ⟨hOk, hPrev, hReplied⟩ := hChain
  obtain ⟨t, hTurn⟩ := hCurrent
  have hReplied := hReplied t hTurn.get?
  refine ⟨hOk.transfer hId hProducer fun _ _ hHolds => hHolds.modify hTurn hReplied (hf t),
    fun p hp => (hPrev p hp).modify hTurn hReplied (hf t), ?_⟩
  intro t' ht'
  rw [OrdMap.get?_modify, if_pos rfl, hTurn.get?] at ht'
  cases ht'
  rw [Turn.Replied, (hf t).assistantText, (hf t).toolCalls]
  exact hReplied

/-- The loop is entered with the remembered id only on the route it is from. -/
theorem enter (h : w.ChainRun env server) (hPhase : w.phase = .spawned)
    (skills : List SkillMeta) : (w.enter env skills).ChainRun env server := by
  have hChain := h.phase
  rw [hPhase] at hChain
  refine ⟨h.start, hChain, ?_⟩
  intro p hp
  have hp : initialPrevRespId env w.session.config w.slug w.model = some p := hp
  rw [initialPrevRespId] at hp
  split at hp
  · rename_i hSame
    simp only [Bool.and_eq_true, decide_eq_true_eq] at hSame
    exact hChain p w.slug w.model hp hSame.1
  · cases hp

theorem beginTurn (h : w.ChainRun env server) (hRun : WorkerInv base w)
    (hPhase : w.phase = .top) (now : Int) (systemPrompt : String) :
    (w.beginTurn env now systemPrompt).1.ChainRun env server := by
  have hChain := h.phase
  rw [hPhase] at hChain
  obtain ⟨hOk, hPrev⟩ := hChain
  have hTurns : (w.beginTurn env now systemPrompt).1.session.turns =
      w.session.turns.insert (SessionState.nextTurnIdOf w.session.turns)
        { createdAt := now, userText := w.turnUserText } := by
    rw [← hRun.nextTurnId]
    rfl
  have hGrows : ∀ slug p, server.HoldsChain slug p w.session.turns →
      server.HoldsChain slug p (w.beginTurn env now systemPrompt).1.session.turns := by
    intro slug p hHolds
    rw [hTurns]
    exact hHolds.startTurn ⟨_, _, rfl⟩
  exact ⟨h.start, hOk.transfer rfl rfl hGrows, fun p hp => hGrows _ p (hPrev p hp), _, _, rfl⟩

/-- Every step that `keepsChain` allows keeps the chain. -/
theorem step {db : Db} {e : WorkerEvent} {r : WorkerResult} (h : w.ChainRun env server)
    (hRun : WorkerInv base w) (hMove : w.Move env db server e r) (hNext : r.worker = some w')
    (hAllowed : w.keepsChain env e = true) : w'.ChainRun env r.server := by
  have hChain := h.phase
  cases hMove with
  | enter skills hPhase =>
    cases hNext
    exact h.enter hPhase skills
  | stop w'' hBetween hStopped hPoint =>
    cases hNext
    have hOk : ChainOk server w.session.config w.session.turns := by
      rcases hPoint with hPhase | ⟨turnId, request, hPhase⟩ | ⟨turnId, next, error, hPhase, rfl⟩
      · rw [hPhase] at hChain
        exact hChain.1
      · rw [hPhase] at hChain
        exact hChain.1
      · by_cases hTruncated : next = .truncated
        · subst hTruncated
          simp only [keepsChain, hPhase] at hAllowed
          exact .of_none (by simpa using hAllowed)
        · rw [hPhase] at hChain
          exact hChain hTruncated
    rcases hBetween.phase with hPhase' | ⟨outcome, hPhase'⟩
    · exact absurd hPhase' hStopped
    · refine ⟨by rw [hBetween.start]; exact h.start, ?_⟩
      rw [hPhase']
      exact hOk
  | beginTurn now systemPrompt estimate hStart hBound =>
    cases hNext
    have hPhase : w.phase = .top := by
      simp only [startsTurn, Bool.and_eq_true, decide_eq_true_eq] at hStart
      exact hStart.1.1
    exact h.beginTurn hRun hPhase now systemPrompt
  | status status =>
    cases hNext
    exact h
  | finalText turnId request f server' hPhase hServer =>
    cases hNext
    obtain ⟨hKeeps, hOk, _⟩ := h.reply f.usage (f := w.answered f) hRun hPhase hServer
      (fun _ => ⟨rfl, rfl, rfl, rfl⟩) (Or.inl rfl) hAllowed
    refine ⟨h.start.keeps hKeeps, fun _ => ?_⟩
    rw [answer_eq]
    exact hOk
  | toolUse turnId request f server' hPhase hServer =>
    cases hNext
    have hCalls : f.toolCalls.map ChatToolCall.toRecord ≠ [] := by
      simpa using f.toolCalls_ne_nil
    obtain ⟨hKeeps, hOk, hHolds⟩ := h.reply f.usage (f := w.called env f) hRun hPhase
      hServer (fun _ => ⟨rfl, rfl, rfl, rfl⟩) (Or.inr hCalls) hAllowed
    refine ⟨h.start.keeps hKeeps, ?_, ?_, ?_⟩
    · rw [callTools_eq]
      exact hOk
    · intro p hp
      simp only [callTools_eq]
      exact hHolds p hp
    · intro t ht
      simp only [callTools_eq, OrdMap.get?_modify, if_true, Option.map_eq_some_iff] at ht
      obtain ⟨t₀, _, rfl⟩ := ht
      exact Or.inr hCalls
  | annotate turnId request f recoveries next hPhase hNote =>
    cases hNext
    refine ⟨h.start, ?_⟩
    rcases hNote with ⟨_, rfl⟩ | ⟨⟨error, rfl⟩, _⟩
    · exact fun hTruncated => absurd rfl hTruncated
    · intro _
      rw [hPhase] at hChain
      have hCurrent := hRun.phase
      rw [hPhase] at hCurrent
      obtain ⟨t, hTurn, _⟩ := hCurrent
      exact hChain.1.transfer rfl rfl fun _ _ hHolds => hHolds.annotate hTurn
  | finalized turnId next w'' hPhase hBetween hRetry =>
    cases hNext
    rw [hPhase] at hChain
    have hOk : ChainOk server w'.session.config w'.session.turns := by
      rw [hBetween.session_eq]
      by_cases hTruncated : next = .truncated
      · subst hTruncated
        exact .of_none rfl
      · cases next with
        | truncated => exact absurd rfl hTruncated
        | _ => exact hChain hTruncated
    refine ⟨by rw [hBetween.start]; exact h.start, ?_⟩
    rcases hBetween.phase with hPhase' | ⟨outcome, hPhase'⟩
    · rw [hPhase']
      refine ⟨hOk, ?_⟩
      intro p hp
      rw [hBetween.prevRespId_eq, if_pos (hRetry hPhase')] at hp
      cases hp
    · rw [hPhase']
      rw [hBetween.session_eq] at hOk
      exact hOk
  | tool e turnId b b' completions cancels hPhase hStep =>
    cases hNext
    obtain ⟨hOk, hPrev, hReplied⟩ := h.modify w.session.config hRun hPhase
      (sameReply_recordToolCompletions env · completions) rfl rfl
    refine ⟨h.start, ?_, ?_, ?_⟩
    · rw [recordCompletions_fst]
      exact hOk
    · intro p hp
      simp only [recordCompletions_fst]
      exact hPrev p hp
    · intro t ht
      simp only [recordCompletions_fst] at ht
      exact hReplied t ht
  | toolsDone writeOk turnId b w'' hPhase hDone written hWritten hBetween =>
    cases hNext
    obtain ⟨groups, dir, skills, persisted, hEq, _⟩ := toolsDone_eq hWritten
    obtain ⟨hOk, hPrev, _⟩ := h.modify written.1.config hRun hPhase (sameReply_ended b)
      (by rw [hEq]) (by rw [hEq])
    have hTurns : written.1.turns = w.session.turns.modify turnId (ended b) := by rw [hEq]
    rw [← hTurns] at hOk hPrev
    refine ⟨by rw [hBetween.start]; exact h.start, ?_⟩
    rcases hBetween.phase with hPhase' | ⟨outcome, hPhase'⟩
    · rw [hPhase']
      refine ⟨by rw [hBetween.session_eq]; exact hOk, ?_⟩
      intro p hp
      rw [hBetween.prevRespId_eq] at hp
      rw [hBetween.slug, hBetween.session_eq]
      exact hPrev p hp
    · rw [hPhase']
      exact hOk
  | panic hPhase =>
    cases hNext
    exact ⟨h.start, h.start⟩
  | finish outcome snapshot hPhase => cases hNext

end ChainRun

end Worker

/-! ## The chain of a session -/

/-- The step does not leave a response id behind that has lost the
conversation. Besides the worker's steps, a redo must find no id or nothing to
restore, and a restart must find the turns that are in memory. -/
def chainsSafely (env : Env) (s : System) : Action → Bool
  | .worker e =>
      match s.worker with
      | some w => w.keepsChain env e
      | none => true
  | .command _ .redo =>
      !decide s.Idle || s.main.redoStack.isEmpty || s.main.config.lastResponseId.isNone
  | .reload _ => s.db.readTurns env.sessionId = s.main.turns.entries
  | _ => true

def ChainInv (env : Env) (s : System) : Prop :=
  Stage (ChainOk s.server s.main.config s.main.turns) (fun w => w.ChainRun env s.server)
    (fun snapshot => ChainOk s.server snapshot.config snapshot.turns) s

theorem ChainOk.sameHistory {s s' : SessionState} (h : ChainOk server s.config s.turns)
    (hSame : SameHistory s s') : ChainOk server s'.config s'.turns :=
  h.transfer hSame.lastResponseId hSame.lastResponseIdProducer
    fun _ _ hHolds => hSame.turns ▸ hHolds

theorem load_chain (env : Env) {db : Db} {s : SessionState} {record : SessionRecord}
    (h : (db.writeSession env.sessionId s.toRecord).sessions.get? env.sessionId = some record)
    (providerSlug : Option String) (turns : Turns) :
    (SessionState.load env record providerSlug turns).config.lastResponseId =
        s.config.lastResponseId ∧
      (SessionState.load env record providerSlug turns).config.lastResponseIdProducer =
        s.config.lastResponseIdProducer := by
  have hStored : record.lastResponseId = s.config.lastResponseId ∧
      record.lastResponseIdProducer = s.config.lastResponseIdProducer := by
    simp only [Db.writeSession, OrdMap.get?_insert, if_true, Option.some.injEq] at h
    subst h
    split <;> exact ⟨rfl, rfl⟩
  rw [← hStored.1, ← hStored.2, SessionState.load]
  exact ⟨(refreshContextWindow_sameHistory env _).1.lastResponseId,
    (refreshContextWindow_sameHistory env _).1.lastResponseIdProducer⟩

theorem chainInv_step {env : Env} {s s' : System} {a : Action} {os : List Output}
    (h : ChainInv env s) (hAllowed : chainsSafely env s a = true)
    (hStep : Transition env s a s' os) : ChainInv env s' := by
  cases hStep with
  | quiet e targets shutdown hQuiet =>
    refine h.quiet (fun hOk => hOk.sameHistory hQuiet.history) ?_ fun _ hOk => hOk
    intro w cancels hw
    exact ⟨hw.start, hw.phase⟩
  | accept e w hWorker hInbox hReadouts hAccept =>
    rw [ChainInv, Stage.rest_iff hWorker hInbox] at h
    refine (Stage.running_iff rfl).mpr ?_
    have hOk := h.sameHistory hAccept.history
    rw [hAccept.spawned]
    exact ⟨hOk, hOk⟩
  | undo e target hIdle hWorker hInbox hReadouts hUndo =>
    refine (Stage.rest_iff (s := s.applyEffect e) hWorker hInbox).mpr ?_
    exact .of_none hUndo.lastResponseId
  | redo e ids hIdle hWorker hInbox hReadouts hRedo =>
    refine (Stage.rest_iff (s := s.applyEffect e) hWorker hInbox).mpr ?_
    have hNone : s.main.config.lastResponseId = none := by
      simpa [chainsSafely, hIdle, hRedo.redoStack] using hAllowed
    exact .of_none (hRedo.lastResponseId.trans hNone)
  | progress now m rest hInbox hProgress =>
    refine h.progress hInbox hProgress ?_ (fun _ hw => hw) fun _ hOk => hOk
    obtain ⟨status, usage, prompt, requests, _, hState, _⟩ :=
      handleWorkerMessage_progress env now s.main s.db hProgress
    simp only [System.applyEffect, hState]
    exact id
  | merge now streamId snapshot hInbox hWorker hActive hSnapshot =>
    rw [ChainInv, Stage.merging_iff hWorker hInbox] at h
    refine Stage.merged hWorker ?_
    simp only [System.applyEffect, handleRequestFinished_turns hSnapshot.extended]
    exact h
  | worker e w w' r hWorker hRun hMove hNext =>
    rw [ChainInv, Stage.running_iff hWorker] at h
    refine (Stage.running_iff rfl).mpr ?_
    exact h.step hRun hMove hNext (by simpa [chainsSafely, hWorker] using hAllowed)
  | finish w outcome snapshot hWorker hRun hPhase =>
    rw [ChainInv, Stage.running_iff hWorker] at h
    have hChain := h.phase
    rw [hPhase] at hChain
    exact Stage.handed hChain
  | reload providerSlug record hIdle hWorker hInbox hRecord =>
    rw [ChainInv, Stage.rest_iff hWorker hInbox] at h
    refine (Stage.rest_iff hWorker hInbox).mpr ?_
    have hRows : s.db.readTurns env.sessionId = s.main.turns.entries := by
      simpa [chainsSafely] using hAllowed
    obtain ⟨hId, hProducer⟩ := load_chain env hRecord providerSlug
      (OrdMap.empty.insertAll (s.db.readTurns env.sessionId))
    refine h.transfer hId hProducer ?_
    intro slug p hHolds
    simp only [SessionState.load, hRows, OrdMap.empty_insertAll_entries]
    exact hHolds

theorem chainInv_init (env : Env) (config : SessionConfig) (slug : Option String) :
    ChainInv env (System.init env config slug) := by
  refine (Stage.rest_iff rfl rfl).mpr (.of_none ?_)
  rw [System.init]
  exact (refreshContextWindow_sameHistory env _).1.lastResponseId

/-- While no step leaves an outdated response id behind, whatever the server
holds for the response that a request continues, followed by the tail it is
sent, is the visible conversation. -/
theorem chained_request_complete {env : Env} {config : SessionConfig} {slug : Option String}
    {actions : List Action} {s : System} {os : List Output} {w : Worker} {turnId : Nat}
    {request : InferenceRequest} {p : String}
    (h : ((system env).guard fun s a => chainsSafely env s a = true).exec
      (System.init env config slug) actions = some (s, os))
    (hWorker : s.worker = some w) (hPhase : w.phase = .awaiting turnId request)
    (hPrev : request.previousResponseId = some p) :
    ∃ held, s.server.heldFor w.slug p = some held ∧
      held ++ transcript (chainInputMessages request.messages) =
        visibleMessages w.session.turns := by
  have hChain := guarded_invariant_of_transition (P := fun _ s => ChainInv env s)
    (fun _ hChain hAllowed hStep => chainInv_step hChain hAllowed hStep)
    (chainInv_init env config slug) h
  rw [ChainInv, Stage.running_iff hWorker] at hChain
  have hAwaiting := hChain.phase
  rw [hPhase] at hAwaiting
  obtain ⟨_, hPrevOk, prompt, first, rfl⟩ := hAwaiting
  obtain ⟨held, hHeld, hUpTo⟩ := hPrevOk p hPrev
  exact ⟨held, hHeld, held_append_tail hUpTo⟩

/-- A run that is answered at once, with a response id. -/
def answeredRun (text responseId : String) : List Action :=
  sampleRun text
    [.enter [], .iterate 1 "" 0, .finalText { content := "done", responseId := some responseId },
      .finalize none, .finish] 7

/-- A run up to its first request. -/
def requestedRun (text : String) : List Action := sampleRun text [.enter [], .iterate 1 "" 0] 0

/-- The worker that waits for a provider, with its turn and its request. -/
def System.awaited (s : System) : Option (Worker × Nat × InferenceRequest) :=
  s.worker.bind fun w =>
    match w.phase with
    | .awaiting turnId request => some (w, turnId, request)
    | _ => none

theorem System.awaited_eq_some {s : System} {w : Worker} {turnId : Nat}
    {request : InferenceRequest} (h : s.awaited = some (w, turnId, request)) :
    s.worker = some w ∧ w.phase = .awaiting turnId request := by
  obtain ⟨w', hWorker, hPhase⟩ := Option.bind_eq_some_iff.mp h
  split at hPhase
  · rename_i hAwaiting
    cases hPhase
    exact ⟨hWorker, hAwaiting⟩
  · cases hPhase

/-- The second run of a session continues the response of the first one. -/
theorem chained_request_complete_second_run :
    ∃ s os w turnId request,
      ((system sampleEnv).guard fun s a => chainsSafely sampleEnv s a = true).exec
          (System.init sampleEnv (sampleConfig "chained") none)
          (answeredRun "one" "resp_1" ++ requestedRun "two") = some (s, os) ∧
        s.worker = some w ∧ w.phase = .awaiting turnId request ∧
        request.previousResponseId = some "resp_1" ∧
        ∃ held, s.server.heldFor w.slug "resp_1" = some held ∧
          held ++ transcript (chainInputMessages request.messages) =
            visibleMessages w.session.turns := by
  have hCheck : ((system sampleEnv).guard fun s a => chainsSafely sampleEnv s a = true).check
      (System.init sampleEnv (sampleConfig "chained") none)
      (answeredRun "one" "resp_1" ++ requestedRun "two")
      (fun s _ => s.awaited.any fun a => decide (a.2.2.previousResponseId = some "resp_1")) =
        true := by
    decide +kernel
  obtain ⟨s, os, hExec, hTest⟩ := Machine.exists_of_check hCheck
  obtain ⟨⟨w, turnId, request⟩, hAwaited, hTest⟩ := (Option.any_eq_true _ _).mp hTest
  obtain ⟨hWorker, hPhase⟩ := System.awaited_eq_some hAwaited
  have hPrev : request.previousResponseId = some "resp_1" := of_decide_eq_true hTest
  exact ⟨s, os, w, turnId, request, hExec, hWorker, hPhase, hPrev,
    chained_request_complete hExec hWorker hPhase hPrev⟩

/-- A run on a model that does not chain leaves the old id in place: back on
the first model, the request continues a response that never saw that run. -/
theorem chained_request_omits_turn :
    ∃ s os w turnId request held,
      (system sampleEnv).exec (System.init sampleEnv (sampleConfig "chained") none)
          (answeredRun "one" "resp_1" ++ [.command 2 (.setModel "plain" none)] ++
            answeredRun "two" "resp_2" ++ [.command 3 (.setModel "chained" none)] ++
            requestedRun "three") = some (s, os) ∧
        s.worker = some w ∧ w.phase = .awaiting turnId request ∧
        request.previousResponseId = some "resp_1" ∧
        s.server.heldFor w.slug "resp_1" = some held ∧
        ⟨1, .user "two"⟩ ∈ visibleMessages w.session.turns ∧
        ⟨1, .user "two"⟩ ∉ held ++ transcript (chainInputMessages request.messages) := by
  have hCheck : (system sampleEnv).check (System.init sampleEnv (sampleConfig "chained") none)
      (answeredRun "one" "resp_1" ++ [.command 2 (.setModel "plain" none)] ++
        answeredRun "two" "resp_2" ++ [.command 3 (.setModel "chained" none)] ++
        requestedRun "three")
      (fun s _ => s.awaited.any fun a =>
        (s.server.heldFor a.1.slug "resp_1").any fun held =>
          decide (a.2.2.previousResponseId = some "resp_1" ∧
            ⟨1, .user "two"⟩ ∈ visibleMessages a.1.session.turns ∧
            ⟨1, .user "two"⟩ ∉ held ++ transcript (chainInputMessages a.2.2.messages))) =
        true := by
    decide +kernel
  obtain ⟨s, os, hExec, hTest⟩ := Machine.exists_of_check hCheck
  obtain ⟨⟨w, turnId, request⟩, hAwaited, hTest⟩ := (Option.any_eq_true _ _).mp hTest
  obtain ⟨held, hHeld, hTest⟩ := (Option.any_eq_true _ _).mp hTest
  obtain ⟨hPrev, hVisible, hOmitted⟩ := of_decide_eq_true hTest
  obtain ⟨hWorker, hPhase⟩ := System.awaited_eq_some hAwaited
  exact ⟨s, os, w, turnId, request, held, hExec, hWorker, hPhase, hPrev, hHeld, hVisible,
    hOmitted⟩

end Choreographr.Session
