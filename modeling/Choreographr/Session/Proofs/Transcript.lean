import Choreographr.Session.Projection

/-!
# What a request shows of the conversation

The messages of a request render exactly the visible conversation, and the role
of a message tells which kind of part it renders. Hence the tail that
`chainInputMessages` selects renders what stands after the last assistant
message of the conversation, whether or not the system prompt comes along.
-/

namespace Choreographr.Session

open Lib

/-! ## Messages and parts -/

/-- Only system messages render nothing, and the role of any other message
tells whether it renders an assistant part. -/
def ChatRequestMessage.Rendered (m : ChatRequestMessage) : Prop :=
  match m.origin with
  | none => m.role = .system
  | some v => m.role ≠ .system ∧ (m.role = .assistant ↔ v.isAssistant = true)

theorem transcript_append (xs ys : List ChatRequestMessage) :
    transcript (xs ++ ys) = transcript xs ++ transcript ys := List.filterMap_append

section

variable {env : Env} {providerSlug model : String} {inFlightFromTurn : Option Nat}
  {id : Nat} {t : Turn}

theorem rendered_of_mem_turnMessages {m : ChatRequestMessage}
    (h : m ∈ turnMessages env providerSlug model inFlightFromTurn id t) : m.Rendered := by
  unfold turnMessages at h
  rcases List.mem_append.mp h with h | h
  · rcases List.mem_append.mp h with h | h
    · rcases List.mem_append.mp h with h | h
      · rw [userMessage] at h
        split at h
        · cases h
        · rw [List.mem_singleton] at h
          subst h
          simp [ChatRequestMessage.Rendered, VisibleMessage.isAssistant]
      · rw [assistantMessage] at h
        split at h
        · rw [List.mem_singleton] at h
          subst h
          simp [ChatRequestMessage.Rendered, VisibleMessage.isAssistant]
        · cases h
    · obtain ⟨r, _, rfl⟩ := List.mem_map.mp h
      simp [ChatRequestMessage.Rendered, VisibleMessage.isAssistant]
  · obtain ⟨r, _, hr⟩ := List.mem_filterMap.mp h
    split at hr
    · cases hr
    · cases hr
      simp [ChatRequestMessage.Rendered, VisibleMessage.isAssistant]

theorem transcript_turnMessages :
    transcript (turnMessages env providerSlug model inFlightFromTurn id t) =
      (turnParts t).map fun p => ⟨id, p⟩ := by
  unfold turnMessages
  simp only [transcript_append, turnParts, List.map_append]
  refine congrArg₂ _ (congrArg₂ _ (congrArg₂ _ ?_ ?_) ?_) ?_
  · rw [userMessage]
    cases t.userText <;> rfl
  · rw [assistantMessage]
    split <;> rfl
  · simp [transcript, toolMessages, Function.comp_def]
  · rw [transcript, toolResultImageMessages, List.filterMap_filterMap, List.map_filterMap]
    apply List.filterMap_congr
    intro r _
    cases r.image <;> rfl

end

section

variable {env : Env} {turns : Turns} {systemPrompt : Option String} {providerSlug model : String}
  {inFlightFromTurn : Option Nat}

theorem rendered_of_mem_build {m : ChatRequestMessage}
    (h : m ∈ buildChatRequestMessages env turns systemPrompt providerSlug model inFlightFromTurn) :
    m.Rendered := by
  rcases List.mem_append.mp h with h | h
  · cases systemPrompt with
    | none => cases h
    | some prompt =>
      rw [promptMessages, List.mem_singleton] at h
      subst h
      rfl
  · obtain ⟨e, _, h⟩ := List.mem_flatMap.mp h
    split at h
    · cases h
    · exact rendered_of_mem_turnMessages h

/-- A request shows the visible conversation. -/
theorem transcript_buildChatRequestMessages :
    transcript
        (buildChatRequestMessages env turns systemPrompt providerSlug model inFlightFromTurn) =
      visibleMessages turns := by
  have hPrompt : transcript (promptMessages systemPrompt) = [] := by
    cases systemPrompt <;> rfl
  rw [buildChatRequestMessages, transcript_append, hPrompt, List.nil_append, historyMessages,
    visibleMessages, transcript, List.filterMap_flatMap]
  congr 1
  funext e
  rw [visibleOfTurn]
  split
  · rfl
  · exact transcript_turnMessages

end

/-! ## The tail of a chained request -/

/-- The tail of a list whose last assistant message is `a`. -/
theorem transcript_tail {before after : List ChatRequestMessage} {a : ChatRequestMessage}
    (hSystem : ∀ m ∈ before ++ a :: after, m.role = .system → m.origin = none)
    (ha : a.role = .assistant) (hAfter : ∀ m ∈ after, m.role ≠ .assistant) :
    transcript (chainInputMessages (before ++ a :: after)) = transcript after := by
  have hLast : rposition (fun m => decide (m.role = .assistant)) (before ++ a :: after) =
      some before.length :=
    rposition_append_cons (decide_eq_true ha) fun m hm => decide_eq_false (hAfter m hm)
  refine Eq.trans ?_ (filterMap_zipIdx_after ChatRequestMessage.origin before after a)
  simp only [transcript, chainInputMessages, hLast]
  rw [List.filterMap_filterMap]
  apply List.filterMap_congr
  rintro ⟨m, i⟩ hm
  have hMem : (before ++ a :: after)[i]? = some m := List.mem_zipIdx_iff_getElem?.mp hm
  by_cases hRole : m.role = .system
  · -- a system message renders nothing, kept or not
    have hOrigin := hSystem m (List.mem_of_getElem? hMem) hRole
    simp only [hOrigin]
    split <;> simp [hOrigin]
  · have hNewest : some i ≠ rposition (fun m => decide (m.role = .system))
        (before ++ a :: after) := by
      intro hNewest
      obtain ⟨x, hx, hSystem⟩ := rposition_spec hNewest.symm
      rw [hMem] at hx
      cases hx
      exact hRole (of_decide_eq_true hSystem)
    simp only [hRole, hNewest, ne_eq, not_false_eq_true, decide_true, Bool.and_true, decide_false,
      Bool.false_and, Bool.or_false]
    split <;> simp_all

/-- The tail renders what stands after the last assistant message. -/
theorem transcript_chainInputMessages {messages : List ChatRequestMessage}
    {held suffix : List VisibleMessage} {v : VisibleMessage}
    (hRendered : ∀ m ∈ messages, m.Rendered) (hv : v.isAssistant = true)
    (hSuffix : ∀ u ∈ suffix, u.isAssistant = false)
    (hTranscript : transcript messages = held ++ v :: suffix) :
    transcript (chainInputMessages messages) = suffix := by
  obtain ⟨before, rest, rfl, hBefore, hRest⟩ := List.filterMap_eq_append_iff.mp hTranscript
  obtain ⟨skipped, a, after, rfl, hSkipped, ha, hAfter⟩ := List.filterMap_eq_cons_iff.mp hRest
  rw [← List.append_assoc] at hRendered ⊢
  -- `a` renders the last assistant message of the conversation
  refine (transcript_tail ?_ ?_ ?_).trans hAfter
  · intro m hm hSystem
    have hM := hRendered m hm
    rw [ChatRequestMessage.Rendered] at hM
    split at hM
    · assumption
    · exact absurd hSystem hM.1
  · have hA := hRendered a (by simp)
    rw [ChatRequestMessage.Rendered, ha] at hA
    exact hA.2.mpr hv
  · intro m hm hAssistant
    have hM := hRendered m (by simp [hm])
    rw [ChatRequestMessage.Rendered] at hM
    split at hM
    · rw [hAssistant] at hM
      cases hM
    · rename_i u hu
      have hMem : u ∈ suffix := hAfter ▸ List.mem_filterMap.mpr ⟨m, hm, hu⟩
      have hTrue := hM.2.mp hAssistant
      rw [hSuffix u hMem] at hTrue
      cases hTrue

/-- What a server holds and the tail it is sent are the whole conversation, if
it holds the conversation up to its last assistant message. -/
theorem held_append_tail {env : Env} {turns : Turns} {systemPrompt : Option String}
    {providerSlug model : String} {inFlightFromTurn : Option Nat} {held : List VisibleMessage}
    (h : UpToLast VisibleMessage.isAssistant held (visibleMessages turns)) :
    held ++ transcript (chainInputMessages
        (buildChatRequestMessages env turns systemPrompt providerSlug model inFlightFromTurn)) =
      visibleMessages turns := by
  obtain ⟨front, v, suffix, rfl, hv, hVisible, hSuffix⟩ := h
  rw [transcript_chainInputMessages (fun _ hm => rendered_of_mem_build hm) hv hSuffix
    (transcript_buildChatRequestMessages.trans hVisible), hVisible, List.append_assoc]
  rfl

end Choreographr.Session
