import Mathlib.Data.Finset.Basic
import Mathlib.Data.Finset.Sort

/-!
# Session data

The data a session is made of: the persisted `Turn` with its tool calls, tool
results and images, the token counts, the persistent `SessionConfig` with its
database record, and the facts about providers and models that a session reads
from its surroundings (`Env`).

Token counts are 32-bit and `accumulate` adds them with `+=`, so they are
`UInt32` here and the addition wraps as it does in a release build. Text is a
`String`, bytes are a list, paths are strings, and hash sets are `Finset`s.
-/

namespace Choreographr.Session

abbrev Bytes := List UInt8

/-! ## Token counts -/

structure TokenUsage where
  inputTokens : UInt32 := 0
  outputTokens : UInt32 := 0
  totalTokens : UInt32 := 0
  cachedTokens : UInt32 := 0
  cacheWriteTokens : UInt32 := 0
deriving DecidableEq, Inhabited

namespace TokenUsage

/-- Apply a binary operation to each of the five counters. -/
def map₂ (f : UInt32 → UInt32 → UInt32) (a b : TokenUsage) : TokenUsage where
  inputTokens := f a.inputTokens b.inputTokens
  outputTokens := f a.outputTokens b.outputTokens
  totalTokens := f a.totalTokens b.totalTokens
  cachedTokens := f a.cachedTokens b.cachedTokens
  cacheWriteTokens := f a.cacheWriteTokens b.cacheWriteTokens

/-- Keep the per-field maximum of two snapshots of one cumulative figure. -/
def mergeMax (a b : TokenUsage) : TokenUsage := map₂ max a b

/-- Fold one turn's usage into a running total. -/
def accumulate (a b : TokenUsage) : TokenUsage := map₂ (· + ·) a b

/-- A relation that holds of each of the five counters. -/
def All₂ (r : UInt32 → UInt32 → Prop) (a b : TokenUsage) : Prop :=
  r a.inputTokens b.inputTokens ∧ r a.outputTokens b.outputTokens ∧
    r a.totalTokens b.totalTokens ∧ r a.cachedTokens b.cachedTokens ∧
    r a.cacheWriteTokens b.cacheWriteTokens

instance (r : UInt32 → UInt32 → Prop) [DecidableRel r] (a b : TokenUsage) :
    Decidable (All₂ r a b) :=
  inferInstanceAs (Decidable (_ ∧ _))

/-- No counter of `a` exceeds its counterpart in `b`. -/
instance : LE TokenUsage := ⟨All₂ (· ≤ ·)⟩

instance (a b : TokenUsage) : Decidable (a ≤ b) :=
  inferInstanceAs (Decidable (All₂ (· ≤ ·) a b))

/-- Adding `b` to `a` overflows none of the five 32-bit counters. -/
def Fits (a b : TokenUsage) : Prop := All₂ (fun x y => x.toNat + y.toNat < 2 ^ 32) a b

instance (a b : TokenUsage) : Decidable (Fits a b) :=
  inferInstanceAs (Decidable (All₂ _ a b))

theorem le_rfl (a : TokenUsage) : a ≤ a :=
  ⟨UInt32.le_rfl, UInt32.le_rfl, UInt32.le_rfl, UInt32.le_rfl, UInt32.le_rfl⟩

theorem le_trans {a b c : TokenUsage} (hab : a ≤ b) (hbc : b ≤ c) : a ≤ c := by
  obtain ⟨h₁, h₂, h₃, h₄, h₅⟩ := hab
  obtain ⟨k₁, k₂, k₃, k₄, k₅⟩ := hbc
  exact ⟨UInt32.le_trans h₁ k₁, UInt32.le_trans h₂ k₂, UInt32.le_trans h₃ k₃,
    UInt32.le_trans h₄ k₄, UInt32.le_trans h₅ k₅⟩

theorem counter_le_add {x y : UInt32} (h : x.toNat + y.toNat < 2 ^ 32) : x ≤ x + y := by
  rw [UInt32.le_iff_toNat_le, UInt32.toNat_add, Nat.mod_eq_of_lt h]
  omega

theorem le_accumulate {a b : TokenUsage} (h : Fits a b) : a ≤ a.accumulate b := by
  obtain ⟨h₁, h₂, h₃, h₄, h₅⟩ := h
  exact ⟨counter_le_add h₁, counter_le_add h₂, counter_le_add h₃, counter_le_add h₄,
    counter_le_add h₅⟩

theorem counter_max_of_le {x y : UInt32} (h : x ≤ y) : max x y = y := by
  rw [UInt32.le_iff_toNat_le] at h
  apply UInt32.toNat_inj.mp
  simp only [max]
  split
  · rfl
  · rename_i hNot
    rw [UInt32.le_iff_toNat_le] at hNot
    omega

theorem mergeMax_of_le {a b : TokenUsage} (h : a ≤ b) : a.mergeMax b = b := by
  obtain ⟨h₁, h₂, h₃, h₄, h₅⟩ := h
  simp only [mergeMax, map₂, counter_max_of_le h₁, counter_max_of_le h₂, counter_max_of_le h₃,
    counter_max_of_le h₄, counter_max_of_le h₅]

end TokenUsage

/-! ## Turns -/

inductive ChatReasoningField where
  | reasoningContent
  | reasoning
  | reasoningText
  | reasoningDetails
deriving DecidableEq

/-- Opaque reasoning payload captured by a provider adapter. -/
inductive ReasoningArtifact where
  | chatReasoning (field : ChatReasoningField) (bytes : Bytes)
  | anthropicThinking (bytes : Bytes)
  | googleSignatures (bytes : Bytes)
  | responsesItems (bytes : Bytes)
deriving DecidableEq

/-- The provider and model that produced an artifact or a response id. -/
structure ReasoningProducer where
  providerSlug : String
  model : String
deriving DecidableEq

structure ImageMetadata where
  mimeType : String
  width : Nat
  height : Nat
  byteLen : Nat
  alt : Option String
deriving DecidableEq

structure DisplayedImageRecord where
  metadata : ImageMetadata
  data : Bytes
  toolCallId : Option String
deriving DecidableEq

structure ToolCallCaller where
  kind : String
  callerId : String
deriving DecidableEq

structure AssistantToolCallRecord where
  callId : String
  name : String
  argumentsJson : String
  caller : Option ToolCallCaller := none
deriving DecidableEq

structure ImageReference where
  path : String
  mimeType : String
  width : Nat
  height : Nat
  data : Bytes
deriving DecidableEq

structure ToolResultRecord where
  callId : String
  name : String
  content : String
  isError : Bool
  invocationDescription : String
  image : Option ImageReference
deriving DecidableEq

/-- One persisted turn: the user's input, the assistant's response, the tool
results and the displayed images. -/
structure Turn where
  createdAt : Int := 0
  undone : Bool := false
  error : Option String := none
  userText : Option String := none
  assistantText : Option String := none
  assistantReasoning : Option String := none
  toolCalls : List AssistantToolCallRecord := []
  tokenUsage : Option TokenUsage := none
  toolResults : List ToolResultRecord := []
  displayedImages : List DisplayedImageRecord := []
  reasoningArtifact : Option ReasoningArtifact := none
  reasoningProducer : Option ReasoningProducer := none
deriving DecidableEq, Inhabited

/-- The response the agent loop records onto a turn. -/
structure AssistantResponse where
  text : Option String := none
  reasoning : Option String := none
  toolCalls : List AssistantToolCallRecord := []
  tokenUsage : Option TokenUsage := none
  reasoningArtifact : Option ReasoningArtifact := none
  reasoningProducer : Option ReasoningProducer := none

/-- What a tool delivered. -/
structure ToolOutput where
  content : String := ""
  isError : Bool := false
  invocationDescription : String := ""
  imageRef : Option ImageReference := none
deriving DecidableEq

/-! ## Configuration and runtime facts of a session -/

inductive SessionStatus where
  | sleeping
  | inactive
  | sending
  | waiting
  | reasoning
  | responding
  | toolCall (name : String)
  | retrying (attempt maxAttempts delayMs : Nat)
deriving DecidableEq

structure ContextConfig where
  contextFileNames : List String := ["AGENTS.md", "CLAUDE.md"]
  contextFileMaxBytes : Nat := 32768
  disableClaudeCodePrompt : Bool := false
deriving DecidableEq

/-- The persistent fields of a session. -/
structure SessionConfig where
  title : Option String := none
  selectedModel : Option String := none
  reasoningEffort : Option String := none
  parentSessionId : Option Nat := none
  workingDir : Option String := none
  createdAt : Int := 0
  lastModified : Int := 0
  status : SessionStatus := .inactive
  activeToolGroups : Finset String := ∅
  contextConfig : ContextConfig := {}
  accountName : Option String := none
  accumulatedUsage : TokenUsage := {}
  contextWindow : Option Nat := none
  lastPromptTokens : Option UInt32 := none
  lastResponseId : Option String := none
  lastResponseIdProducer : Option ReasoningProducer := none
deriving DecidableEq

/-- The durable form of a session's identity and configuration. -/
structure SessionRecord where
  title : Option String
  selectedModel : Option String
  reasoningEffort : Option String
  parentSessionId : Option Nat
  workingDir : Option String
  turnCount : Nat
  createdAt : Int
  lastModified : Int
  activeToolGroups : Finset String
  contextConfig : ContextConfig
  accountName : Option String
  lastResponseId : Option String
  lastResponseIdProducer : Option ReasoningProducer
  pinned : Bool
  archivedAt : Option Int
deriving DecidableEq

/-- The daemon's in-memory summary of a session. -/
structure SessionMetadata where
  title : Option String
  selectedModel : Option String
  reasoningEffort : Option String
  parentSessionId : Option Nat
  workingDir : Option String
  createdAt : Int
  lastModified : Int
  turnCount : Nat
  status : SessionStatus
  activeToolGroups : Finset String
  accountName : Option String
  accumulatedUsage : TokenUsage
  contextWindow : Option Nat
  lastPromptTokens : Option UInt32
  pinned : Bool
  archivedAt : Option Int
deriving DecidableEq

structure SkillMeta where
  name : String
  description : String
  path : String
deriving DecidableEq

/-- The skills found by one discovery together with the directory that was
searched. The source keeps the list only; the directory is recorded here so
that "discovered from this directory" can be said of a cached list. -/
structure DiscoveredSkills where
  workingDir : Option String
  skills : List SkillMeta
deriving DecidableEq

/-- An inference client: its catalog slug and the context windows that the
account's client configuration overrides. -/
structure InferenceProvider where
  slug : String
  perModelContextWindow : List (String × Nat) := []
  defaultContextWindow : Option Nat := none
deriving DecidableEq

/-- The in-flight request as a late subscriber is told about it. -/
structure ActiveRequest where
  turnId : Nat
  estimatedPromptTokens : Nat
deriving DecidableEq

/-! ## Surroundings -/

inductive ReasoningPassback where
  | none
  | toolLoop
  | allTurns
  | signature
  | responseId
deriving DecidableEq

/-- The parts of the daemon a session only reads: the catalog's facts about a
`(provider slug, model)` route, the configured iteration limit, and the text
functions of other crates. Session ids come from a 64-bit counter that has
already moved past them. -/
structure Env where
  sessionId : Nat
  sessionId_lt : sessionId + 1 < 2 ^ 64
  maxTurns : Nat
  modelReasoningPassback : String → String → ReasoningPassback
  echoRequirePresent : String → String → Bool
  modelSupportsVision : String → String → Bool
  lookupContextWindow : String → String → Option Nat
  availableEffortLevels : String → String → List String
  graphemeCount : String → Nat
  /-- `truncate_tool_output` after `sanitize_transcript`. -/
  sanitizeToolOutput : String → String
  /-- The sentence that describes a call, from its tool name and arguments. -/
  describeInvocation : String → String → String
  protectedGroups : Finset String

/-! ## Text -/

/-- The Unicode `White_Space` characters, as `char::is_whitespace` has them. -/
def isWhitespace (c : Char) : Bool :=
  let n := c.toNat
  (9 ≤ n && n ≤ 13) || n == 32 || n == 0x85 || n == 0xA0 || n == 0x1680 ||
    (0x2000 ≤ n && n ≤ 0x200A) || n == 0x2028 || n == 0x2029 || n == 0x202F ||
    n == 0x205F || n == 0x3000

/-- `str::trim`. -/
def trim (s : String) : String :=
  String.ofList
    (((s.toList.dropWhile isWhitespace).reverse.dropWhile isWhitespace).reverse)

example : trim " \t run the tests\n" = "run the tests" := by decide +kernel

end Choreographr.Session
