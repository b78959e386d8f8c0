import Choreographr.Protocols.ChatProjection

/-!
# The Responses input

`buildResponsesInput` lowers a message list into the flat `input` array of a
Responses request: messages, tool requests, tool outputs with the attribution of
the call they answer, and replayed reasoning items. Without a previous response
the whole history goes out; with one, only what `chainInputMessages` selects. A
stateless backend takes the system prompt in `instructions` instead.

`buildSystemContent` is the prompt a request is built with; the texts it reads
from files and from the tool registry are parameters.
-/

namespace Choreographr.Protocols

open Session

/-! ## The system prompt of a request -/

/-- A name with its description or body. -/
abbrev Named := String × String

/-- The user's prompt file, or the compiled-in default, with the sections every
session has. -/
def buildBasePrompt (base : String) (groups skills loadedSkills : List Named) : String :=
  base ++ "\n\n## Tool groups\n" ++
    "Tools are organized into groups. Only **core**, **git**, and **shell** are active by " ++
    "default. Use the `load_tools` tool to activate additional groups and `unload_tools` to " ++
    "deactivate them.\n\n" ++
    String.join (groups.map fun g => "- **" ++ g.1 ++ "**: " ++ g.2 ++ "\n") ++
    (if skills.isEmpty then "" else
      "\n## Available skills\n" ++
      "Use the `load_skill` tool to load a skill's full instructions when a task matches its " ++
      "description:\n\n" ++
      String.join (skills.map fun s => "- **" ++ s.1 ++ "**: " ++ s.2 ++ "\n")) ++
    (if loadedSkills.isEmpty then "" else
      "\n## Loaded skills\nThe following skills have been loaded and are active:\n\n" ++
      String.join (loadedSkills.map fun s =>
        "<skill name=\"" ++ s.1 ++ "\">\n" ++ s.2 ++ "\n</skill>\n\n"))

/-- What `build_system_content` reads. -/
structure SystemContentParams where
  base : String
  groups : List Named
  skills : List Named
  loadedSkills : List Named
  /-- The rendered context files; empty without a working directory. -/
  context : String
  sessionTitle : Option String
  pendingHints : List String

def buildSystemContent (p : SystemContentParams) : String :=
  buildBasePrompt p.base p.groups p.skills p.loadedSkills ++
    (if p.context = "" then "" else "\n\n" ++ p.context) ++
    (match p.sessionTitle with
      | none => ""
      | some title => if title = "" then "" else "\n\n## Current Session Title\n" ++ title) ++
    (if p.pendingHints.isEmpty then "" else
      "\n\n## New context from project subdirectories\n" ++
      String.join (p.pendingHints.map fun hint => "\n" ++ hint))

/-! ## Input items -/

/-- One item of the `input` array. A replayed reasoning item is the provider's
own value. -/
inductive ResponsesInputItem where
  | message (role : Role) (content : Json)
  | functionCall (callId name arguments : String) (caller : Option ToolCallCaller)
  | functionCallOutput (callId output : String) (caller : Option ToolCallCaller)
  | reasoning (value : Json)

/-- Where a system message belongs: in the input, or in `instructions`. -/
inductive SystemPrompt where
  | inline
  | hoisted
deriving DecidableEq

/-! ## Lowering -/

/-- The replayable items of a persisted artifact: reasoning items of an array
within the byte budget. -/
def decodeReasoningItems (lib : WireLib) (bytes : Bytes) : List Json :=
  if maxReasoningBytes < bytes.length then []
  else
    match (lib.fromSlice bytes).bind Json.asArray with
    | none => []
    | some items => items.filter fun item => item.typeTag = some "reasoning"

/-- The content of a user or assistant message: its text, or parts when it
carries images. -/
def responsesContentValue (lib : WireLib) (m : ChatRequestMessage) : Json :=
  if m.images.isEmpty then .str (m.content.getD "")
  else
    let text := (m.content.filter (· ≠ "")).toList.map fun text =>
      Json.obj [("type", .str "input_text"), ("text", .str text)]
    let images := m.images.map fun image =>
      Json.obj [("type", .str "input_image"), ("image_url", .str (dataUrl lib image)),
        ("detail", .str "auto")]
    .arr (text ++ images)

/-- A message with neither text nor images is not sent. -/
def hasResponsesContent (m : ChatRequestMessage) : Bool :=
  (m.content.any fun text => !(trim text).isEmpty) || !m.images.isEmpty

/-- Calls with their attribution, in the order of the history. In the map the
source collects them into, the newest call of an id wins. -/
abbrev CallerIndex := List (String × ToolCallCaller)

def callerIndex (messages : List ChatRequestMessage) : CallerIndex :=
  (messages.flatMap fun m => m.toolCalls.getD []).filterMap fun call =>
    call.caller.map fun caller => (call.id, caller)

def CallerIndex.get (index : CallerIndex) (callId : String) : Option ToolCallCaller :=
  index.reverse.lookup callId

def replayedItems (lib : WireLib) (m : ChatRequestMessage) : List ResponsesInputItem :=
  match m.role, m.reasoningArtifact with
  | .assistant, some (.responsesItems bytes) => (decodeReasoningItems lib bytes).map .reasoning
  | _, _ => []

def contentItems (lib : WireLib) (m : ChatRequestMessage) : List ResponsesInputItem :=
  if hasResponsesContent m then [.message m.role (responsesContentValue lib m)] else []

def callItems (m : ChatRequestMessage) : List ResponsesInputItem :=
  if m.role = .assistant then
    (m.toolCalls.getD []).map fun call =>
      .functionCall call.id call.name call.arguments call.caller
  else []

/-- The items of one message. -/
def messageItems (lib : WireLib) (system : SystemPrompt) (callers : CallerIndex)
    (m : ChatRequestMessage) : List ResponsesInputItem :=
  match m.role with
  | .system =>
      if system = .hoisted then []
      else m.content.toList.map fun content => .message .system (.str content)
  | .user | .assistant => replayedItems lib m ++ contentItems lib m ++ callItems m
  | .tool =>
      match m.toolCallId, m.content with
      | some callId, some content => [.functionCallOutput callId content (callers.get callId)]
      | _, _ => []

def messagesToResponsesInput (lib : WireLib) (system : SystemPrompt) (callers : CallerIndex)
    (messages : List ChatRequestMessage) : List ResponsesInputItem :=
  messages.flatMap (messageItems lib system callers)

/-- The `input` items of a request. The caller index is built over the full
history, before a tail is selected. -/
def buildResponsesInput (lib : WireLib) (messages : List ChatRequestMessage)
    (previousResponseId : Option String) (system : SystemPrompt) : List ResponsesInputItem :=
  let selected := if previousResponseId.isSome then chainInputMessages messages else messages
  messagesToResponsesInput lib system (callerIndex messages) selected

/-- The system prompt for `instructions`. -/
def splitSystemPrompt (messages : List ChatRequestMessage) : Option String :=
  let prompt := (messages.filter fun m => m.role = .system).filterMap fun m =>
    m.content.filter fun text => !(trim text).isEmpty
  let joined := "\n\n".intercalate prompt
  if joined = "" then none else some joined

/-- `input` and `instructions` of a request body. A stateless backend chains
nothing and takes no system item. -/
def responsesBodyInput (lib : WireLib) (stateless : Bool) (messages : List ChatRequestMessage)
    (previousResponseId : Option String) : List ResponsesInputItem × Option String :=
  if stateless then
    (buildResponsesInput lib messages none .hoisted, splitSystemPrompt messages)
  else (buildResponsesInput lib messages previousResponseId .inline, none)

end Choreographr.Protocols
