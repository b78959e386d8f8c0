import Choreographr.Catalog.Entry
import Choreographr.Lib.Upsert
import Choreographr.Protocols.ChatProjection

/-!
# Merging an overlay over a catalog

An overlay document names providers and, within a provider, models. Every
recognised key of a provider or model table is applied to the entry in the
order the table is visited; a value of the wrong type and an unknown key are
skipped, and a provider or model that the catalog does not have is created.
-/

namespace Choreographr.Catalog

open Choreographr.Session Choreographr.Lib

/-! ## Scalars -/

/-- `n.max(0) as u32`: a value above the range wraps. -/
def u32Len (n : Int) : UInt32 := UInt32.ofNat (max n 0).toNat

def parseProtocol (value : Toml) : Option ProviderProtocol :=
  value.asStr.bind fun name =>
    match name with
    | "openai" => some (.openAi .maxCompletionTokens)
    | "anthropic" => some .anthropicMessages
    | "google" => some .googleGenerativeAi
    | _ => none

def parseMaxTokensField (value : Toml) : Option MaxTokensField :=
  value.asStr.bind fun name =>
    match name with
    | "max_tokens" => some .maxTokens
    | "max_completion_tokens" => some .maxCompletionTokens
    | _ => none

/-- Only an OpenAI entry has a max-tokens field. -/
def setMaxTokensField (entry : ProviderEntry) (field : MaxTokensField) : ProviderEntry :=
  match entry.protocol with
  | .openAi _ => { entry with protocol := .openAi field }
  | _ => entry

def parsePassback : String → Option ReasoningPassback
  | "none" => some .none
  | "tool_loop" => some .toolLoop
  | "all_turns" => some .allTurns
  | "signature" => some .signature
  | "response_id" => some .responseId
  | _ => none

/-- The field a wire name spells. -/
def parseEchoField (value : String) : Option ChatReasoningField :=
  [ChatReasoningField.reasoningContent, .reasoning, .reasoningText, .reasoningDetails].find?
    fun field => Protocols.wireName field = value

def parseStringArray (array : List Toml) : List String := array.filterMap Toml.asStr

def parseGrantEncoding : String → Option GrantEncoding
  | "form" => some .form
  | "json" => some .json
  | _ => none

/-- Integers outside the range of a port are dropped. -/
def parsePortArray (array : List Toml) : List UInt16 :=
  (array.filterMap Toml.asInteger).filterMap fun n =>
    if 0 ≤ n ∧ n < 65536 then some (UInt16.ofNat n.toNat) else none

/-- All or nothing: every field except the client id and the two device paths is required. -/
def parseOauthProfile (value : Toml) : Option OAuthProfile := do
  let table ← value.asTable
  let issuer ← (table.get "issuer").bind Toml.asStr
  let authorizePath ← (table.get "authorize_path").bind Toml.asStr
  let tokenPath ← (table.get "token_path").bind Toml.asStr
  let scopes ← ((table.get "scopes").bind Toml.asArray).map parseStringArray
  let redirectPorts ← ((table.get "redirect_ports").bind Toml.asArray).map parsePortArray
  let codeExchangeEncoding ←
    ((table.get "code_exchange_encoding").bind Toml.asStr).bind parseGrantEncoding
  let refreshEncoding ← ((table.get "refresh_encoding").bind Toml.asStr).bind parseGrantEncoding
  let deviceCode ← (table.get "device_code").bind Toml.asBool
  return {
    issuer, authorizePath, tokenPath, scopes, redirectPorts, codeExchangeEncoding,
    refreshEncoding, deviceCode
    deviceAuthorizationPath := (table.get "device_authorization_path").bind Toml.asStr
    deviceTokenPath := (table.get "device_token_path").bind Toml.asStr
    clientId := (table.get "client_id").bind Toml.asStr }

/-! ## A model table -/

/-- Apply one key of a model table. -/
def applyModelKey (model : ModelEntry) (entry : String × Toml) : ModelEntry :=
  match entry.1 with
  | "canonical_model_id" => entry.2.asStr.elim model fun id =>
      { model with canonicalModelId := some id }
  | "context_window" => entry.2.asInteger.elim model fun n =>
      { model with contextWindow := u32Len n }
  | "reasoning_supported" => entry.2.asBool.elim model fun b =>
      { model with reasoningSupported := b }
  | "reasoning_levels" => entry.2.asArray.elim model fun levels =>
      { model with openaiReasoningLevels := parseStringArray levels }
  | "responses" => entry.2.asBool.elim model fun b =>
      { model with openaiResponses := b }
  | "reasoning_passback" => (entry.2.asStr.bind parsePassback).elim model fun passback =>
      { model with reasoningPassback := some passback }
  | "reasoning_echo_field" => (entry.2.asStr.bind parseEchoField).elim model fun field =>
      { model with reasoningEcho := some field }
  | "reasoning_echo_required" => entry.2.asBool.elim model fun required =>
      { model with reasoningEchoRequired := some required }
  -- the older spelling sets both halves of the echo policy
  | "reasoning_content_required" => entry.2.asBool.elim model fun required =>
      { model with
        reasoningEcho := if required then some .reasoningContent else none
        reasoningEchoRequired := if required then some true else none }
  | "supports_vision" => entry.2.asBool.elim model fun support =>
      { model with supportsVision := support }
  | "supports_image_output" => entry.2.asBool.elim model fun support =>
      { model with supportsImageOutput := support }
  | "supports_image_edit" => entry.2.asBool.elim model fun support =>
      { model with supportsImageEdit := support }
  | "max_output_tokens" => entry.2.asInteger.elim model fun n =>
      { model with maxOutputTokens := u32Len n }
  | "temperature" => entry.2.asBool.elim model fun supports =>
      { model with supportsTemperature := supports }
  | "deprecated" => entry.2.asBool.elim model fun deprecated =>
      { model with deprecated := deprecated }
  | "prompt_cache_short" => entry.2.asInteger.elim model fun n =>
      { model with
        promptCache := some { model.promptCache.getD {} with shortSecs := some (u32Len n) } }
  | "prompt_cache_long" => entry.2.asInteger.elim model fun n =>
      { model with
        promptCache := some { model.promptCache.getD {} with longSecs := some (u32Len n) } }
  | "cache_retention" =>
      (entry.2.asStr.bind CacheRetentionDialect.fromOverlayStr).elim model fun dialect =>
        { model with cacheRetention := dialect }
  | _ => model

def applyModelOverlay (model : ModelEntry) (table : TomlTable) : ModelEntry :=
  table.foldl applyModelKey model

/-- The entry a model id starts from when the provider does not have it. -/
def newModel (modelId : String) : ModelEntry := { model := modelId }

def modelEdit (value : Toml) : Option (ModelEntry → ModelEntry) :=
  value.asTable.map fun table model => applyModelOverlay model table

/-- Apply the `models` sub-table; entries that are not tables are skipped. -/
def applyModelsOverlay (entry : ProviderEntry) (value : Toml) : ProviderEntry :=
  value.asTable.elim entry fun models =>
    { entry with models := upsertAll ModelEntry.model newModel modelEdit models entry.models }

/-! ## A provider table -/

/-- Apply one key of a provider table. -/
def applyProviderKey (entry : ProviderEntry) (item : String × Toml) : ProviderEntry :=
  match item.1 with
  -- naming the OpenAI protocol also resets its max-tokens field
  | "protocol" => (parseProtocol item.2).elim entry fun protocol =>
      { entry with protocol := protocol }
  | "max_tokens_field" => (parseMaxTokensField item.2).elim entry fun field =>
      setMaxTokensField entry field
  | "base_url" => item.2.asStr.elim entry fun url => { entry with baseUrl := url }
  | "default_model" => item.2.asStr.elim entry fun model => { entry with defaultModel := model }
  | "display_name" => item.2.asStr.elim entry fun name => { entry with displayName := name }
  | "prompt_cache_short" => item.2.asInteger.elim entry fun n =>
      { entry with
        promptCache := some { entry.promptCache.getD {} with shortSecs := some (u32Len n) } }
  | "prompt_cache_long" => item.2.asInteger.elim entry fun n =>
      { entry with
        promptCache := some { entry.promptCache.getD {} with longSecs := some (u32Len n) } }
  | "cache_affinity" => (item.2.asStr.bind CacheAffinity.fromOverlayStr).elim entry fun affinity =>
      { entry with cacheAffinity := affinity }
  | "responses_stateless" => item.2.asBool.elim entry fun stateless =>
      { entry with responsesStateless := stateless }
  | "models" => applyModelsOverlay entry item.2
  | "oauth" => (parseOauthProfile item.2).elim entry fun profile =>
      { entry with oauth := some profile }
  | "request_compression" =>
      (item.2.asStr.bind RequestCompression.fromOverlayStr).elim entry fun coding =>
        { entry with requestCompression := coding }
  | _ => entry

def applyProviderOverlay (entry : ProviderEntry) (table : TomlTable) : ProviderEntry :=
  table.foldl applyProviderKey entry

/-- The entry a slug starts from when the catalog does not have it. -/
def newProvider (slug : String) : ProviderEntry where
  slug := slug
  displayName := slug
  protocol := .openAi .maxCompletionTokens
  baseUrl := ""
  defaultModel := ""
  models := []
  promptCache := none
  requestCompression := .identity
  cacheAffinity := .off
  responsesStateless := false
  oauth := none

def providerEdit (value : Toml) : Option (ProviderEntry → ProviderEntry) :=
  value.asTable.map fun table entry => applyProviderOverlay entry table

/-! ## The merge -/

/-- The provider tables of a document. -/
def Document.providers (doc : Document) : Option TomlTable :=
  (doc.root.get "provider").bind Toml.asTable

/-- Merge an overlay source over a catalog. `fromStr` is the TOML parser; a
source that does not parse or has no `provider` table leaves the base as it is. -/
def mergeOverlay (fromStr : String → Option Document) (base : List ProviderEntry)
    (overlaySrc : String) : List ProviderEntry :=
  match fromStr overlaySrc with
  | none => base
  | some doc =>
    match doc.providers with
    | none => base
    | some providers => upsertAll ProviderEntry.slug newProvider providerEdit providers base

end Choreographr.Catalog
