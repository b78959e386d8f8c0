import Choreographr.Session.Types

/-!
# Catalog entries

The provider and per-model entries of the catalog with the policy enumerations
stored on them, and the TOML values an overlay document is made of.
-/

namespace Choreographr.Catalog

open Choreographr.Session

/-! ## Policy enumerations -/

inductive MaxTokensField where
  | maxTokens
  | maxCompletionTokens
deriving DecidableEq

inductive ProviderProtocol where
  | openAi (maxTokensField : MaxTokensField)
  | anthropicMessages
  | googleGenerativeAi
deriving DecidableEq

inductive ReasoningPassback where
  | none
  | toolLoop
  | allTurns
  | signature
  | responseId
deriving DecidableEq

inductive CacheRetentionDialect where
  | none
  | promptCacheRetention
  | promptCacheOptions
deriving DecidableEq

inductive CacheAffinity where
  | off
  | promptCacheKey
  | openRouterSession
deriving DecidableEq

inductive RequestCompression where
  | identity
  | gzip
  | zstd
deriving DecidableEq

inductive GrantEncoding where
  | form
  | json
deriving DecidableEq

def CacheRetentionDialect.fromOverlayStr : String → Option CacheRetentionDialect
  | "none" => some .none
  | "prompt-cache-retention" => some .promptCacheRetention
  | "prompt-cache-options" => some .promptCacheOptions
  | _ => Option.none

def CacheAffinity.fromOverlayStr : String → Option CacheAffinity
  | "off" => some .off
  | "prompt-cache-key" => some .promptCacheKey
  | "openrouter-session" => some .openRouterSession
  | _ => none

def RequestCompression.fromOverlayStr : String → Option RequestCompression
  | "identity" => some .identity
  | "gzip" => some .gzip
  | "zstd" => some .zstd
  | _ => none

/-! ## Entries -/

/-- Token prices. The merge carries the 64-bit floats along as bit patterns. -/
structure ModelCost where
  input : UInt64
  output : UInt64
  cacheRead : Option UInt64
  cacheWrite : Option UInt64
deriving DecidableEq

structure PromptCacheTtl where
  shortSecs : Option UInt32 := none
  longSecs : Option UInt32 := none
deriving DecidableEq

structure ModelEntry where
  model : String := ""
  contextWindow : UInt32 := 0
  canonicalModelId : Option String := none
  reasoningSupported : Bool := false
  openaiReasoningLevels : List String := []
  openaiResponses : Bool := false
  reasoningPassback : Option ReasoningPassback := none
  reasoningEcho : Option ChatReasoningField := none
  reasoningEchoRequired : Option Bool := none
  maxOutputTokens : UInt32 := 0
  supportsTemperature : Bool := true
  deprecated : Bool := false
  supportsVision : Bool := false
  supportsImageOutput : Bool := false
  supportsImageEdit : Bool := false
  cost : Option ModelCost := none
  promptCache : Option PromptCacheTtl := none
  cacheRetention : CacheRetentionDialect := .none
deriving DecidableEq

structure OAuthProfile where
  issuer : String
  authorizePath : String
  tokenPath : String
  scopes : List String
  redirectPorts : List UInt16
  codeExchangeEncoding : GrantEncoding
  refreshEncoding : GrantEncoding
  deviceCode : Bool
  deviceAuthorizationPath : Option String
  deviceTokenPath : Option String
  clientId : Option String
deriving DecidableEq

structure ProviderEntry where
  slug : String
  displayName : String
  protocol : ProviderProtocol
  baseUrl : String
  defaultModel : String
  models : List ModelEntry
  promptCache : Option PromptCacheTtl
  requestCompression : RequestCompression
  cacheAffinity : CacheAffinity
  responsesStateless : Bool
  oauth : Option OAuthProfile
deriving DecidableEq

/-! ## TOML values -/

/-- A parsed TOML value. A table lists its entries in the order it is visited;
floats (as bit patterns) and dates are carried without being read. -/
inductive Toml where
  | string (text : String)
  | integer (n : Int)
  | float (bits : UInt64)
  | boolean (b : Bool)
  | datetime (text : String)
  | array (items : List Toml)
  | table (entries : List (String × Toml))

abbrev TomlTable := List (String × Toml)

namespace Toml

def asStr : Toml → Option String
  | .string text => some text
  | _ => none

def asInteger : Toml → Option Int
  | .integer n => some n
  | _ => none

def asBool : Toml → Option Bool
  | .boolean b => some b
  | _ => none

def asArray : Toml → Option (List Toml)
  | .array items => some items
  | _ => none

def asTable : Toml → Option TomlTable
  | .table entries => some entries
  | _ => none

/-- What the parser builds: no table has a key twice. -/
inductive Parsed : Toml → Prop
  | string (text : String) : Parsed (.string text)
  | integer (n : Int) : Parsed (.integer n)
  | float (bits : UInt64) : Parsed (.float bits)
  | boolean (b : Bool) : Parsed (.boolean b)
  | datetime (text : String) : Parsed (.datetime text)
  | array (items : List Toml) (hItems : ∀ v ∈ items, Parsed v) : Parsed (.array items)
  | table (entries : TomlTable) (hKeys : (entries.map Prod.fst).Nodup)
      (hEntries : ∀ e ∈ entries, Parsed e.2) : Parsed (.table entries)

end Toml

def TomlTable.get (table : TomlTable) (key : String) : Option Toml :=
  (table.find? fun e => e.1 = key).map Prod.snd

/-- A parsed document: its root is a table. -/
structure Document where
  root : TomlTable
  parsed : (Toml.table root).Parsed

end Choreographr.Catalog
