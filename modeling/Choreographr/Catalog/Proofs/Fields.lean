import Choreographr.Catalog.Overlay
import Choreographr.Lib.Footprint

/-!
# What the keys of an overlay table set

Every key of a model or provider table sets the fields listed for it and no
other, and an entry applied twice is an entry applied once. Two groups of keys
share a field: the two cache tiers, which commute, and the keys of the echo
policy and of the protocol, where the later key overwrites the earlier one.
-/

namespace Choreographr.Catalog

open Choreographr.Session Choreographr.Lib

variable {E β : Type} {value : Option β} {table : TomlTable}

/-! ## The fields of a model entry -/

inductive ModelField where
  | model
  | contextWindow
  | canonicalModelId
  | reasoningSupported
  | openaiReasoningLevels
  | openaiResponses
  | reasoningPassback
  | reasoningEcho
  | reasoningEchoRequired
  | maxOutputTokens
  | supportsTemperature
  | deprecated
  | supportsVision
  | supportsImageOutput
  | supportsImageEdit
  | cost
  | promptCache
  | cacheRetention

/-- The keys of a model table that set a field. -/
def ModelField.keys : ModelField → List String
  | .model => []
  | .contextWindow => ["context_window"]
  | .canonicalModelId => ["canonical_model_id"]
  | .reasoningSupported => ["reasoning_supported"]
  | .openaiReasoningLevels => ["reasoning_levels"]
  | .openaiResponses => ["responses"]
  | .reasoningPassback => ["reasoning_passback"]
  | .reasoningEcho => ["reasoning_echo_field", "reasoning_content_required"]
  | .reasoningEchoRequired => ["reasoning_echo_required", "reasoning_content_required"]
  | .maxOutputTokens => ["max_output_tokens"]
  | .supportsTemperature => ["temperature"]
  | .deprecated => ["deprecated"]
  | .supportsVision => ["supports_vision"]
  | .supportsImageOutput => ["supports_image_output"]
  | .supportsImageEdit => ["supports_image_edit"]
  | .cost => []
  | .promptCache => ["prompt_cache_short", "prompt_cache_long"]
  | .cacheRetention => ["cache_retention"]

/-- Two entries have the same value of a field. -/
def ModelField.Agree : ModelField → ModelEntry → ModelEntry → Prop
  | .model, m, n => m.model = n.model
  | .contextWindow, m, n => m.contextWindow = n.contextWindow
  | .canonicalModelId, m, n => m.canonicalModelId = n.canonicalModelId
  | .reasoningSupported, m, n => m.reasoningSupported = n.reasoningSupported
  | .openaiReasoningLevels, m, n => m.openaiReasoningLevels = n.openaiReasoningLevels
  | .openaiResponses, m, n => m.openaiResponses = n.openaiResponses
  | .reasoningPassback, m, n => m.reasoningPassback = n.reasoningPassback
  | .reasoningEcho, m, n => m.reasoningEcho = n.reasoningEcho
  | .reasoningEchoRequired, m, n => m.reasoningEchoRequired = n.reasoningEchoRequired
  | .maxOutputTokens, m, n => m.maxOutputTokens = n.maxOutputTokens
  | .supportsTemperature, m, n => m.supportsTemperature = n.supportsTemperature
  | .deprecated, m, n => m.deprecated = n.deprecated
  | .supportsVision, m, n => m.supportsVision = n.supportsVision
  | .supportsImageOutput, m, n => m.supportsImageOutput = n.supportsImageOutput
  | .supportsImageEdit, m, n => m.supportsImageEdit = n.supportsImageEdit
  | .cost, m, n => m.cost = n.cost
  | .promptCache, m, n => m.promptCache = n.promptCache
  | .cacheRetention, m, n => m.cacheRetention = n.cacheRetention

theorem ModelField.agree_equivalence (φ : ModelField) : Equivalence φ.Agree := by
  cases φ <;> exact ⟨fun _ => rfl, Eq.symm, Eq.trans⟩

theorem ModelEntry.ext_fields {m n : ModelEntry} (h : ∀ φ : ModelField, φ.Agree m n) : m = n := by
  cases m
  cases n
  rw [ModelEntry.mk.injEq]
  exact ⟨h .model, h .contextWindow, h .canonicalModelId, h .reasoningSupported,
    h .openaiReasoningLevels, h .openaiResponses, h .reasoningPassback, h .reasoningEcho,
    h .reasoningEchoRequired, h .maxOutputTokens, h .supportsTemperature, h .deprecated,
    h .supportsVision, h .supportsImageOutput, h .supportsImageEdit, h .cost, h .promptCache,
    h .cacheRetention⟩

theorem agree_elim {agree : E → E → Prop} (hEquiv : Equivalence agree) {m : E} {set : β → E}
    (h : ∀ b, agree (set b) m) : agree (value.elim m set) m := by
  cases value with
  | none => exact hEquiv.refl m
  | some b => exact h b

theorem agree_elim_elim {agree : E → E → Prop} {m n : E} {set set' : β → E} (hBase : agree m n)
    (h : ∀ b, agree (set b) (set' b)) : agree (value.elim m set) (value.elim n set') := by
  cases value with
  | none => exact hBase
  | some b => exact h b

theorem elim_elim {set : E → β → E} (h : ∀ m b, set (set m b) b = set m b) (m : E) :
    value.elim (value.elim m (set m)) (set (value.elim m (set m))) = value.elim m (set m) := by
  cases value with
  | none => rfl
  | some b => exact h m b

/-- What a key does to the entries, told in one case split over the keys. -/
theorem applyModelKey_effect (m n : ModelEntry) (e : String × Toml) :
    (∀ φ : ModelField, e.1 ∉ φ.keys → φ.Agree (applyModelKey m e) m) ∧
      (∀ φ : ModelField, φ.Agree m n → φ.Agree (applyModelKey m e) (applyModelKey n e)) ∧
      (n = applyModelKey m e → applyModelKey n e = n) := by
  obtain ⟨key, value⟩ := e
  simp only [applyModelKey]
  split
  case h_19 => exact ⟨fun φ _ => φ.agree_equivalence.refl m, fun _ h => h, fun _ => rfl⟩
  all_goals
    refine ⟨fun φ h => ?_, fun φ h => ?_, ?_⟩
    · refine agree_elim φ.agree_equivalence fun _ => ?_
      cases φ <;> first
        | rfl
        | simp [ModelField.keys] at h
    · refine agree_elim_elim h fun _ => ?_
      cases φ <;> first
        | exact h
        | rfl
        | simp only [ModelField.Agree] at h ⊢; rw [h]
    · rintro rfl
      apply elim_elim
      intro _ _
      rfl

theorem applyModelKey_frame (φ : ModelField) (m : ModelEntry) (e : String × Toml)
    (h : e.1 ∉ φ.keys) : φ.Agree (applyModelKey m e) m :=
  (applyModelKey_effect m m e).1 φ h

theorem applyModelKey_local (φ : ModelField) (m n : ModelEntry) (e : String × Toml)
    (h : φ.Agree m n) : φ.Agree (applyModelKey m e) (applyModelKey n e) :=
  (applyModelKey_effect m n e).2.1 φ h

theorem model_footprint : Footprint applyModelKey ModelField.keys ModelField.Agree where
  equiv := ModelField.agree_equivalence
  ext _ _ := ModelEntry.ext_fields
  frame := applyModelKey_frame
  local_ := applyModelKey_local

theorem applyModelKey_idem (m : ModelEntry) (e : String × Toml) :
    applyModelKey (applyModelKey m e) e = applyModelKey m e :=
  (applyModelKey_effect m _ e).2.2 rfl

open Footprint in
theorem overwrites_of_elim {K V F : Type} {step : E → K × V → E} {agree : F → E → E → Prop} {φ : F}
    {e : K × V} {set : E → β → E} (hEquiv : Equivalence (agree φ))
    (hStep : ∀ m, step m e = value.elim m (set m)) (hSet : ∀ b m n, agree φ (set m b) (set n b)) :
    Overwrites step agree φ e := by
  cases value with
  | none =>
    refine Or.inl fun m => ?_
    rw [hStep]
    exact hEquiv.refl m
  | some b =>
    refine Or.inr fun m n => ?_
    rw [hStep, hStep]
    exact hSet b m n

theorem model_promptCache_comm : Footprint.Commutes applyModelKey ModelField.promptCache.keys := by
  rintro ⟨dKey, dValue⟩ ⟨eKey, eValue⟩ m hd he hNe
  simp only [ModelField.keys, List.mem_cons, List.not_mem_nil, or_false] at hd he
  rcases hd with rfl | rfl <;> rcases he with rfl | rfl
  · exact absurd rfl hNe
  · simp only [applyModelKey]
    cases dValue.asInteger <;> cases eValue.asInteger <;> rfl
  · simp only [applyModelKey]
    cases dValue.asInteger <;> cases eValue.asInteger <;> rfl
  · exact absurd rfl hNe

/-- Every writer of the echo policy overwrites what it writes. -/
theorem model_shared (φ : ModelField) :
    Footprint.Commutes applyModelKey φ.keys ∨ ∀ d e : String × Toml, d.1 ∈ φ.keys →
      e.1 ∈ φ.keys → d.1 ≠ e.1 → Footprint.Overwrites applyModelKey ModelField.Agree φ d ∨
        Footprint.Overwrites applyModelKey ModelField.Agree φ e := by
  cases φ
  case promptCache => exact Or.inl model_promptCache_comm
  case reasoningEcho =>
    refine Or.inr ?_
    rintro ⟨dKey, dValue⟩ e hd - -
    simp only [ModelField.keys, List.mem_cons, List.not_mem_nil, or_false] at hd
    have hEquiv := ModelField.agree_equivalence .reasoningEcho
    rcases hd with rfl | rfl
    · exact Or.inl (overwrites_of_elim hEquiv (fun _ => rfl) fun _ _ _ => rfl)
    · exact Or.inl (overwrites_of_elim hEquiv (fun _ => rfl) fun _ _ _ => rfl)
  case reasoningEchoRequired =>
    refine Or.inr ?_
    rintro ⟨dKey, dValue⟩ e hd - -
    simp only [ModelField.keys, List.mem_cons, List.not_mem_nil, or_false] at hd
    have hEquiv := ModelField.agree_equivalence .reasoningEchoRequired
    rcases hd with rfl | rfl
    · exact Or.inl (overwrites_of_elim hEquiv (fun _ => rfl) fun _ _ _ => rfl)
    · exact Or.inl (overwrites_of_elim hEquiv (fun _ => rfl) fun _ _ _ => rfl)
  all_goals
    refine Or.inr fun d e hd he hNe => ?_
    first
      | exact absurd hd List.not_mem_nil
      | exact absurd ((List.mem_singleton.mp hd).trans (List.mem_singleton.mp he).symm) hNe

theorem applyModelOverlay_idem (hNodup : (table.map Prod.fst).Nodup) (m : ModelEntry) :
    applyModelOverlay (applyModelOverlay m table) table = applyModelOverlay m table :=
  model_footprint.foldl_idem hNodup (fun e _ m => applyModelKey_idem m e) model_shared m

theorem applyModelOverlay_frame {φ : ModelField} (h : ∀ key ∈ φ.keys, key ∉ table.map Prod.fst)
    (m : ModelEntry) : φ.Agree (applyModelOverlay m table) m := by
  refine model_footprint.foldl_frame ?_ m
  intro e hMem hKey
  exact h e.1 hKey (List.mem_map_of_mem hMem)

theorem applyModelOverlay_model (m : ModelEntry) (table : TomlTable) :
    (applyModelOverlay m table).model = m.model :=
  applyModelOverlay_frame (φ := .model) (fun _ h => absurd h List.not_mem_nil) m

/-! ## The models of a provider -/

section Models

variable {value : Toml} {models : TomlTable}

theorem Toml.Parsed.asTable (h : value.Parsed) (hTable : value.asTable = some table) :
    (table.map Prod.fst).Nodup ∧ ∀ e ∈ table, e.2.Parsed := by
  cases h with
  | table entries hKeys hEntries =>
    cases hTable
    exact ⟨hKeys, hEntries⟩
  | _ => cases hTable

theorem TomlTable.get_of_mem (hNodup : (table.map Prod.fst).Nodup) {key : String}
    (h : (key, value) ∈ table) : table.get key = some value := by
  unfold TomlTable.get
  cases hFind : table.find? fun e => e.1 = key with
  | none =>
    have hNot := List.find?_eq_none.mp hFind _ h
    simp at hNot
  | some e =>
    have hKey : e.1 = key := by simpa using List.find?_some hFind
    have hSame := List.inj_on_of_nodup_map hNodup (List.mem_of_find?_eq_some hFind) h hKey
    rw [hSame]
    rfl

theorem TomlTable.mem_of_get {key : String} (h : table.get key = some value) :
    (key, value) ∈ table := by
  obtain ⟨e, hFind, rfl⟩ := Option.map_eq_some_iff.mp h
  have hKey : e.1 = key := by simpa using List.find?_some hFind
  rw [← hKey]
  exact List.mem_of_find?_eq_some hFind

/-- The entries under one key are the value found there. -/
theorem TomlTable.filter_key (hNodup : (table.map Prod.fst).Nodup) (key : String) :
    (table.filter fun e => e.1 ∈ [key]) = ((table.get key).map fun v => (key, v)).toList := by
  induction table with
  | nil => rfl
  | cons e table ih =>
    obtain ⟨hHead, hTail⟩ := List.nodup_cons.mp hNodup
    obtain ⟨eKey, eValue⟩ := e
    by_cases hKey : eKey = key
    · subst hKey
      have hRest : (table.filter fun e => e.1 ∈ [eKey]) = [] := by
        rw [List.filter_eq_nil_iff]
        intro e hMem hIn
        have hSame : e.1 = eKey := by simpa using hIn
        have hKeyMem := List.mem_map_of_mem (f := Prod.fst) hMem
        rw [hSame] at hKeyMem
        exact hHead hKeyMem
      rw [List.filter_cons_of_pos (by simp), hRest]
      simp [TomlTable.get]
    · rw [List.filter_cons_of_neg (by simpa using hKey), ih hTail]
      simp [TomlTable.get, hKey]

theorem modelEdit_eq_some {f : ModelEntry → ModelEntry} (h : modelEdit value = some f) :
    ∃ table, value.asTable = some table ∧ f = fun m => applyModelOverlay m table := by
  obtain ⟨table, hTable, rfl⟩ := Option.map_eq_some_iff.mp h
  exact ⟨table, hTable, rfl⟩

theorem modelEdit_model (value : Toml) (f : ModelEntry → ModelEntry) (h : modelEdit value = some f)
    (m : ModelEntry) : (f m).model = m.model := by
  obtain ⟨table, -, rfl⟩ := modelEdit_eq_some h
  exact applyModelOverlay_model m table

theorem newModel_model (modelId : String) : (newModel modelId).model = modelId := rfl

theorem applyModelsOverlay_idem (hParsed : value.Parsed) (entry : ProviderEntry) :
    applyModelsOverlay (applyModelsOverlay entry value) value = applyModelsOverlay entry value := by
  unfold applyModelsOverlay
  cases hTable : value.asTable with
  | none => rfl
  | some models =>
    obtain ⟨hKeys, hEntries⟩ := hParsed.asTable hTable
    simp only [Option.elim_some]
    rw [upsertAll_idem modelEdit_model newModel_model hKeys]
    intro e hMem f hEdit m
    obtain ⟨table, hModel, rfl⟩ := modelEdit_eq_some hEdit
    exact applyModelOverlay_idem ((hEntries e hMem).asTable hModel).1 m

end Models

/-! ## The fields of a provider entry -/

inductive ProviderField where
  | slug
  | displayName
  | protocol
  | baseUrl
  | defaultModel
  | models
  | promptCache
  | requestCompression
  | cacheAffinity
  | responsesStateless
  | oauth

/-- The keys of a provider table that set a field. -/
def ProviderField.keys : ProviderField → List String
  | .slug => []
  | .displayName => ["display_name"]
  | .protocol => ["protocol", "max_tokens_field"]
  | .baseUrl => ["base_url"]
  | .defaultModel => ["default_model"]
  | .models => ["models"]
  | .promptCache => ["prompt_cache_short", "prompt_cache_long"]
  | .requestCompression => ["request_compression"]
  | .cacheAffinity => ["cache_affinity"]
  | .responsesStateless => ["responses_stateless"]
  | .oauth => ["oauth"]

def ProviderField.Agree : ProviderField → ProviderEntry → ProviderEntry → Prop
  | .slug, d, e => d.slug = e.slug
  | .displayName, d, e => d.displayName = e.displayName
  | .protocol, d, e => d.protocol = e.protocol
  | .baseUrl, d, e => d.baseUrl = e.baseUrl
  | .defaultModel, d, e => d.defaultModel = e.defaultModel
  | .models, d, e => d.models = e.models
  | .promptCache, d, e => d.promptCache = e.promptCache
  | .requestCompression, d, e => d.requestCompression = e.requestCompression
  | .cacheAffinity, d, e => d.cacheAffinity = e.cacheAffinity
  | .responsesStateless, d, e => d.responsesStateless = e.responsesStateless
  | .oauth, d, e => d.oauth = e.oauth

theorem ProviderField.agree_equivalence (φ : ProviderField) : Equivalence φ.Agree := by
  cases φ <;> exact ⟨fun _ => rfl, Eq.symm, Eq.trans⟩

theorem ProviderEntry.ext_fields {d e : ProviderEntry} (h : ∀ φ : ProviderField, φ.Agree d e) :
    d = e := by
  cases d
  cases e
  rw [ProviderEntry.mk.injEq]
  exact ⟨h .slug, h .displayName, h .protocol, h .baseUrl, h .defaultModel, h .models,
    h .promptCache, h .requestCompression, h .cacheAffinity, h .responsesStateless, h .oauth⟩

/-- The protocol with its max-tokens field set, where it has one. -/
def withMaxTokensField (field : MaxTokensField) : ProviderProtocol → ProviderProtocol
  | .openAi _ => .openAi field
  | protocol => protocol

theorem setMaxTokensField_eq (entry : ProviderEntry) (field : MaxTokensField) :
    setMaxTokensField entry field =
      { entry with protocol := withMaxTokensField field entry.protocol } := by
  obtain ⟨slug, name, protocol, url, model, models, cache, coding, affinity, stateless, oauth⟩ :=
    entry
  cases protocol <;> rfl

theorem withMaxTokensField_idem (field : MaxTokensField) (protocol : ProviderProtocol) :
    withMaxTokensField field (withMaxTokensField field protocol) =
      withMaxTokensField field protocol := by
  cases protocol <;> rfl

theorem applyModelsOverlay_eq (entry : ProviderEntry) (value : Toml) :
    applyModelsOverlay entry value = value.asTable.elim entry fun models =>
      { entry with models := upsertAll ModelEntry.model newModel modelEdit models entry.models } :=
  rfl

/-- What a key does to the entries, told in one case split over the keys. -/
theorem applyProviderKey_effect (d e : ProviderEntry) (item : String × Toml) :
    (∀ φ : ProviderField, item.1 ∉ φ.keys → φ.Agree (applyProviderKey d item) d) ∧
      (∀ φ : ProviderField, φ.Agree d e →
        φ.Agree (applyProviderKey d item) (applyProviderKey e item)) ∧
      (item.2.Parsed → e = applyProviderKey d item → applyProviderKey e item = e) := by
  obtain ⟨key, value⟩ := item
  simp only [applyProviderKey, setMaxTokensField_eq]
  split
  case h_13 => exact ⟨fun φ _ => φ.agree_equivalence.refl d, fun _ h => h, fun _ _ => rfl⟩
  all_goals
    try simp only [applyModelsOverlay_eq]
    refine ⟨fun φ h => ?_, fun φ h => ?_, fun hParsed => ?_⟩
    · refine agree_elim φ.agree_equivalence fun _ => ?_
      cases φ <;> first
        | rfl
        | simp [ProviderField.keys] at h
    · refine agree_elim_elim h fun _ => ?_
      cases φ <;> first
        | exact h
        | rfl
        | simp only [ProviderField.Agree] at h ⊢; rw [h]
    · rintro rfl
      first
        | exact applyModelsOverlay_idem hParsed d
        | apply elim_elim
          intro _ _
          first
            | rfl
            | rw [withMaxTokensField_idem]

theorem applyProviderKey_frame (φ : ProviderField) (entry : ProviderEntry) (e : String × Toml)
    (h : e.1 ∉ φ.keys) : φ.Agree (applyProviderKey entry e) entry :=
  (applyProviderKey_effect entry entry e).1 φ h

theorem applyProviderKey_local (φ : ProviderField) (d e : ProviderEntry) (item : String × Toml)
    (h : φ.Agree d e) : φ.Agree (applyProviderKey d item) (applyProviderKey e item) :=
  (applyProviderKey_effect d e item).2.1 φ h

theorem provider_footprint :
    Footprint applyProviderKey ProviderField.keys ProviderField.Agree where
  equiv := ProviderField.agree_equivalence
  ext _ _ := ProviderEntry.ext_fields
  frame := applyProviderKey_frame
  local_ := applyProviderKey_local

theorem applyProviderKey_idem {item : String × Toml} (hParsed : item.2.Parsed)
    (entry : ProviderEntry) :
    applyProviderKey (applyProviderKey entry item) item = applyProviderKey entry item :=
  (applyProviderKey_effect entry _ item).2.2 hParsed rfl

theorem provider_promptCache_comm : Footprint.Commutes applyProviderKey ProviderField.promptCache.keys := by
  rintro ⟨dKey, dValue⟩ ⟨eKey, eValue⟩ m hd he hNe
  simp only [ProviderField.keys, List.mem_cons, List.not_mem_nil, or_false] at hd he
  rcases hd with rfl | rfl <;> rcases he with rfl | rfl
  · exact absurd rfl hNe
  · simp only [applyProviderKey]
    cases dValue.asInteger <;> cases eValue.asInteger <;> rfl
  · simp only [applyProviderKey]
    cases dValue.asInteger <;> cases eValue.asInteger <;> rfl
  · exact absurd rfl hNe

/-- Naming the protocol overwrites what `max_tokens_field` set. -/
theorem provider_shared (φ : ProviderField) :
    Footprint.Commutes applyProviderKey φ.keys ∨ ∀ d e : String × Toml, d.1 ∈ φ.keys →
      e.1 ∈ φ.keys → d.1 ≠ e.1 → Footprint.Overwrites applyProviderKey ProviderField.Agree φ d ∨
        Footprint.Overwrites applyProviderKey ProviderField.Agree φ e := by
  cases φ
  case promptCache => exact Or.inl provider_promptCache_comm
  case protocol =>
    refine Or.inr ?_
    rintro ⟨dKey, dValue⟩ ⟨eKey, eValue⟩ hd he hNe
    simp only [ProviderField.keys, List.mem_cons, List.not_mem_nil, or_false] at hd he
    have hEquiv := ProviderField.agree_equivalence .protocol
    rcases hd with rfl | rfl
    · exact Or.inl (overwrites_of_elim hEquiv (fun _ => rfl) fun _ _ _ => rfl)
    · rcases he with rfl | rfl
      · exact Or.inr (overwrites_of_elim hEquiv (fun _ => rfl) fun _ _ _ => rfl)
      · exact absurd rfl hNe
  all_goals
    refine Or.inr fun d e hd he hNe => ?_
    first
      | exact absurd hd List.not_mem_nil
      | exact absurd ((List.mem_singleton.mp hd).trans (List.mem_singleton.mp he).symm) hNe

section Provider

variable {value : Toml}

theorem applyProviderOverlay_idem (hParsed : value.Parsed) (hTable : value.asTable = some table)
    (entry : ProviderEntry) :
    applyProviderOverlay (applyProviderOverlay entry table) table =
      applyProviderOverlay entry table := by
  obtain ⟨hKeys, hEntries⟩ := hParsed.asTable hTable
  exact provider_footprint.foldl_idem hKeys
    (fun item hMem entry => applyProviderKey_idem (hEntries item hMem) entry) provider_shared entry

theorem applyProviderOverlay_frame {φ : ProviderField}
    (h : ∀ key ∈ φ.keys, key ∉ table.map Prod.fst) (entry : ProviderEntry) :
    φ.Agree (applyProviderOverlay entry table) entry := by
  refine provider_footprint.foldl_frame ?_ entry
  intro e hMem hKey
  exact h e.1 hKey (List.mem_map_of_mem hMem)

theorem applyProviderOverlay_slug (entry : ProviderEntry) (table : TomlTable) :
    (applyProviderOverlay entry table).slug = entry.slug :=
  applyProviderOverlay_frame (φ := .slug) (fun _ h => absurd h List.not_mem_nil) entry

/-- The model list after a provider table is what its `models` value makes of it. -/
theorem applyProviderOverlay_models (hKeys : (table.map Prod.fst).Nodup) (entry : ProviderEntry) :
    (applyProviderOverlay entry table).models =
      upsertAll ModelEntry.model newModel modelEdit
        (((table.get "models").bind Toml.asTable).getD []) entry.models := by
  have hAgree := provider_footprint.foldl_agree_filter .models table entry
  change (applyProviderOverlay entry table).models = _ at hAgree
  rw [hAgree]
  have hOne := TomlTable.filter_key hKeys "models"
  change (table.filter fun e => e.1 ∈ ProviderField.models.keys) = _ at hOne
  rw [hOne]
  cases hGet : table.get "models" with
  | none => rfl
  | some value =>
    change (applyModelsOverlay entry value).models = _
    rw [applyModelsOverlay_eq]
    cases hTable : value.asTable with
    | none => simp [hTable, upsertAll]
    | some models => simp [hTable]

theorem providerEdit_eq_some {f : ProviderEntry → ProviderEntry} (h : providerEdit value = some f) :
    ∃ table, value.asTable = some table ∧ f = fun entry => applyProviderOverlay entry table := by
  obtain ⟨table, hTable, rfl⟩ := Option.map_eq_some_iff.mp h
  exact ⟨table, hTable, rfl⟩

theorem providerEdit_slug (value : Toml) (f : ProviderEntry → ProviderEntry)
    (h : providerEdit value = some f) (entry : ProviderEntry) : (f entry).slug = entry.slug := by
  obtain ⟨table, -, rfl⟩ := providerEdit_eq_some h
  exact applyProviderOverlay_slug entry table

theorem newProvider_slug (slug : String) : (newProvider slug).slug = slug := rfl

end Provider

end Choreographr.Catalog
