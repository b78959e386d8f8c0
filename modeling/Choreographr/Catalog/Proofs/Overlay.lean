import Choreographr.Catalog.Proofs.Fields

/-!
# The overlay merge

The merge as a whole: what the order of a table can change, what a second
merge of the same overlay does, what the overlay does not mention, and the
uniqueness of slugs and model ids.
-/

namespace Choreographr.Catalog

open Choreographr.Session Choreographr.Lib

/-! ## Visiting tables in another order -/

/-- The same entries in another order, in which the keys of every listed group
are visited in the order they had. -/
def Reorders (groups : List (List String)) (table other : TomlTable) : Prop :=
  table.Perm other ∧ ∀ keys ∈ groups,
    (table.filter fun e => e.1 ∈ keys) = other.filter fun e => e.1 ∈ keys

/-- A model's value read in another order. -/
def ModelReorders (groups : List (List String)) (e e' : String × Toml) : Prop :=
  e.1 = e'.1 ∧ (e.2 = e'.2 ∨ ∃ table other, e.2 = .table table ∧ e'.2 = .table other ∧
    Reorders groups table other)

/-- The value of a provider key read in another order: only `models` holds tables of keys. -/
def ItemReorders (groups : List (List String)) (e e' : String × Toml) : Prop :=
  e.1 = e'.1 ∧ (e.2 = e'.2 ∨ e.1 = "models" ∧ ∃ models models', e.2 = .table models ∧
    e'.2 = .table models' ∧ List.Forall₂ (ModelReorders groups) models models')

/-- A provider's value read in another order. -/
def ProviderReorders (ownGroups modelGroups : List (List String)) (e e' : String × Toml) : Prop :=
  e.1 = e'.1 ∧ (e.2 = e'.2 ∨ ∃ table middle other, e.2 = .table table ∧ e'.2 = .table other ∧
    Reorders ownGroups table middle ∧ List.Forall₂ (ItemReorders modelGroups) middle other)

/-- The keys that do not commute on a model table: the older spelling of the
echo policy sets both halves, and the key that comes later wins. -/
def modelOrder : List (List String) :=
  [["reasoning_echo_field", "reasoning_content_required"],
    ["reasoning_echo_required", "reasoning_content_required"]]

/-- The keys that do not commute on a provider table. -/
def providerOrder : List (List String) := [["protocol", "max_tokens_field"]]

theorem applyModelOverlay_reorders {table other : TomlTable} (h : Reorders modelOrder table other)
    (hNodup : (table.map Prod.fst).Nodup) (m : ModelEntry) :
    applyModelOverlay m table = applyModelOverlay m other := by
  refine model_footprint.foldl_perm h.1 hNodup ?_ m
  intro φ
  cases φ
  case reasoningEcho => exact Or.inr (h.2 _ (by simp [modelOrder, ModelField.keys]))
  case reasoningEchoRequired => exact Or.inr (h.2 _ (by simp [modelOrder, ModelField.keys]))
  case promptCache => exact Or.inl model_promptCache_comm
  all_goals
    refine Or.inr ?_
    first
      | exact Footprint.filter_eq_of_perm h.1 hNodup
      | simp [ModelField.keys]

theorem applyProviderOverlay_perm {table other : TomlTable} (h : Reorders providerOrder table other)
    (hNodup : (table.map Prod.fst).Nodup) (entry : ProviderEntry) :
    applyProviderOverlay entry table = applyProviderOverlay entry other := by
  refine provider_footprint.foldl_perm h.1 hNodup ?_ entry
  intro φ
  cases φ
  case protocol => exact Or.inr (h.2 _ (by simp [providerOrder, ProviderField.keys]))
  case promptCache => exact Or.inl provider_promptCache_comm
  all_goals
    refine Or.inr ?_
    first
      | exact Footprint.filter_eq_of_perm h.1 hNodup
      | simp [ProviderField.keys]

theorem modelEdit_reorders {e e' : String × Toml} (h : ModelReorders modelOrder e e')
    (hParsed : e.2.Parsed) : modelEdit e.2 = modelEdit e'.2 := by
  obtain ⟨-, hSame | ⟨table, other, hTable, hOther, hOrder⟩⟩ := h
  · rw [hSame]
  · rw [hTable] at hParsed
    rw [hTable, hOther]
    have hKeys := (hParsed.asTable rfl).1
    have hEdit : (fun m => applyModelOverlay m table) = fun m => applyModelOverlay m other :=
      funext fun m => applyModelOverlay_reorders hOrder hKeys m
    exact congrArg some hEdit

theorem applyModelsOverlay_reorders {models models' : TomlTable}
    (h : List.Forall₂ (ModelReorders modelOrder) models models')
    (hParsed : ∀ e ∈ models, e.2.Parsed) (entry : ProviderEntry) :
    applyModelsOverlay entry (.table models) = applyModelsOverlay entry (.table models') := by
  have hList : ∀ xs, upsertAll ModelEntry.model newModel modelEdit models xs =
      upsertAll ModelEntry.model newModel modelEdit models' xs := by
    induction h with
    | nil => exact fun _ => rfl
    | @cons e e' rest rest' hHead hTail ih =>
      intro xs
      have hEdit := modelEdit_reorders hHead (hParsed e List.mem_cons_self)
      rw [upsertAll_cons, upsertAll_cons,
        ih fun e' hMem => hParsed e' (List.mem_cons_of_mem e hMem), hEdit, hHead.1]
  change { entry with models := _ } = { entry with models := _ }
  rw [hList]

theorem applyProviderKey_reorders {e e' : String × Toml} (h : ItemReorders modelOrder e e')
    (hParsed : e.2.Parsed) (entry : ProviderEntry) :
    applyProviderKey entry e = applyProviderKey entry e' := by
  obtain ⟨key, value⟩ := e
  obtain ⟨key', value'⟩ := e'
  obtain ⟨hKey, hSame | ⟨hModels, models, models', hTable, hOther, hOrder⟩⟩ := h
  · cases hKey
    cases hSame
    rfl
  · cases hKey
    cases hModels
    cases hTable
    cases hOther
    exact applyModelsOverlay_reorders hOrder (hParsed.asTable rfl).2 entry

theorem applyProviderOverlay_items {table other : TomlTable}
    (h : List.Forall₂ (ItemReorders modelOrder) table other) (hParsed : ∀ e ∈ table, e.2.Parsed)
    (entry : ProviderEntry) :
    applyProviderOverlay entry table = applyProviderOverlay entry other := by
  induction h generalizing entry with
  | nil => rfl
  | @cons e e' rest rest' hHead hTail ih =>
    have hStep := applyProviderKey_reorders hHead (hParsed e List.mem_cons_self) entry
    change applyProviderOverlay (applyProviderKey entry e) rest =
      applyProviderOverlay (applyProviderKey entry e') rest'
    rw [hStep]
    exact ih (fun e' hMem => hParsed e' (List.mem_cons_of_mem e hMem)) _

theorem providerEdit_reorders {e e' : String × Toml}
    (h : ProviderReorders providerOrder modelOrder e e') (hParsed : e.2.Parsed) :
    providerEdit e.2 = providerEdit e'.2 := by
  obtain ⟨-, hSame | ⟨table, middle, other, hTable, hOther, hOrder, hItems⟩⟩ := h
  · rw [hSame]
  · rw [hTable] at hParsed
    rw [hTable, hOther]
    obtain ⟨hKeys, hEntries⟩ := hParsed.asTable rfl
    have hMiddle : ∀ e ∈ middle, e.2.Parsed := fun e hMem =>
      hEntries e (hOrder.1.mem_iff.mpr hMem)
    have hFold := applyProviderOverlay_items hItems hMiddle
    have hEdit : (fun entry => applyProviderOverlay entry table) =
        fun entry => applyProviderOverlay entry other :=
      funext fun entry => (applyProviderOverlay_perm hOrder hKeys entry).trans (hFold entry)
    exact congrArg some hEdit

/-! ## The merge -/

/-- The provider table a source names, empty when it has none. -/
def namedProviders (fromStr : String → Option Document) (overlaySrc : String) : TomlTable :=
  ((fromStr overlaySrc).bind Document.providers).getD []

section Merge

variable {fromStr : String → Option Document} {overlaySrc : String} {base : List ProviderEntry}

theorem mergeOverlay_eq (fromStr : String → Option Document) (base : List ProviderEntry)
    (overlaySrc : String) : mergeOverlay fromStr base overlaySrc =
      upsertAll ProviderEntry.slug newProvider providerEdit (namedProviders fromStr overlaySrc)
        base := by
  unfold mergeOverlay namedProviders
  cases fromStr overlaySrc with
  | none => rfl
  | some doc =>
    cases hProviders : doc.providers with
    | none => simp [hProviders, upsertAll]
    | some providers => simp [hProviders]

theorem Document.providers_parsed {doc : Document} {providers : TomlTable}
    (h : doc.providers = some providers) : (Toml.table providers).Parsed := by
  obtain ⟨value, hGet, hTable⟩ := Option.bind_eq_some_iff.mp h
  have hValue := (doc.parsed.asTable rfl).2 _ (TomlTable.mem_of_get hGet)
  cases value with
  | table entries =>
    cases hTable
    exact hValue
  | _ => cases hTable

theorem namedProviders_parsed (fromStr : String → Option Document) (overlaySrc : String) :
    (Toml.table (namedProviders fromStr overlaySrc)).Parsed := by
  unfold namedProviders
  cases hProviders : (fromStr overlaySrc).bind Document.providers with
  | none => exact Toml.Parsed.table [] (by simp) (by simp)
  | some providers =>
    obtain ⟨doc, -, hDoc⟩ := Option.bind_eq_some_iff.mp hProviders
    exact Document.providers_parsed hDoc

theorem mergeOverlay_idem (fromStr : String → Option Document) (base : List ProviderEntry)
    (overlaySrc : String) :
    mergeOverlay fromStr (mergeOverlay fromStr base overlaySrc) overlaySrc =
      mergeOverlay fromStr base overlaySrc := by
  obtain ⟨hKeys, hEntries⟩ := (namedProviders_parsed fromStr overlaySrc).asTable rfl
  rw [mergeOverlay_eq, mergeOverlay_eq, upsertAll_idem providerEdit_slug newProvider_slug hKeys]
  intro e hMem f hEdit entry
  obtain ⟨table, hTable, rfl⟩ := providerEdit_eq_some hEdit
  exact applyProviderOverlay_idem (hEntries e hMem) hTable entry

theorem mergeOverlay_reorders {other : String}
    (h : List.Forall₂ (ProviderReorders providerOrder modelOrder)
      (namedProviders fromStr overlaySrc) (namedProviders fromStr other)) :
    mergeOverlay fromStr base overlaySrc = mergeOverlay fromStr base other := by
  rw [mergeOverlay_eq, mergeOverlay_eq]
  have hParsed := ((namedProviders_parsed fromStr overlaySrc).asTable rfl).2
  generalize namedProviders fromStr overlaySrc = table at h hParsed
  generalize namedProviders fromStr other = table' at h
  induction h generalizing base with
  | nil => rfl
  | @cons e e' rest rest' hHead hTail ih =>
    have hEdit := providerEdit_reorders hHead (hParsed e List.mem_cons_self)
    rw [upsertAll_cons, upsertAll_cons, ih fun e' hMem => hParsed e' (List.mem_cons_of_mem e hMem),
      hEdit, hHead.1]

/-! ### What the overlay does not mention -/

/-- A model keeps every field no key of the table sets. -/
def ModelFramed (table : TomlTable) (before after : ModelEntry) : Prop :=
  ∀ φ : ModelField, (∀ key ∈ φ.keys, key ∉ table.map Prod.fst) → φ.Agree after before

/-- The models of a provider keep their places, a model the table does not
name is unchanged and a named one keeps the fields its table does not set;
only models the table names are added. -/
def ModelsFramed (models : TomlTable) (before after : List ModelEntry) : Prop :=
  ∃ kept added, after = kept ++ added ∧
    List.Forall₂ (fun m m' => m' = m ∨ ∃ table, models.get m.model = some (.table table) ∧
      ModelFramed table m m') before kept ∧
    ∀ m ∈ added, m.model ∉ before.map ModelEntry.model ∧
      ∃ table, models.get m.model = some (.table table)

/-- A provider keeps every field no key of the table sets, and its models what
the `models` table does not mention. -/
def ProviderFramed (table : TomlTable) (before after : ProviderEntry) : Prop :=
  (∀ φ : ProviderField, (∀ key ∈ φ.keys, key ∉ table.map Prod.fst) → φ.Agree after before) ∧
    ModelsFramed (((table.get "models").bind Toml.asTable).getD []) before.models after.models

/-- The same for the catalog. -/
def CatalogFramed (providers : TomlTable) (before after : List ProviderEntry) : Prop :=
  ∃ kept added, after = kept ++ added ∧
    List.Forall₂ (fun d d' => d' = d ∨ ∃ table, providers.get d.slug = some (.table table) ∧
      ProviderFramed table d d') before kept ∧
    ∀ d ∈ added, d.slug ∉ before.map ProviderEntry.slug ∧
      ∃ table, providers.get d.slug = some (.table table)

theorem Toml.eq_table_of_asTable {value : Toml} {table : TomlTable}
    (h : value.asTable = some table) : value = .table table := by
  cases value with
  | table entries =>
    cases h
    rfl
  | _ => cases h

theorem modelsFramed {models : TomlTable} (hParsed : (Toml.table models).Parsed)
    (before : List ModelEntry) :
    ModelsFramed models before (upsertAll ModelEntry.model newModel modelEdit models before) := by
  obtain ⟨hKeys, -⟩ := hParsed.asTable rfl
  refine ⟨_, _, upsertAll_eq modelEdit_model newModel_model hKeys before,
    (forall₂_modifyAll modelEdit_model hKeys before).imp ?_, ?_⟩
  · rintro m m' (hSame | ⟨value, f, hMem, hEdit, rfl⟩)
    · exact Or.inl hSame
    · obtain ⟨table, hTable, rfl⟩ := modelEdit_eq_some hEdit
      cases Toml.eq_table_of_asTable hTable
      exact Or.inr ⟨table, TomlTable.get_of_mem hKeys hMem,
        fun _ hOut => applyModelOverlay_frame hOut m⟩
  · intro m hMem
    obtain ⟨modelId, value, f, hIn, hOut, hEdit, rfl⟩ := mem_createdBy.mp hMem
    obtain ⟨table, hTable, rfl⟩ := modelEdit_eq_some hEdit
    cases Toml.eq_table_of_asTable hTable
    rw [applyModelOverlay_model, newModel_model]
    exact ⟨hOut, table, TomlTable.get_of_mem hKeys hIn⟩

/-- The `models` value of a parsed provider table is a parsed table or nothing. -/
theorem modelsTable_parsed {table : TomlTable} (hParsed : (Toml.table table).Parsed) :
    (Toml.table (((table.get "models").bind Toml.asTable).getD [])).Parsed := by
  cases hModels : (table.get "models").bind Toml.asTable with
  | none => exact Toml.Parsed.table [] (by simp) (by simp)
  | some models =>
    obtain ⟨value, hGet, hTable⟩ := Option.bind_eq_some_iff.mp hModels
    cases Toml.eq_table_of_asTable hTable
    exact (hParsed.asTable rfl).2 _ (TomlTable.mem_of_get hGet)

theorem providerFramed {table : TomlTable} (hParsed : (Toml.table table).Parsed)
    (before : ProviderEntry) : ProviderFramed table before (applyProviderOverlay before table) := by
  refine ⟨fun _ hOut => applyProviderOverlay_frame hOut before, ?_⟩
  rw [applyProviderOverlay_models (hParsed.asTable rfl).1]
  exact modelsFramed (modelsTable_parsed hParsed) before.models

theorem mergeOverlay_framed (fromStr : String → Option Document) (base : List ProviderEntry)
    (overlaySrc : String) : CatalogFramed (namedProviders fromStr overlaySrc) base
      (mergeOverlay fromStr base overlaySrc) := by
  obtain ⟨hKeys, hEntries⟩ := (namedProviders_parsed fromStr overlaySrc).asTable rfl
  rw [mergeOverlay_eq]
  refine ⟨_, _, upsertAll_eq providerEdit_slug newProvider_slug hKeys base,
    (forall₂_modifyAll providerEdit_slug hKeys base).imp ?_, ?_⟩
  · rintro d d' (hSame | ⟨value, f, hMem, hEdit, rfl⟩)
    · exact Or.inl hSame
    · obtain ⟨table, hTable, rfl⟩ := providerEdit_eq_some hEdit
      cases Toml.eq_table_of_asTable hTable
      exact Or.inr ⟨table, TomlTable.get_of_mem hKeys hMem, providerFramed (hEntries _ hMem) d⟩
  · intro d hMem
    obtain ⟨slug, value, f, hIn, hOut, hEdit, rfl⟩ := mem_createdBy.mp hMem
    obtain ⟨table, hTable, rfl⟩ := providerEdit_eq_some hEdit
    cases Toml.eq_table_of_asTable hTable
    rw [applyProviderOverlay_slug, newProvider_slug]
    exact ⟨hOut, table, TomlTable.get_of_mem hKeys hIn⟩

/-! ### Slugs and model ids -/

theorem applyProviderOverlay_nodup {table : TomlTable} (hParsed : (Toml.table table).Parsed)
    {entry : ProviderEntry} (h : (entry.models.map ModelEntry.model).Nodup) :
    ((applyProviderOverlay entry table).models.map ModelEntry.model).Nodup := by
  rw [applyProviderOverlay_models (hParsed.asTable rfl).1]
  exact nodup_upsertAll modelEdit_model newModel_model
    ((modelsTable_parsed hParsed).asTable rfl).1 h

theorem mergeOverlay_slugs (h : (base.map ProviderEntry.slug).Nodup) :
    ((mergeOverlay fromStr base overlaySrc).map ProviderEntry.slug).Nodup := by
  rw [mergeOverlay_eq]
  exact nodup_upsertAll providerEdit_slug newProvider_slug
    ((namedProviders_parsed fromStr overlaySrc).asTable rfl).1 h

theorem mergeOverlay_models (h : ∀ d ∈ base, (d.models.map ModelEntry.model).Nodup) :
    ∀ d ∈ mergeOverlay fromStr base overlaySrc, (d.models.map ModelEntry.model).Nodup := by
  obtain ⟨hKeys, hEntries⟩ := (namedProviders_parsed fromStr overlaySrc).asTable rfl
  rw [mergeOverlay_eq, upsertAll_eq providerEdit_slug newProvider_slug hKeys]
  intro d hMem
  rcases List.mem_append.mp hMem with hKept | hAdded
  · obtain ⟨d₀, hOld, rfl | ⟨value, f, hIn, hEdit, rfl⟩⟩ := mem_modifyAll providerEdit_slug hKeys hKept
    · exact h d hOld
    · obtain ⟨table, hTable, rfl⟩ := providerEdit_eq_some hEdit
      cases Toml.eq_table_of_asTable hTable
      exact applyProviderOverlay_nodup (hEntries _ hIn) (h d₀ hOld)
  · obtain ⟨slug, value, f, hIn, -, hEdit, rfl⟩ := mem_createdBy.mp hAdded
    obtain ⟨table, hTable, rfl⟩ := providerEdit_eq_some hEdit
    cases Toml.eq_table_of_asTable hTable
    exact applyProviderOverlay_nodup (hEntries _ hIn) (by simp [newProvider])

/-! ### The order of slugs and model ids -/

theorem mergeOverlay_perm {other : String}
    (h : (namedProviders fromStr overlaySrc).Perm (namedProviders fromStr other)) :
    ∃ kept added added', mergeOverlay fromStr base overlaySrc = kept ++ added ∧
      mergeOverlay fromStr base other = kept ++ added' ∧ kept.length = base.length ∧
      added.Perm added' := by
  rw [mergeOverlay_eq, mergeOverlay_eq]
  exact upsertAll_perm providerEdit_slug newProvider_slug h
    ((namedProviders_parsed fromStr overlaySrc).asTable rfl).1 base

theorem applyModelsOverlay_perm {models models' : TomlTable} (h : models.Perm models')
    (hKeys : (models.map Prod.fst).Nodup) (entry : ProviderEntry) :
    ∃ kept added added', applyModelsOverlay entry (.table models) =
        { entry with models := kept ++ added } ∧
      applyModelsOverlay entry (.table models') = { entry with models := kept ++ added' } ∧
      kept.length = entry.models.length ∧ added.Perm added' := by
  obtain ⟨kept, added, added', hLeft, hRight, hLength, hPerm⟩ :=
    upsertAll_perm modelEdit_model newModel_model h hKeys entry.models
  refine ⟨kept, added, added', ?_, ?_, hLength, hPerm⟩
  · rw [← hLeft]
    rfl
  · rw [← hRight]
    rfl

end Merge

/-! ### The merge as a whole -/

/-- The merge does not depend on the order of the keys of a provider or model
table beyond the groups of `providerOrder` and `modelOrder`, the order of slugs
and model ids decides only the order of what is appended, a second merge
changes nothing, what the overlay does not mention is unchanged, and slugs and
model ids stay unique. -/
theorem overlay_merge (fromStr : String → Option Document) (base : List ProviderEntry)
    (overlaySrc : String) :
    (∀ other, List.Forall₂ (ProviderReorders providerOrder modelOrder)
        (namedProviders fromStr overlaySrc) (namedProviders fromStr other) →
      mergeOverlay fromStr base overlaySrc = mergeOverlay fromStr base other) ∧
    (∀ other, (namedProviders fromStr overlaySrc).Perm (namedProviders fromStr other) →
      ∃ kept added added', mergeOverlay fromStr base overlaySrc = kept ++ added ∧
        mergeOverlay fromStr base other = kept ++ added' ∧ kept.length = base.length ∧
        added.Perm added') ∧
    (∀ (entry : ProviderEntry) (models models' : TomlTable), models.Perm models' →
      (models.map Prod.fst).Nodup →
      ∃ kept added added', applyModelsOverlay entry (.table models) =
          { entry with models := kept ++ added } ∧
        applyModelsOverlay entry (.table models') = { entry with models := kept ++ added' } ∧
        kept.length = entry.models.length ∧ added.Perm added') ∧
    mergeOverlay fromStr (mergeOverlay fromStr base overlaySrc) overlaySrc =
      mergeOverlay fromStr base overlaySrc ∧
    CatalogFramed (namedProviders fromStr overlaySrc) base
      (mergeOverlay fromStr base overlaySrc) ∧
    ((base.map ProviderEntry.slug).Nodup →
      ((mergeOverlay fromStr base overlaySrc).map ProviderEntry.slug).Nodup) ∧
    ((∀ d ∈ base, (d.models.map ModelEntry.model).Nodup) →
      ∀ d ∈ mergeOverlay fromStr base overlaySrc, (d.models.map ModelEntry.model).Nodup) :=
  ⟨fun _ hOrder => mergeOverlay_reorders hOrder, fun _ hPerm => mergeOverlay_perm hPerm,
    fun entry _ _ hPerm hKeys => applyModelsOverlay_perm hPerm hKeys entry,
    mergeOverlay_idem fromStr base overlaySrc, mergeOverlay_framed fromStr base overlaySrc,
    mergeOverlay_slugs, mergeOverlay_models⟩

/-- An overlay that sets keys of one model. -/
def glmDocument (keys : TomlTable) (hKeys : (Toml.table keys).Parsed) : Document where
  root := [("provider", .table [("zai", .table [("models", .table [("glm", .table keys)])])])]
  parsed := by
    have hOne : ∀ (key : String) (value : Toml), value.Parsed →
        (Toml.table [(key, value)]).Parsed := fun key value h =>
      Toml.Parsed.table _ (by simp) (by simpa using h)
    exact hOne _ _ (hOne _ _ (hOne _ _ (hOne _ _ hKeys)))

/-- Both spellings of the echo policy, the older one last. -/
def aliasLast : TomlTable :=
  [("reasoning_echo_field", .string "reasoning_details"),
    ("reasoning_content_required", .boolean true), ("context_window", .integer 128)]

/-- The same with the older one first. -/
def aliasFirst : TomlTable :=
  [("reasoning_content_required", .boolean true),
    ("reasoning_echo_field", .string "reasoning_details"), ("context_window", .integer 128)]

/-- The order of `aliasLast` with another key moved to the front. -/
def windowFirst : TomlTable :=
  [("context_window", .integer 128), ("reasoning_echo_field", .string "reasoning_details"),
    ("reasoning_content_required", .boolean true)]

theorem flat_parsed {keys : TomlTable} (hKeys : (keys.map Prod.fst).Nodup)
    (h : ∀ e ∈ keys, e.2.asTable = none ∧ e.2.asArray = none) : (Toml.table keys).Parsed := by
  refine Toml.Parsed.table keys hKeys ?_
  intro e hMem
  obtain ⟨hTable, hArray⟩ := h e hMem
  cases hValue : e.2 with
  | table entries =>
    rw [hValue] at hTable
    cases hTable
  | array items =>
    rw [hValue] at hArray
    cases hArray
  | string text => exact Toml.Parsed.string text
  | integer n => exact Toml.Parsed.integer n
  | float bits => exact Toml.Parsed.float bits
  | boolean b => exact Toml.Parsed.boolean b
  | datetime text => exact Toml.Parsed.datetime text

def aliasLastSrc : String :=
  "[provider.zai.models.glm]\nreasoning_echo_field = \"reasoning_details\"\n" ++
    "reasoning_content_required = true\ncontext_window = 128\n"

def aliasFirstSrc : String :=
  "[provider.zai.models.glm]\nreasoning_content_required = true\n" ++
    "reasoning_echo_field = \"reasoning_details\"\ncontext_window = 128\n"

def windowFirstSrc : String :=
  "[provider.zai.models.glm]\ncontext_window = 128\n" ++
    "reasoning_echo_field = \"reasoning_details\"\nreasoning_content_required = true\n"

/-- The TOML parser on these three sources. -/
def sampleFromStr (overlaySrc : String) : Option Document :=
  if overlaySrc = aliasLastSrc then
    some (glmDocument aliasLast (flat_parsed (by decide) (by simp [aliasLast, Toml.asTable,
      Toml.asArray])))
  else if overlaySrc = aliasFirstSrc then
    some (glmDocument aliasFirst (flat_parsed (by decide) (by simp [aliasFirst, Toml.asTable,
      Toml.asArray])))
  else if overlaySrc = windowFirstSrc then
    some (glmDocument windowFirst (flat_parsed (by decide) (by simp [windowFirst, Toml.asTable,
      Toml.asArray])))
  else none

theorem glm_reorders {keys keys' : TomlTable} {groups ownGroups : List (List String)}
    (h : Reorders groups keys keys') :
    List.Forall₂ (ProviderReorders ownGroups groups)
      [("zai", Toml.table [("models", .table [("glm", .table keys)])])]
      [("zai", Toml.table [("models", .table [("glm", .table keys')])])] := by
  refine List.Forall₂.cons ⟨rfl, Or.inr ⟨_, _, _, rfl, rfl, ⟨List.Perm.refl _, fun _ _ => rfl⟩,
    List.Forall₂.cons ⟨rfl, Or.inr ⟨rfl, _, _, rfl, rfl, ?_⟩⟩ List.Forall₂.nil⟩⟩ List.Forall₂.nil
  exact List.Forall₂.cons ⟨rfl, Or.inr ⟨_, _, rfl, rfl, h⟩⟩ List.Forall₂.nil

theorem sample_overlay_merge :
    mergeOverlay sampleFromStr [newProvider "zai"] aliasLastSrc =
      mergeOverlay sampleFromStr [newProvider "zai"] windowFirstSrc :=
  (overlay_merge sampleFromStr [newProvider "zai"] aliasLastSrc).1 windowFirstSrc
    (glm_reorders ⟨@List.perm_append_comm _ [_, _] [_], by
      intro keys hKeys
      rcases List.mem_cons.mp hKeys with rfl | hKeys
      · simp [aliasLast, windowFirst]
      · cases List.mem_singleton.mp hKeys
        simp [aliasLast, windowFirst]⟩)

/-- The order of the keys of a model table is not irrelevant altogether: of the
two spellings of the echo policy the later one wins. -/
theorem later_spelling_wins :
    ¬ ∀ (fromStr : String → Option Document) (base : List ProviderEntry)
        (overlaySrc other : String),
      List.Forall₂ (ProviderReorders [] []) (namedProviders fromStr overlaySrc)
        (namedProviders fromStr other) →
      mergeOverlay fromStr base overlaySrc = mergeOverlay fromStr base other := by
  intro h
  have hSwap : Reorders [] aliasLast aliasFirst := ⟨List.Perm.swap _ _ _, by simp⟩
  have hSame := h sampleFromStr [newProvider "zai"] aliasLastSrc aliasFirstSrc
    (glm_reorders hSwap)
  revert hSame
  decide +kernel

end Choreographr.Catalog
