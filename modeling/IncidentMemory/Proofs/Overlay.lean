import IncidentMemory.Config.Environment

/-!
# What an environment can change

Variables of the environment are laid over a configuration. Every setting has
variables of its own, and one would expect it to stay as it was written when none
of them is set. All settings do but one: after the overlay the embedder always has
the number of dimensions that the collection has, whether or not a variable says
anything about dimensions (`Config.get_overlay_iff`). So a configuration in which
the two numbers differ is changed even by an environment in which nothing is set.

`Config.Setting` names what can be set, and `Config.eq_of_get` says that nothing is
left out: configurations with the same settings are the same.
-/

namespace IncidentMemory

namespace Json

/-- What is found under a key in fields of which one is the first. -/
theorem lookup_cons_eq (key : String) (value : Json) (fields : List (String × Json))
    (other : String) :
    ((key, value) :: fields).lookup other
      = if other = key then some value else fields.lookup other := by
  rw [List.lookup_cons]
  by_cases h : other = key
  · rw [if_pos h, h, beq_self_eq_true]
  · rw [if_neg h, beq_false_of_ne h]

/-- What is found under a key after a field was set. -/
theorem lookup_insertField (key : String) (value : Json) (fields : List (String × Json))
    (other : String) :
    (insertField key value fields).lookup other
      = if other = key then some value else fields.lookup other := by
  induction fields with
  | nil => exact lookup_cons_eq key value [] other
  | cons field rest ih =>
    obtain ⟨k, v⟩ := field
    rw [insertField]
    by_cases hk : k = key
    · -- the field that is replaced has the same key
      rw [if_pos hk, lookup_cons_eq, lookup_cons_eq, hk]
      split <;> rfl
    · rw [if_neg hk, lookup_cons_eq, lookup_cons_eq, ih]
      by_cases ho : other = k
      · rw [if_pos ho, if_pos ho, if_neg (ho ▸ hk)]
      · rw [if_neg ho, if_neg ho]

/-- A field that is set leaves the other fields alone, also where there was no
object to set it in. -/
theorem get?_withField_of_ne (j : Json) {key other : String} (value : Json) (h : other ≠ key) :
    (j.withField key value).get? other = j.get? other := by
  cases j with
  | obj fields =>
    show (insertField key value fields).lookup other = fields.lookup other
    rw [lookup_insertField, if_neg h]
  | _ =>
    show List.lookup other [(key, value)] = none
    rw [lookup_cons_eq, if_neg h]
    rfl

end Json

namespace Config

/-! ## Settings and their variables -/

/-- **What can be set in a configuration.** -/
inductive Setting where
  /-- How long an incident suppresses its repetitions. -/
  | dedupWindow
  /-- What the gate does when the dedup store fails. -/
  | gatePolicy
  /-- How many resolutions the buffer holds. -/
  | bufferCapacity
  /-- From which similarity on a log counts as known. -/
  | duplicateThreshold
  /-- From which similarity on a memory is relevant. -/
  | relevanceThreshold
  /-- How many memories enrich a goal. -/
  | retrievalLimit
  /-- The cluster that resolutions are recorded for. -/
  | clusterId
  /-- Whether secrets are masked in what is kept. -/
  | redactLogs
  /-- Who computes embeddings. -/
  | provider
  /-- With which model. -/
  | model
  /-- How many dimensions the embedder is told. -/
  | embedderDims
  /-- The key to use the provider with. -/
  | apiKey
  /-- Where the provider is. -/
  | baseUrl
  /-- The project that is billed. -/
  | projectId
  /-- The region that serves the model. -/
  | location
  /-- Where memories are kept. -/
  | vectorBackend
  /-- The collection of memories. -/
  | collection
  /-- How many dimensions the collection has. -/
  | collectionDims
  /-- All else that was said about the vector store. -/
  | extra
  /-- One field of that. -/
  | extraField (key : String)
  /-- Where the gate keeps its markers. -/
  | dedupBackend
  /-- Where the dedup store is. -/
  | dedupUrl
  deriving DecidableEq

namespace Setting

/-- What a setting is set to. -/
@[reducible] def Value : Setting → Type
  | .dedupWindow | .apiKey | .baseUrl | .projectId | .location | .dedupUrl => Option String
  | .clusterId | .model | .collection => String
  | .bufferCapacity | .retrievalLimit | .embedderDims | .collectionDims => Nat
  | .duplicateThreshold | .relevanceThreshold => Single
  | .gatePolicy => GatePolicy
  | .redactLogs => Bool
  | .provider => EmbedderProvider
  | .vectorBackend => VectorBackend
  | .extra => Json
  | .extraField _ => Option Json
  | .dedupBackend => DedupBackend

/-- **The value of a setting** in a configuration. -/
def get (c : Config) : (s : Setting) → s.Value
  | .dedupWindow => c.dedupWindow
  | .gatePolicy => c.gatePolicy
  | .bufferCapacity => c.bufferCapacity
  | .duplicateThreshold => c.duplicateThreshold
  | .relevanceThreshold => c.relevanceThreshold
  | .retrievalLimit => c.retrievalLimit
  | .clusterId => c.clusterId
  | .redactLogs => c.redactLogs
  | .provider => c.provider
  | .model => c.embedder.model
  | .embedderDims => c.embedder.dims
  | .apiKey => c.embedder.apiKey
  | .baseUrl => c.embedder.baseUrl
  | .projectId => c.embedder.projectId
  | .location => c.embedder.location
  | .vectorBackend => c.vectorStore.provider
  | .collection => c.vectorStore.collection
  | .collectionDims => c.vectorStore.dims
  | .extra => c.vectorStore.extra
  | .extraField key => c.vectorStore.extra.get? key
  | .dedupBackend => c.dedupStore.provider
  | .dedupUrl => c.dedupStore.url

/-- **The variables of a setting.** Some settings are made in the file only. -/
def variableNames : Setting → List String
  | .dedupWindow => ["KUBEMIND_DEDUP_WINDOW"]
  | .gatePolicy => ["KUBEMIND_GATE_FAILURE_POLICY"]
  | .bufferCapacity => ["KUBEMIND_BUFFER_CAPACITY"]
  | .duplicateThreshold => ["KUBEMIND_DUPLICATE_THRESHOLD"]
  | .relevanceThreshold => ["KUBEMIND_RELEVANCE_THRESHOLD"]
  | .retrievalLimit => ["KUBEMIND_RETRIEVAL_LIMIT"]
  | .clusterId => ["KUBEMIND_CLUSTER_ID"]
  | .provider => ["KUBEMIND_EMBEDDER"]
  | .model => ["KUBEMIND_EMBEDDING_MODEL"]
  | .embedderDims | .collectionDims => ["KUBEMIND_EMBEDDING_DIMS"]
  | .apiKey => ["OPENAI_API_KEY"]
  | .baseUrl => ["KUBEMIND_EMBEDDER_URL"]
  | .vectorBackend => ["KUBEMIND_VECTOR_STORE"]
  | .collection => ["KUBEMIND_COLLECTION"]
  | .extra => ["KUBEMIND_QDRANT_URL", "KUBEMIND_QDRANT_API_KEY"]
  | .extraField key =>
    if key = "url" then ["KUBEMIND_QDRANT_URL"]
    else if key = "api_key" then ["KUBEMIND_QDRANT_API_KEY"]
    else []
  | .dedupBackend => ["KUBEMIND_DEDUP_STORE"]
  | .dedupUrl => ["KUBEMIND_REDIS_URL"]
  | .redactLogs | .projectId | .location => []

/-- That none of a setting's variables is set. -/
def IsUnset (s : Setting) (env : Environment) : Prop :=
  ∀ name ∈ s.variableNames, env name = none

end Setting

/-- **There is nothing else in a configuration.** -/
theorem eq_of_get {c c' : Config} (h : ∀ s : Setting, s.get c = s.get c') : c = c' := by
  obtain ⟨_, _, _, _, _, _, _, _, _, ⟨_, _, _, _, _, _⟩, ⟨_, _, _, _⟩, ⟨_, _⟩⟩ := c
  obtain ⟨_, _, _, _, _, _, _, _, _, ⟨_, _, _, _, _, _⟩, ⟨_, _, _, _⟩, ⟨_, _⟩⟩ := c'
  obtain rfl := h .dedupWindow
  obtain rfl := h .gatePolicy
  obtain rfl := h .bufferCapacity
  obtain rfl := h .duplicateThreshold
  obtain rfl := h .relevanceThreshold
  obtain rfl := h .retrievalLimit
  obtain rfl := h .clusterId
  obtain rfl := h .redactLogs
  obtain rfl := h .provider
  obtain rfl := h .model
  obtain rfl := h .embedderDims
  obtain rfl := h .apiKey
  obtain rfl := h .baseUrl
  obtain rfl := h .projectId
  obtain rfl := h .location
  obtain rfl := h .vectorBackend
  obtain rfl := h .collection
  obtain rfl := h .collectionDims
  obtain rfl := h .extra
  obtain rfl := h .dedupBackend
  obtain rfl := h .dedupUrl
  rfl

/-! ## Variables that are not set -/

section

variable {α : Type} {env : Environment} {name : String}

/-- Without its variable a value that would be parsed is left alone. -/
theorem overlayParsed_of_none (h : env name = none) (parse : List Char → Option α) (current : α) :
    overlayParsed env name parse current = ⟨current, []⟩ := by
  unfold overlayParsed
  rw [h]

/-- Without its variable a value that would be named is left alone. -/
theorem overlayNamed_of_none (h : env name = none) (parse : String → Option α)
    (label : α → String) (current : α) :
    overlayNamed env name parse label current = ⟨current, []⟩ := by
  unfold overlayNamed
  rw [h]

/-- Without its variable a field that was said about the vector store is left
alone. -/
theorem overlayExtra_of_none (h : env name = none) (key : String) (extra : Json) :
    overlayExtra env name key extra = extra := by
  unfold overlayExtra
  rw [h]

/-- The other fields are left alone in any case. -/
theorem get?_overlayExtra_of_ne {key other : String} (h : other ≠ key) (extra : Json) :
    (overlayExtra env name key extra).get? other = extra.get? other := by
  unfold overlayExtra
  split
  · exact extra.get?_withField_of_ne _ h
  · rfl

end

/-- **A setting whose variables are not set stays**, but for the number of
dimensions that the embedder is told. -/
theorem get_overlay_of_isUnset {env : Environment} {s : Setting} (c : Config) (h : s.IsUnset env)
    (hs : s ≠ .embedderDims) : s.get (c.overlay env).value = s.get c := by
  have hone : ∀ {name}, s.variableNames = [name] → env name = none :=
    fun hname => h _ (hname ▸ List.mem_cons_self)
  cases s with
  | dedupWindow => exact congrArg (· <|> c.dedupWindow) (hone rfl)
  | gatePolicy => exact congrArg Checked.value (overlayNamed_of_none (hone rfl) _ _ _)
  | bufferCapacity => exact congrArg Checked.value (overlayParsed_of_none (hone rfl) _ _)
  | duplicateThreshold => exact congrArg Checked.value (overlayParsed_of_none (hone rfl) _ _)
  | relevanceThreshold => exact congrArg Checked.value (overlayParsed_of_none (hone rfl) _ _)
  | retrievalLimit => exact congrArg Checked.value (overlayParsed_of_none (hone rfl) _ _)
  | clusterId => exact congrArg (Option.getD · c.clusterId) (hone rfl)
  | redactLogs => rfl
  | provider => exact congrArg Checked.value (overlayNamed_of_none (hone rfl) _ _ _)
  | model => exact congrArg (Option.getD · c.embedder.model) (hone rfl)
  | embedderDims => exact absurd rfl hs
  | apiKey =>
    -- the key is looked for only if the provider that has been chosen uses it
    show (if _ then env "OPENAI_API_KEY" <|> c.embedder.apiKey else c.embedder.apiKey) = _
    rw [hone rfl, show (none <|> c.embedder.apiKey) = c.embedder.apiKey from rfl, ite_self]
    rfl
  | baseUrl => exact congrArg (· <|> c.embedder.baseUrl) (hone rfl)
  | projectId => rfl
  | location => rfl
  | vectorBackend =>
    exact congrArg (fun v => (Option.map VectorBackend.ofText v).getD c.vectorStore.provider)
      (hone rfl)
  | collection => exact congrArg (Option.getD · c.vectorStore.collection) (hone rfl)
  | collectionDims => exact congrArg Checked.value (overlayParsed_of_none (hone rfl) _ _)
  | extra =>
    show overlayExtra env _ _ (overlayExtra env _ _ c.vectorStore.extra) = c.vectorStore.extra
    rw [overlayExtra_of_none (h "KUBEMIND_QDRANT_URL" (by simp [Setting.variableNames])),
      overlayExtra_of_none (h "KUBEMIND_QDRANT_API_KEY" (by simp [Setting.variableNames]))]
  | extraField key =>
    show (overlayExtra env _ _ (overlayExtra env _ _ c.vectorStore.extra)).get? key
      = c.vectorStore.extra.get? key
    by_cases hurl : key = "url"
    · rw [get?_overlayExtra_of_ne (by rw [hurl]; decide),
        overlayExtra_of_none (hone (by simp [Setting.variableNames, hurl]))]
    · by_cases hkey : key = "api_key"
      · rw [overlayExtra_of_none (hone (by simp [Setting.variableNames, hkey])),
          get?_overlayExtra_of_ne hurl]
      · rw [get?_overlayExtra_of_ne hkey, get?_overlayExtra_of_ne hurl]
  | dedupBackend =>
    exact congrArg (fun v => (Option.map DedupBackend.ofText v).getD c.dedupStore.provider)
      (hone rfl)
  | dedupUrl => exact congrArg (· <|> c.dedupStore.url) (hone rfl)

/-- After an overlay the embedder is told the dimensions of the collection. -/
theorem embedderDims_overlay (env : Environment) (c : Config) :
    (c.overlay env).value.embedder.dims = (c.overlay env).value.vectorStore.dims :=
  rfl

/-- **What an environment leaves alone.** A setting none of whose variables is set
stays as it is, except that the embedder is told the dimensions of the collection;
so this setting stays exactly if the two agreed before. If nothing is set, the
configuration stays as it is exactly if they did, and in no case there is a
warning. -/
theorem get_overlay_iff (env : Environment) (c : Config) :
    (∀ s : Setting, s.IsUnset env →
        (s.get (c.overlay env).value = s.get c
          ↔ (s = .embedderDims → c.embedder.dims = c.vectorStore.dims)))
      ∧ ((∀ s : Setting, s.IsUnset env) →
        ((c.overlay env).value = c ↔ c.embedder.dims = c.vectorStore.dims)
          ∧ (c.overlay env).warnings = []) := by
  have hsettings : ∀ s : Setting, s.IsUnset env →
      (s.get (c.overlay env).value = s.get c
        ↔ (s = .embedderDims → c.embedder.dims = c.vectorStore.dims)) := by
    intro s hunset
    by_cases hs : s = .embedderDims
    · subst hs
      have hdims : (c.overlay env).value.embedder.dims = c.vectorStore.dims :=
        (embedderDims_overlay env c).trans
          (get_overlay_of_isUnset c (s := .collectionDims) hunset (by decide))
      show (c.overlay env).value.embedder.dims = c.embedder.dims ↔ _
      rw [hdims]
      exact ⟨fun h _ => h.symm, fun h => (h rfl).symm⟩
    · exact iff_of_true (get_overlay_of_isUnset c hunset hs) fun h => absurd h hs
  refine ⟨hsettings, fun hunset => ⟨⟨fun h => ?_, fun h => ?_⟩, ?_⟩⟩
  · exact (hsettings .embedderDims (hunset _)).mp (congrArg (Setting.get · .embedderDims) h) rfl
  · exact eq_of_get fun s => (hsettings s (hunset s)).mpr fun _ => h
  · have hone : ∀ (s : Setting) {name}, s.variableNames = [name] → env name = none :=
      fun s _ hname => hunset s _ (hname ▸ List.mem_cons_self)
    unfold overlay
    rw [overlayNamed_of_none (hone .gatePolicy rfl),
      overlayParsed_of_none (hone .bufferCapacity rfl),
      overlayParsed_of_none (hone .duplicateThreshold rfl),
      overlayParsed_of_none (hone .relevanceThreshold rfl),
      overlayParsed_of_none (hone .retrievalLimit rfl), overlayNamed_of_none (hone .provider rfl),
      overlayParsed_of_none (hone .collectionDims rfl)]
    rfl

/-- A configuration as it comes from a file that says something about the embedder
only. -/
def differingDims : Config where
  embedder := { dims := 1536 }

/-- An environment with nothing in it but the name of a cluster. -/
def clusterOnly : Environment := fun name =>
  if name = "KUBEMIND_CLUSTER_ID" then some "prod-eu" else none

/-- The name of the cluster leaves the collection's number of dimensions alone, but
not the embedder's, and without it the configuration is changed all the same. -/
theorem get_overlay_iff_clusterOnly :
    (Setting.IsUnset .collectionDims clusterOnly ∧ Setting.IsUnset .embedderDims clusterOnly
        ∧ ∀ s : Setting, s.IsUnset fun _ => none)
      ∧ (differingDims.overlay clusterOnly).value.vectorStore.dims = differingDims.vectorStore.dims
      ∧ (differingDims.overlay clusterOnly).value.embedder.dims ≠ differingDims.embedder.dims
      ∧ (differingDims.overlay fun _ => none).value ≠ differingDims
      ∧ (differingDims.overlay fun _ => none).warnings = [] := by
  have hunset : Setting.IsUnset .embedderDims clusterOnly := by
    intro name hname
    obtain rfl := List.mem_singleton.mp hname
    rfl
  have hnothing : ∀ s : Setting, s.IsUnset fun _ => none := fun _ _ _ => rfl
  have hcluster := (get_overlay_iff clusterOnly differingDims).1
  have hwithout := (get_overlay_iff (fun _ => none) differingDims).2 hnothing
  refine ⟨⟨hunset, hunset, hnothing⟩, (hcluster .collectionDims hunset).mpr nofun, ?_, ?_,
    hwithout.2⟩
  · exact fun h => absurd ((hcluster .embedderDims hunset).mp h rfl) (by decide)
  · exact fun h => absurd (hwithout.1.mp h) (by decide)

/-- **An environment in which nothing is set changes a configuration.** -/
theorem overlay_nothing_differingDims :
    (∀ s : Setting, s.IsUnset fun _ => none)
      ∧ Setting.get differingDims .embedderDims = 1536
      ∧ Setting.get (differingDims.overlay fun _ => none).value .embedderDims = 768 :=
  ⟨fun _ _ _ => rfl, rfl, rfl⟩

end Config

end IncidentMemory
