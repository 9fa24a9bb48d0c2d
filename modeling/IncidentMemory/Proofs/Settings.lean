import IncidentMemory.Config.Settings
import IncidentMemory.Proofs.Order

/-!
# Settings can be used, and tell what was replaced

Whatever a configuration says, its settings make sense: the window is positive,
capacity and limit are, thresholds lie between zero and one, and all parts agree on
the number of dimensions. What made sense before is passed on as it is, and for
everything else there is one warning (`Config.settings_usable`).

Six inputs are looked at, each in the same way: the value that comes out is fit for
use, it is the given one if that is fit, and whether there is a warning is decided
by the same condition. `Settings.Repairs` says this of one of them.
-/

namespace IncidentMemory

/-! ## Windows -/

namespace Duration

theorem isRepresentable_of_ofFloat? {x : Float} {d : Duration} (h : ofFloat? x = some d) :
    isRepresentable d.nanos = true := by
  simp only [ofFloat?] at h
  split at h
  · exact nomatch h
  · split at h
    · next hfits => exact Option.some.inj h ▸ hfits
    · exact nomatch h

theorem isRepresentable_of_add? {a b d : Duration} (h : a.add? b = some d) :
    isRepresentable d.nanos = true := by
  unfold add? at h
  split at h
  · next hfits => exact Option.some.inj h ▸ hfits
  · exact nomatch h

theorem isRepresentable_of_parseClock {s : List Char} {d : Duration} (h : parseClock s = some d) :
    isRepresentable d.nanos = true := by
  unfold parseClock at h
  split at h
  · obtain ⟨⟨days, hours⟩, -, h⟩ := Option.bind_eq_some_iff.mp h
    obtain ⟨minutes, -, h⟩ := Option.bind_eq_some_iff.mp h
    obtain ⟨seconds, -, h⟩ := Option.bind_eq_some_iff.mp h
    split at h
    · exact nomatch h
    · split at h
      · exact nomatch h
      · -- the sum at the end is the one that is checked
        obtain ⟨byDays, -, h⟩ := Option.bind_eq_some_iff.mp h
        obtain ⟨byHours, -, h⟩ := Option.bind_eq_some_iff.mp h
        obtain ⟨whole, -, h⟩ := Option.bind_eq_some_iff.mp h
        obtain ⟨whole, -, h⟩ := Option.bind_eq_some_iff.mp h
        obtain ⟨fraction, -, h⟩ := Option.bind_eq_some_iff.mp h
        exact isRepresentable_of_add? h
  · exact nomatch h

theorem isRepresentable_of_parseWithUnit {s : List Char} {d : Duration}
    (h : parseWithUnit s = some d) : isRepresentable d.nanos = true := by
  unfold parseWithUnit at h
  obtain ⟨value, -, h⟩ := Option.bind_eq_some_iff.mp h
  split at h
  · exact nomatch h
  · obtain ⟨seconds, -, h⟩ := Option.bind_eq_some_iff.mp h
    exact isRepresentable_of_ofFloat? h

/-- **A duration that was read** is positive, and not too long. -/
theorem parse_mem {raw : String} {d : Duration} (h : parse raw = some d) :
    0 < d.nanos ∧ isRepresentable d.nanos = true := by
  obtain ⟨hparsed, hpositive⟩ := Option.filter_eq_some_iff.mp h
  refine ⟨of_decide_eq_true hpositive, ?_⟩
  split at hparsed
  · exact isRepresentable_of_parseClock hparsed
  · exact isRepresentable_of_parseWithUnit hparsed

end Duration

/-- **That a threshold lies between zero and one.** What is not a number does not. -/
def Single.IsShare (x : Single) : Prop :=
  Single.zero ≤ x ∧ x ≤ Single.one

instance (x : Single) : Decidable x.IsShare :=
  inferInstanceAs (Decidable (_ ∧ _))

theorem Single.IsShare.isNaN {x : Single} (h : x.IsShare) : x.isNaN = false :=
  (Single.le_iff.mp h.1).2.1

namespace Settings

/-! ## Inputs -/

/-- **What of a configuration may have to be replaced.** -/
inductive Input where
  /-- The numbers of dimensions, which should be the same. -/
  | dims
  /-- The dedup window. -/
  | window
  /-- The capacity of the buffer. -/
  | capacity
  /-- The similarity from which on a log counts as known. -/
  | duplicate
  /-- The similarity from which on a memory is relevant. -/
  | relevance
  /-- How many memories are used. -/
  | limit
  deriving DecidableEq

namespace Input

/-- All inputs, in the order in which they are looked at. -/
def all : List Input :=
  [.dims, .window, .capacity, .duplicate, .relevance, .limit]

/-- The threshold that a setting is. -/
def ofSetting? : String → Option Input
  | "duplicate_threshold" => some .duplicate
  | "relevance_threshold" => some .relevance
  | _ => none

/-- **The input that an event is about**, from its message, and from the setting that
it names if the message is about thresholds. -/
def named? (e : Log.Event) : Option Input :=
  if e.message = "Embedder and collection dimensions differ, the collection dimension wins" then
    some .dims
  else if e.message = "Dedup window not configured, using default"
      ∨ e.message = "Dedup window is invalid, using default" then some .window
  else if e.message = "Buffer capacity must be positive, using default" then some .capacity
  else if e.message = "Retrieval limit must be positive, using default" then some .limit
  else if e.message = "Threshold is not a number, using default"
      ∨ e.message = "Threshold out of range, clamping" then
    ((e.fields.lookup "setting").bind Json.text?).bind ofSetting?
  else none

end Input

/-- That an event is a warning about an input. -/
def IsAbout (i : Input) (e : Log.Event) : Prop :=
  e.level = .warn ∧ Input.named? e = some i

/-- **What checking an input comes to**, by what is fit for use and what was given, if
anything was. -/
structure Repairs {α : Type} (i : Input) (fits : α → Prop) (given : Option α) (x : Checked α) :
    Prop where
  /-- The value is fit. -/
  fit : fits x.value
  /-- It is what was given if that is. -/
  kept : ∀ a ∈ given, fits a → x.value = a ∧ x.warnings = []
  /-- Otherwise there is one warning. -/
  warned : (∀ a ∈ given, ¬ fits a) → ∃ e, x.warnings = [e] ∧ IsAbout i e

theorem repairs_dedupWindowOf (raw : Option String) :
    Repairs .window (fun d => 0 < d.nanos ∧ Duration.isRepresentable d.nanos = true)
      (raw.bind Duration.parse) (dedupWindowOf raw) := by
  have hdefault : 0 < defaultDedupWindow.nanos
      ∧ Duration.isRepresentable defaultDedupWindow.nanos = true := by decide
  cases raw with
  | none => exact ⟨hdefault, nofun, fun _ => ⟨_, rfl, rfl, by simp [Input.named?, warning]⟩⟩
  | some raw =>
    simp only [dedupWindowOf, Option.bind_some]
    cases hparse : Duration.parse raw with
    | none => exact ⟨hdefault, nofun, fun _ => ⟨_, rfl, rfl, by simp [Input.named?, warning]⟩⟩
    | some d =>
      have hfit := Duration.parse_mem hparse
      refine ⟨hfit, fun a ha _ => ?_, fun h => absurd hfit (h d rfl)⟩
      obtain rfl := Option.mem_some.mp ha
      exact ⟨rfl, rfl⟩

theorem repairs_positiveOr {i : Input} {default : Nat} (hdefault : 1 ≤ default) {complaint : String}
    (hcomplaint : ∀ fields, IsAbout i (warning complaint fields)) (n : Nat) :
    Repairs i (1 ≤ ·) (some n) (positiveOr default complaint n) := by
  unfold positiveOr
  by_cases hn : n = 0
  · rw [if_pos hn]
    refine ⟨hdefault, fun a ha hfit => ?_, fun _ => ⟨_, rfl, hcomplaint _⟩⟩
    obtain rfl := Option.mem_some.mp ha
    exact absurd hn (Nat.ne_of_gt hfit)
  · rw [if_neg hn]
    refine ⟨Nat.pos_of_ne_zero hn, fun a ha _ => ?_, fun h => ?_⟩
    · obtain rfl := Option.mem_some.mp ha
      exact ⟨rfl, rfl⟩
    · exact absurd (Nat.pos_of_ne_zero hn) (h n rfl)

theorem isShare_clamped (x : Single) :
    (if x < Single.zero then Single.zero else Single.one).IsShare := by
  split
  · decide
  · decide

theorem repairs_thresholdOf {i : Input} {name : String} {default : Single}
    (hdefault : default.IsShare)
    (hname : Input.ofSetting? name = some i) (x : Single) :
    Repairs i Single.IsShare (some x) (thresholdOf name default x) := by
  unfold thresholdOf
  by_cases hfit : x.IsShare
  · rw [hfit.isNaN, if_neg Bool.false_ne_true, if_pos (show Single.zero ≤ x ∧ x ≤ _ from hfit)]
    refine ⟨hfit, fun a ha _ => ?_, fun h => absurd hfit (h x rfl)⟩
    obtain rfl := Option.mem_some.mp ha
    exact ⟨rfl, rfl⟩
  · have hgiven : ∀ (value : Single) (warnings : List Log.Event), ∀ a ∈ some x, a.IsShare →
        value = a ∧ warnings = [] := by
      intro _ _ a ha hshare
      obtain rfl := Option.mem_some.mp ha
      exact absurd hshare hfit
    cases hnan : x.isNaN with
    | true =>
      rw [if_pos rfl]
      exact ⟨hdefault, hgiven _ _, fun _ =>
        ⟨_, rfl, rfl, by simp [Input.named?, warning, Json.text?, hname]⟩⟩
    | false =>
      rw [if_neg Bool.false_ne_true, if_neg (show ¬ (Single.zero ≤ x ∧ x ≤ _) from hfit)]
      exact ⟨isShare_clamped x, hgiven _ _, fun _ =>
        ⟨_, rfl, rfl, by simp [Input.named?, warning, Json.text?, hname]⟩⟩

theorem repairs_dimsOf (embedder collection : Nat) :
    Repairs .dims (· = collection) (some embedder) (dimsOf embedder collection) := by
  unfold dimsOf
  by_cases h : embedder = collection
  · rw [if_pos h]
    refine ⟨rfl, fun a ha _ => ?_, fun hnone => absurd h (hnone _ rfl)⟩
    obtain rfl := Option.mem_some.mp ha
    exact ⟨h.symm, rfl⟩
  · rw [if_neg h]
    refine ⟨rfl, fun a ha hfit => ?_, fun _ => ⟨_, rfl, rfl, by simp [Input.named?, warning]⟩⟩
    obtain rfl := Option.mem_some.mp ha
    exact absurd hfit h

/-- What checking an input reports are warnings. -/
theorem Repairs.isAbout {α : Type} {i : Input} {fits : α → Prop} {given : Option α}
    {x : Checked α} (h : Repairs i fits given x) : ∀ e ∈ x.warnings, IsAbout i e := by
  intro e he
  by_cases hgives : ∃ a ∈ given, fits a
  · obtain ⟨a, ha, hfit⟩ := hgives
    rw [(h.kept a ha hfit).2] at he
    exact nomatch he
  · obtain ⟨e', he', habout⟩ := h.warned fun a ha hfit => hgives ⟨a, ha, hfit⟩
    rw [he', List.mem_singleton] at he
    exact he ▸ habout

/-! ## Usable settings -/

/-- **Settings that can be used** with a collection of so many dimensions. -/
structure IsUsable (s : Settings) (dims : Nat) : Prop where
  /-- The window does not end as it begins. -/
  window : 0 < s.dedupWindow.nanos
  /-- The buffer holds something. -/
  capacity : 1 ≤ s.bufferCapacity
  /-- Memories are used. -/
  limit : 1 ≤ s.retrieval.limit
  /-- Thresholds are numbers between zero and one. -/
  thresholds : s.consolidation.duplicateThreshold.IsShare
    ∧ s.retrieval.relevanceThreshold.IsShare
  /-- All parts have the collection's number of dimensions. -/
  dims : s.dims = dims ∧ s.consolidation.dims = dims ∧ s.retrieval.dims = dims

end Settings

namespace Config

open Settings (Input IsAbout)

/-- **That an input can be used as a configuration gives it.** -/
def Gives (c : Config) : Input → Prop
  | .dims => c.embedder.dims = c.vectorStore.dims
  | .window => (c.dedupWindow.bind Duration.parse).isSome
  | .capacity => 1 ≤ c.bufferCapacity
  | .duplicate => c.duplicateThreshold.IsShare
  | .relevance => c.relevanceThreshold.IsShare
  | .limit => 1 ≤ c.retrievalLimit

instance (c : Config) : DecidablePred c.Gives
  | .dims => inferInstanceAs (Decidable (_ = _))
  | .window => inferInstanceAs (Decidable (_ = true))
  | .capacity => inferInstanceAs (Decidable (_ ≤ _))
  | .duplicate => inferInstanceAs (Decidable (Single.IsShare _))
  | .relevance => inferInstanceAs (Decidable (Single.IsShare _))
  | .limit => inferInstanceAs (Decidable (_ ≤ _))

/-- **That settings have of a configuration** all that they can use. -/
structure PassesOn (c : Config) (s : Settings) : Prop where
  /-- A window that can be read is the one used. -/
  window : ∀ d, c.dedupWindow.bind Duration.parse = some d → s.dedupWindow = d
  /-- So is a positive capacity. -/
  capacity : c.Gives .capacity → s.bufferCapacity = c.bufferCapacity
  /-- So are thresholds between zero and one. -/
  duplicate : c.Gives .duplicate → s.consolidation.duplicateThreshold = c.duplicateThreshold
  relevance : c.Gives .relevance → s.retrieval.relevanceThreshold = c.relevanceThreshold
  /-- So is a positive limit. -/
  limit : c.Gives .limit → s.retrieval.limit = c.retrievalLimit
  /-- So are the dimensions of the embedder. -/
  dims : c.Gives .dims → s.dims = c.embedder.dims
  /-- What cannot be wrong is used in any case. -/
  rest : s.gatePolicy = c.gatePolicy ∧ s.clusterId = c.clusterId
    ∧ s.consolidation.redactLogs = c.redactLogs

/-- **That warnings report of a configuration** what is not used as given, each once. -/
structure Reports (c : Config) (warnings : List Log.Event) : Prop where
  /-- There is one for each such input, and none for another. -/
  once : ∀ i, warnings.countP (Input.named? · = some i) = if c.Gives i then 0 else 1
  /-- Each is about an input. -/
  about : ∀ e ∈ warnings, ∃ i, IsAbout i e
  /-- So they are as many as such inputs. -/
  length : warnings.length = Input.all.countP fun i => ¬ c.Gives i

variable (c : Config)

/-! The six inputs, checked. -/

/-- Whether there is a warning, by whether the input can be used as given. -/
theorem map_named?_of_repairs {α : Type} {i : Input} {fits : α → Prop} {given : Option α}
    {x : Checked α} (h : Settings.Repairs i fits given x)
    (hgives : c.Gives i ↔ ∃ a ∈ given, fits a) :
    x.warnings.map Input.named? = ([i].filter fun j => ¬ c.Gives j).map some := by
  by_cases hi : c.Gives i
  · obtain ⟨a, ha, hfit⟩ := hgives.mp hi
    rw [(h.kept a ha hfit).2, List.filter_cons_of_neg (by simpa using hi)]
    rfl
  · obtain ⟨e, he, -, hnamed⟩ := h.warned fun a ha hfit => hi (hgives.mpr ⟨a, ha, hfit⟩)
    rw [he, List.filter_cons_of_pos (by simpa using hi), List.map_singleton, hnamed]
    rfl

theorem map_named?_of_repairs_some {α : Type} {i : Input} {fits : α → Prop} {a : α}
    {x : Checked α} (h : Settings.Repairs i fits (some a) x) (hgives : c.Gives i ↔ fits a) :
    x.warnings.map Input.named? = ([i].filter fun j => ¬ c.Gives j).map some :=
  c.map_named?_of_repairs h (hgives.trans (by simp))

theorem repairs_dims : Settings.Repairs .dims (· = c.vectorStore.dims) (some c.embedder.dims)
    (Settings.dimsOf c.embedder.dims c.vectorStore.dims) :=
  Settings.repairs_dimsOf _ _

theorem repairs_capacity : Settings.Repairs .capacity (1 ≤ ·) (some c.bufferCapacity)
    (Settings.positiveOr defaultBufferCapacity "Buffer capacity must be positive, using default"
      c.bufferCapacity) :=
  Settings.repairs_positiveOr (by decide) (fun _ => ⟨rfl, by simp [Input.named?, Settings.warning]⟩)
    _

theorem repairs_limit : Settings.Repairs .limit (1 ≤ ·) (some c.retrievalLimit)
    (Settings.positiveOr defaultRetrievalLimit "Retrieval limit must be positive, using default"
      c.retrievalLimit) :=
  Settings.repairs_positiveOr (by decide) (fun _ => ⟨rfl, by simp [Input.named?, Settings.warning]⟩)
    _

theorem repairs_duplicate : Settings.Repairs .duplicate Single.IsShare (some c.duplicateThreshold)
    (Settings.thresholdOf "duplicate_threshold" defaultDuplicateThreshold c.duplicateThreshold) :=
  Settings.repairs_thresholdOf (by decide) rfl _

theorem repairs_relevance : Settings.Repairs .relevance Single.IsShare (some c.relevanceThreshold)
    (Settings.thresholdOf "relevance_threshold" defaultRelevanceThreshold c.relevanceThreshold) :=
  Settings.repairs_thresholdOf (by decide) rfl _

theorem gives_window_iff : c.Gives .window ↔ ∃ d ∈ c.dedupWindow.bind Duration.parse,
    0 < d.nanos ∧ Duration.isRepresentable d.nanos = true := by
  constructor
  · intro h
    obtain ⟨d, hd⟩ := Option.isSome_iff_exists.mp h
    obtain ⟨raw, -, hparse⟩ := Option.bind_eq_some_iff.mp hd
    exact ⟨d, hd, Duration.parse_mem hparse⟩
  · rintro ⟨d, hd, -⟩
    exact Option.isSome_iff_exists.mpr ⟨d, hd⟩

theorem isUsable_settings : c.settings.value.IsUsable c.vectorStore.dims where
  window := (Settings.repairs_dedupWindowOf c.dedupWindow).fit.1
  capacity := c.repairs_capacity.fit
  limit := c.repairs_limit.fit
  thresholds := ⟨c.repairs_duplicate.fit, c.repairs_relevance.fit⟩
  dims := ⟨rfl, rfl, rfl⟩

theorem passesOn_settings : c.PassesOn c.settings.value where
  window d hd := by
    obtain ⟨raw, -, hparse⟩ := Option.bind_eq_some_iff.mp hd
    exact ((Settings.repairs_dedupWindowOf c.dedupWindow).kept d hd (Duration.parse_mem hparse)).1
  capacity h := (c.repairs_capacity.kept _ rfl h).1
  duplicate h := (c.repairs_duplicate.kept _ rfl h).1
  relevance h := (c.repairs_relevance.kept _ rfl h).1
  limit h := (c.repairs_limit.kept _ rfl h).1
  dims h := (c.repairs_dims.kept _ rfl h).1
  rest := ⟨rfl, rfl, rfl⟩

/-- **The warnings, by what they are about:** the inputs that cannot be used as given, in
the order in which they are looked at. -/
theorem map_named?_warnings : c.settings.warnings.map Input.named?
    = (Input.all.filter fun i => ¬ c.Gives i).map some := by
  have hall : Input.all = [.dims] ++ [.window] ++ [.capacity] ++ [.duplicate] ++ [.relevance]
      ++ [.limit] := rfl
  simp only [hall, settings, List.map_append, List.filter_append,
    c.map_named?_of_repairs_some c.repairs_dims Iff.rfl,
    c.map_named?_of_repairs (Settings.repairs_dedupWindowOf c.dedupWindow) c.gives_window_iff,
    c.map_named?_of_repairs_some c.repairs_capacity Iff.rfl,
    c.map_named?_of_repairs_some c.repairs_duplicate Iff.rfl,
    c.map_named?_of_repairs_some c.repairs_relevance Iff.rfl,
    c.map_named?_of_repairs_some c.repairs_limit Iff.rfl]

theorem reports_settings : c.Reports c.settings.warnings where
  once i := by
    have hcount := congrArg (List.countP (· = some i)) c.map_named?_warnings
    rw [List.countP_map, List.countP_map, List.countP_filter] at hcount
    refine hcount.trans ?_
    -- of all inputs it is only this one that counts
    cases i <;> simp [Input.all, List.countP_cons]
  about e he := by
    simp only [settings, List.mem_append] at he
    rcases he with ((((he | he) | he) | he) | he) | he
    · exact ⟨_, c.repairs_dims.isAbout e he⟩
    · exact ⟨_, (Settings.repairs_dedupWindowOf c.dedupWindow).isAbout e he⟩
    · exact ⟨_, c.repairs_capacity.isAbout e he⟩
    · exact ⟨_, c.repairs_duplicate.isAbout e he⟩
    · exact ⟨_, c.repairs_relevance.isAbout e he⟩
    · exact ⟨_, c.repairs_limit.isAbout e he⟩
  length := by
    have hlength := congrArg List.length c.map_named?_warnings
    rwa [List.length_map, List.length_map, ← List.countP_eq_length_filter] at hlength

/-- **Settings can always be used**, and say what of the configuration they do not use. They have
a positive window, capacity and limit, thresholds that are numbers between zero and one, and the
collection's number of dimensions in all parts; what the configuration gives for one of these is
kept if it is such a value, and otherwise, and only then, there is one warning about it. -/
theorem settings_usable : c.settings.value.IsUsable c.vectorStore.dims
    ∧ c.PassesOn c.settings.value ∧ c.Reports c.settings.warnings :=
  ⟨c.isUsable_settings, c.passesOn_settings, c.reports_settings⟩

/-- Four faults, four warnings; the negative zero is none of them. -/
example : (Config.settings {
    dedupWindow := some "5:60:00", bufferCapacity := 0, retrievalLimit := 0,
    duplicateThreshold := .nan true, relevanceThreshold := .negZero }).warnings.map Input.named?
      = [some .window, some .capacity, some .duplicate, some .limit] := by
  decide

end Config

end IncidentMemory
