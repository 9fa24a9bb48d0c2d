import IncidentMemory.Dedup.Markers

/-!
# Markers record what was claimed

A claim is a key together with the time until which it is held. Markers forget
claims that are over, and they do so whenever any key is asked for; still, at
every time they say of every key whether it is held by one of all the claims
there ever were (`Markers.Records`). Whoever asks for a key that is held gets
nothing and changes nothing; whoever asks for another makes the next claim.
-/

namespace IncidentMemory.Markers

/-- **A claim**: a key, and the time until which it is held. -/
abbrev Claim := String × Instant

/-- Whether a key is held by a claim at a time. -/
def Held (claims : List Claim) (now : Instant) (key : String) : Prop :=
  ∃ c ∈ claims, c.1 = key ∧ now < c.2

/-- **The markers record the claims there ever were**, as far as these are not
over at the given time. -/
structure Records (m : Markers) (now : Instant) (claims : List Claim) : Prop where
  /-- They can be used. -/
  whole : m.broken = false
  /-- Every marker is that of a claim. -/
  claimed : ∀ e ∈ m.entries, (e.key, e.expiry) ∈ claims
  /-- Every claim that is not over has its marker. -/
  marked : ∀ c ∈ claims, now < c.2 → ∃ e ∈ m.entries, (e.key, e.expiry) = c

/-- No markers record no claims. -/
theorem Records.empty (now : Instant) : Records {} now [] where
  whole := rfl
  claimed := fun _ h => absurd h List.not_mem_nil
  marked := fun _ h => absurd h List.not_mem_nil

theorem mem_lasting {entries : List Marker} {now : Instant} {e : Marker} :
    e ∈ lasting entries now ↔ e ∈ entries ∧ now < e.expiry := by
  unfold lasting
  rw [List.mem_filter, decide_eq_true_iff]

/-- What incidents are marked under tells them apart. -/
theorem keyOf_inj {a b : String} : keyOf a = keyOf b ↔ a = b := by
  refine ⟨fun h => ?_, congrArg keyOf⟩
  unfold keyOf at h
  exact String.append_right_inj _ |>.mp h

variable {m : Markers} {now later : Instant} {claims : List Claim} {key : String}

/-- What holds of the markers holds of them as time goes by. -/
theorem Records.mono (h : m.Records now claims) (hle : now ≤ later) : m.Records later claims where
  whole := h.whole
  claimed := h.claimed
  marked := fun c hc hlt => h.marked c hc (Nat.lt_of_le_of_lt hle hlt)

/-- The markers that last record the same claims. -/
theorem Records.lasting (h : m.Records now claims) (hle : now ≤ later) :
    Records ⟨lasting m.entries later, false⟩ later claims where
  whole := rfl
  claimed := fun e he => h.claimed e (mem_lasting.mp he).1
  marked := by
    intro c hc hlt
    obtain ⟨e, he, rfl⟩ := h.marked c hc (Nat.lt_of_le_of_lt hle hlt)
    exact ⟨e, mem_lasting.mpr ⟨he, hlt⟩, rfl⟩

/-- **A key has a lasting marker exactly if a claim holds it.** -/
theorem Records.any_lasting_iff (h : m.Records now claims) (hle : now ≤ later) :
    ((Markers.lasting m.entries later).any (·.key == key)) = true ↔ Held claims later key := by
  rw [List.any_eq_true]
  constructor
  · rintro ⟨e, he, hkey⟩
    obtain ⟨hmem, hlt⟩ := mem_lasting.mp he
    exact ⟨(e.key, e.expiry), h.claimed e hmem, beq_iff_eq.mp hkey, hlt⟩
  · rintro ⟨c, hc, hkey, hlt⟩
    obtain ⟨e, he, rfl⟩ := h.marked c hc (Nat.lt_of_le_of_lt hle hlt)
    exact ⟨e, mem_lasting.mpr ⟨he, hlt⟩, beq_iff_eq.mpr hkey⟩

/-- **A key that is held is refused**, and no claim is longer or shorter for
it. -/
theorem Records.refuse (h : m.Records now claims) (value : String) (ttl : Duration)
    (hle : now ≤ later) (hheld : Held claims later key) :
    ∃ m', m.setIfAbsent later key value ttl = (m', .done (.ok false))
      ∧ m'.Records later claims ∧ ∀ e ∈ m'.entries, later < e.expiry := by
  refine ⟨⟨Markers.lasting m.entries later, false⟩, ?_, h.lasting hle,
    fun e he => (mem_lasting.mp he).2⟩
  unfold setIfAbsent
  rw [if_neg (by rw [h.whole]; exact Bool.false_ne_true),
    if_pos ((h.any_lasting_iff hle).mpr hheld)]

/-- **A key that is not held is granted**, which makes a claim from now on. -/
theorem Records.grant (h : m.Records now claims) (value : String) {ttl : Duration}
    (hle : now ≤ later) (hfree : ¬ Held claims later key)
    (hroom : later + ttl.nanos < Instant.limit) :
    ∃ m', m.setIfAbsent later key value ttl = (m', .done (.ok true))
      ∧ m'.Records later (claims ++ [(key, later + ttl.nanos)])
      ∧ (0 < ttl.nanos → ∀ e ∈ m'.entries, later < e.expiry) := by
  have hkept := h.lasting hle
  refine ⟨⟨Markers.lasting m.entries later ++ [⟨key, value, later + ttl.nanos⟩], false⟩, ?_,
    ⟨rfl, fun e he => ?_, fun c hc hlt => ?_⟩, fun hpos e he => ?_⟩
  · unfold setIfAbsent
    rw [if_neg (by rw [h.whole]; exact Bool.false_ne_true),
      if_neg fun hany => hfree ((h.any_lasting_iff hle).mp hany), if_neg (Nat.not_le.mpr hroom)]
  · rcases List.mem_append.mp he with he | he
    · exact List.mem_append_left _ (hkept.claimed e he)
    · obtain rfl := List.mem_singleton.mp he
      exact List.mem_append_right _ List.mem_cons_self
  · rcases List.mem_append.mp hc with hc | hc
    · obtain ⟨e, he, hec⟩ := hkept.marked c hc hlt
      exact ⟨e, List.mem_append_left _ he, hec⟩
    · obtain rfl := List.mem_singleton.mp hc
      exact ⟨_, List.mem_append_right _ List.mem_cons_self, rfl⟩
  · rcases List.mem_append.mp he with he | he
    · exact (mem_lasting.mp he).2
    · obtain rfl := List.mem_singleton.mp he
      exact Nat.lt_add_of_pos_right hpos

end IncidentMemory.Markers
