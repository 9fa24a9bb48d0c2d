import IncidentMemory.Proofs.Collection

/-!
# Collections by name

A store in memory keeps collections by name, and works on the one that it is bound to.
Which one that is, or that there is none, is said by the names under which collections
were created (`Collections.findsCreated`). Replacing the current collection and creating
another one leave all others as they are.
-/

namespace IncidentMemory

namespace Collections

/-- The scores that a search of the current collection computes; none if it is
refused. -/
def scores (s : Collections) (query : Embedding) : List Single :=
  match s.current with
  | .ok c => if query.length = c.dims then c.scores s.machine query else []
  | .error _ => []

theorem search_of_current {s : Collections} {c : Collection} (h : s.current = .ok c)
    (query : Embedding) (limit : Nat) (least : Option Single) :
    s.search query limit least = c.search s.machine query limit least := by
  unfold search
  rw [h]
  rfl

theorem current_eq_ok_iff {s : Collections} {c : Collection} :
    s.current = .ok c ↔ s.all.lookup s.bound = some c := by
  unfold current
  cases s.all.lookup s.bound with
  | none => simp
  | some o => simp

/-- **A collection by name, after one was replaced.** -/
theorem lookup_map_replace (name other : String) (c : Collection)
    (all : List (String × Collection)) :
    (all.map fun (n, old) => (n, if n = name then c else old)).lookup other
      = (all.lookup other).map fun old => if other = name then c else old := by
  induction all with
  | nil => rfl
  | cons entry rest ih =>
    obtain ⟨n, old⟩ := entry
    rw [List.map_cons, List.lookup_cons, List.lookup_cons]
    by_cases h : other = n
    · subst h
      simp
    · simp only [beq_false_of_ne h, ih]

/-- The current collection after it was replaced is the replacement. -/
theorem current_withCurrent {s : Collections} {c : Collection} (h : s.current = .ok c)
    (c' : Collection) : (s.withCurrent c').current = .ok c' := by
  rw [current_eq_ok_iff] at h ⊢
  show List.lookup s.bound (s.all.map _) = some c'
  rw [lookup_map_replace, h, Option.map_some, if_pos rfl]

/-- **One point put in**: it is refused for its length, or takes its place in
the current collection. -/
theorem upsert_one {s : Collections} {c : Collection} (h : s.current = .ok c) (p : Point) :
    s.upsert [p]
      = if p.vector.length = c.dims then
          .ok (s.withCurrent { c with points := Collection.insertPoint p c.points })
        else .error (.dimensions c.dims p.vector.length) := by
  unfold upsert
  rw [h]
  show (do .ok (s.withCurrent (← c.upsert [p]))) = _
  rw [Collection.upsert_one]
  by_cases hlen : p.vector.length = c.dims
  · rw [if_pos hlen, if_pos hlen]
    rfl
  · rw [if_neg hlen, if_neg hlen]
    rfl

variable {s : Collections}

/-! ## Collections that were created -/

/-- **A collection is created** unless there is one of its name. -/
theorem create_cases (s : Collections) (name : String) (dims : Nat) (distance : Distance) :
    (s.has name = true ∧ ∃ f, s.create name dims distance = .error f)
      ∨ s.has name = false
        ∧ s.create name dims distance
          = .ok { s with all := s.all ++ [(name, ⟨dims, distance, []⟩)] } := by
  unfold create
  cases s.has name with
  | true => exact Or.inl ⟨rfl, _, rfl⟩
  | false => exact Or.inr ⟨rfl, rfl⟩

/-- **Where a collection was created** it is found by its name, and the others
are found as before. -/
theorem lookup_created {name : String} (hnew : s.has name = false) (col : Collection)
    (other : String) :
    (s.all ++ [(name, col)]).lookup other
      = if other = name then some col else s.all.lookup other := by
  have hnone : s.all.lookup name = none := by simpa [has] using hnew
  rw [List.lookup_append]
  by_cases h : other = name
  · subst h
    simp [hnone]
  · simp [h, List.lookup_cons, beq_false_of_ne h]

theorem mem_of_current {col : Collection} (hcol : s.current = .ok col) :
    (s.bound, col) ∈ s.all := by
  obtain ⟨before, after, heq, -⟩ := List.lookup_eq_some_iff.mp (current_eq_ok_iff.mp hcol)
  rw [heq]
  exact List.mem_append_right before List.mem_cons_self

theorem current_created {name : String} (hnew : s.has name = false) (col : Collection) :
    ({ s with all := s.all ++ [(name, col)] } : Collections).current
      = if s.bound = name then .ok col else s.current := by
  unfold current
  dsimp only
  rw [lookup_created hnew]
  by_cases h : s.bound = name
  · rw [if_pos h, if_pos h]
  · rw [if_neg h, if_neg h]

theorem has_iff (s : Collections) (name : String) : s.has name = true ↔ name ∈ s.all.map (·.1) := by
  rw [← not_iff_not, has, Bool.not_eq_true, Option.isSome_eq_false_iff, Option.isNone_iff_eq_none,
    List.lookup_eq_none_iff]
  simp only [List.mem_map, not_exists, not_and, bne_iff_ne]
  exact forall₂_congr fun _ _ => ne_comm

/-- **What is found by its name was created under it**: there is a collection of a name
if one of those that there are has it. -/
structure FindsCreated (s : Collections) : Prop where
  /-- There is a collection of a name if one of them has it. -/
  has_iff : ∀ name, s.has name = true ↔ name ∈ s.all.map (·.1)
  /-- The current one is one of them, and has the name that the store is bound to. -/
  mem : ∀ col, s.current = .ok col → (s.bound, col) ∈ s.all
  /-- There is no current one only if none has that name. -/
  missing : (∃ f, s.current = .error f) ↔ s.bound ∉ s.all.map (·.1)
  /-- If one has just been created under that name, it is the current one. -/
  created : ∀ before name dims distance, Collections.create before name dims distance = .ok s →
    s.current = if before.bound = name then .ok ⟨dims, distance, []⟩ else before.current

theorem findsCreated (s : Collections) : s.FindsCreated where
  has_iff := s.has_iff
  mem _ := mem_of_current
  missing := by
    rw [← has_iff, has]
    unfold current
    cases s.all.lookup s.bound with
    | none => exact iff_of_true ⟨_, rfl⟩ (by simp)
    | some col => exact iff_of_false (by simp) (by simp)
  created before name dims distance hcreate := by
    rcases before.create_cases name dims distance with ⟨-, f, hf⟩ | ⟨hnew, hok⟩
    · exact nomatch hf.symm.trans hcreate
    · obtain rfl := Except.ok.inj (hok.symm.trans hcreate)
      exact current_created hnew _

end Collections

end IncidentMemory
