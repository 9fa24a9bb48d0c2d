import IncidentMemory.Proofs.Splitting
import IncidentMemory.Proofs.TypedValues
import Mathlib.Data.Nat.Digits.Defs

/-!
# Which records are one point

A point of Qdrant is told apart by a UUID. A record's id is turned into one in
either of two ways: it is read as a UUID, or one is made from its digest. A UUID
that is written reads back as itself, so the written form stands for it, and two
ids are one point exactly if they are turned into the same UUID
(`pointId_eq_iff`).

There is more than one way to write a UUID, and so to spell a record's id. Made
UUIDs aside, that is the only reason why two ids can be one point:
`pointId_eq_iff_sameRecord` needs no more than that the UUIDs made from the ids
at hand are different, and none of them is itself among the ids.
-/

namespace IncidentMemory

namespace Number

/-! ## Hexadecimal digits -/

theorem hexValue_digitChar : ∀ d < 16, hexValue d.digitChar = some d := by
  decide

/-- One more digit. -/
def addHex (n : Nat) (c : Char) : Option Nat :=
  (hexValue c).bind fun d => if d < 16 then some (16 * n + d) else none

theorem readBase_of_ne_nil {s : List Char} (h : s ≠ []) : readBase 16 s = s.foldlM addHex 0 := by
  unfold readBase
  rw [if_neg (by simpa using h)]
  rfl

theorem foldlM_addHex_zeros (count : Nat) :
    (List.replicate count '0').foldlM addHex 0 = some 0 := by
  induction count with
  | zero => rfl
  | succ count ih =>
    rw [List.replicate_succ, List.foldlM_cons]
    exact ih

theorem foldlM_addHex_toDigits (n : Nat) : (Nat.toDigits 16 n).foldlM addHex 0 = some n := by
  induction n using Nat.strongRecOn with
  | ind n ih =>
    have hlast : ∀ m d, d < 16 → addHex m d.digitChar = some (16 * m + d) := by
      intro m d hd
      unfold addHex
      rw [hexValue_digitChar d hd, Option.bind_some, if_pos hd]
    rw [Nat.toDigits_eq_if (by decide)]
    split
    · next h =>
      rw [List.foldlM_cons, hlast 0 n h]
      simp
    · next h =>
      rw [List.foldlM_append, ih (n / 16) (by omega)]
      show addHex (n / 16) (n % 16).digitChar >>= pure = some n
      rw [hlast _ _ (Nat.mod_lt n (by decide)), Nat.div_add_mod]
      rfl

/-- **The hexadecimal digits of a number** are read as that number. -/
theorem readBase_hexDigits (width n : Nat) : readBase 16 (hexDigits width n).toList = some n := by
  have hne : Nat.toDigits 16 n ≠ [] := by
    rw [Nat.toDigits_eq_if (by decide)]
    split
    · exact List.cons_ne_nil _ _
    · exact List.append_ne_nil_of_right_ne_nil _ (List.cons_ne_nil _ _)
  unfold hexDigits
  rw [String.toList_ofList, readBase_of_ne_nil (List.append_ne_nil_of_right_ne_nil _ hne),
    List.foldlM_append, foldlM_addHex_zeros]
  exact foldlM_addHex_toDigits n

theorem length_hexDigits {width n : Nat} (hwidth : 0 < width) (h : n < 16 ^ width) :
    (hexDigits width n).toList.length = width := by
  have hle := (Nat.length_toDigits_le_iff (by decide) hwidth).mpr h
  unfold hexDigits
  rw [String.toList_ofList, List.length_append, List.length_replicate]
  omega

/-- Digits alone can be read, and they make a number that is bounded by how many
there are. -/
theorem foldlM_addHex {s : List Char} {m n : Nat} (h : s.foldlM addHex m = some n) :
    (∀ c ∈ s, hexValue c ≠ none) ∧ n < (m + 1) * 16 ^ s.length := by
  induction s generalizing m with
  | nil =>
    obtain rfl := Option.some.inj h
    exact ⟨fun _ hc => absurd hc List.not_mem_nil, by simp⟩
  | cons c s ih =>
    rw [List.foldlM_cons] at h
    obtain ⟨k, hk, hrest⟩ := Option.bind_eq_some_iff.mp h
    obtain ⟨d, hd, hif⟩ := Option.bind_eq_some_iff.mp hk
    obtain ⟨hlt, heq⟩ := Option.ite_none_right_eq_some.mp hif
    obtain rfl := Option.some.inj heq
    obtain ⟨hdigits, hbound⟩ := ih hrest
    refine ⟨fun x hx => ?_, hbound.trans_le ?_⟩
    · rcases List.mem_cons.mp hx with rfl | hx
      · exact hd ▸ Option.some_ne_none d
      · exact hdigits x hx
    · rw [List.length_cons, Nat.pow_succ, Nat.mul_comm _ 16, ← Nat.mul_assoc]
      exact Nat.mul_le_mul_right _ (by omega)

theorem readBase_lt {s : List Char} {n : Nat} (h : readBase 16 s = some n) : n < 16 ^ s.length := by
  have hne : s ≠ [] := by
    rintro rfl
    exact nomatch h
  rw [readBase_of_ne_nil hne] at h
  simpa using (foldlM_addHex h).2

theorem hyphen_not_mem_hexDigits (width n : Nat) : '-' ∉ (hexDigits width n).toList := by
  intro hmem
  have h := readBase_hexDigits width n
  rw [readBase_of_ne_nil (List.ne_nil_of_mem hmem)] at h
  exact (foldlM_addHex h).1 '-' hmem (by decide)

end Number

namespace Uuid

/-! ## The written form -/

/-- **A UUID of sixteen bytes.** -/
def Fits (u : Uuid) : Prop :=
  u.value < 16 ^ 32

/-- The groups of digits of a UUID. -/
def groups (u : Uuid) : List (List Char) :=
  let ds := (Number.hexDigits 32 u.value).toList
  [ds.take 8, (ds.drop 8).take 4, (ds.drop 12).take 4, (ds.drop 16).take 4, (ds.drop 20).take 12]

theorem toList_render (u : Uuid) :
    u.render.toList = ['-'].intercalate u.groups := by
  have hid : ∀ s : String, toString s = s := fun _ => rfl
  unfold render groups
  simp [hid, List.intercalate]

theorem Fits.length_groups {u : Uuid} (h : u.Fits) : u.groups.map List.length = groupLengths := by
  have hlen := Number.length_hexDigits (by decide) h
  unfold groups groupLengths
  simp [hlen]

theorem Fits.flatten_groups {u : Uuid} (h : u.Fits) :
    u.groups.flatten = (Number.hexDigits 32 u.value).toList := by
  have hlen := Number.length_hexDigits (by decide) h
  unfold groups
  generalize (Number.hexDigits 32 u.value).toList = ds at hlen ⊢
  have hlast : (ds.drop 20).take 12 = ds.drop 20 :=
    List.take_of_length_le (by rw [List.length_drop]; omega)
  have hjoin : ∀ start n, (ds.drop start).take n ++ ds.drop (start + n) = ds.drop start := by
    intro start n
    rw [← List.drop_drop]
    exact List.take_append_drop n _
  simp only [List.flatten_cons, List.flatten_nil, List.append_nil, hlast]
  rw [hjoin 16 4, hjoin 12 4, hjoin 8 4, List.take_append_drop]

theorem hyphen_not_mem_groups {u : Uuid} : ∀ g ∈ u.groups, '-' ∉ g := by
  intro g hg hmem
  refine Number.hyphen_not_mem_hexDigits 32 u.value ?_
  simp only [groups, List.mem_cons, List.not_mem_nil, or_false] at hg
  generalize (Number.hexDigits 32 u.value).toList = ds at hg ⊢
  rcases hg with rfl | rfl | rfl | rfl | rfl
  · exact List.mem_of_mem_take hmem
  all_goals exact List.mem_of_mem_drop (List.mem_of_mem_take hmem)

theorem splitAt_intercalate {gs : List (List Char)} (hne : gs ≠ []) (h : ∀ g ∈ gs, '-' ∉ g) :
    Text.splitAt '-' (['-'].intercalate gs) = gs := by
  induction gs with
  | nil => exact absurd rfl hne
  | cons g gs ih =>
    have hg := h g List.mem_cons_self
    cases gs with
    | nil =>
      rw [List.intercalate_singleton, Text.splitAt_of_not_mem hg]
    | cons g' gs =>
      rw [List.intercalate_cons_cons, List.append_assoc, List.singleton_append,
        Text.splitAt_append hg,
        ih (List.cons_ne_nil _ _) fun x hx => h x (List.mem_cons_of_mem g hx)]

/-- **A written UUID** is read as itself. -/
theorem parse?_render {u : Uuid} (h : u.Fits) : parse? u.render = some u := by
  have hlen := Number.length_hexDigits (by decide) h
  have hsplit : Text.splitAt '-' (['-'].intercalate u.groups) = u.groups :=
    splitAt_intercalate (by unfold groups; exact List.cons_ne_nil _ _) hyphen_not_mem_groups
  have hgroups : ofGroups? u.render.toList = some u := by
    unfold ofGroups? ofDigits?
    simp only [toList_render, hsplit, h.length_groups, h.flatten_groups, hlen, if_true,
      Number.readBase_hexDigits]
    rfl
  -- with its hyphens the text is longer than the digits alone
  have hlong : ofDigits? u.render.toList = none := by
    unfold ofDigits?
    rw [toList_render, if_neg]
    unfold groups
    simp [List.intercalate, hlen]
  unfold parse?
  simp only [hlong, hgroups]
  rfl

/-- **The written form** stands for the UUID. -/
theorem render_inj {u v : Uuid} (hu : u.Fits) (hv : v.Fits) : u.render = v.render ↔ u = v := by
  constructor
  · intro h
    rw [← Option.some_inj, ← parse?_render hu, ← parse?_render hv, h]
  · rintro rfl
    rfl

/-! ## Where UUIDs come from -/

theorem fits_of_ofDigits? {cs : List Char} {u : Uuid} (h : ofDigits? cs = some u) : u.Fits := by
  unfold ofDigits? at h
  obtain ⟨hlen, h⟩ := Option.ite_none_right_eq_some.mp h
  obtain ⟨n, hn, rfl⟩ := Option.map_eq_some_iff.mp h
  have hlt := Number.readBase_lt hn
  rwa [hlen] at hlt

theorem fits_of_ofGroups? {cs : List Char} {u : Uuid} (h : ofGroups? cs = some u) : u.Fits := by
  unfold ofGroups? at h
  exact fits_of_ofDigits? (Option.ite_none_right_eq_some.mp h).2

theorem fits_of_parse? {text : String} {u : Uuid} (h : parse? text = some u) : u.Fits := by
  unfold parse? at h
  simp only [Option.orElse_eq_orElse, Option.orElse_eq_or, Option.or_eq_some_iff,
    Option.bind_eq_some_iff] at h
  -- whichever form it has, its digits are read in the end
  rcases h with h | ⟨-, h | ⟨-, ⟨cs, -, h⟩ | ⟨-, cs, -, h⟩⟩⟩
  · exact fits_of_ofDigits? h
  · exact fits_of_ofGroups? h
  · exact fits_of_ofGroups? h
  · exact fits_of_ofGroups? h

/-- A number of so many bytes. -/
theorem foldl_bytes_lt (bytes : List UInt8) (m : Nat) :
    bytes.foldl (fun n b => 256 * n + b.toNat) m < (m + 1) * 256 ^ bytes.length := by
  induction bytes generalizing m with
  | nil => simp
  | cons b bytes ih =>
    refine (ih (256 * m + b.toNat)).trans_le ?_
    have hb := b.toNat_lt
    rw [List.length_cons, Nat.pow_succ, Nat.mul_comm _ 256, ← Nat.mul_assoc]
    exact Nat.mul_le_mul_right _ (by omega)

theorem fits_ofBytes {bytes : List UInt8} (h : bytes.length ≤ 16) : (ofBytes bytes).Fits := by
  refine (foldl_bytes_lt bytes 0).trans_le ?_
  rw [Nat.zero_add, Nat.one_mul]
  exact Nat.pow_le_pow_right (by decide) h

theorem fits_ofName (space : Uuid) (text : String) : (ofName space text).Fits := by
  unfold ofName
  refine fits_ofBytes ?_
  rw [List.length_mapIdx, List.length_take]
  exact Nat.min_le_left _ _

end Uuid

namespace Qdrant

/-! ## Points of records -/

/-- The UUID that a record's id is turned into. -/
def uuidOf (recordId : String) : Uuid :=
  (Uuid.parse? recordId).getD (.ofName idSpace recordId)

theorem pointId_eq (recordId : String) : pointId recordId = (uuidOf recordId).render := by
  unfold pointId uuidOf
  cases Uuid.parse? recordId <;> rfl

theorem fits_uuidOf (recordId : String) : (uuidOf recordId).Fits := by
  unfold uuidOf
  cases h : Uuid.parse? recordId with
  | none => exact Uuid.fits_ofName idSpace recordId
  | some u => exact Uuid.fits_of_parse? h

/-- **Two ids are one point** exactly if they are turned into one UUID. -/
theorem pointId_eq_iff {a b : String} : pointId a = pointId b ↔ uuidOf a = uuidOf b := by
  rw [pointId_eq, pointId_eq, Uuid.render_inj (fits_uuidOf a) (fits_uuidOf b)]

/-- **Two ids of one record**: the same text, or two spellings of a UUID. -/
def SameRecord (a b : String) : Prop :=
  a = b ∨ Uuid.parse? a ≠ none ∧ Uuid.parse? a = Uuid.parse? b

instance (a b : String) : Decidable (SameRecord a b) :=
  inferInstanceAs (Decidable (_ ∨ _))

/-- **The UUIDs made from ids are different from each other and from the ids.** -/
structure MadeApart (ids : List String) : Prop where
  /-- From different ids different UUIDs are made. -/
  injective : ∀ a ∈ ids, ∀ b ∈ ids, Uuid.parse? a = none → Uuid.parse? b = none →
    Uuid.ofName idSpace a = Uuid.ofName idSpace b → a = b
  /-- No id is a UUID that is made. -/
  unused : ∀ a ∈ ids, ∀ b ∈ ids, Uuid.parse? a = none →
    Uuid.parse? b ≠ some (Uuid.ofName idSpace a)

/-- **Two ids are one point exactly if they are ids of one record.** -/
theorem pointId_eq_iff_sameRecord {ids : List String} (hmade : MadeApart ids) {a b : String}
    (ha : a ∈ ids) (hb : b ∈ ids) : pointId a = pointId b ↔ SameRecord a b := by
  rw [pointId_eq_iff]
  unfold uuidOf SameRecord
  cases hpa : Uuid.parse? a with
  | none =>
    cases hpb : Uuid.parse? b with
    | none =>
      simp only [Option.getD_none, ne_eq, not_true_eq_false, false_and, or_false]
      exact ⟨hmade.injective a ha b hb hpa hpb, fun h => h ▸ rfl⟩
    | some u =>
      -- a made UUID is not among the ids, and one text is not read in two ways
      refine iff_of_false (fun h => ?_) ?_
      · exact hmade.unused a ha b hb hpa (hpb.trans (congrArg some h.symm))
      · rintro (rfl | ⟨h, -⟩)
        · exact nomatch hpa.symm.trans hpb
        · exact h rfl
  | some u =>
    cases hpb : Uuid.parse? b with
    | none =>
      refine iff_of_false (fun h => ?_) ?_
      · exact hmade.unused b hb a ha hpb (hpa.trans (congrArg some h))
      · rintro (rfl | ⟨-, h⟩)
        · exact nomatch hpa.symm.trans hpb
        · exact nomatch h
    | some v =>
      simp only [Option.getD_some, ne_eq, reduceCtorEq, not_false_eq_true, true_and,
        Option.some_inj]
      refine ⟨Or.inr, ?_⟩
      rintro (rfl | h)
      · exact Option.some.inj (hpa.symm.trans hpb)
      · exact h

end Qdrant

end IncidentMemory
