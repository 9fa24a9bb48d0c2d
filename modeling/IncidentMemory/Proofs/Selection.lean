import IncidentMemory.Proofs.Order
import Mathlib.Data.List.Forall2

/-!
# The best of a list

A search sorts what it has found by score and takes as many as it may. So what
it takes is as much as there is up to that number, in order, and nothing that is
left out is ahead of anything taken (`isBest_take_mergeSort`). What is best by
the total order is so by value if all scores are numbers
(`IsBest.sorted_le`, `IsBest.ahead_le`).
-/

namespace IncidentMemory

/-- **The best of a list**, in order, and what is left out of it. -/
structure IsBest {α : Type} (score : α → Single) (limit : Nat) (all best others : List α) :
    Prop where
  /-- Everything is among the best or left out, as often as it is there. -/
  parts : (best ++ others).Perm all
  /-- Nothing is left out while there is room. -/
  length : best.length = min limit all.length
  /-- The best are in order. -/
  sorted : best.Pairwise fun a b => (score b).totalLe (score a) = true
  /-- What is left out is not ahead of any of them. -/
  ahead : ∀ a ∈ best, ∀ b ∈ others, (score b).totalLe (score a) = true

variable {α : Type} {score : α → Single} {limit : Nat} {all best others : List α}

/-- A list sorted by score is in order. -/
theorem pairwise_mergeSort_totalLe (score : α → Single) (all : List α) :
    (all.mergeSort fun a b => (score b).totalLe (score a)).Pairwise
      fun a b => (score b).totalLe (score a) = true :=
  List.pairwise_mergeSort
    (fun a b c hab hbc => Single.totalLe_trans (score c) (score b) (score a) hbc hab)
    (fun a b => Single.totalLe_total (score b) (score a)) all

/-- **Sorting keeps what scores alike in its order.** -/
theorem filter_mergeSort_totalLe (score : α → Single) (all : List α) (x : Single) :
    (all.mergeSort fun a b => (score b).totalLe (score a)).filter (fun a => score a = x)
      = all.filter fun a => score a = x := by
  have halike : (all.filter fun a => score a = x).Pairwise
      fun a b => (score b).totalLe (score a) = true := by
    refine List.pairwise_of_forall_mem_list fun a ha b hb => ?_
    rw [of_decide_eq_true (List.mem_filter.mp ha).2, of_decide_eq_true (List.mem_filter.mp hb).2]
    exact (Bool.or_self _).symm.trans (Single.totalLe_total x x)
  -- they are in order as they came, so the sorted list has them in that order, and no others
  have hsub := List.sublist_mergeSort
    (fun a b c hab hbc => Single.totalLe_trans (score c) (score b) (score a) hbc hab)
    (fun a b => Single.totalLe_total (score b) (score a)) halike List.filter_sublist
  have hkept := hsub.filter fun a => decide (score a = x)
  rw [List.filter_filter] at hkept
  simp only [Bool.and_self] at hkept
  exact (hkept.eq_of_length
    ((List.mergeSort_perm all _).filter _).length_eq.symm).symm

/-- Lists that are related element by element stay so when both are sorted by the same
scores. -/
theorem forall₂_mergeSort_totalLe {α β : Type} {R : α → β → Prop} {f : α → Single}
    {g : β → Single} (hscore : ∀ a b, R a b → g b = f a) {as : List α} {bs : List β}
    (h : List.Forall₂ R as bs) :
    List.Forall₂ R (as.mergeSort fun a b => (f b).totalLe (f a))
      (bs.mergeSort fun a b => (g b).totalLe (g a)) := by
  obtain ⟨hlen, hzip⟩ := List.forall₂_iff_zip.mp h
  have hscores : ∀ z ∈ as.zip bs, g z.2 = f z.1 := fun z hz => hscore z.1 z.2 (hzip hz)
  -- both are the sorted list of pairs, seen from its two sides
  have hleft : ((as.zip bs).mergeSort fun y z => (f z.1).totalLe (f y.1)).map Prod.fst
      = as.mergeSort fun a b => (f b).totalLe (f a) := by
    rw [List.map_mergeSort (s := fun a b => (f b).totalLe (f a)) (fun _ _ _ _ => rfl),
      List.map_fst_zip (Nat.le_of_eq hlen)]
  have hright : ((as.zip bs).mergeSort fun y z => (f z.1).totalLe (f y.1)).map Prod.snd
      = bs.mergeSort fun a b => (g b).totalLe (g a) := by
    rw [List.map_mergeSort (s := fun a b => (g b).totalLe (g a))
      (fun y hy z hz => by rw [hscores y hy, hscores z hz]),
      List.map_snd_zip (Nat.le_of_eq hlen.symm)]
  rw [← hleft, ← hright, List.forall₂_map_left_iff, List.forall₂_map_right_iff, List.forall₂_same]
  exact fun z hz => hzip (List.mem_mergeSort.mp hz)

/-- **Sorting and taking from the front gives the best.** -/
theorem isBest_take_mergeSort (score : α → Single) (limit : Nat) (all : List α) :
    IsBest score limit all
      ((all.mergeSort fun a b => (score b).totalLe (score a)).take limit)
      ((all.mergeSort fun a b => (score b).totalLe (score a)).drop limit) := by
  have hsorted := pairwise_mergeSort_totalLe score all
  rw [← List.take_append_drop limit (all.mergeSort _), List.pairwise_append] at hsorted
  refine ⟨?_, ?_, hsorted.1, hsorted.2.2⟩
  · rw [List.take_append_drop]
    exact List.mergeSort_perm all _
  · rw [List.length_take, List.length_mergeSort]

namespace IsBest

theorem mem_of_mem (h : IsBest score limit all best others) {a : α} (ha : a ∈ best) : a ∈ all :=
  h.parts.mem_iff.mp (List.mem_append_left others ha)

/-- The best of a list are the best of it in any order. -/
theorem of_perm (h : IsBest score limit all best others) {all' : List α} (hperm : all.Perm all') :
    IsBest score limit all' best others where
  parts := h.parts.trans hperm
  length := hperm.length_eq ▸ h.length
  sorted := h.sorted
  ahead := h.ahead

/-- What differs in a list differs among its best. -/
theorem pairwise (h : IsBest score limit all best others) {differ : α → α → Prop}
    (hsymm : ∀ {a b}, differ a b → differ b a) (hall : all.Pairwise differ) :
    best.Pairwise differ :=
  (List.pairwise_append.mp ((h.parts.pairwise_iff hsymm).mpr hall)).1

/-- Sorting the best changes nothing, and neither does taking as many of them. -/
theorem take_mergeSort (h : IsBest score limit all best others) :
    (best.mergeSort fun a b => (score b).totalLe (score a)).take limit = best := by
  rw [List.mergeSort_of_pairwise h.sorted, List.take_of_length_le]
  rw [h.length]
  exact Nat.min_le_left _ _

/-- Between numbers the order is that of values. -/
theorem sorted_le (h : IsBest score limit all best others)
    (hnum : ∀ a ∈ all, (score a).isNaN = false) :
    best.Pairwise fun a b => score b ≤ score a :=
  h.sorted.imp_of_mem fun ha hb hle =>
    Single.le_of_totalLe (hnum _ (h.mem_of_mem hb)) (hnum _ (h.mem_of_mem ha)) hle

theorem ahead_le (h : IsBest score limit all best others)
    (hnum : ∀ a ∈ all, (score a).isNaN = false) :
    ∀ a ∈ best, ∀ b ∈ others, score b ≤ score a := by
  intro a ha b hb
  have hb' : b ∈ all := h.parts.mem_iff.mp (List.mem_append_right best hb)
  exact Single.le_of_totalLe (hnum b hb') (hnum a (h.mem_of_mem ha)) (h.ahead a ha b hb)

end IsBest

end IncidentMemory
