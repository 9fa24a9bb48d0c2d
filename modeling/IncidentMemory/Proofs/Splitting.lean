import IncidentMemory.Text.Blank
import Mathlib.Data.List.Basic
import Mathlib.Data.List.TakeDrop
import Mathlib.Data.List.TakeWhile

/-!
# Texts split at a character

`splitAt` undoes the joining of texts with a character between them. Two texts that are
joined are split apart again, whatever they hold (`splitAt_append_cons`), so only what is
in a part can split it further. The lines of a text are its parts at line feeds.
-/

namespace IncidentMemory.Text

theorem splitAt_ne_nil (sep : Char) (s : List Char) : splitAt sep s ≠ [] := by
  cases s with
  | nil => exact List.cons_ne_nil _ _
  | cons c s =>
    rw [splitAt]
    split
    · exact List.cons_ne_nil _ _
    · split <;> exact List.cons_ne_nil _ _

/-- A character that does not separate joins the first part. -/
theorem splitAt_cons_of_ne {sep c : Char} (h : c ≠ sep) (s : List Char) :
    splitAt sep (c :: s) = (splitAt sep s).modifyHead (c :: ·) := by
  rw [splitAt, if_neg h]
  cases hs : splitAt sep s with
  | nil => exact absurd hs (splitAt_ne_nil sep s)
  | cons part parts => rfl

/-- **Two texts that were joined** with the character are split apart again. -/
theorem splitAt_append_cons (sep : Char) (s t : List Char) :
    splitAt sep (s ++ sep :: t) = splitAt sep s ++ splitAt sep t := by
  induction s with
  | nil =>
    show splitAt sep (sep :: t) = [] :: splitAt sep t
    rw [splitAt, if_pos rfl]
  | cons c s ih =>
    rw [List.cons_append]
    by_cases hc : c = sep
    · rw [splitAt, if_pos hc, splitAt, if_pos hc, ih, List.cons_append]
    · rw [splitAt_cons_of_ne hc, splitAt_cons_of_ne hc, ih]
      cases hs : splitAt sep s with
      | nil => exact absurd hs (splitAt_ne_nil sep s)
      | cons part parts => rfl

/-- Without the character there is one part. -/
theorem splitAt_of_not_mem {sep : Char} {part : List Char} (h : sep ∉ part) :
    splitAt sep part = [part] := by
  induction part with
  | nil => rfl
  | cons c part ih =>
    have hc : c ≠ sep := fun heq => h (heq ▸ List.mem_cons_self)
    rw [splitAt_cons_of_ne hc, ih fun hmem => h (List.mem_cons_of_mem c hmem)]
    rfl

/-- Splitting at a character gives what is in front of it first. -/
theorem splitAt_append {sep : Char} {part : List Char} (h : sep ∉ part) (rest : List Char) :
    splitAt sep (part ++ sep :: rest) = part :: splitAt sep rest := by
  rw [splitAt_append_cons, splitAt_of_not_mem h, List.singleton_append]

/-- What the character is not in joins the first part. -/
theorem splitAt_append_of_not_mem {sep : Char} {start : List Char} (h : sep ∉ start)
    (s : List Char) : splitAt sep (start ++ s) = (splitAt sep s).modifyHead (start ++ ·) := by
  induction start with
  | nil =>
    show splitAt sep s = (splitAt sep s).modifyHead id
    rw [List.modifyHead_id, id]
  | cons c start ih =>
    have hc : c ≠ sep := fun heq => h (heq ▸ List.mem_cons_self)
    rw [List.cons_append, splitAt_cons_of_ne hc, ih fun hmem => h (List.mem_cons_of_mem c hmem),
      List.modifyHead_modifyHead]
    rfl

/-- At the first occurrence of the character the text is in two. -/
theorem splitOnce_append {sep : Char} {part : List Char} (h : sep ∉ part) (rest : List Char) :
    splitOnce sep (part ++ sep :: rest) = some (part, rest) := by
  have hpart : ∀ c ∈ part, decide (c ≠ sep) = true := fun c hc =>
    decide_eq_true fun heq => h (heq ▸ hc)
  have hspan : (part ++ sep :: rest).span (· ≠ sep) = (part, sep :: rest) := by
    rw [List.span_eq_takeWhile_dropWhile, List.takeWhile_append_of_pos hpart,
      List.dropWhile_append_of_pos hpart]
    simp
  rw [splitOnce, hspan]

theorem splitOnce_of_not_mem {sep : Char} {s : List Char} (h : sep ∉ s) :
    splitOnce sep s = none := by
  have hall : ∀ c ∈ s, decide (c ≠ sep) = true := fun c hc =>
    decide_eq_true fun heq => h (heq ▸ hc)
  have hspan : s.span (· ≠ sep) = (s, []) := by
    rw [List.span_eq_takeWhile_dropWhile, List.takeWhile_eq_self_iff.mpr hall,
      List.dropWhile_eq_nil_iff.mpr hall]
  rw [splitOnce, hspan]

/-- **No part has the character in it.** -/
theorem not_mem_of_mem_splitAt {sep : Char} {s part : List Char} (h : part ∈ splitAt sep s) :
    sep ∉ part := by
  induction s generalizing part with
  | nil =>
    obtain rfl := List.mem_singleton.mp h
    exact List.not_mem_nil
  | cons c s ih =>
    by_cases hc : c = sep
    · rw [splitAt, if_pos hc] at h
      rcases List.mem_cons.mp h with rfl | h
      · exact List.not_mem_nil
      · exact ih h
    · rw [splitAt_cons_of_ne hc] at h
      cases hs : splitAt sep s with
      | nil => exact absurd hs (splitAt_ne_nil sep s)
      | cons head parts =>
        rw [hs] at h ih
        rcases List.mem_cons.mp h with rfl | h
        · exact fun hmem => (List.mem_cons.mp hmem).elim (fun heq => hc heq.symm)
            (ih List.mem_cons_self)
        · exact ih (List.mem_cons_of_mem head h)

/-- Texts that each end in the character. -/
theorem splitAt_flatMap {α : Type} (sep : Char) (f : α → List Char) (xs : List α)
    (rest : List Char) :
    splitAt sep (xs.flatMap (fun x => f x ++ [sep]) ++ rest)
      = xs.flatMap (fun x => splitAt sep (f x)) ++ splitAt sep rest := by
  induction xs with
  | nil => rfl
  | cons x xs ih =>
    rw [List.flatMap_cons, List.flatMap_cons, List.append_assoc, List.append_assoc,
      List.singleton_append, splitAt_append_cons, ih, List.append_assoc]

/-! ## Lines -/

/-- **The lines of a text**: its parts at line feeds. -/
def lines (s : String) : List String :=
  (splitAt '\n' s.toList).map String.ofList

theorem lines_of_not_mem {s : String} (h : '\n' ∉ s.toList) : lines s = [s] := by
  unfold lines
  rw [splitAt_of_not_mem h, List.map_singleton, String.ofList_toList]

/-- A line has no line feed in it. -/
theorem not_mem_of_mem_lines {s line : String} (h : line ∈ lines s) : '\n' ∉ line.toList := by
  obtain ⟨part, hpart, rfl⟩ := List.mem_map.mp h
  rw [String.toList_ofList]
  exact not_mem_of_mem_splitAt hpart

theorem lines_eq_cons (s : String) : ∃ line others, lines s = line :: others := by
  unfold lines
  cases hs : splitAt '\n' s.toList with
  | nil => exact absurd hs (splitAt_ne_nil _ _)
  | cons part parts => exact ⟨_, _, rfl⟩

/-- What is put in front of a text, on one line, joins its first line. -/
theorem lines_append_of_not_mem {start : String} (h : '\n' ∉ start.toList) (s : String) :
    lines (start ++ s) = (lines s).modifyHead (start ++ ·) := by
  unfold lines
  rw [String.toList_append, splitAt_append_of_not_mem h]
  cases splitAt '\n' s.toList with
  | nil => rfl
  | cons part parts => simp

end IncidentMemory.Text
