import IncidentMemory.Proofs.Pattern
import IncidentMemory.Proofs.Remasking

/-!
# The cut of a text at its assignments

What masking does to a text is said here without the reader that does it. A text is
*cut* into assignments and what stands between them, such that each assignment is the
preferred one of all that the pattern finds where it starts, and the pattern finds
none that starts in between. There is exactly one cut like this, and a masked text is
the text with the marker in the place of the values of its cut (`redact_cut`).

The masked text has one as well. It has the same keys and separators in the same
order, and each value is the marker up to its bracket: masking creates no assignment
and loses none.
-/

namespace IncidentMemory.Redaction

/-- **A text in parts.** -/
structure Cut where
  /-- What stands before the first assignment. -/
  front : List Char
  /-- The assignments, each with what stands between it and the next one. -/
  parts : List (Assignment × List Char)

namespace Cut

/-- The text from an assignment on. -/
def textOf (parts : List (Assignment × List Char)) : List Char :=
  parts.flatMap fun (a, u) => a.render ++ u

/-- The text that is in parts. -/
def text (c : Cut) : List Char :=
  c.front ++ textOf c.parts

/-- The text with the marker in the place of every value. -/
def masked (c : Cut) : List Char :=
  c.front ++ c.parts.flatMap fun (a, u) => a.masked ++ u

/-- **No assignment can be found that starts in** `u`, if `rest` comes after it. -/
def IsFree (u rest : List Char) : Prop :=
  ∀ p ch s, u = p ++ ch :: s → Assignment.ways (ch :: s ++ rest) = []

/-- **Each assignment is the preferred one** of all that can be found where it starts,
and none can be found that starts between it and the next one. -/
def ArePreferred : List (Assignment × List Char) → Prop
  | [] => True
  | (a, u) :: parts =>
    (Assignment.ways (a.render ++ (u ++ textOf parts))).head? = some (a, u ++ textOf parts)
      ∧ IsFree u (textOf parts) ∧ ArePreferred parts

/-- **A text in those parts in which its assignments are found.** -/
structure IsOf (c : Cut) (t : List Char) : Prop where
  /-- It is the text. -/
  text : c.text = t
  /-- No assignment starts before the first one. -/
  free : IsFree c.front (textOf c.parts)
  /-- The assignments are those that are found. -/
  preferred : ArePreferred c.parts

/-- **Each value is a whole run of characters** that may be in a value, and not empty. -/
def HasWholeValues (c : Cut) : Prop :=
  ∀ before a u after, c.parts = before ++ (a, u) :: after →
    a.value ≠ [] ∧ (∀ ch ∈ a.value, isValueChar ch = true)
      ∧ ∀ ch ∈ (u ++ textOf after).head?, isValueChar ch = false

/-- The parts of the text once it is masked: the bracket of every marker is no part of
the value. -/
def again (c : Cut) : Cut :=
  ⟨c.front, c.parts.map fun (a, u) => (⟨a.key, a.separator, opened⟩, ']' :: u)⟩

/-! ## Parts and pieces -/

/-- The pieces that the parts consist of. -/
def pieces (c : Cut) : List Piece :=
  c.front.map .plain ++ c.parts.flatMap fun (a, u) => .secret a :: u.map .plain

/-- Pieces put together to parts. -/
def ofPieces : List Piece → Cut
  | [] => ⟨[], []⟩
  | .plain ch :: ps => ⟨ch :: (ofPieces ps).front, (ofPieces ps).parts⟩
  | .secret a :: ps => ⟨[], (a, (ofPieces ps).front) :: (ofPieces ps).parts⟩

theorem pieces_ofPieces (ps : List Piece) : (ofPieces ps).pieces = ps := by
  induction ps with
  | nil => rfl
  | cons p ps ih =>
    unfold pieces at ih ⊢
    cases p with
    | plain ch => rw [ofPieces, List.map_cons, List.cons_append, ih]
    | secret a =>
      rw [ofPieces, List.flatMap_cons, List.map_nil, List.nil_append, List.cons_append, ih]

theorem ofPieces_append (u : List Char) (ps : List Piece) :
    ofPieces (u.map .plain ++ ps) = ⟨u ++ (ofPieces ps).front, (ofPieces ps).parts⟩ := by
  induction u with
  | nil => rfl
  | cons ch u ih => rw [List.map_cons, List.cons_append, ofPieces, ih]; rfl

theorem ofPieces_pieces (c : Cut) : ofPieces c.pieces = c := by
  have hparts : ∀ parts : List (Assignment × List Char),
      ofPieces (parts.flatMap fun (a, u) => .secret a :: u.map .plain) = ⟨[], parts⟩ := by
    intro parts
    induction parts with
    | nil => rfl
    | cons p parts ih =>
      rw [List.flatMap_cons, List.cons_append, ofPieces, ofPieces_append, ih, List.append_nil]
  rw [pieces, ofPieces_append, hparts, List.append_nil]

theorem masked_pieces (c : Cut) : c.pieces.flatMap Piece.masked = c.masked := by
  have hplain : ∀ u : List Char, (u.map Piece.plain).flatMap Piece.masked = u := by
    intro u
    rw [List.flatMap_map]
    exact List.flatMap_singleton' u
  rw [pieces, masked, List.flatMap_append, hplain, List.flatMap_assoc]
  congr 1
  refine List.flatMap_congr fun p _ => ?_
  rw [List.flatMap_cons, hplain]
  rfl

theorem again_pieces (c : Cut) : c.pieces.flatMap (Piece.again 1) = c.again.pieces := by
  have hplain : ∀ u : List Char, (u.map Piece.plain).flatMap (Piece.again 1) = u.map .plain := by
    intro u
    rw [List.flatMap_map]
    exact List.flatMap_pure_eq_map Piece.plain u
  rw [pieces, pieces, again, List.flatMap_append, hplain, List.flatMap_assoc, List.flatMap_map]
  congr 1
  refine List.flatMap_congr fun p _ => ?_
  rw [List.flatMap_cons, hplain]
  rfl

theorem any_pieces_eq_false_iff (c : Cut) :
    c.pieces.any Piece.isSecret = false ↔ c.parts = [] := by
  have hfront : (c.front.map Piece.plain).any Piece.isSecret = false := by
    simp [Piece.isSecret]
  rw [pieces, List.any_append, hfront, Bool.false_or]
  cases c.parts with
  | nil => exact iff_of_true rfl rfl
  | cons p parts => exact iff_of_false Bool.noConfusion (List.cons_ne_nil p parts)

/-! ## The cut of a text -/

theorem ways_eq_nil_iff (s : List Char) : Assignment.ways s = [] ↔ Assignment.at? s = none := by
  rw [Assignment.at?_eq_head?_ways, List.head?_eq_none_iff]

theorem isFree_nil (rest : List Char) : IsFree [] rest := by
  intro p ch s h
  exact absurd h (by simp)

theorem isFree_cons_iff {ch : Char} {u rest : List Char} :
    IsFree (ch :: u) rest ↔ Assignment.at? (ch :: (u ++ rest)) = none ∧ IsFree u rest := by
  rw [← ways_eq_nil_iff]
  constructor
  · exact fun h => ⟨h [] ch u rfl, fun p c s hu => h (ch :: p) c s (by rw [hu]; rfl)⟩
  · rintro ⟨hfirst, hu⟩ p c s heq
    cases p with
    | nil =>
      obtain ⟨rfl, rfl⟩ := List.cons.inj heq
      exact hfirst
    | cons d p => exact hu p c s (List.cons.inj heq).2

/-- Where no assignment starts, a text is cut into its characters. -/
theorem split_of_isFree {u rest : List Char} (h : IsFree u rest) :
    split (u ++ rest) = u.map .plain ++ split rest := by
  induction u with
  | nil => rfl
  | cons ch u ih =>
    obtain ⟨hnone, hu⟩ := isFree_cons_iff.mp h
    rw [List.cons_append, split_cons_of_at? hnone, ih hu]
    rfl

/-- The pieces of a text from an assignment on. -/
theorem split_textOf {parts : List (Assignment × List Char)} (h : ArePreferred parts) :
    split (textOf parts) = parts.flatMap fun (a, u) => .secret a :: u.map .plain := by
  induction parts with
  | nil => simp [textOf, split]
  | cons p parts ih =>
    obtain ⟨a, u⟩ := p
    obtain ⟨hfirst, hfree, hparts⟩ := h
    rw [← Assignment.at?_eq_head?_ways] at hfirst
    rw [textOf, List.flatMap_cons, List.append_assoc, List.flatMap_cons]
    refine (split_of_at? hfirst).trans ?_
    rw [split_of_isFree hfree, ih hparts]
    rfl

theorem isOf_ofPieces (t : List Char) : (ofPieces (split t)).IsOf t := by
  fun_induction split t with
  | case1 => exact ⟨rfl, isFree_nil _, trivial⟩
  | case2 ch s a rest h ih =>
    have hrest : (ofPieces (split rest)).front ++ textOf (ofPieces (split rest)).parts = rest :=
      ih.text
    refine ⟨?_, isFree_nil _, ?_, ih.free, ih.preferred⟩
    · show textOf ((a, (ofPieces (split rest)).front) :: (ofPieces (split rest)).parts) = ch :: s
      rw [textOf, List.flatMap_cons, List.append_assoc]
      exact (congrArg (a.render ++ ·) hrest).trans (Assignment.at?_append h).1
    · rw [hrest, ← Assignment.at?_eq_head?_ways, (Assignment.at?_append h).1]
      exact h
  | case3 ch s h ih =>
    refine ⟨congrArg (ch :: ·) ih.text, isFree_cons_iff.mpr ⟨?_, ih.free⟩, ih.preferred⟩
    exact (congrArg (fun x => Assignment.at? (ch :: x)) ih.text).trans h

/-- **The parts of a text are those of its pieces.** -/
theorem isOf_iff {c : Cut} {t : List Char} : c.IsOf t ↔ c = ofPieces (split t) := by
  constructor
  · intro h
    rw [← h.text, text, split_of_isFree h.free, split_textOf h.preferred]
    exact (ofPieces_pieces c).symm
  · rintro rfl
    exact isOf_ofPieces t

/-! ## Values -/

/-- A value consists of characters that may be in one. -/
theorem isValueChar_of_at? {s rest : List Char} {a : Assignment}
    (h : Assignment.at? s = some (a, rest)) : ∀ ch ∈ a.value, isValueChar ch = true := by
  obtain ⟨-, t, -, hread⟩ := Assignment.at?_eq_some_iff.mp h
  exact (Reading.afterKey?_isRead openingQuote_append
    ((Reading.ordinary_afterKey? t).trans hread)).value_mem

theorem ArePreferred.append {before parts : List (Assignment × List Char)}
    (h : ArePreferred (before ++ parts)) : ArePreferred parts := by
  induction before with
  | nil => exact h
  | cons p before ih => exact ih h.2.2

/-- **No value that is found can be made longer.** -/
theorem IsOf.hasWholeValues {c : Cut} {t : List Char} (h : c.IsOf t) : c.HasWholeValues := by
  intro before a u after hparts
  have hpreferred := h.preferred
  rw [hparts] at hpreferred
  obtain ⟨hfirst, -, -⟩ := hpreferred.append
  rw [← Assignment.at?_eq_head?_ways] at hfirst
  exact ⟨(Assignment.at?_append hfirst).2, isValueChar_of_at? hfirst, Assignment.at?_rest hfirst⟩

end Cut

/-- **What masking does to a text.** There is exactly one cut of the text in which all
assignments are the preferred ones and none starts in between. Its values are whole,
the marker stands in their place in the masked text, and nothing else is changed;
whether anything was masked is told by whether the cut has an assignment. The masked
text has exactly one cut as well: it has the same keys and separators, every value is
the marker up to its bracket, and the bracket begins what stands after it. -/
theorem redact_cut (t : String) :
    ∃ c : Cut, (∀ d : Cut, d.IsOf t.toList ↔ d = c) ∧ c.HasWholeValues
      ∧ (redact t).toList = c.masked ∧ (hasSecret t = false ↔ c.parts = [])
      ∧ ∀ d : Cut, d.IsOf (redact t).toList ↔ d = c.again := by
  have hsplit := Cut.pieces_ofPieces (split t.toList)
  have hredact : (redact t).toList = redactChars t.toList := String.toList_ofList
  refine ⟨Cut.ofPieces (split t.toList), fun d => Cut.isOf_iff,
    (Cut.isOf_ofPieces t.toList).hasWholeValues, ?_, ?_, fun d => ?_⟩
  · rw [← Cut.masked_pieces, hsplit, hredact]
    rfl
  · rw [← Cut.any_pieces_eq_false_iff, hsplit]
    rfl
  · rw [Cut.isOf_iff, hredact, split_redactChars, ← Cut.ofPieces_pieces (Cut.again _),
      ← Cut.again_pieces, hsplit]

end IncidentMemory.Redaction
