import IncidentMemory.Proofs.Masking

/-!
# Assignments as a pattern

`Assignment.at?` reads an assignment part by part, each as long as it can be. What it
is to read is a *pattern*, and a text is searched with a pattern by trying: there may
be several ways in which the pattern matches the beginning of a text, one of them
is preferred, and if what comes after it does not match the next one is tried.

`Pattern.ways` are all these ways, in the order in which they are preferred. Only the
sign `=>` makes it necessary to go back. What has to come after a quote or after blanks
starts with neither, so that of these nothing comes unless all are taken
(`first_quote`, `first_many`). Hence what is read is the preferred way of all
(`Assignment.at?_eq_head?_ways`).
-/

namespace IncidentMemory.Redaction

open IncidentMemory.Text (isBlank)

/-- **A pattern**, which matches beginnings of texts. -/
inductive Pattern where
  /-- Nothing. -/
  | empty
  /-- A character of a class. -/
  | one (p : Char → Bool)
  /-- A pattern and then another one. -/
  | seq (p q : Pattern)
  /-- A pattern or another one, preferably the first. -/
  | or (p q : Pattern)
  /-- Characters of a class, preferably many. -/
  | many (p : Char → Bool)

namespace Pattern

/-! ## Ways of matching -/

/-- The beginnings of a text that have only characters of a class, the longest one
first, and what follows each. -/
def runs (p : Char → Bool) : List Char → List (List Char × List Char)
  | [] => [([], [])]
  | c :: s => (if p c then (runs p s).map fun (u, r) => (c :: u, r) else []) ++ [([], c :: s)]

/-- **The ways in which a pattern matches the beginning of a text**, and what
follows each; the one that is preferred comes first. -/
def ways : Pattern → List Char → List (List Char × List Char)
  | .empty, s => [([], s)]
  | .one _, [] => []
  | .one p, c :: s => if p c then [([c], s)] else []
  | .seq p q, s => (p.ways s).flatMap fun (u, r) => (q.ways r).map fun (v, t) => (u ++ v, t)
  | .or p q, s => p.ways s ++ q.ways s
  | .many p, s => runs p s

/-- A pattern or nothing, preferably the pattern. -/
def maybe (p : Pattern) : Pattern :=
  .or p .empty

/-- A certain character. -/
def char (c : Char) : Pattern :=
  .one (· == c)

/-- The letters of a key, in either case. -/
def letters : List Char → Pattern
  | [] => .empty
  | l :: w => .seq (.one (matchesLetter l)) (letters w)

/-- One of several patterns, preferably one that comes early. -/
def oneOf : List Pattern → Pattern
  | [] => .one fun _ => false
  | p :: ps => .or p (oneOf ps)

/-- A secret key. -/
def key : Pattern :=
  oneOf (secretKeys.map fun name => letters name.toList)

/-- A quote, which may be escaped; or none. -/
def quote : Pattern :=
  maybe (.seq (maybe (char '\\')) (.one fun c => c == '"' || c == '\''))

/-- The sign between a key and a value. -/
def sign : Pattern :=
  .or (.seq (char '=') (char '>')) (.or (char '=') (char ':'))

/-- What stands between a key and a value: a sign, quotes and blanks. -/
def separator : Pattern :=
  .seq quote (.seq (.many isBlank) (.seq sign (.seq (.many isBlank) quote)))

/-- A value, which is not empty. -/
def value : Pattern :=
  .seq (.one isValueChar) (.many isValueChar)

end Pattern

/-- **The ways in which an assignment can be found at the beginning of a text**,
and what follows each; the one that is preferred comes first. -/
def Assignment.ways (s : List Char) : List (Assignment × List Char) :=
  (Pattern.key.ways s).flatMap fun (key, r) => (Pattern.separator.ways r).flatMap fun (sep, r) =>
    (Pattern.value.ways r).map fun (v, rest) => (⟨key, sep, v⟩, rest)

namespace Pattern

/-! ## The first way that leads on -/

section

variable {α : Type} {k : List Char → List Char → Option α}

/-- **What comes of the first way that anything comes of.** -/
def first (p : Pattern) (s : List Char) (k : List Char → List Char → Option α) : Option α :=
  (p.ways s).findSome? fun x => k x.1 x.2

theorem findSome?_cons_eq_or {β : Type} (f : β → Option α) (b : β) (l : List β) :
    (b :: l).findSome? f = (f b).or (l.findSome? f) := by
  rw [List.findSome?_cons]
  cases f b <;> rfl

@[simp]
theorem first_empty (s : List Char) (k : List Char → List Char → Option α) :
    first .empty s k = k [] s :=
  (findSome?_cons_eq_or _ _ _).trans Option.or_none

@[simp]
theorem first_one_nil (p : Char → Bool) (k : List Char → List Char → Option α) :
    first (.one p) [] k = none :=
  rfl

@[simp]
theorem first_one_cons (p : Char → Bool) (c : Char) (s : List Char)
    (k : List Char → List Char → Option α) :
    first (.one p) (c :: s) k = if p c then k [c] s else none := by
  unfold first ways
  split
  · exact (findSome?_cons_eq_or _ _ _).trans Option.or_none
  · rfl

/-- No character is taken where the first one is not of the class. -/
theorem first_one_of_head {p : Char → Bool} {s : List Char} (h : ∀ c ∈ s.head?, p c = false) :
    first (.one p) s k = none := by
  cases s with
  | nil => rfl
  | cons c s => rw [first_one_cons, h c rfl, if_neg Bool.false_ne_true]

/-- A certain character is not taken where the text does not start with it. -/
theorem first_char_of_ne {c : Char} {s : List Char} (h : ∀ t, s ≠ c :: t) :
    first (char c) s k = none := by
  refine first_one_of_head fun d hd => ?_
  obtain ⟨t, rfl⟩ := List.head?_eq_some_iff.mp hd
  exact beq_eq_false_iff_ne.mpr fun hdc => h t (hdc ▸ rfl)

@[simp]
theorem first_char_cons (c d : Char) (s : List Char) (k : List Char → List Char → Option α) :
    first (char c) (d :: s) k = if d == c then k [d] s else none :=
  first_one_cons _ d s k

@[simp]
theorem first_or (p q : Pattern) (s : List Char) (k : List Char → List Char → Option α) :
    first (.or p q) s k = (first p s k).or (first q s k) :=
  List.findSome?_append

@[simp]
theorem first_seq (p q : Pattern) (s : List Char) (k : List Char → List Char → Option α) :
    first (.seq p q) s k = first p s fun u r => first q r fun v t => k (u ++ v) t := by
  unfold first
  rw [ways]
  induction p.ways s with
  | nil => rfl
  | cons x xs ih =>
    rw [List.flatMap_cons, List.findSome?_append, ih, List.findSome?_map, findSome?_cons_eq_or]
    rfl

/-- Where characters of a class can be taken, what comes of taking them is preferred
to what comes of taking none. -/
theorem first_many_cons (p : Char → Bool) (c : Char) (s : List Char)
    (k : List Char → List Char → Option α) :
    first (.many p) (c :: s) k
      = (if p c then first (.many p) s fun u r => k (c :: u) r else none).or (k [] (c :: s)) := by
  unfold first
  simp only [ways, runs]
  rw [List.findSome?_append, findSome?_cons_eq_or, List.findSome?_nil, Option.or_none]
  split
  · rw [List.findSome?_map]
    rfl
  · rfl

theorem first_many_nil (p : Char → Bool) (k : List Char → List Char → Option α) :
    first (.many p) [] k = k [] [] :=
  first_empty [] k

/-- **All characters of a class are taken** where nothing comes of leaving one. -/
theorem first_many {p : Char → Bool} (s : List Char)
    (hk : ∀ u c r, p c = true → k u (c :: r) = none) :
    first (.many p) s k = k (s.takeWhile p) (s.dropWhile p) := by
  induction s generalizing k with
  | nil => exact first_many_nil p k
  | cons c s ih =>
    rw [first_many_cons, List.takeWhile_cons, List.dropWhile_cons]
    split
    · next hc => rw [hk [] c s hc, Option.or_none, ih fun u => hk (c :: u)]
    · rfl

/-- All of them are taken as well where something comes of it in any case. -/
theorem first_many_some (p : Char → Bool) (s : List Char) (f : List Char → List Char → α) :
    (first (.many p) s fun u r => some (f u r)) = some (f (s.takeWhile p) (s.dropWhile p)) := by
  induction s generalizing f with
  | nil => exact first_many_nil p _
  | cons c s ih =>
    rw [first_many_cons, List.takeWhile_cons, List.dropWhile_cons]
    split
    · rw [ih fun u => f (c :: u), Option.some_or]
    · rfl

/-! ## The parts of an assignment -/

theorem first_letters (w s : List Char) (k : List Char → List Char → Option α) :
    first (letters w) s k = (spelled? w s).bind fun x => k x.1 x.2 := by
  induction w generalizing s k with
  | nil => exact first_empty s k
  | cons l w ih =>
    rw [letters, first_seq]
    cases s with
    | nil => rfl
    | cons c s =>
      rw [first_one_cons, spelled?]
      split
      · rw [ih, Option.bind_map]
        rfl
      · rfl

theorem first_oneOf (ps : List Pattern) (s : List Char) (k : List Char → List Char → Option α) :
    first (oneOf ps) s k = ps.findSome? fun p => first p s k := by
  induction ps with
  | nil => cases s <;> simp [oneOf]
  | cons p ps ih => rw [oneOf, first_or, ih, findSome?_cons_eq_or]

/-- **The keys are tried one after the other.** -/
theorem first_key (s : List Char) (k : List Char → List Char → Option α) :
    first key s k
      = secretKeys.findSome? fun name => (spelled? name.toList s).bind fun x => k x.1 x.2 := by
  unfold key
  rw [first_oneOf, List.findSome?_map]
  exact congrArg (List.findSome? · secretKeys) (funext fun _ => first_letters _ s k)

/-- **A quote is taken** where nothing comes of leaving it. -/
theorem first_quote (s : List Char)
    (hk : ∀ u c r, c ∈ ['\\', '"', '\''] → k u (c :: r) = none) :
    first quote s k = k (openingQuote s).1 (openingQuote s).2 := by
  have hsolidus := fun r => hk [] '\\' r (by decide)
  have hdouble := fun r => hk [] '"' r (by decide)
  have hsingle := fun r => hk [] '\'' r (by decide)
  fun_cases openingQuote s with
  | case1 s => simp [quote, maybe, hsolidus]
  | case2 s => simp [quote, maybe, hsolidus]
  | case3 s => simp [quote, maybe, hdouble]
  | case4 s => simp [quote, maybe, hsingle]
  | case5 s h₁ h₂ h₃ h₄ =>
    -- there is none to be taken, neither here nor after a reverse solidus
    have hs : ∀ c ∈ s.head?, (c == '"' || c == '\'') = false := by
      intro c hc
      obtain ⟨r, rfl⟩ := List.head?_eq_some_iff.mp hc
      simpa using ⟨fun h => h₃ r (h ▸ rfl), fun h => h₄ r (h ▸ rfl)⟩
    have hnext : ∀ t, s = '\\' :: t → ∀ c ∈ t.head?, (c == '"' || c == '\'') = false := by
      rintro t rfl c hc
      obtain ⟨r, rfl⟩ := List.head?_eq_some_iff.mp hc
      simpa using ⟨fun h => h₁ r (h ▸ rfl), fun h => h₂ r (h ▸ rfl)⟩
    rw [quote, maybe, first_or, first_empty, first_seq, maybe, first_or, first_empty,
      first_one_of_head hs, Option.or_none]
    suffices h : first (char '\\') s (fun u r => first (.one fun c => c == '"' || c == '\'') r
        fun v t => k (u ++ v) t) = none by rw [h, Option.none_or]
    cases s with
    | nil => rfl
    | cons c t =>
      rw [first_char_cons]
      split
      · next hc => exact first_one_of_head (hnext t (by rw [beq_iff_eq.mp hc]))
      · rfl

/-- **A value takes all the characters it can.** -/
theorem first_value (s : List Char) (f : List Char → List Char → α) :
    (first value s fun v t => some (f v t))
      = if (s.takeWhile isValueChar).isEmpty then none
        else some (f (s.takeWhile isValueChar) (s.dropWhile isValueChar)) := by
  rw [value, first_seq]
  cases s with
  | nil => rfl
  | cons c s =>
    rw [first_one_cons, List.takeWhile_cons, List.dropWhile_cons]
    split
    · exact first_many_some isValueChar s fun v t => f (c :: v) t
    · rfl

/-- No value starts with a character that cannot be in one. -/
theorem first_value_cons {c : Char} (hc : isValueChar c = false) (s : List Char)
    (f : List Char → List Char → α) : (first value (c :: s) fun v t => some (f v t)) = none := by
  rw [first_value, List.takeWhile_cons, hc]
  rfl

theorem isValueChar_of_mem_quotes : ∀ c ∈ ['\\', '"', '\''], isValueChar c = false :=
  List.all_iff_forall_prop.mp (by decide)

theorem isValueChar_of_isBlank {c : Char} (h : isBlank c = true) : isValueChar c = false := by
  unfold isValueChar
  rw [h]
  rfl

theorem valuePart?_eq (s : List Char) :
    valuePart? s
      = if ((openingQuote (s.dropWhile isBlank)).2.takeWhile isValueChar).isEmpty then none
        else some (s.takeWhile isBlank ++ (openingQuote (s.dropWhile isBlank)).1,
          (openingQuote (s.dropWhile isBlank)).2.takeWhile isValueChar,
          (openingQuote (s.dropWhile isBlank)).2.dropWhile isValueChar) :=
  rfl

/-- **What stands before a value, and the value.** -/
theorem first_valuePart (s : List Char) (f : List Char → List Char → List Char → α) :
    (first (.many isBlank) s fun gap r => first quote r fun q r => first value r fun v t =>
        some (f (gap ++ q) v t))
      = (valuePart? s).map fun x => f x.1 x.2.1 x.2.2 := by
  have hquote : ∀ gap r, (first quote r fun q r => first value r fun v t =>
      some (f (gap ++ q) v t)) = first value (openingQuote r).2 fun v t =>
        some (f (gap ++ (openingQuote r).1) v t) := fun gap r =>
    first_quote r fun u c t hc => first_value_cons (isValueChar_of_mem_quotes c hc) t _
  have hblank : ∀ gap c r, isBlank c = true → (first value (openingQuote (c :: r)).2 fun v t =>
      some (f (gap ++ (openingQuote (c :: r)).1) v t)) = none := by
    intro gap c r hc
    rw [openingQuote_of_head fun d hd => ?_]
    · exact first_value_cons (isValueChar_of_isBlank hc) r _
    · obtain rfl := Option.some.inj hd
      exact isBlank_not_mem_quotes hc
  simp only [hquote]
  rw [first_many s hblank, first_value, valuePart?_eq, apply_ite (Option.map _)]
  rfl

/-- **A sign, what stands before a value, and the value.** Here alone another way may
have to be tried. -/
theorem first_fromSign (s : List Char) (f : List Char → List Char → List Char → α) :
    (first sign s fun sg r => first (.many isBlank) r fun gap r => first quote r fun q r =>
        first value r fun v t => some (f (sg ++ (gap ++ q)) v t))
      = (Assignment.fromSign? s).map fun x => f x.1 x.2.1 x.2.2 := by
  have hvalue : ∀ sg r, (first (.many isBlank) r fun gap r => first quote r fun q r =>
      first value r fun v t => some (f (sg ++ (gap ++ q)) v t))
        = (valuePart? r).map fun x => f (sg ++ x.1) x.2.1 x.2.2 :=
    fun sg r => first_valuePart r fun mid => f (sg ++ mid)
  simp only [hvalue]
  fun_cases Assignment.fromSign? s with
  | case1 s mid v rest h => simp [sign, h]
  | case2 s h => simp [sign, h, Function.comp_def]
  | case3 s hne => simp [sign, first_char_of_ne hne, Function.comp_def]
  | case4 s => simp [sign, Function.comp_def]
  | case5 s h₁ h₂ h₃ => simp [sign, first_char_of_ne h₂, first_char_of_ne h₃]

/-- No sign starts with another character. -/
theorem fromSign?_cons {c : Char} (hc : c ∉ ['=', ':']) (s : List Char) :
    Assignment.fromSign? (c :: s) = none := by
  obtain ⟨hequals, hcolon⟩ : c ≠ '=' ∧ c ≠ ':' := by simpa using hc
  rw [Assignment.fromSign?]
  · exact fun r h => hequals (List.cons.inj h).1
  · exact fun r h => hequals (List.cons.inj h).1
  · exact fun r h => hcolon (List.cons.inj h).1

theorem isBlank_of_mem_signs : ∀ c ∈ ['=', ':'], isBlank c = false :=
  List.all_iff_forall_prop.mp (by decide)

theorem isBlank_of_mem_quotes : ∀ c ∈ ['\\', '"', '\''], isBlank c = false ∧ c ∉ ['=', ':'] :=
  List.all_iff_forall_prop.mp (by decide)

/-- **A separator and a value.** -/
theorem first_separator (s : List Char) (f : List Char → List Char → List Char → α) :
    (first separator s fun sep r => first value r fun v t => some (f sep v t))
      = (Assignment.afterKey? s).map fun x => f x.1 x.2.1 x.2.2 := by
  have hsign : ∀ q gap r, (first sign r fun sg r => first (.many isBlank) r fun gap' r =>
      first quote r fun q' r => first value r fun v t =>
        some (f (q ++ (gap ++ (sg ++ (gap' ++ q')))) v t))
          = (Assignment.fromSign? r).map fun x => f (q ++ (gap ++ x.1)) x.2.1 x.2.2 :=
    fun q gap r => first_fromSign r fun sep => f (q ++ (gap ++ sep))
  have hgap : ∀ q r, (first (.many isBlank) r fun gap r =>
      (Assignment.fromSign? r).map fun x => f (q ++ (gap ++ x.1)) x.2.1 x.2.2)
        = (Assignment.fromSign? (r.dropWhile isBlank)).map fun x =>
          f (q ++ (r.takeWhile isBlank ++ x.1)) x.2.1 x.2.2 := by
    refine fun q r => first_many r fun gap c t hc => ?_
    rw [fromSign?_cons fun h => Bool.false_ne_true ((isBlank_of_mem_signs c h).symm.trans hc)]
    rfl
  simp only [separator, first_seq, hsign, hgap]
  rw [first_quote s fun q c t hc => ?_]
  · unfold Assignment.afterKey?
    rw [Option.map_map]
    simp [Function.comp_def]
  · obtain ⟨hblank, hc⟩ := isBlank_of_mem_quotes c hc
    rw [List.dropWhile_cons, hblank, if_neg Bool.false_ne_true, fromSign?_cons hc]
    rfl

end

end Pattern

namespace Assignment

/-- **What is read is the preferred one of all assignments that can be found.** -/
theorem at?_eq_head?_ways (s : List Char) : at? s = (ways s).head? := by
  have hvalue : ∀ key sep r,
      ((Pattern.value.ways r).map fun (v, rest) => ((⟨key, sep, v⟩ : Assignment), rest)).head?
        = Pattern.first Pattern.value r fun v rest => some (⟨key, sep, v⟩, rest) := by
    intro key sep r
    rw [Pattern.first, List.head?_map]
    cases Pattern.value.ways r <;> rfl
  have hafter : ∀ key r, (Pattern.separator.ways r).findSome? (fun x =>
      ((Pattern.value.ways x.2).map fun (v, rest) => ((⟨key, x.1, v⟩ : Assignment), rest)).head?)
        = (afterKey? r).map fun x => (⟨key, x.1, x.2.1⟩, x.2.2) := by
    intro key r
    simp only [hvalue]
    exact Pattern.first_separator r fun sep v rest => ((⟨key, sep, v⟩ : Assignment), rest)
  unfold ways
  simp only [List.head?_flatMap, hafter]
  refine Eq.trans ?_ (Pattern.first_key s fun key r =>
    (afterKey? r).map fun x => ((⟨key, x.1, x.2.1⟩ : Assignment), x.2.2)).symm
  refine congrArg (List.findSome? · secretKeys) (funext fun name => ?_)
  cases spelled? name.toList s <;> rfl

/-- The long sign is preferred, and the longest value. -/
example :
    (ways "token=>x".toList).map (fun (a, rest) => (a.separator, a.value, rest))
      = [(['=', '>'], ['x'], []), (['='], ['>', 'x'], []), (['='], ['>'], ['x'])] := by
  decide

end Assignment

end IncidentMemory.Redaction
