import IncidentMemory.Http.Server
import IncidentMemory.Proofs.Routine

/-!
# What a key keeps out

A server with a key looks at the path and at one header of a request, before it
looks for a route, a method or a body. `IsShown` says what has to be in that header,
in terms of its bytes, and `Server.admits_iff` that this and the path are all that
counts.

What follows from it is `Server.keeps_out`. A request that does not show the key is
answered with 401 at once, and nothing is done for it but two events reported. Every
other request is answered by the very routine that answers it where no key is set,
so no interpreter of routines can tell the two servers apart.
-/

namespace IncidentMemory

namespace Text

/-- A text without the literal that it starts with. -/
theorem dropLiteral?_eq_some_iff {literal s rest : List Char} :
    dropLiteral? literal s = some rest ↔ s = literal ++ rest := by
  induction literal generalizing s with
  | nil =>
    rw [dropLiteral?, Option.some.injEq]
    rfl
  | cons p ps ih =>
    cases s with
    | nil => exact iff_of_false (fun h => nomatch h) (fun h => nomatch h)
    | cons c cs =>
      rw [dropLiteral?, List.cons_append, List.cons.injEq]
      by_cases hc : p = c
      · rw [if_pos hc, ih, and_iff_right hc.symm]
      · rw [if_neg hc]
        exact iff_of_false (fun h => nomatch h) fun h => hc h.1.symm

/-- Bytes that are ASCII are one character each. -/
theorem decodeRuns_of_ascii {bytes : List UInt8} (h : ∀ b ∈ bytes, b < 0x80) :
    decodeRuns bytes = bytes.map fun b => some (Char.ofNat b.toNat) := by
  induction bytes with
  | nil => rw [decodeRuns]; rfl
  | cons b rest ih =>
    have hstep : utf8Step b rest = .char (Char.ofNat b.toNat) rest :=
      if_pos (h b List.mem_cons_self)
    rw [decodeRuns]
    split
    · next heq =>
      obtain ⟨rfl, rfl⟩ := Utf8Step.char.inj (hstep.symm.trans heq)
      rw [ih fun d hd => h d (List.mem_cons_of_mem b hd), List.map_cons]
    · next heq => cases hstep.symm.trans heq

/-- **The text of ASCII bytes.** -/
theorem decode?_of_ascii {bytes : List UInt8} (h : ∀ b ∈ bytes, b < 0x80) :
    decode? bytes = some (String.ofList (bytes.map fun b => Char.ofNat b.toNat)) := by
  unfold decode?
  rw [decodeRuns_of_ascii h, List.mapM_map]
  exact congrArg (Option.map String.ofList) List.mapM_pure

end Text

namespace Http

/-! ## What a header says -/

/-- **The first header of a name**, in any case, and its value. -/
def Request.HasFirst (r : Request) (name : String) (value : List UInt8) : Prop :=
  ∃ before found after, r.headers = before ++ (found, value) :: after
    ∧ Text.eqIgnoringCase name found = true
    ∧ ∀ h ∈ before, Text.eqIgnoringCase name h.1 = false

/-- **Bytes that spell a text in visible ASCII**, to which the tab belongs. -/
def Spells (bytes : List UInt8) (s : String) : Prop :=
  (∀ b ∈ bytes, (0x20 ≤ b ∧ b < 0x7F) ∨ b = 0x09)
    ∧ s.toList = bytes.map fun b => Char.ofNat b.toNat

theorem Request.header?_eq_some_iff {r : Request} {name : String} {value : List UInt8} :
    r.header? name = some value ↔ r.HasFirst name value := by
  unfold header? HasFirst
  rw [Option.map_eq_some_iff]
  constructor
  · rintro ⟨⟨found, v⟩, hfind, rfl⟩
    obtain ⟨hfound, before, after, hheaders, hbefore⟩ := List.find?_eq_some_iff_append.mp hfind
    exact ⟨before, found, after, hheaders, hfound, fun h hh => by simpa using hbefore h hh⟩
  · rintro ⟨before, found, after, hheaders, hfound, hbefore⟩
    refine ⟨(found, value), List.find?_eq_some_iff_append.mpr
      ⟨hfound, before, after, hheaders, fun h hh => by simpa using hbefore h hh⟩, rfl⟩

/-- **The text of a header** is what its bytes spell. -/
theorem Request.headerText?_eq_some_iff {r : Request} {name s : String} :
    r.headerText? name = some s ↔ ∃ bytes, r.HasFirst name bytes ∧ Spells bytes s := by
  unfold headerText?
  rw [Option.bind_eq_some_iff]
  refine exists_congr fun bytes => and_congr header?_eq_some_iff ?_
  have hvisible : (bytes.all fun b => (0x20 ≤ b && b < 0x7F) || b = 0x09) = true
      ↔ ∀ b ∈ bytes, (0x20 ≤ b ∧ b < 0x7F) ∨ b = 0x09 := by
    simp only [List.all_eq_true, Bool.or_eq_true, Bool.and_eq_true, decide_eq_true_eq]
  unfold Spells
  by_cases hall : ∀ b ∈ bytes, (0x20 ≤ b ∧ b < 0x7F) ∨ b = 0x09
  · have hascii : ∀ b ∈ bytes, b < 0x80 := by
      intro b hb
      rcases hall b hb with ⟨-, h⟩ | rfl
      · exact UInt8.lt_trans h (by decide)
      · decide
    rw [if_pos (hvisible.mpr hall), Text.decode?_of_ascii hascii, Option.some.injEq,
      ← String.toList_inj, String.toList_ofList, eq_comm, and_iff_right hall]
  · rw [if_neg (mt hvisible.mp hall)]
    exact iff_of_false (fun h => nomatch h) fun h => hall h.1

/-! ## What is let in -/

/-- What may stand before the key. -/
def schemes : List String :=
  ["Bearer ", "Token "]

/-- **The key is shown**: there is one, and the first `Authorization` header spells it
behind one of the schemes. -/
def IsShown (key : String) (r : Request) : Prop :=
  key ≠ "" ∧ ∃ value, r.HasFirst "authorization" value
    ∧ ∃ scheme ∈ schemes, Spells value (scheme ++ key)

namespace Server

/-- No text has both schemes at its beginning. -/
theorem dropLiteral?_bearer_token (key : String) :
    Text.dropLiteral? "Bearer ".toList ("Token " ++ key).toList = none := by
  rw [String.toList_append]
  rfl

/-- **The key that a request shows**, by what its header says. -/
theorem presentedKey?_eq_some_iff {r : Request} {key : String} :
    presentedKey? r = some key
      ↔ ∃ scheme ∈ schemes, r.headerText? "authorization" = some (scheme ++ key) := by
  have hdrop : ∀ scheme value : String,
      Text.dropLiteral? scheme.toList value.toList = some key.toList ↔ value = scheme ++ key := by
    intro scheme value
    rw [Text.dropLiteral?_eq_some_iff, ← String.toList_append, String.toList_inj]
  have hkey : ∀ o : Option (List Char),
      o.map String.ofList = some key ↔ o = some key.toList := by
    intro o
    rw [Option.map_eq_some_iff]
    constructor
    · rintro ⟨cs, rfl, rfl⟩
      rw [String.toList_ofList]
    · rintro rfl
      exact ⟨_, rfl, String.ofList_toList⟩
  have horElse : ∀ (o o' : Option (List Char)) (cs : List Char),
      (o <|> o') = some cs ↔ o = some cs ∨ o = none ∧ o' = some cs := by
    rintro (_ | _) o' cs <;> simp
  unfold presentedKey?
  rw [Option.bind_eq_some_iff]
  simp only [hkey, horElse, hdrop, schemes, List.mem_cons, List.not_mem_nil,
    or_false, exists_eq_or_imp, exists_eq_left]
  constructor
  · rintro ⟨value, hvalue, rfl | ⟨-, rfl⟩⟩
    · exact .inl hvalue
    · exact .inr hvalue
  · rintro (hvalue | hvalue)
    · exact ⟨_, hvalue, .inl rfl⟩
    · exact ⟨_, hvalue, .inr ⟨dropLiteral?_bearer_token key, rfl⟩⟩

theorem showsKey_iff {key : String} {r : Request} : showsKey key r = true ↔ IsShown key r := by
  have hempty : key.isEmpty = false ↔ key ≠ "" := by
    rw [← Bool.not_eq_true, String.isEmpty_iff]
  unfold showsKey IsShown
  rw [Bool.and_eq_true, Bool.not_eq_true', hempty, beq_iff_eq, presentedKey?_eq_some_iff]
  refine and_congr_right fun _ => ?_
  simp only [Request.headerText?_eq_some_iff]
  constructor
  · rintro ⟨scheme, hscheme, value, hvalue, hspells⟩
    exact ⟨value, hvalue, scheme, hscheme, hspells⟩
  · rintro ⟨value, hvalue, scheme, hscheme, hspells⟩
    exact ⟨scheme, hscheme, value, hvalue, hspells⟩

variable (p : Pipeline) (key : String) (r : Request)

/-- **What lets a request in** is its path, or else the key. -/
theorem admits_iff :
    (Server.mk p (some key)).admits r = true ↔ r.path = Route.healthPath ∨ IsShown key r := by
  rw [admits, Bool.or_eq_true, decide_eq_true_iff, showsKey_iff]

/-! ## What is answered -/

/-- What is reported about a request that is turned away. -/
def rejectedEvents : List Log.Event :=
  [⟨.warn, .middleware, "Rejected unauthenticated request", [("path", .str r.path)]⟩,
    completedEvent r 401]

/-- **A request that is not let in** comes to nothing but two reports. -/
theorem advance_respond_of_not_admits {s : Server} {r : Request} (h : s.admits r = false)
    (w : Simulation.World) (t : Simulation.TaskId) :
    w.advance t (s.respond r)
      = (w.logged (rejectedEvents r), .ended (.done (allowed r (.bare 401)))) := by
  have hturned : s.authenticated r = (do
      Routine.report ⟨.warn, .middleware, "Rejected unauthenticated request",
        [("path", .str r.path)]⟩
      return .bare 401) := by
    unfold authenticated
    rw [h]
    rfl
  unfold respond
  rw [hturned]
  show ({ w with events := w.events ++ [_] ++ [_] }, _) = (w.logged _, _)
  rw [List.append_assoc]
  rfl

/-- What is said about the methods of a route does not change the status. -/
theorem allowed_status (response : Response) : (allowed r response).status = response.status := by
  unfold allowed
  split
  · split <;> rfl
  · rfl

/-- **A request that is let in** is answered as if no key were set. -/
theorem respond_of_admits {p : Pipeline} {key : String} {r : Request}
    (h : (Server.mk p (some key)).admits r = true) :
    (Server.mk p (some key)).respond r = (Server.mk p none).respond r := by
  have hlet : (Server.mk p (some key)).authenticated r = (Server.mk p none).authenticated r := by
    unfold authenticated
    rw [h]
    rfl
  unfold respond
  rw [hlet]

/-- **A key keeps out whoever does not show it, and changes nothing for the others.**
Whatever the method, the path and the body, and in every world: a request for anything
but the state of the service that does not show the key is answered with 401, and the
world is the same afterwards but for what was logged. All other requests are answered
by the same routine as without a key. -/
theorem keeps_out :
    (r.path ≠ "/health" ∧ ¬ IsShown key r →
        ∃ response events, response.status = 401
          ∧ ∀ (w : Simulation.World) (t : Simulation.TaskId),
            w.advance t ((Server.mk p (some key)).respond r)
              = ({ w with events := w.events ++ events }, .ended (.done response)))
      ∧ (¬ (r.path ≠ "/health" ∧ ¬ IsShown key r) →
        (Server.mk p (some key)).respond r = (Server.mk p none).respond r) := by
  have hadmits := admits_iff p key r
  rw [show Route.healthPath = "/health" from rfl] at hadmits
  constructor
  · intro hout
    have hno : (Server.mk p (some key)).admits r = false := by
      refine Bool.eq_false_iff.mpr fun hyes => ?_
      exact (hadmits.mp hyes).elim hout.1 hout.2
    exact ⟨_, rejectedEvents r, allowed_status r (.bare 401), advance_respond_of_not_admits hno⟩
  · intro hin
    refine respond_of_admits (hadmits.mpr (Classical.byContradiction fun h => hin ?_))
    exact not_or.mp h

/-- A request for the incidents under a header. -/
def incidentsUnder (value : String) : Request where
  method := "POST"
  target := "/v1/incidents"
  headers := [("Authorization", value.toList.map fun c => UInt8.ofNat c.toNat)]

/-- Behind a blank too many the key is another one. -/
theorem keeps_out_blankTooMany :
    let p : Pipeline := ⟨⟨.ofSeconds 300, .failOpen, "memory"⟩, ⟨⟨.zero, 1, 2⟩⟩, "prod"⟩
    ((incidentsUnder "Bearer  s3cret").path ≠ "/health"
          ∧ ¬ IsShown "s3cret" (incidentsUnder "Bearer  s3cret"))
      ∧ (∃ response events, response.status = 401
          ∧ ∀ (w : Simulation.World) (t : Simulation.TaskId),
            w.advance t ((Server.mk p (some "s3cret")).respond (incidentsUnder "Bearer  s3cret"))
              = ({ w with events := w.events ++ events }, .ended (.done response)))
      ∧ IsShown "s3cret" (incidentsUnder "Token s3cret")
      ∧ (Server.mk p (some "s3cret")).respond (incidentsUnder "Token s3cret")
          = (Server.mk p none).respond (incidentsUnder "Token s3cret") := by
  have hout : ¬ IsShown "s3cret" (incidentsUnder "Bearer  s3cret") :=
    mt showsKey_iff.mpr (by decide +kernel)
  have hshown : IsShown "s3cret" (incidentsUnder "Token s3cret") :=
    showsKey_iff.mp (by decide +kernel)
  have hpath : (incidentsUnder "Bearer  s3cret").path ≠ "/health" := by decide
  exact ⟨⟨hpath, hout⟩, (keeps_out _ "s3cret" _).1 ⟨hpath, hout⟩, hshown,
    (keeps_out _ "s3cret" _).2 fun h => h.2 hshown⟩

end Server

end Http

end IncidentMemory
