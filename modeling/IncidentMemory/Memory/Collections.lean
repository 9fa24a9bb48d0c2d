import IncidentMemory.Log
import IncidentMemory.Memory.Record

/-!
# Collections of points

A collection holds points of one number of dimensions, one point per id, and compares vectors by a
similarity of its own. `Collections` is a vector store that keeps its collections in memory: one of
them, by name, is the one that points are written to and looked for in.

An operation that fails leaves everything as it was. A search answers with the most similar points
that are similar enough, best first; scores are ordered by IEEE total order. The points of a
collection have no order of their own: a search goes through them in one that nobody chooses, and
points that score alike stay in it. That order, and what a score is that is not a number, are up to
the `Machine`.
-/

namespace IncidentMemory

/-- How similar two vectors are. -/
inductive Distance where
  /-- The cosine of the angle between them. -/
  | cosine
  /-- By the length of their difference. -/
  | euclidean
  /-- Their dot product. -/
  | dotProduct
  deriving DecidableEq, Repr

namespace Distance

/-- The names of the similarities. -/
def names : List (String × Distance) :=
  [("cosine", .cosine), ("euclidean", .euclidean), ("dotproduct", .dotProduct)]

/-- The name for people. -/
def label : Distance → String
  | .cosine => "Cosine"
  | .euclidean => "Euclidean"
  | .dotProduct => "DotProduct"

/-- The score of two vectors; more is closer. -/
def score (a : Arithmetic) : Distance → Embedding → Embedding → Single
  | .cosine => Embedding.cosine a
  | .euclidean => Embedding.euclidean a
  | .dotProduct => Embedding.dot a

end Distance

/-- **What a store meets as it happens to be**: no rule and no setting says what it is. -/
structure Machine where
  /-- What operations come to whose results are not numbers. -/
  arithmetic : Arithmetic
  /-- The order in which the points of a collection are gone through: the place of an id among all
  ids, which are given in the order in which they came in. Ids of one place stay in that order. -/
  rank : List String → String → Nat

/-- Goes through points in the order in which their ids came in. -/
def Machine.usual : Machine where
  arithmetic := .usual
  rank _ _ := 0

/-- **A collection.** -/
structure Collection where
  /-- How many dimensions its vectors have. -/
  dims : Nat
  /-- How they are compared. -/
  distance : Distance
  /-- Its points, in the order in which their ids came in. -/
  points : List Point := []

namespace Collection

/-- Puts a point in: in place of the one with its id, or at the end. -/
def insertPoint (p : Point) : List Point → List Point
  | [] => [p]
  | q :: qs => if q.id = p.id then p :: qs else q :: insertPoint p qs

/-- Puts points in, one after another. -/
def insertAll (points : List Point) (new : List Point) : List Point :=
  new.foldl (fun ps p => insertPoint p ps) points

/-- The point of an id. -/
def get? (c : Collection) (id : String) : Option Point :=
  c.points.find? (·.id == id)

/-- Refuses a vector of the wrong length. -/
def checkDims (c : Collection) (v : Embedding) : Outcome Unit :=
  if v.length = c.dims then .ok () else .error (.dimensions c.dims v.length)

/-- **Puts points in**, all of them or, if one does not fit, none. -/
def upsert (c : Collection) (new : List Point) : Outcome Collection := do
  new.forM fun p => c.checkDims p.vector
  .ok { c with points := insertAll c.points new }

/-- **The points as they are gone through.** -/
def gone (m : Machine) (c : Collection) : List Point :=
  let ids := c.points.map (·.id)
  c.points.mergeSort fun p q => m.rank ids p.id ≤ m.rank ids q.id

/-- What a search sees of a point. -/
def hit (m : Machine) (c : Collection) (query : Embedding) (p : Point) : Hit :=
  ⟨p.id, c.distance.score m.arithmetic query p.vector, p.payload⟩

/-- Whether a score is high enough. -/
def reaches (least : Option Single) (score : Single) : Bool :=
  match least with
  | some least => least ≤ score
  | none => true

/-- **The most similar points.** -/
def search (m : Machine) (c : Collection) (query : Embedding) (limit : Nat)
    (least : Option Single) : Outcome (List Hit) := do
  c.checkDims query
  let hits := ((c.gone m).map (c.hit m query)).filter fun h => reaches least h.score
  .ok ((hits.mergeSort fun a b => b.score.totalLe a.score).take limit)

end Collection

/-- **A vector store in memory.** -/
structure Collections where
  /-- What it meets. -/
  machine : Machine := .usual
  /-- The collection that points are written to and looked for in. -/
  bound : String
  /-- How many dimensions it is meant to have. -/
  dims : Nat
  /-- The collections there are, by name. -/
  all : List (String × Collection) := []

namespace Collections

/-- Whether there is a collection of a name. -/
def has (s : Collections) (name : String) : Bool :=
  (s.all.lookup name).isSome

/-- **Creates a collection**, unless there is one of that name. -/
def create (s : Collections) (name : String) (dims : Nat) (distance : Distance) :
    Outcome Collections :=
  if s.has name then .error (.ofVectorStore s!"Collection '{name}' already exists")
  else .ok { s with all := s.all ++ [(name, ⟨dims, distance, []⟩)] }

/-- What is logged when a collection was created. -/
def createdEvent (name : String) (dims : Nat) (distance : Distance) : Log.Event :=
  ⟨.debug, .vectorMemory, "Collection created", [("collection", .str name),
    ("dimension", .ofNat dims), ("distance", .str distance.label)]⟩

/-- The collection that points go to. -/
def current (s : Collections) : Outcome Collection :=
  match s.all.lookup s.bound with
  | some c => .ok c
  | none => .error (.vectorStore s!"Collection '{s.bound}' does not exist" .collectionNotFound)

/-- Replaces the collection that points go to. -/
def withCurrent (s : Collections) (c : Collection) : Collections :=
  { s with all := s.all.map fun (name, old) => (name, if name = s.bound then c else old) }

/-- **Puts points in.** -/
def upsert (s : Collections) (new : List Point) : Outcome Collections := do
  let c ← s.current
  .ok (s.withCurrent (← c.upsert new))

/-- **Looks for similar points.** -/
def search (s : Collections) (query : Embedding) (limit : Nat) (least : Option Single) :
    Outcome (List Hit) := do
  (← s.current).search s.machine query limit least

/-- **The point of an id**, if there is one. -/
def get (s : Collections) (id : String) : Outcome (Option Point) := do
  .ok ((← s.current).get? id)

/-- How many points there are; none without a collection. -/
def size (s : Collections) : Nat :=
  match s.current with
  | .ok c => c.points.length
  | .error _ => 0

end Collections

end IncidentMemory
