import IncidentMemory.Number.Single

/-!
# Embedding vectors

An embedding is a list of single-precision numbers. Sums run from left to right, every operation is
rounded to single precision, and a sum starts at `-0.0`, the neutral element of floating-point
addition.
-/

namespace IncidentMemory

/-- An embedding. -/
abbrev Embedding := List Single

namespace Embedding

variable (a : Arithmetic)

/-- The sum from left to right. -/
def sum (xs : List Single) : Single :=
  xs.foldl a.add .negZero

/-- **The dot product**; components without a partner are left out. -/
def dot (v u : Embedding) : Single :=
  sum a (List.zipWith a.mul v u)

/-- The Euclidean norm. -/
def norm (v : Embedding) : Single :=
  a.sqrt (dot a v v)

/-- The distance from one to the next single-precision number. -/
def epsilon : Single := ⟨0x34000000⟩

/-- **Cosine similarity.** Vectors of different lengths or without components, and vectors whose
norm is not above `epsilon`, score zero. -/
def cosine (v u : Embedding) : Single :=
  if v.length ≠ u.length ∨ v.isEmpty then .zero
  else
    let nv := norm a v
    let nu := norm a u
    if epsilon < nv ∧ epsilon < nu then a.div (dot a v u) (a.mul nv nu) else .zero

/-- The squared differences of components in the same place. -/
def squaredDifferences (v u : Embedding) : List Single :=
  List.zipWith (fun x y => a.mul (a.sub x y) (a.sub x y)) v u

/-- **Similarity by distance**: one over one plus the Euclidean distance. -/
def euclidean (v u : Embedding) : Single :=
  a.div .one (a.add .one (a.sqrt (sum a (squaredDifferences a v u))))

end Embedding

end IncidentMemory
