/-! # Lineages

A hierarchy is given by the parent of each member. The lineage of a member is the chain from it up
to its root, and one member is below another if the other is in its lineage.
-/

namespace HeapRefs

variable {α : Type}

/-- The chain that starts at `k` and goes up at most `steps` parents. -/
def lineage (parent : α → Option α) : (steps : Nat) → (k : α) → List α
  | 0, k => [k]
  | steps + 1, k =>
    k :: match parent k with
      | none => []
      | some p => lineage parent steps p

end HeapRefs
