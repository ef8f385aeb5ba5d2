/-! # Comparisons

The answers of all comparison operators on two values at once.
-/

namespace HeapRefs

structure Comparison where
  eq : Bool
  ne : Bool
  lt : Bool
  le : Bool
  gt : Bool
  ge : Bool
  order : Ordering
  deriving DecidableEq, Repr

variable {α : Type} [BEq α] [LT α] [DecidableLT α] [LE α] [DecidableLE α] [Ord α]

def Comparison.of (a b : α) : Comparison where
  eq := a == b
  ne := a != b
  lt := a < b
  le := a ≤ b
  gt := a > b
  ge := a ≥ b
  order := compare a b

end HeapRefs
