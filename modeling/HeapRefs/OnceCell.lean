/-! # Cells that are written once

A cell is empty until it is first asked for its content, and what the asker then provides it keeps.
-/

namespace HeapRefs

/-- What asking a cell does: from its content, an initializer and the state that this works on, to
the content that is given, the state, and the content afterwards. -/
structure OnceCell (α σ : Type) where
  getOrInit : (content? : Option α) → (init : σ → α × σ) → (state : σ) → α × σ × Option α

namespace OnceCell

variable {α σ : Type}

/-- The initializer is run just if the cell is empty, and once it is full its content stays. -/
structure Lawful (cell : OnceCell α σ) : Prop where
  full : ∀ a init state, cell.getOrInit (some a) init state = (a, state, some a)
  vacant : ∀ init state, cell.getOrInit none init state =
    ((init state).1, (init state).2, some (init state).1)

def standard : OnceCell α σ where
  getOrInit
    | some a, _, state => (a, state, some a)
    | none, init, state => ((init state).1, (init state).2, some (init state).1)

theorem lawful_standard : (standard : OnceCell α σ).Lawful := ⟨fun _ _ _ => rfl, fun _ _ => rfl⟩

end OnceCell

end HeapRefs
