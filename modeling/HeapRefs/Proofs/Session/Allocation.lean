import HeapRefs.Proofs.Session.Effects

/-! # Allocation

Plain objects and arrays are made alike: a new object is placed in the heap as a fresh one, with a
descriptor of its own.
-/

namespace HeapRefs.Session

/-- The operation makes an object with the descriptor and with the length, which is zero unless the
object is an array. -/
inductive HeapOp.Makes : HeapOp → Descriptor → UInt32 → Prop
  | plain (name : String) (kind : DescriptorKind) (size : UInt64) (descriptor? : Option String) :
      Makes (.alloc name kind size descriptor?)
        ⟨descriptor?.getD kind.label, kind, .ofNat (max size.toNat 16)⟩ 0
  | array (name : String) (kind : DescriptorKind) (n : UInt32) (elementSize : Nat) :
      Makes (.allocArray name kind n elementSize)
        ⟨kind.label, kind, .ofNat (24 + n.toNat * elementSize)⟩ n

variable {b : Build} {s : State} {allocator : Allocator} {name : String} {size : Nat}
  {o new : Object} {a : UInt64}

namespace State

theorem find?_of_alloc (h : (s.alloc allocator name size o).outcome = .done (.address a)) :
    (s.alloc allocator name size o).state.shared.heap.find? a = some o := by
  unfold alloc at h ⊢
  cases ha : s.shared.heap.alloc? allocator size o with
  | none =>
    rw [ha] at h
    cases h
  | some placed =>
    rw [ha] at h
    cases h
    exact (Heap.find?_alloc? ha placed.1).2.trans (if_pos rfl)

theorem find?_alloc (ho : s.shared.heap.find? a = some o) :
    (s.alloc allocator name size new).state.shared.heap.find? a = some o := by
  have idle : Idle s fun e => e.state.shared.heap.find? a = some o := ⟨fun _ => ho, fun _ _ => ho⟩
  refine idle.alloc fun a' heap ha => ?_
  obtain ⟨free, hfind⟩ := Heap.find?_alloc? ha a
  have hne : a ≠ a' := by
    rintro rfl
    cases free.symm.trans ho
  exact (hfind.trans (if_neg hne)).trans ho

end State

theorem HeapOp.Makes.find?_eq {op : HeapOp} {d : Descriptor} {n : UInt32} (h : op.Makes d n)
    (hdone : (op.apply b s).outcome = .done (.address a)) :
    (op.apply b s).state.shared.heap.find? a = some ⟨.ofKlass ⟨s.shared.heap.size, d⟩, n⟩ := by
  cases h with
  | plain name kind size descriptor? => exact State.find?_of_alloc hdone
  | array name kind n elementSize => exact State.find?_of_alloc hdone

end HeapRefs.Session
