/-! # Thread-local variables

Every thread has a copy of its own of a thread-local variable, which it reads and writes without
regard to the others.
-/

namespace HeapRefs

/-- A thread is known by the first thread of its line and by its level: each thread of a line has
been spawned by the one a level below, which waits for it. -/
structure ThreadId where
  line : Nat
  level : Nat
  deriving DecidableEq, Repr

def ThreadId.next (i : ThreadId) : ThreadId := ⟨i.line, i.level + 1⟩

structure ThreadLocal (α : Type) where
  get : ThreadId → α

namespace ThreadLocal

variable {α : Type}

def const (a : α) : ThreadLocal α := ⟨fun _ => a⟩

def set (v : ThreadLocal α) (i : ThreadId) (a : α) : ThreadLocal α :=
  ⟨fun k => if k = i then a else v.get k⟩

@[simp] theorem get_set_self (v : ThreadLocal α) (i : ThreadId) (a : α) :
    (v.set i a).get i = a := if_pos rfl

theorem get_set_of_ne (v : ThreadLocal α) {i k : ThreadId} (h : k ≠ i) (a : α) :
    (v.set i a).get k = v.get k := if_neg h

@[simp] theorem set_set (v : ThreadLocal α) (i : ThreadId) (a b : α) :
    (v.set i a).set i b = v.set i b := by
  simp only [set, mk.injEq]
  funext k
  split <;> rfl

@[simp] theorem set_get (v : ThreadLocal α) (i : ThreadId) : v.set i (v.get i) = v := by
  cases v
  simp only [set, mk.injEq]
  funext k
  split
  · next h => rw [h]
  · rfl

end ThreadLocal

end HeapRefs
