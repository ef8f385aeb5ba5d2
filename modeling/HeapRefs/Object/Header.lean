import HeapRefs.Descriptor

/-! # Object headers

Every object starts with a mark word and a pointer to its descriptor. The two low bits of the mark
hold the lock state.
-/

namespace HeapRefs

structure MarkWord where
  bits : UInt64
  deriving DecidableEq, Repr

namespace MarkWord

def fresh : MarkWord := ⟨1⟩

def isUnlocked (m : MarkWord) : Bool := m.bits &&& 3 == 1

def detail (m : MarkWord) : String := "MarkWord(" ++ toString m.bits.toNat ++ ")"

end MarkWord

structure Header where
  mark : MarkWord
  klass : Klass
  deriving DecidableEq, Repr

namespace Header

def ofKlass (k : Klass) : Header := ⟨.fresh, k⟩

def descriptor (h : Header) : Descriptor := h.klass.descriptor

def setMark (h : Header) (m : MarkWord) : Header := { h with mark := m }

def setMarks (h : Header) (ms : List MarkWord) : Header := ms.foldl setMark h

def kind (h : Header) : ObjectKind := h.descriptor.objectKind

@[simp] theorem klass_setMarks (h : Header) (ms : List MarkWord) :
    (h.setMarks ms).klass = h.klass := by
  induction ms generalizing h with
  | nil => rfl
  | cons m ms ih => exact ih (h.setMark m)

theorem mark_setMarks (h : Header) (ms : List MarkWord) :
    (h.setMarks ms).mark = ms.getLast?.getD h.mark := by
  induction ms generalizing h with
  | nil => rfl
  | cons m ms ih =>
    rw [List.getLast?_cons]
    exact ih (h.setMark m)

end Header

end HeapRefs
