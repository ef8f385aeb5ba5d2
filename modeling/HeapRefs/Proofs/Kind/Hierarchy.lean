import HeapRefs.Kind.Descriptor

/-! # The two hierarchies

Which kinds of objects, and which kinds of descriptors, are within which others, and how the one
hierarchy is mapped to the other.
-/

namespace HeapRefs

namespace ObjectKind

variable {k l : ObjectKind}

theorem ancestors_eq (k : ObjectKind) :
    k.ancestors = k :: (match k.parent with | none => [] | some p => p.ancestors) := by
  cases k <;> rfl

/-- Apart from itself and the root, a kind is within another only as a kind of arrays. -/
theorem isWithin_iff :
    k.isWithin l = true ↔ l = k ∨ l = any ∨ l = array ∧ (k = refArray ∨ k = primArray) := by
  revert k l
  decide

end ObjectKind

namespace DescriptorKind

variable {k l : DescriptorKind}

theorem ancestors_eq (k : DescriptorKind) :
    k.ancestors = k :: (match k.parent with | none => [] | some p => p.ancestors) := by
  cases k <;> rfl

/-- The families of the kinds, apart from each kind itself: instances, descriptors, descriptors of
arrays, and arrays. -/
theorem isWithin_iff :
    k.isWithin l = true ↔
      l = k ∨ l = inst ∧ k ∈ [instClass, instRef] ∨
        l = descriptor ∧
          k ∈ [instDescriptor, arrayDescriptor, refArrayDescriptor, primArrayDescriptor] ∨
        l = arrayDescriptor ∧ k ∈ [refArrayDescriptor, primArrayDescriptor] ∨
        l = array ∧ k ∈ [refArray, primArray] := by
  revert k l
  decide +kernel

/-- Instances and descriptors are described as one kind of objects each, and all other kinds as the
kind of objects with their name. -/
theorem objectKind_eq (k : DescriptorKind) :
    (k.isWithin inst = true ∧ k.objectKind = .inst) ∨
      (k.isWithin descriptor = true ∧ k.objectKind = .descriptor) ∨
      (k.isWithin inst = false ∧ k.isWithin descriptor = false ∧
        k.objectKind.label = k.label) := by
  revert k
  decide +kernel

theorem isWithin_objectKind (h : k.isWithin l = true) :
    k.objectKind.isWithin l.objectKind = true := by
  revert k l
  decide +kernel

theorem exists_objectKind_eq_iff {o : ObjectKind} : (∃ k, objectKind k = o) ↔ o ≠ .any := by
  have h : ∀ o, (∃ k ∈ all, objectKind k = o) ↔ o ≠ .any := by decide +kernel
  rw [← h o]
  exact ⟨fun ⟨k, hk⟩ => ⟨k, mem_all k, hk⟩, fun ⟨k, _, hk⟩ => ⟨k, hk⟩⟩

end DescriptorKind

end HeapRefs
