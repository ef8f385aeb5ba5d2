import HeapRefs.Object.Heap
import HeapRefs.Reference

/-! # Heaps that grow

Objects never end or change their descriptor, nor does an array change its length. So what a typed
view promises of the object at its address holds for good.
-/

namespace HeapRefs

namespace Heap

/-- All objects stay where they are, with the same descriptors and lengths. -/
def Grows (h h' : Heap) : Prop :=
  ∀ a o, h.find? a = some o → ∃ o', h'.find? a = some o' ∧
    o'.header.klass = o.header.klass ∧ o'.length = o.length

/-- The view is untyped or null, or is of a kind that the object at its address is within. -/
def Fits (h : Heap) (v : View) : Prop :=
  ∀ k, v.kind? = some k → v.address = 0 ∨
    ∃ o, h.find? v.address = some o ∧ o.header.kind.isWithin k = true

variable {h h' h'' : Heap} {v : View} {a : UInt64} {o : Object} {size : Nat}

theorem Grows.refl (h : Heap) : h.Grows h := fun _ o ho => ⟨o, ho, rfl, rfl⟩

theorem Grows.trans (hg : h.Grows h') (hg' : h'.Grows h'') : h.Grows h'' := by
  intro a o ho
  obtain ⟨o', ho', hd, hl⟩ := hg a o ho
  obtain ⟨o'', ho'', hd', hl'⟩ := hg' a o' ho'
  exact ⟨o'', ho'', hd'.trans hd, hl'.trans hl⟩

theorem grows_alloc? {allocator : Allocator} (ha : h.alloc? allocator size o = some (a, h')) :
    h.Grows h' := by
  intro other x hx
  obtain ⟨hfree, hfind⟩ := find?_alloc? ha other
  have hne : other ≠ a := by
    rintro rfl
    cases hfree.symm.trans hx
  exact ⟨x, by rw [hfind, if_neg hne, hx], rfl, rfl⟩

theorem grows_setMark (h : Heap) (address : UInt64) (m : MarkWord) :
    h.Grows (h.setMark address m) := by
  intro a o ho
  refine ⟨_, by rw [find?_setMark, ho, Option.map_some], ?_, ?_⟩ <;> split <;> rfl

theorem Fits.grows (hf : h.Fits v) (hg : h.Grows h') : h'.Fits v := by
  intro k hk
  refine (hf k hk).imp_right ?_
  rintro ⟨o, ho, hw⟩
  obtain ⟨o', ho', hd, -⟩ := hg _ o ho
  refine ⟨o', ho', ?_⟩
  rwa [Header.kind, Header.descriptor, hd]

theorem fits_some_iff {r : Reference} {k : ObjectKind} :
    h.Fits ⟨r, some k⟩ ↔
      r.address = 0 ∨ ∃ o, h.find? r.address = some o ∧ o.header.kind.isWithin k = true := by
  constructor
  · intro hf
    exact hf k rfl
  · rintro hf _ ⟨⟩
    exact hf

theorem fits_untyped (h : Heap) (r : Reference) : h.Fits ⟨r, none⟩ := fun _ hk => nomatch hk

theorem fits_null (h : Heap) (representation : Representation) (kind? : Option ObjectKind) :
    h.Fits ⟨.null representation, kind?⟩ := by
  refine fun _ _ => .inl ?_
  cases representation <;> rfl

theorem Fits.widen {r : Reference} {k l : ObjectKind} (hf : h.Fits ⟨r, some k⟩)
    (hkl : k.isWithin l = true) : h.Fits ⟨r, some l⟩ := by
  intro _ hl
  obtain rfl := Option.some.inj hl
  refine (hf k rfl).imp_right ?_
  rintro ⟨o, ho, hw⟩
  exact ⟨o, ho, ObjectKind.isWithin_trans hw hkl⟩

theorem Fits.of_address_eq {r : Reference} (hf : h.Fits v) (hr : r.address = v.address) :
    h.Fits ⟨r, v.kind?⟩ := by
  intro k hk
  rw [View.address, hr]
  exact hf k hk

end Heap

end HeapRefs
