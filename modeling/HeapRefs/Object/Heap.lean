import HeapRefs.Object.Description

/-! # The heap

Objects have addresses of their own, and never move or end. An object is found by its exact address.
Where a new object goes is up to an allocator.
-/

namespace HeapRefs

/-- An object as far as references read it: its header, and the number behind the header, which is
the length of an array and zero elsewhere. -/
structure Object where
  header : Header
  length : UInt32
  deriving DecidableEq, Repr

namespace Object

def setMark (o : Object) (m : MarkWord) : Object := { o with header := o.header.setMark m }

/-- Reads the memory of the object as the description of a kind. -/
def describe (o : Object) (kind : ObjectKind) : Description := .build kind o.header o.length

def size (o : Object) : Nat := o.header.descriptor.instanceSize.toNat

end Object

structure Heap where
  objects : List (UInt64 × Object)
  distinct : (objects.map Prod.fst).Nodup
  deriving DecidableEq, Repr

namespace Heap

def empty : Heap := ⟨[], .nil⟩

def size (h : Heap) : Nat := h.objects.length

def find? (h : Heap) (address : UInt64) : Option Object := h.objects.lookup address

def kindAt? (h : Heap) (address : UInt64) : Option ObjectKind :=
  (h.find? address).map (·.header.kind)

end Heap

/-- Gives a new object of a size an address that no other has, or finds no room for it. -/
structure Allocator where
  place? : Heap → (size : Nat) → Option UInt64
  fresh : ∀ {h size a}, place? h size = some a → a ∉ h.objects.map Prod.fst

namespace Allocator

def first : Nat := 0x2000000000

/-- The first multiple of eight behind an object. -/
def behind (placed : UInt64 × Object) : Nat :=
  (placed.1.toNat + max 1 placed.2.size + 7) / 8 * 8

def top (h : Heap) : Nat := h.objects.foldr (fun placed n => max (behind placed) n) first

theorem lt_top {h : Heap} {a : UInt64} (ha : a ∈ h.objects.map Prod.fst) : a.toNat < top h := by
  unfold top
  generalize h.objects = l at ha
  induction l with
  | nil => cases ha
  | cons placed l ih =>
    rw [List.foldr_cons]
    rcases List.mem_cons.mp ha with rfl | ha
    · have hlt : placed.1.toNat < behind placed := by
        unfold behind
        omega
      exact Nat.lt_of_lt_of_le hlt (Nat.le_max_left ..)
    · exact Nat.lt_of_lt_of_le (ih ha) (Nat.le_max_right ..)

/-- Objects are laid out one after the other, each on an eight-byte boundary. -/
def bump : Allocator where
  place? h size :=
    if 0 < size ∧ top h + size < UInt64.size then some (.ofNat (top h)) else none
  fresh := by
    intro h size a ha hmem
    split at ha
    · next room =>
      obtain rfl := Option.some.inj ha
      have hlt := lt_top hmem
      rw [UInt64.toNat_ofNat_of_lt' (by omega)] at hlt
      exact Nat.lt_irrefl _ hlt
    · cases ha

end Allocator

namespace Heap

def alloc? (h : Heap) (allocator : Allocator) (size : Nat) (o : Object) : Option (UInt64 × Heap) :=
  match ha : allocator.place? h size with
  | none => none
  | some a =>
    some (a,
      { objects := h.objects ++ [(a, o)]
        distinct := by
          rw [List.map_append]
          refine List.nodup_append.mpr ⟨h.distinct, by simp, ?_⟩
          intro x hx y hy
          obtain rfl := List.mem_singleton.mp hy
          rintro rfl
          exact allocator.fresh ha hx })

private theorem keys_map_setMark (l : List (UInt64 × Object)) (address : UInt64) (m : MarkWord) :
    (l.map fun (a, o) => (a, if a = address then o.setMark m else o)).map Prod.fst =
      l.map Prod.fst := by
  rw [List.map_map]
  rfl

def setMark (h : Heap) (address : UInt64) (m : MarkWord) : Heap where
  objects := h.objects.map fun (a, o) => (a, if a = address then o.setMark m else o)
  distinct := by rw [keys_map_setMark]; exact h.distinct

/-- A new object is found at its address, which was free; the others are found as before. -/
theorem find?_alloc? {h h' : Heap} {allocator : Allocator} {size : Nat} {o : Object} {a : UInt64}
    (ha : h.alloc? allocator size o = some (a, h')) (other : UInt64) :
    h.find? a = none ∧ h'.find? other = if other = a then some o else h.find? other := by
  unfold alloc? at ha
  split at ha
  · cases ha
  · next a' hplace =>
    simp only [Option.some.injEq, Prod.mk.injEq] at ha
    obtain ⟨rfl, rfl⟩ := ha
    have free : h.objects.lookup a' = none := by
      rw [List.lookup_eq_none_iff]
      intro p hp
      refine bne_iff_ne.mpr ?_
      rintro rfl
      exact allocator.fresh hplace (List.mem_map_of_mem hp)
    refine ⟨free, ?_⟩
    simp only [find?, List.lookup_append]
    by_cases ho : other = a'
    · subst ho; simp [free]
    · simp [ho, List.lookup_cons, beq_false_of_ne ho]

theorem find?_setMark (h : Heap) (address other : UInt64) (m : MarkWord) :
    (h.setMark address m).find? other =
      (h.find? other).map fun o => if other = address then o.setMark m else o := by
  simp only [find?, setMark]
  induction h.objects with
  | nil => rfl
  | cons p l ih =>
    obtain ⟨a, o⟩ := p
    by_cases ho : other = a
    · subst ho; simp
    · simp [List.lookup_cons, beq_false_of_ne ho, ih]

end Heap

end HeapRefs
