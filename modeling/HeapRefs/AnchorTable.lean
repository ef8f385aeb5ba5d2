/-! # Handles

An anchor table keeps addresses alive across collections. A handle names a place in the table, with
the stamp that the place had when the handle was made; a place that has been given up and used again
has another stamp, and the handle no longer finds it.
-/

namespace HeapRefs

structure Anchor where
  address : UInt64
  stamp : Nat
  deriving DecidableEq, Repr

structure Handle where
  index : Nat
  stamp : Nat
  deriving DecidableEq, Repr

/-- The length of an anchor table at some moment, to go back to. -/
structure Mark where
  length : Nat
  deriving DecidableEq, Repr

structure AnchorTable where
  toList : List Anchor
  deriving DecidableEq, Repr

namespace AnchorTable

def empty : AnchorTable := ⟨[]⟩

def size (t : AnchorTable) : Nat := t.toList.length

def addresses (t : AnchorTable) : List UInt64 := t.toList.map Anchor.address

def push (t : AnchorTable) (address : UInt64) (stamp : Nat) : Handle × AnchorTable :=
  (⟨t.size, stamp⟩, ⟨t.toList ++ [⟨address, stamp⟩]⟩)

/-- Gives up the anchors from the given length on. -/
def truncate (t : AnchorTable) (length : Nat) : AnchorTable := ⟨t.toList.take length⟩

def mark (t : AnchorTable) : Mark := ⟨t.size⟩

def release (t : AnchorTable) (m : Mark) : AnchorTable := t.truncate m.length

/-- The address at an index, whoever owns it. -/
def get? (t : AnchorTable) (index : Nat) : Option UInt64 := (t.toList[index]?).map Anchor.address

/-- The address of a handle that has not been released. -/
def address? (t : AnchorTable) (h : Handle) : Option UInt64 :=
  match t.toList[h.index]? with
  | some anchor => if anchor.stamp = h.stamp then some anchor.address else none
  | none => none

def contains (t : AnchorTable) (address : UInt64) : Bool := t.addresses.contains address

/-- Moves the anchors at `source` to `target`. -/
def relocate (t : AnchorTable) (source target : UInt64) : AnchorTable :=
  ⟨t.toList.map fun x => if x.address = source then { x with address := target } else x⟩

def count (t : AnchorTable) (source : UInt64) : Nat := t.addresses.count source

@[simp] theorem size_relocate (t : AnchorTable) (source target : UInt64) :
    (t.relocate source target).size = t.size := by
  simp [size, relocate]

@[simp] theorem size_truncate (t : AnchorTable) (length : Nat) :
    (t.truncate length).size = Nat.min length t.size := by
  simp [size, truncate, Nat.min_def]

theorem addresses_relocate (t : AnchorTable) (source target : UInt64) :
    (t.relocate source target).addresses =
      t.addresses.map fun a => if a = source then target else a := by
  simp only [addresses, relocate, List.map_map]
  congr 1
  funext x
  simp only [Function.comp]
  split <;> rfl

theorem mem_addresses_push {t : AnchorTable} {address a : UInt64} {stamp : Nat} :
    a ∈ (t.push address stamp).2.addresses ↔ a ∈ t.addresses ∨ a = address := by
  simp [addresses, push, eq_comm]

theorem address?_eq_some_iff {t : AnchorTable} {h : Handle} {a : UInt64} :
    t.address? h = some a ↔ t.toList[h.index]? = some ⟨a, h.stamp⟩ := by
  unfold address?
  cases t.toList[h.index]? with
  | none => simp
  | some x =>
    obtain ⟨address, stamp⟩ := x
    simp [and_comm]

@[simp] theorem size_push (t : AnchorTable) (address : UInt64) (stamp : Nat) :
    (t.push address stamp).2.size = t.size + 1 := by
  simp [size, push]

end AnchorTable

end HeapRefs
