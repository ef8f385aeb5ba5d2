import HeapRefs.Reference
import HeapRefs.AnchorTable

/-! # The registry of live references

A thread registers every checked reference that is made on it while checking is on. The registry
stores its entries in no order that matters and lists them by slot. An entry is unhandled if no
anchor holds its address and it has not been allowed to be so; a moving collection would leave such
a reference dangling.
-/

namespace HeapRefs

structure Entry where
  slot : Slot
  address : UInt64
  origin : Origin
  allowed : Bool
  deriving DecidableEq, Repr

namespace Entry

def text (e : Entry) : String :=
  Hex.render e.address.toNat ++ " created at " ++ e.origin.label ++
    (if e.allowed then " (allowed)" else "")

def allow (e : Entry) : Entry := { e with allowed := true }

/-- Nothing keeps the reference valid across a collection. -/
def isUnhandled (e : Entry) (anchors : AnchorTable) : Bool :=
  !e.allowed && e.address != 0 && !anchors.contains e.address

end Entry

structure Registry where
  stored : List Entry
  distinct : (stored.map Entry.slot).Nodup
  deriving DecidableEq, Repr

namespace Registry

def empty : Registry := ⟨[], by simp⟩

def size (r : Registry) : Nat := r.stored.length

def isEmpty (r : Registry) : Bool := r.stored.isEmpty

def get? (r : Registry) (slot : Slot) : Option Entry := r.stored.find? (·.slot == slot)

def erase (r : Registry) (slot : Slot) : Registry where
  stored := r.stored.filter (·.slot != slot)
  distinct := r.distinct.sublist (List.filter_sublist.map _)

/-- Stores an entry, in place of the one with its slot if there is one. -/
def insert (r : Registry) (e : Entry) : Registry where
  stored := e :: (r.erase e.slot).stored
  distinct := by
    refine List.nodup_cons.mpr ⟨?_, (r.erase e.slot).distinct⟩
    simp [erase]

/-- Exempts the entry of a slot from verification. -/
def allow (r : Registry) (slot : Slot) : Registry where
  stored := r.stored.map fun e => if e.slot = slot then e.allow else e
  distinct := by
    have h : (Entry.slot ∘ fun e : Entry => if e.slot = slot then e.allow else e) = Entry.slot := by
      funext e
      simp only [Function.comp]
      split <;> rfl
    rw [List.map_map, h]
    exact r.distinct

def insertBySlot (e : Entry) : List Entry → List Entry
  | [] => [e]
  | x :: xs => if e.slot ≤ x.slot then e :: x :: xs else x :: insertBySlot e xs

def entries (r : Registry) : List Entry := r.stored.foldr insertBySlot []

def unhandled (r : Registry) (anchors : AnchorTable) : List Entry :=
  r.entries.filter (·.isUnhandled anchors)

def dump (r : Registry) : String :=
  toString r.size ++ " unhandled oop(s)\n" ++
    String.join (r.entries.map fun e => "  [" ++ toString e.slot ++ "] " ++ e.text ++ "\n")

theorem mem_erase {r : Registry} {slot : Slot} {e : Entry} :
    e ∈ (r.erase slot).stored ↔ e ∈ r.stored ∧ e.slot ≠ slot := by
  simp [erase]

theorem mem_insert {r : Registry} {e x : Entry} :
    x ∈ (r.insert e).stored ↔ x = e ∨ x ∈ r.stored ∧ x.slot ≠ e.slot := by
  rw [insert, List.mem_cons, mem_erase]

theorem mem_allow {r : Registry} {slot : Slot} {x : Entry} :
    x ∈ (r.allow slot).stored ↔ ∃ e ∈ r.stored, (if e.slot = slot then e.allow else e) = x := by
  simp [allow]

theorem perm_insertBySlot (e : Entry) (l : List Entry) : (insertBySlot e l).Perm (e :: l) := by
  induction l with
  | nil => exact .refl _
  | cons x xs ih =>
    rw [insertBySlot]
    split
    · exact .refl _
    · exact (ih.cons x).trans (.swap e x xs)

theorem perm_entries (r : Registry) : r.entries.Perm r.stored := by
  unfold entries
  induction r.stored with
  | nil => exact .refl _
  | cons e l ih => exact (perm_insertBySlot e _).trans (ih.cons e)

theorem mem_entries {r : Registry} {e : Entry} : e ∈ r.entries ↔ e ∈ r.stored :=
  r.perm_entries.mem_iff

theorem pairwise_insertBySlot {e : Entry} {l : List Entry}
    (hl : l.Pairwise (fun x y => x.slot ≤ y.slot)) :
    (insertBySlot e l).Pairwise (fun x y => x.slot ≤ y.slot) := by
  induction l with
  | nil => exact List.pairwise_singleton _ _
  | cons x xs ih =>
    obtain ⟨hx, hxs⟩ := List.pairwise_cons.mp hl
    rw [insertBySlot]
    split
    · next hle =>
      refine List.pairwise_cons.mpr ⟨fun y hy => ?_, hl⟩
      rcases List.mem_cons.mp hy with rfl | hy
      · exact hle
      · exact Nat.le_trans hle (hx y hy)
    · next hlt =>
      refine List.pairwise_cons.mpr ⟨fun y hy => ?_, ih hxs⟩
      rcases List.mem_cons.mp ((perm_insertBySlot e xs).mem_iff.mp hy) with rfl | hy
      · exact Nat.le_of_not_le hlt
      · exact hx y hy

theorem pairwise_entries (r : Registry) : r.entries.Pairwise (fun x y => x.slot ≤ y.slot) := by
  unfold entries
  induction r.stored with
  | nil => exact .nil
  | cons e l ih => exact pairwise_insertBySlot ih

theorem mem_unhandled {r : Registry} {anchors : AnchorTable} {e : Entry} :
    e ∈ r.unhandled anchors ↔
      e ∈ r.stored ∧ e.allowed = false ∧ e.address ≠ 0 ∧ e.address ∉ anchors.addresses := by
  simp [unhandled, mem_entries, Entry.isUnhandled, AnchorTable.contains, and_assoc]

end Registry

end HeapRefs
