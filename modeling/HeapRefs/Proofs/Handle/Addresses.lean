import HeapRefs.AnchorTable

/-! # Tables with other addresses

Relocations give the anchors of a table other addresses. Each anchor keeps its place and its stamp,
so that handles find what they found before, with its new address.
-/

namespace HeapRefs.AnchorTable

variable {t : AnchorTable} {f g : UInt64 → UInt64}

def stamps (t : AnchorTable) : List Nat := t.toList.map Anchor.stamp

def mapAddresses (f : UInt64 → UInt64) (t : AnchorTable) : AnchorTable :=
  ⟨t.toList.map fun x => { x with address := f x.address }⟩

theorem relocate_eq (t : AnchorTable) (source target : UInt64) :
    t.relocate source target = t.mapAddresses fun a => if a = source then target else a := by
  unfold relocate mapAddresses
  congr 2
  funext x
  by_cases hx : x.address = source <;> simp [hx]

@[simp] theorem mapAddresses_id (t : AnchorTable) : t.mapAddresses (fun a => a) = t := by
  simp [mapAddresses]

theorem mapAddresses_mapAddresses (f g : UInt64 → UInt64) (t : AnchorTable) :
    (t.mapAddresses f).mapAddresses g = t.mapAddresses fun a => g (f a) := by
  simp [mapAddresses]

theorem mapAddresses_congr (h : ∀ a ∈ t.addresses, f a = g a) :
    t.mapAddresses f = t.mapAddresses g := by
  unfold mapAddresses
  congr 1
  refine List.map_congr_left fun x hx => ?_
  rw [h x.address (List.mem_map_of_mem hx)]

@[simp] theorem addresses_mapAddresses (f : UInt64 → UInt64) (t : AnchorTable) :
    (t.mapAddresses f).addresses = t.addresses.map f := by
  simp [addresses, mapAddresses]

@[simp] theorem stamps_mapAddresses (f : UInt64 → UInt64) (t : AnchorTable) :
    (t.mapAddresses f).stamps = t.stamps := by
  simp [stamps, mapAddresses]

theorem address?_mapAddresses (f : UInt64 → UInt64) (t : AnchorTable) (h : Handle) :
    (t.mapAddresses f).address? h = (t.address? h).map f := by
  unfold address? mapAddresses
  rw [List.getElem?_map]
  cases t.toList[h.index]? with
  | none => rfl
  | some x =>
    simp only [Option.map_some]
    split <;> rfl

end HeapRefs.AnchorTable
