import Mathlib.Data.List.Nodup
import HeapRefs.Registry

/-! # Listings of the registry

Slots are distinct, so the listing strictly increases in them, and no other arrangement of the same
entries does. A registry is as much as its look-ups tell: whoever knows under which slots there are
which entries knows the listing, and with it all that is reported.
-/

namespace HeapRefs.Registry

variable (r : Registry)

theorem nodup_slots_entries : (r.entries.map Entry.slot).Nodup :=
  (r.perm_entries.map Entry.slot).nodup_iff.mpr r.distinct

theorem pairwise_lt_entries : r.entries.Pairwise fun x y => x.slot < y.slot := by
  have hd := List.pairwise_map.mp r.nodup_slots_entries
  exact (r.pairwise_entries.and hd).imp fun ⟨hle, hne⟩ => Nat.lt_of_le_of_ne hle hne

theorem pairwise_lt_unhandled (anchors : AnchorTable) :
    (r.unhandled anchors).Pairwise fun x y => x.slot < y.slot :=
  r.pairwise_lt_entries.sublist List.filter_sublist

variable {r}

/-- The listing is the one arrangement of the entries in which the slots grow. -/
theorem entries_eq {l : List Entry} (hm : ∀ e, e ∈ l ↔ e ∈ r.stored)
    (hl : l.Pairwise fun x y => x.slot < y.slot) : r.entries = l := by
  have nodup {l : List Entry} (hl : l.Pairwise fun x y => x.slot < y.slot) : l.Nodup :=
    hl.imp fun hlt he => Nat.ne_of_lt hlt (congrArg Entry.slot he)
  have hp : r.entries.Perm l :=
    (List.perm_ext_iff_of_nodup (nodup r.pairwise_lt_entries) (nodup hl)).mpr
      fun e => mem_entries.trans (hm e).symm
  refine hp.eq_of_pairwise ?_ r.pairwise_lt_entries hl
  intro x y _ _ hxy hyx
  exact absurd hxy (Nat.lt_asymm hyx)

theorem length_entries (r : Registry) : r.entries.length = r.size :=
  r.perm_entries.length_eq

theorem get?_eq_some_iff {slot : Slot} {e : Entry} :
    r.get? slot = some e ↔ e ∈ r.stored ∧ e.slot = slot := by
  constructor
  · intro h
    exact ⟨List.mem_of_find?_eq_some h, by simpa using List.find?_some h⟩
  · rintro ⟨he, rfl⟩
    obtain ⟨x, hx⟩ : ∃ x, r.get? e.slot = some x := by
      apply Option.isSome_iff_exists.mp
      exact List.find?_isSome.mpr ⟨e, he, by simp⟩
    have hslot : x.slot = e.slot := by simpa using List.find?_some hx
    rw [hx, List.inj_on_of_nodup_map r.distinct (List.mem_of_find?_eq_some hx) he hslot]

/-- The registries have the same entries, stored in any order. -/
def Rearranges (r r' : Registry) : Prop := ∀ slot, r'.get? slot = r.get? slot

namespace Rearranges

variable {r' : Registry}

theorem mem_stored (h : r.Rearranges r') {e : Entry} : e ∈ r'.stored ↔ e ∈ r.stored := by
  have hget := h e.slot
  constructor
  · intro he
    exact (get?_eq_some_iff.mp (hget ▸ get?_eq_some_iff.mpr ⟨he, rfl⟩)).1
  · intro he
    exact (get?_eq_some_iff.mp (hget.trans (get?_eq_some_iff.mpr ⟨he, rfl⟩))).1

theorem iff_perm : r.Rearranges r' ↔ r'.stored.Perm r.stored := by
  constructor
  · intro h
    apply (List.perm_ext_iff_of_nodup r'.distinct.of_map r.distinct.of_map).mpr
    intro e
    exact h.mem_stored
  · intro h slot
    apply Option.ext
    intro e
    rw [get?_eq_some_iff, get?_eq_some_iff, h.mem_iff]

theorem entries_eq (h : r.Rearranges r') : r'.entries = r.entries := by
  apply Registry.entries_eq
  · intro e
    rw [mem_entries, h.mem_stored]
  · exact r.pairwise_lt_entries

theorem unhandled_eq (h : r.Rearranges r') (anchors : AnchorTable) :
    r'.unhandled anchors = r.unhandled anchors := by
  rw [unhandled, unhandled, h.entries_eq]

theorem dump_eq (h : r.Rearranges r') : r'.dump = r.dump := by
  rw [dump, dump, ← r'.length_entries, ← r.length_entries, h.entries_eq]

end Rearranges

end HeapRefs.Registry
