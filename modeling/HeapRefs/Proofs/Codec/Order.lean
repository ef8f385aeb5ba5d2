import HeapRefs.Proofs.Codec.RoundTrip

/-! # The order of compressed references

Compressing keeps the order of addresses, with null below all others. So compressed references
compare as the references do that they come from.
-/

namespace HeapRefs

/-- Two words compare as two others if each is below the other just when its counterpart is. -/
theorem Comparison.of_eq_of {a b : UInt64} {x y : UInt32} (hlt : a < b ↔ x < y)
    (hgt : b < a ↔ y < x) : Comparison.of a b = Comparison.of x y := by
  have hle : a ≤ b ↔ x ≤ y := by rw [← UInt64.not_lt, ← UInt32.not_lt, hgt]
  have hge : b ≤ a ↔ y ≤ x := by rw [← UInt64.not_lt, ← UInt32.not_lt, hlt]
  have heq : a = b ↔ x = y := by
    rw [UInt64.le_antisymm_iff, UInt32.le_antisymm_iff, hle, hge]
  have horder : compare a b = compare x y := by
    change compareOfLessAndEq a b = compareOfLessAndEq x y
    simp only [compareOfLessAndEq, hlt, heq]
  simp only [Comparison.of, beq_eq_decide, bne, hlt, hgt, hle, hge, heq, horder, gt_iff_lt,
    ge_iff_le]

open Session

variable {c : Codec} {a a' : UInt64} {n n' : NarrowRef}

namespace Codec

theorem bits_lt_of_lt (h : c.encode a = .ok n) (h' : c.encode a' = .ok n') (hlt : a < a') :
    n.bits < n'.bits := by
  have hnat := UInt64.lt_iff_toNat_lt.mp hlt
  have h0' : a' ≠ 0 := by
    rintro rfl
    exact Nat.not_lt_zero _ hnat
  obtain ⟨hbase', he'⟩ := toNat_eq_of_encode h' h0'
  rw [UInt32.lt_iff_toNat_lt]
  by_cases h0 : a = 0
  · obtain rfl := (eq_null_iff_of_encode h).mpr h0
    have hn := bits_ne_zero_of_encode h' h0'
    exact Nat.pos_of_ne_zero fun hz => hn (UInt32.toNat_inj.mp hz)
  · obtain ⟨-, he⟩ := toNat_eq_of_encode h h0
    rw [he, he', Nat.add_lt_add_iff_left] at hnat
    exact Nat.lt_of_mul_lt_mul_right hnat

theorem bits_lt_iff (h : c.encode a = .ok n) (h' : c.encode a' = .ok n') :
    a < a' ↔ n.bits < n'.bits := by
  refine ⟨bits_lt_of_lt h h', fun hlt => ?_⟩
  by_contra hle
  rcases UInt64.le_iff_lt_or_eq.mp (UInt64.not_lt.mp hle) with hgt | rfl
  · exact UInt32.lt_asymm hlt (bits_lt_of_lt h' h hgt)
  · obtain rfl := Except.ok.inj (h.symm.trans h')
    exact UInt32.lt_irrefl _ hlt

theorem compare_of_encode (h : c.encode a = .ok n) (h' : c.encode a' = .ok n') :
    n.compare n' = .of a a' :=
  (Comparison.of_eq_of (bits_lt_iff h h') (bits_lt_iff h' h)).symm

end Codec

theorem NarrowRef.null_compare (n : NarrowRef) :
    (null.compare n).le = true ∧ ((null.compare n).lt = true ↔ n ≠ null) := by
  have hzero : n = null ↔ n.bits = 0 := ⟨fun h => h ▸ rfl, fun h => congrArg mk h⟩
  have hle : (0 : UInt32) ≤ n.bits := UInt32.le_iff_toNat_le.mpr (Nat.zero_le _)
  refine ⟨decide_eq_true hle, ?_⟩
  rw [compare, Comparison.of, decide_eq_true_iff, ne_eq, hzero]
  exact UInt32.pos_iff_ne_zero

theorem Reference.null_compare (representation : Representation) (r : Reference) :
    ((null representation).compare r).le = true ∧
      (((null representation).compare r).lt = true ↔ r.address ≠ 0) := by
  have hnull : (null representation).address = 0 := by cases representation <;> rfl
  have hle : (0 : UInt64) ≤ r.address := UInt64.le_iff_toNat_le.mpr (Nat.zero_le _)
  rw [compare, hnull]
  refine ⟨decide_eq_true hle, ?_⟩
  rw [Comparison.of, decide_eq_true_iff]
  exact UInt64.pos_iff_ne_zero

namespace Codec

theorem apply_compare {b : Build} {s : State} {left right : String} {v w : View}
    (hv : s.locals.views.get? left = some v) (hw : s.locals.views.get? right = some w)
    (hvw : v.comparable w = true) :
    (ReferenceOp.compare left right).apply b s =
      s.done (.comparison (v.reference.compare w.reference)) := by
  simp only [ReferenceOp.apply, State.withView, hv, hw, hvw, if_true]

/-- Compressed references compare, by every operator, as references at the addresses that they were
encoded from. Null is the least of both. -/
theorem compare_compressed (h : c.encode a = .ok n) (h' : c.encode a' = .ok n') :
    (∀ r r' : Reference, r.address = a → r'.address = a' → r.compare r' = n.compare n') ∧
      (∀ (b : Build) (s : State) (left right : String) (v w : View),
        s.locals.views.get? left = some v → s.locals.views.get? right = some w →
        v.comparable w = true → v.address = a → w.address = a' →
        (ReferenceOp.compare left right).apply b s = s.done (.comparison (n.compare n'))) ∧
      (∀ representation (r : Reference), r.address = a →
        ((Reference.null representation).compare r).le = true ∧
        (NarrowRef.null.compare n).le = true ∧
        (((Reference.null representation).compare r).lt = true ↔ a ≠ 0) ∧
        ((NarrowRef.null.compare n).lt = true ↔ a ≠ 0)) ∧
      c.encode 0 = .ok .null := by
  have hcompare (r r' : Reference) (hr : r.address = a) (hr' : r'.address = a') :
      r.compare r' = n.compare n' := by
    rw [Reference.compare, hr, hr', compare_of_encode h h']
  refine ⟨hcompare, ?_, ?_, c.encode_zero⟩
  · intro b s left right v w hv hw hvw ha ha'
    rw [apply_compare hv hw hvw, hcompare _ _ ha ha']
  · rintro representation r rfl
    obtain ⟨hle, hlt⟩ := r.null_compare representation
    obtain ⟨hle', hlt'⟩ := n.null_compare
    exact ⟨hle, hle', hlt, hlt'.trans (not_congr (eq_null_iff_of_encode h))⟩

/-- The first and the last object of a range that fills the window. -/
theorem compare_compressed_across_window :
    ∃ c, ofLayout 0x1000 3 0x1008 0x800001000 = .ok c ∧
      c.encode 0x1008 = .ok ⟨1⟩ ∧ c.encode 0x800000FF8 = .ok ⟨0xFFFFFFFF⟩ ∧
      (Reference.direct 0x1008).compare (.direct 0x800000FF8) =
        NarrowRef.compare ⟨1⟩ ⟨0xFFFFFFFF⟩ ∧
      (Reference.checked 0x800000FF8 (some 0)).compare (.checked 0 none) =
        NarrowRef.compare ⟨0xFFFFFFFF⟩ .null := by
  let c : Codec := ⟨0x1000, 3, 0x1008, 0x800001000, by decide, by decide, by decide, by decide,
    by decide⟩
  have hc : ofLayout 0x1000 3 0x1008 0x800001000 = .ok c :=
    ofLayout_eq_ok_iff.mpr ⟨rfl, rfl, rfl, rfl⟩
  have hfirst : c.encode 0x1008 = .ok ⟨1⟩ :=
    encode_eq_ok_iff.mpr ⟨by decide, .inr ⟨by decide, by decide⟩⟩
  have hlast : c.encode 0x800000FF8 = .ok ⟨0xFFFFFFFF⟩ :=
    encode_eq_ok_iff.mpr ⟨by decide, .inr ⟨by decide, by decide⟩⟩
  obtain ⟨hcompare, -⟩ := compare_compressed hfirst hlast
  obtain ⟨hcompare', -⟩ := compare_compressed hlast c.encode_zero
  exact ⟨c, hc, hfirst, hlast, hcompare _ _ rfl rfl, hcompare' _ _ rfl rfl⟩

end Codec

end HeapRefs
