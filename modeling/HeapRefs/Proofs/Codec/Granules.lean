import Mathlib.Tactic
import HeapRefs.Codec.Query

/-! # Codecs in natural numbers

An encoded address lies as many granules above the base as its compressed form says, and these are
fewer than 32 bits can count. Neither the distance nor the way back leaves the address space.
-/

namespace HeapRefs

theorem toNat_shift {shift : UInt32} (h : shift ≤ 3) :
    shift.toNat ≤ 3 ∧ shift.toUInt64.toNat % 64 = shift.toNat := by
  have hn : shift.toNat ≤ 3 := UInt32.le_iff_toNat_le.mp h
  rw [UInt32.toNat_toUInt64]
  exact ⟨hn, by omega⟩

theorem toNat_granule {shift : UInt32} (h : shift ≤ 3) :
    (granule shift).toNat = 2 ^ shift.toNat := by
  obtain ⟨hn, hs⟩ := toNat_shift h
  rw [granule, UInt64.toNat_shiftLeft, hs, UInt64.toNat_one, Nat.one_shiftLeft]
  exact Nat.mod_eq_of_lt (Nat.pow_lt_pow_right (by decide) (by omega))

theorem toNat_window {shift : UInt32} (h : shift ≤ 3) :
    (window shift).toNat = 2 ^ 32 * 2 ^ shift.toNat := by
  obtain ⟨hn, hs⟩ := toNat_shift h
  have hw : ((1 : UInt64) <<< 32).toNat = 2 ^ 32 := rfl
  rw [window, UInt64.toNat_shiftLeft, hs, Nat.shiftLeft_eq, hw, ← Nat.pow_add]
  exact Nat.mod_eq_of_lt (Nat.pow_lt_pow_right (by decide) (by omega))

theorem mod_granule_eq_zero_iff {shift : UInt32} (h : shift ≤ 3) {a : UInt64} :
    a % granule shift = 0 ↔ 2 ^ shift.toNat ∣ a.toNat := by
  rw [Nat.dvd_iff_mod_eq_zero, ← toNat_granule h, ← UInt64.toNat_mod]
  exact UInt64.toNat_inj.symm

theorem toNat_sub_shiftRight {shift : UInt32} (h : shift ≤ 3) {a base : UInt64} (hb : base ≤ a) :
    ((a - base) >>> shift.toUInt64).toNat = (a.toNat - base.toNat) / 2 ^ shift.toNat := by
  rw [UInt64.toNat_shiftRight, (toNat_shift h).2, UInt64.toNat_sub_of_le _ _ hb,
    Nat.shiftRight_eq_div_pow]

namespace Codec

variable {c : Codec} {a : UInt64} {n : NarrowRef}

theorem base_lt_stop (c : Codec) : c.base < c.stop :=
  UInt64.lt_trans c.base_lt_start c.start_lt_stop

theorem toNat_span_le (c : Codec) :
    c.stop.toNat - c.base.toNat ≤ 2 ^ 32 * 2 ^ c.shift.toNat := by
  have h := UInt64.le_iff_toNat_le.mp c.span_le
  rwa [toNat_window c.shift_le, UInt64.toNat_sub_of_le _ _ (UInt64.le_of_lt c.base_lt_stop)] at h

theorem covers_iff : c.covers a = true ↔ c.start ≤ a ∧ a < c.stop := by
  simp [covers]

theorem base_lt_of_covers (h : c.covers a = true) : c.base < a :=
  UInt64.lt_of_lt_of_le c.base_lt_start (covers_iff.mp h).1

theorem toNat_offset (h : c.covers a = true) : (a - c.base).toNat = a.toNat - c.base.toNat :=
  UInt64.toNat_sub_of_le _ _ (UInt64.le_of_lt (base_lt_of_covers h))

theorem granules_lt_window (h : a < c.stop) :
    (a.toNat - c.base.toNat) / 2 ^ c.shift.toNat < 2 ^ 32 := by
  have hs := UInt64.lt_iff_toNat_lt.mp h
  have hb := UInt64.lt_iff_toNat_lt.mp c.base_lt_stop
  have hw := c.toNat_span_le
  rw [Nat.div_lt_iff_lt_mul (Nat.two_pow_pos _)]
  omega

theorem offset_lt (h : c.covers a = true) :
    (a.toNat - c.base.toNat) / 2 ^ c.shift.toNat < 2 ^ 32 :=
  granules_lt_window (covers_iff.mp h).2

theorem toNat_bits_compress (h : c.covers a = true) (h0 : a ≠ 0) :
    (c.compress a).bits.toNat = (a.toNat - c.base.toNat) / 2 ^ c.shift.toNat := by
  have hb := UInt64.le_of_lt (base_lt_of_covers h)
  rw [compress, if_neg h0, UInt64.toNat_toUInt32, toNat_sub_shiftRight c.shift_le hb]
  exact Nat.mod_eq_of_lt (offset_lt h)

theorem encode_eq_ok_iff : c.encode a = .ok n ↔
    n = c.compress a ∧
      (a = 0 ∨ c.covers a = true ∧ 2 ^ c.shift.toNat ∣ a.toNat - c.base.toNat) := by
  have hm (h : c.covers a = true) : (a - c.base) % granule c.shift ≠ 0 ↔
      ¬ 2 ^ c.shift.toNat ∣ a.toNat - c.base.toNat := by
    rw [ne_eq, mod_granule_eq_zero_iff c.shift_le, toNat_offset h]
  rw [encode_eq]
  split
  · next h0 =>
    rw [compress, if_pos h0, Except.ok.injEq, and_iff_left (Or.inl h0)]
    exact eq_comm
  · next h0 =>
    split
    · next hc => simp [h0, hc]
    · next hc =>
      have hc := not_not.mp hc
      split
      · next ho => simp [h0, (hm hc).mp ho]
      · next ho =>
        have hd := not_not.mp fun h => ho ((hm hc).mpr h)
        rw [Except.ok.injEq, and_iff_left (Or.inr ⟨hc, hd⟩)]
        exact eq_comm

theorem encodeOrFault_of_encode (h : c.encode a = .ok n) (asserts : Bool) :
    c.encodeOrFault asserts a = .ok n := by
  obtain ⟨rfl, -⟩ := encode_eq_ok_iff.mp h
  cases asserts <;> simp [encodeOrFault, encodeFast, h]

theorem toNat_eq_of_encode (h : c.encode a = .ok n) (h0 : a ≠ 0) :
    c.base.toNat < a.toNat ∧ a.toNat = c.base.toNat + n.bits.toNat * 2 ^ c.shift.toNat := by
  obtain ⟨rfl, ha⟩ := encode_eq_ok_iff.mp h
  obtain ⟨hc, hd⟩ := ha.resolve_left h0
  have hb := UInt64.lt_iff_toNat_lt.mp (base_lt_of_covers hc)
  rw [toNat_bits_compress hc h0, Nat.div_mul_cancel hd]
  exact ⟨hb, by omega⟩

theorem bits_ne_zero_of_encode (h : c.encode a = .ok n) (h0 : a ≠ 0) : n.bits ≠ 0 := by
  obtain ⟨hb, he⟩ := toNat_eq_of_encode h h0
  intro hn
  simp only [hn, UInt32.toNat_zero, Nat.zero_mul, Nat.add_zero] at he
  omega

theorem encode_zero (c : Codec) : c.encode 0 = .ok .null := by simp [encode]

theorem eq_null_iff_of_encode (h : c.encode a = .ok n) : n = .null ↔ a = 0 := by
  constructor
  · rintro rfl
    by_contra h0
    exact bits_ne_zero_of_encode h h0 rfl
  · rintro rfl
    exact (Except.ok.inj (c.encode_zero.symm.trans h)).symm

theorem decode_null (c : Codec) : c.decode .null = 0 := rfl

/-- What the compressed form counts fits in the address space; its sum with the base may not. -/
theorem granules_lt (c : Codec) (n : NarrowRef) : n.bits.toNat * 2 ^ c.shift.toNat < 2 ^ 64 := by
  have hp : 2 ^ c.shift.toNat ≤ 2 ^ 3 := Nat.pow_le_pow_right (by decide) (toNat_shift c.shift_le).1
  calc n.bits.toNat * 2 ^ c.shift.toNat ≤ n.bits.toNat * 2 ^ 3 := Nat.mul_le_mul_left _ hp
    _ < 2 ^ 64 := by have := n.bits.toNat_lt; omega

theorem toNat_decode (hn : n.bits ≠ 0) :
    (c.decode n).toNat = (c.base.toNat + n.bits.toNat * 2 ^ c.shift.toNat) % 2 ^ 64 := by
  obtain ⟨-, hs⟩ := toNat_shift c.shift_le
  rw [decode, if_neg hn, UInt64.toNat_add, UInt64.toNat_shiftLeft, hs, UInt32.toNat_toUInt64,
    Nat.shiftLeft_eq, Nat.mod_eq_of_lt (c.granules_lt n)]

end Codec

end HeapRefs
