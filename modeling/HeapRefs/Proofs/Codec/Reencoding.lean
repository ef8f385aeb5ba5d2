import HeapRefs.Proofs.Codec.RoundTrip

/-! # Encoding what was decoded

Any 32 bits can be decoded, whether the codec made them or not. The address is the base and the
granules that the bits count, or lies below the base if this sum leaves the address space. So it
leads back to the same bits if it is in the range, and to no other bits but null if it is not.
-/

namespace HeapRefs.Codec

variable {c : Codec} {base start stop : UInt64} {shift : UInt32} {n : NarrowRef}

theorem bits_ne_zero_iff : n.bits ≠ 0 ↔ n ≠ .null :=
  ⟨fun h hn => h (congrArg NarrowRef.bits hn), fun h hn => h (congrArg NarrowRef.mk hn)⟩

theorem ne_zero_of_covers {a : UInt64} (h : c.covers a = true) : a ≠ 0 := by
  rintro rfl
  exact absurd (UInt64.lt_iff_toNat_lt.mp (base_lt_of_covers h)) (Nat.not_lt_zero _)

/-- A sum that leaves the address space comes back below the base. -/
theorem decode_lt_base (hn : n ≠ .null)
    (h : 2 ^ 64 ≤ c.base.toNat + n.bits.toNat * 2 ^ c.shift.toNat) : c.decode n < c.base := by
  have hb := c.base.toNat_lt
  have hg := c.granules_lt n
  rw [UInt64.lt_iff_toNat_lt, toNat_decode (bits_ne_zero_iff.mpr hn)]
  omega

theorem decode_eq_zero_iff (hn : n ≠ .null) :
    c.decode n = 0 ↔ c.base.toNat + n.bits.toNat * 2 ^ c.shift.toNat = 2 ^ 64 := by
  have hn := bits_ne_zero_iff.mpr hn
  have hpos : 0 < n.bits.toNat * 2 ^ c.shift.toNat :=
    Nat.mul_pos (Nat.pos_of_ne_zero fun h => hn (UInt32.toNat_inj.mp h)) (Nat.two_pow_pos _)
  have hb := c.base.toNat_lt
  have hg := c.granules_lt n
  rw [← UInt64.toNat_inj, toNat_decode hn, UInt64.toNat_zero]
  omega

theorem toNat_decode_of_covers (h : c.covers (c.decode n) = true) :
    n ≠ .null ∧
      (c.decode n).toNat = c.base.toNat + n.bits.toNat * 2 ^ c.shift.toNat ∧
      c.base.toNat + n.bits.toNat * 2 ^ c.shift.toNat < 2 ^ 64 := by
  have hn : n ≠ .null := by
    rintro rfl
    exact ne_zero_of_covers h c.decode_null
  have hlt : c.base.toNat + n.bits.toNat * 2 ^ c.shift.toNat < 2 ^ 64 := by
    refine Nat.lt_of_not_le fun hw => ?_
    exact absurd (base_lt_of_covers h) (UInt64.lt_asymm (decode_lt_base hn hw))
  refine ⟨hn, ?_, hlt⟩
  rw [toNat_decode (bits_ne_zero_iff.mpr hn), Nat.mod_eq_of_lt hlt]

theorem encode_decode_of_covers (h : c.covers (c.decode n) = true) :
    c.encode (c.decode n) = .ok n := by
  obtain ⟨-, hd, -⟩ := toNat_decode_of_covers h
  have hoff : (c.decode n).toNat - c.base.toNat = n.bits.toNat * 2 ^ c.shift.toNat := by omega
  have hdvd : 2 ^ c.shift.toNat ∣ (c.decode n).toNat - c.base.toNat := by
    rw [hoff]
    exact Nat.dvd_mul_left ..
  have hbits : (c.compress (c.decode n)).bits = n.bits := by
    rw [← UInt32.toNat_inj, toNat_bits_compress h (ne_zero_of_covers h), hoff]
    exact Nat.mul_div_cancel _ (Nat.two_pow_pos _)
  exact encode_eq_ok_iff.mpr ⟨(congrArg NarrowRef.mk hbits).symm, .inr ⟨h, hdvd⟩⟩

theorem encode_of_not_covers {a : UInt64} (h0 : a ≠ 0) (h : ¬ c.covers a = true) :
    c.encode a = .error (.outOfRange a) := by
  rw [encode_eq, if_neg h0, if_pos h]

theorem exists_encode_eq_iff :
    (∃ a, c.encode a = .ok n) ↔ n = .null ∨ c.covers (c.decode n) = true := by
  constructor
  · rintro ⟨a, ha⟩
    obtain ⟨-, h0 | ⟨hc, -⟩⟩ := encode_eq_ok_iff.mp ha
    · exact .inl ((eq_null_iff_of_encode ha).mpr h0)
    · rw [decode_of_encode ha]
      exact .inr hc
  · rintro (rfl | h)
    · exact ⟨0, c.encode_zero⟩
    · exact ⟨c.decode n, encode_decode_of_covers h⟩

/-- A decoded address encodes to the form it comes from if that is null or the address is in the
range, to null if the sum wraps to null, and is out of range otherwise. -/
theorem encode_decode (hc : ofLayout base shift start stop = .ok c) (n : NarrowRef) :
    let a := c.decode n
    c.encode a =
        (if n = .null ∨ start ≤ a ∧ a < stop then .ok n
        else if a = 0 then .ok .null
        else .error (.outOfRange a)) ∧
      (∀ a', c.encode a ≠ .error (.misaligned a')) ∧
      (∀ m, c.encode a = .ok m → m = n ∨ m = .null) ∧
      (n ≠ .null → a.toNat = (base.toNat + n.bits.toNat * 2 ^ shift.toNat) % 2 ^ 64) ∧
      (n ≠ .null → (a = 0 ↔ base.toNat + n.bits.toNat * 2 ^ shift.toNat = 2 ^ 64)) ∧
      (2 ^ 64 ≤ base.toNat + n.bits.toNat * 2 ^ shift.toNat → ¬ (start ≤ a ∧ a < stop)) ∧
      ((∃ a', c.encode a' = .ok n) ↔ n = .null ∨ start ≤ a ∧ a < stop) := by
  obtain ⟨rfl, rfl, rfl, rfl⟩ := ofLayout_eq_ok_iff.mp hc
  intro a
  have heq : c.encode a =
      if n = .null ∨ c.start ≤ a ∧ a < c.stop then .ok n
      else if a = 0 then .ok .null
      else .error (.outOfRange a) := by
    split
    · next h =>
      rcases h with rfl | h
      · exact c.encode_zero
      · exact encode_decode_of_covers (covers_iff.mpr h)
    · next h =>
      split
      · next h0 =>
        rw [h0]
        exact c.encode_zero
      · next h0 => exact encode_of_not_covers h0 fun hcov => h (.inr (covers_iff.mp hcov))
  refine ⟨heq, fun a' => ?_, fun m hm => ?_, fun hn => toNat_decode (bits_ne_zero_iff.mpr hn),
    decode_eq_zero_iff, fun hw hr => ?_, ?_⟩
  · rw [heq]
    split
    · simp
    · split <;> simp
  · rw [heq] at hm
    split at hm
    · exact .inl (Except.ok.inj hm).symm
    · split at hm
      · exact .inr (Except.ok.inj hm).symm
      · cases hm
  · obtain ⟨-, -, hlt⟩ := toNat_decode_of_covers (covers_iff.mpr hr)
    exact Nat.not_lt.mpr hw hlt
  · rw [exists_encode_eq_iff, covers_iff]

/-- With a base near the top of the address space, one form that no address has decodes to null, and
larger ones decode to addresses below the base. -/
theorem encode_decode_at_top :
    let base : UInt64 := 0xFFFFFFFFFFFFF000
    ∃ c, ofLayout base 3 (base + 8) (base + 0x800) = .ok c ∧
      c.encode (c.decode ⟨2⟩) = .ok ⟨2⟩ ∧
      c.encode (c.decode ⟨0x200⟩) = .ok .null ∧
      c.encode (c.decode ⟨0xFFFFFFFF⟩) = .error (.outOfRange 0x7FFFFEFF8) ∧
      ¬ ∃ a, c.encode a = .ok ⟨0x200⟩ := by
  intro base
  let c : Codec := ⟨base, 3, base + 8, base + 0x800, by decide, by decide, by decide, by decide,
    by decide⟩
  have hc : ofLayout base 3 (base + 8) (base + 0x800) = .ok c :=
    ofLayout_eq_ok_iff.mpr ⟨rfl, rfl, rfl, rfl⟩
  have hdecode : c.decode ⟨0xFFFFFFFF⟩ = 0x7FFFFEFF8 := by decide
  refine ⟨c, hc, ?_, ?_, ?_, ?_⟩
  · rw [(encode_decode hc ⟨2⟩).1, if_pos (by decide)]
  · rw [(encode_decode hc ⟨0x200⟩).1, if_neg (by decide), if_pos (by decide)]
  · rw [(encode_decode hc ⟨0xFFFFFFFF⟩).1, hdecode, if_neg (by decide), if_neg (by decide)]
  · obtain ⟨-, -, -, -, -, -, himage⟩ := encode_decode hc ⟨0x200⟩
    exact mt himage.mp (by decide)

end HeapRefs.Codec
