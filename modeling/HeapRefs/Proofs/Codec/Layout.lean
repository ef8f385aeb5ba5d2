import HeapRefs.Proofs.Codec.RoundTrip

/-! # Layouts of codecs

A layout has a codec unless it has a fault. The faults are looked for in an order that keeps every
word on the way within the address space, and the bound on the range is the largest under which 32
bits count the granules up to each of its addresses.
-/

namespace HeapRefs

/-! ### Words that do not overflow -/

/-- The difference of two words, if it is not negative. -/
def difference? (a b : UInt64) : Option UInt64 := if b ≤ a then some (a - b) else none

/-- A word shifted by less than its width, if it loses no bit. -/
def shifted? (a : UInt64) (shift : UInt32) : Option UInt64 :=
  if shift < 64 ∧ a.toNat * 2 ^ shift.toNat < 2 ^ 64 then some (a <<< shift.toUInt64) else none

theorem and_granule_sub_one {shift : UInt32} (h : shift ≤ 3) (a : UInt64) :
    a &&& (granule shift - 1) = a % granule shift := by
  have hg := toNat_granule h
  have h1 : 1 ≤ granule shift := by
    rw [UInt64.le_iff_toNat_le, hg]
    exact Nat.two_pow_pos _
  rw [← UInt64.toNat_inj, UInt64.toNat_and, UInt64.toNat_mod, UInt64.toNat_sub_of_le _ _ h1, hg]
  exact Nat.and_two_pow_sub_one_eq_mod _ _

namespace Codec

variable {c : Codec} {base start stop span a : UInt64} {shift : UInt32}

def faults (base : UInt64) (shift : UInt32) (start stop : UInt64) : List LayoutError :=
  (if 3 < shift.toNat then [.invalidShift shift] else []) ++
    (if 2 ^ shift.toNat ∣ base.toNat then [] else [.misalignedBase base]) ++
    (if start ≤ base ∨ stop ≤ start then [.invalidReservedRange start stop] else []) ++
    (if 2 ^ (32 + shift.toNat) < stop.toNat - base.toNat then [.reservedTooLarge (stop - base)]
      else [])

/-- Checks a layout in words that must not overflow; if one does, there is no verdict. -/
def check? (base : UInt64) (shift : UInt32) (start stop : UInt64) :
    Option (Except LayoutError Unit) := do
  if 3 < shift then return .error (.invalidShift shift)
  else
    let granule ← shifted? 1 shift
    let mask ← difference? granule 1
    if base &&& mask ≠ 0 then return .error (.misalignedBase base)
    else if start ≤ base ∨ stop ≤ start then return .error (.invalidReservedRange start stop)
    else
      let span ← difference? stop base
      let reach ← shifted? 1 32
      let window ← shifted? reach shift
      if window < span then return .error (.reservedTooLarge span)
      else return .ok ()

theorem not_range_iff : ¬ (start ≤ base ∨ stop ≤ start) ↔ base < start ∧ start < stop := by
  rw [not_or, UInt64.not_le, UInt64.not_le]

theorem ofLayout_cases (base : UInt64) (shift : UInt32) (start stop : UInt64) :
    (3 < shift ∧ ofLayout base shift start stop = .error (.invalidShift shift)) ∨
    (shift ≤ 3 ∧ base % granule shift ≠ 0 ∧
      ofLayout base shift start stop = .error (.misalignedBase base)) ∨
    (shift ≤ 3 ∧ base % granule shift = 0 ∧ (start ≤ base ∨ stop ≤ start) ∧
      ofLayout base shift start stop = .error (.invalidReservedRange start stop)) ∨
    (shift ≤ 3 ∧ base % granule shift = 0 ∧ (base < start ∧ start < stop) ∧
      window shift < stop - base ∧
      ofLayout base shift start stop = .error (.reservedTooLarge (stop - base))) ∨
    ∃ c, ofLayout base shift start stop = .ok c := by
  unfold ofLayout
  by_cases hs : shift ≤ 3
  · by_cases ha : base % granule shift = 0
    · by_cases hr : base < start ∧ start < stop
      · by_cases hw : stop - base ≤ window shift
        · simp [hs, ha, hr, hw]
        · simp [hs, ha, hr, hw, UInt64.not_le.mp hw]
      · simp [hs, ha, hr, not_not.mp (mt not_range_iff.mp hr)]
    · simp [hs, ha]
  · simp [hs, UInt32.not_le.mp hs]

theorem window_lt_sub_iff (h : shift ≤ 3) (hb : base ≤ stop) :
    window shift < stop - base ↔ 2 ^ (32 + shift.toNat) < stop.toNat - base.toNat := by
  rw [UInt64.lt_iff_toNat_lt, toNat_window h, UInt64.toNat_sub_of_le _ _ hb, Nat.pow_add]

theorem faults_eq_nil (c : Codec) : faults c.base c.shift c.start c.stop = [] := by
  have hs := (toNat_shift c.shift_le).1
  have ha := (mod_granule_eq_zero_iff c.shift_le).mp c.base_aligned
  have hr := not_range_iff.mpr ⟨c.base_lt_start, c.start_lt_stop⟩
  have hw : ¬ 2 ^ (32 + c.shift.toNat) < c.stop.toNat - c.base.toNat := by
    rw [Nat.pow_add, Nat.not_lt]
    exact c.toNat_span_le
  rw [faults, if_neg (Nat.not_lt.mpr hs), if_pos ha, if_neg hr, if_neg hw]
  rfl

theorem ofLayout_eq_of_faults (base : UInt64) (shift : UInt32) (start stop : UInt64) :
    match (faults base shift start stop).head? with
    | some e => ofLayout base shift start stop = .error e
    | none => ∃ c, ofLayout base shift start stop = .ok c := by
  obtain ⟨hs, h⟩ | ⟨hs, ha, h⟩ | ⟨hs, ha, hr, h⟩ | ⟨hs, ha, hr, hw, h⟩ | ⟨c, h⟩ :=
    ofLayout_cases base shift start stop
  · have hs : 3 < shift.toNat := UInt32.lt_iff_toNat_lt.mp hs
    rw [faults, if_pos hs]
    exact h
  · rw [faults, if_neg (Nat.not_lt.mpr (toNat_shift hs).1),
      if_neg (mt (mod_granule_eq_zero_iff hs).mpr ha)]
    exact h
  · rw [faults, if_neg (Nat.not_lt.mpr (toNat_shift hs).1),
      if_pos ((mod_granule_eq_zero_iff hs).mp ha), if_pos hr]
    exact h
  · have hb : base ≤ stop := UInt64.le_of_lt (UInt64.lt_trans hr.1 hr.2)
    rw [faults, if_neg (Nat.not_lt.mpr (toNat_shift hs).1),
      if_pos ((mod_granule_eq_zero_iff hs).mp ha), if_neg (not_range_iff.mpr hr),
      if_pos ((window_lt_sub_iff hs hb).mp hw)]
    exact h
  · obtain ⟨rfl, rfl, rfl, rfl⟩ := ofLayout_eq_ok_iff.mp h
    rw [faults_eq_nil]
    exact ⟨c, h⟩

theorem difference?_granule_one (h : shift ≤ 3) :
    difference? (granule shift) 1 = some (granule shift - 1) := by
  refine if_pos ?_
  rw [UInt64.le_iff_toNat_le, toNat_granule h]
  exact Nat.two_pow_pos _

theorem shifted?_one (h : shift ≤ 3) : shifted? 1 shift = some (granule shift) := by
  have hs := (toNat_shift h).1
  have hlt : shift < 64 := UInt32.lt_of_le_of_lt h (by decide)
  refine if_pos ⟨hlt, ?_⟩
  rw [UInt64.toNat_one, Nat.one_mul]
  exact Nat.pow_lt_pow_right (by decide) (by omega)

theorem shifted?_reach (h : shift ≤ 3) :
    shifted? ((1 : UInt64) <<< 32) shift = some (window shift) := by
  have hs := (toNat_shift h).1
  have hlt : shift < 64 := UInt32.lt_of_le_of_lt h (by decide)
  have hw : ((1 : UInt64) <<< 32).toNat = 2 ^ 32 := rfl
  refine if_pos ⟨hlt, ?_⟩
  rw [hw, ← Nat.pow_add]
  exact Nat.pow_lt_pow_right (by decide) (by omega)

theorem check?_of_shift_le (h : shift ≤ 3) :
    check? base shift start stop =
      if base % granule shift ≠ 0 then some (.error (.misalignedBase base))
      else if start ≤ base ∨ stop ≤ start then some (.error (.invalidReservedRange start stop))
      else (difference? stop base).bind fun span =>
        if window shift < span then some (.error (.reservedTooLarge span)) else some (.ok ()) := by
  have hreach : shifted? 1 32 = some ((1 : UInt64) <<< 32) := by decide
  simp only [check?, if_neg (UInt32.not_lt.mpr h), Option.bind_eq_bind, Option.pure_def,
    shifted?_one h, difference?_granule_one h, hreach, shifted?_reach h, Option.bind_some,
    and_granule_sub_one h]

/-- No word overflows as a layout is checked. -/
theorem check?_eq (base : UInt64) (shift : UInt32) (start stop : UInt64) :
    check? base shift start stop = some ((ofLayout base shift start stop).map fun _ => ()) := by
  obtain ⟨hs, h⟩ | ⟨hs, ha, h⟩ | ⟨hs, ha, hr, h⟩ | ⟨hs, ha, hr, hw, h⟩ | ⟨c, h⟩ :=
    ofLayout_cases base shift start stop
  · rw [h, check?, if_pos hs]
    rfl
  · rw [h, check?_of_shift_le hs, if_pos ha]
    rfl
  · rw [h, check?_of_shift_le hs, if_neg (not_not.mpr ha), if_pos hr]
    rfl
  · have hb : base ≤ stop := UInt64.le_of_lt (UInt64.lt_trans hr.1 hr.2)
    rw [h, check?_of_shift_le hs, if_neg (not_not.mpr ha), if_neg (not_range_iff.mpr hr),
      difference?, if_pos hb, Option.bind_some, if_pos hw]
    rfl
  · rw [h]
    obtain ⟨rfl, rfl, rfl, rfl⟩ := ofLayout_eq_ok_iff.mp h
    rw [check?_of_shift_le c.shift_le, if_neg (not_not.mpr c.base_aligned),
      if_neg (not_range_iff.mpr ⟨c.base_lt_start, c.start_lt_stop⟩), difference?,
      if_pos (UInt64.le_of_lt c.base_lt_stop), Option.bind_some,
      if_neg (UInt64.not_lt.mpr c.span_le)]
    rfl

/-- Beyond the largest range there is an address too many granules above the base. -/
theorem exists_beyond_window
    (h : ofLayout base shift start stop = .error (.reservedTooLarge span)) :
    base.toNat + span.toNat = stop.toNat ∧
      ∃ a, base < a ∧ a < stop ∧ 2 ^ shift.toNat ∣ a.toNat ∧
        2 ^ 32 ≤ ((a - base) >>> shift.toUInt64).toNat := by
  obtain ⟨-, h'⟩ | ⟨-, -, h'⟩ | ⟨-, -, -, h'⟩ | ⟨hs, ha, hr, hw, h'⟩ | ⟨c, h'⟩ :=
    ofLayout_cases base shift start stop <;> cases h.symm.trans h'
  have hlt : base < stop := UInt64.lt_trans hr.1 hr.2
  have hb : base.toNat < stop.toNat := UInt64.lt_iff_toNat_lt.mp hlt
  have hsub := UInt64.toNat_sub_of_le _ _ (UInt64.le_of_lt hlt)
  have hdvd := (mod_granule_eq_zero_iff hs).mp ha
  rw [window_lt_sub_iff hs (UInt64.le_of_lt hlt), Nat.pow_add] at hw
  -- One window above the base lies the first address that 32 bits do not reach.
  have hadd : (base + window shift).toNat = base.toNat + 2 ^ 32 * 2 ^ shift.toNat := by
    rw [UInt64.toNat_add, toNat_window hs]
    have := stop.toNat_lt
    omega
  have hpos := Nat.two_pow_pos shift.toNat
  have hba : base ≤ base + window shift := by
    rw [UInt64.le_iff_toNat_le, hadd]
    exact Nat.le_add_right ..
  refine ⟨by omega, base + window shift, ?_, ?_, ?_, ?_⟩
  · rw [UInt64.lt_iff_toNat_lt, hadd]
    omega
  · rw [UInt64.lt_iff_toNat_lt, hadd]
    omega
  · rw [hadd]
    exact Nat.dvd_add hdvd (Nat.dvd_mul_left ..)
  · rw [toNat_sub_shiftRight hs hba, hadd, Nat.add_sub_cancel_left, Nat.mul_div_cancel _ hpos]

/-- A layout is refused for the first of its faults, and otherwise has a codec. Nothing overflows as
it is checked, and the bound on the range is tight. -/
theorem ofLayout_reports_first_fault (base : UInt64) (shift : UInt32) (start stop : UInt64) :
    (match (faults base shift start stop).head? with
      | some e => ofLayout base shift start stop = .error e
      | none => ∃ c, ofLayout base shift start stop = .ok c ∧
          c.base = base ∧ c.shift = shift ∧ c.start = start ∧ c.stop = stop) ∧
      check? base shift start stop = some ((ofLayout base shift start stop).map fun _ => ()) ∧
      (∀ c, ofLayout base shift start stop = .ok c → ∀ a, base < a → a < stop →
        ((a - base) >>> shift.toUInt64).toNat = (a.toNat - base.toNat) / 2 ^ shift.toNat ∧
          (a.toNat - base.toNat) / 2 ^ shift.toNat < 2 ^ 32) ∧
      ∀ span, ofLayout base shift start stop = .error (.reservedTooLarge span) →
        base.toNat + span.toNat = stop.toNat ∧
          ∃ a, base < a ∧ a < stop ∧ 2 ^ shift.toNat ∣ a.toNat ∧
            2 ^ 32 ≤ ((a - base) >>> shift.toUInt64).toNat := by
  refine ⟨?_, check?_eq .., fun c h a hb hs => ?_, fun span => exists_beyond_window⟩
  · have h := ofLayout_eq_of_faults base shift start stop
    cases hf : (faults base shift start stop).head? with
    | some e => rwa [hf] at h
    | none =>
      rw [hf] at h
      obtain ⟨c, h⟩ := h
      exact ⟨c, h, ofLayout_eq_ok_iff.mp h⟩
  · obtain ⟨rfl, rfl, -, rfl⟩ := ofLayout_eq_ok_iff.mp h
    exact ⟨toNat_sub_shiftRight c.shift_le (UInt64.le_of_lt hb), granules_lt_window hs⟩

/-- A range may end a full window above the base, and not a byte later. -/
theorem ofLayout_reports_first_fault_at_window :
    (∃ c, ofLayout 0x1000 3 0x1008 0x800001000 = .ok c) ∧
      ofLayout 0x1000 3 0x1008 0x800001001 = .error (.reservedTooLarge 0x800000001) ∧
      ofLayout 0x1004 0xFFFFFFFF 0x1000 0 = .error (.invalidShift 0xFFFFFFFF) ∧
      ∃ a : UInt64, 0x1000 < a ∧ a < 0x800001001 ∧ 8 ∣ a.toNat ∧
        2 ^ 32 ≤ ((a - 0x1000) >>> 3).toNat := by
  have h : ofLayout 0x1000 3 0x1008 0x800001001 = .error (.reservedTooLarge 0x800000001) :=
    (ofLayout_reports_first_fault 0x1000 3 0x1008 0x800001001).1
  refine ⟨?_, h, (ofLayout_reports_first_fault 0x1004 0xFFFFFFFF 0x1000 0).1, ?_⟩
  · obtain ⟨c, hc, -⟩ := (ofLayout_reports_first_fault 0x1000 3 0x1008 0x800001000).1
    exact ⟨c, hc⟩
  · exact ((ofLayout_reports_first_fault 0x1000 3 0x1008 0x800001001).2.2.2 _ h).2

end Codec

end HeapRefs
