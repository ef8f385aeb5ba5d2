import HeapRefs.Proofs.Codec.Granules
import HeapRefs.Session.Run

/-! # Encoding and decoding

An address that a codec encodes is recovered by decoding, and null is the only address with the
null form. No word overflows on the way.
-/

namespace HeapRefs.Codec

open Session

variable {c : Codec} {base start stop a a' : UInt64} {shift : UInt32} {n : NarrowRef}

theorem ofLayout_eq_ok_iff : ofLayout base shift start stop = .ok c ↔
    c.base = base ∧ c.shift = shift ∧ c.start = start ∧ c.stop = stop := by
  constructor
  · intro h
    unfold ofLayout at h
    split_ifs at h
    cases h
    exact ⟨rfl, rfl, rfl, rfl⟩
  · rintro ⟨rfl, rfl, rfl, rfl⟩
    rw [ofLayout, dif_pos c.shift_le, dif_pos c.base_aligned,
      dif_pos ⟨c.base_lt_start, c.start_lt_stop⟩, dif_pos c.span_le]

theorem decode_of_encode (h : c.encode a = .ok n) : c.decode n = a := by
  by_cases h0 : a = 0
  · rw [(eq_null_iff_of_encode h).mpr h0, decode_null, h0]
  · apply UInt64.toNat_inj.mp
    obtain ⟨-, he⟩ := toNat_eq_of_encode h h0
    rw [toNat_decode (bits_ne_zero_of_encode h h0), ← he]
    exact Nat.mod_eq_of_lt a.toNat_lt

theorem eq_of_encode_eq (h : c.encode a = .ok n) (h' : c.encode a' = .ok n) : a' = a :=
  (decode_of_encode h').symm.trans (decode_of_encode h)

theorem apply_encode {b : Build} {s : State} {codec source : String} {v : View}
    (hc : s.locals.codecs.get? codec = some c) (hv : s.locals.views.get? source = some v)
    (h : c.encode v.address = .ok n) :
    (CodecOp.encode codec source).apply b s = s.done (.narrow n) := by
  simp [CodecOp.apply, State.withCodec, State.withView, hc, hv, encodeOrFault_of_encode h]

theorem apply_decode {b : Build} {s : State} {codec : String}
    (hc : s.locals.codecs.get? codec = some c) (target : String) (n : NarrowRef) :
    ∃ r, ((CodecOp.decode target codec n).apply b s).outcome = .done (.view ⟨r, none⟩) ∧
      r.address = c.decode n ∧ r.representation = b.managed := by
  refine ⟨(s.create b.managed (c.decode n) .decode).1, ?_, ?_, ?_⟩
  · simp [CodecOp.apply, State.withCodec, hc, State.bindDone, State.done]
  · exact Thread.address_create ..
  · exact Thread.representation_create ..

/-- Decoding gives back every address that a codec encodes, to references of any representation, and
no step of it wraps. -/
theorem encode_exact (hc : ofLayout base shift start stop = .ok c) (h : c.encode a = .ok n) :
    c.decode n = a ∧ (n = .null ↔ a = 0) ∧ (∀ a', c.encode a' = .ok n → a' = a) ∧
      (a ≠ 0 → base < a ∧
        n.bits.toNat = (a.toNat - base.toNat) / 2 ^ shift.toNat ∧
        (a.toNat - base.toNat) / 2 ^ shift.toNat < 2 ^ 32 ∧
        base.toNat + n.bits.toNat * 2 ^ shift.toNat < 2 ^ 64) ∧
      ∀ (b : Build) (s : State) (codec source target : String) (v : View),
        s.locals.codecs.get? codec = some c → s.locals.views.get? source = some v →
        v.address = a →
        (CodecOp.encode codec source).apply b s = s.done (.narrow n) ∧
        ∃ r, ((CodecOp.decode target codec n).apply b s).outcome = .done (.view ⟨r, none⟩) ∧
          r.address = a ∧ r.representation = b.managed := by
  obtain ⟨rfl, rfl, -, -⟩ := ofLayout_eq_ok_iff.mp hc
  refine ⟨decode_of_encode h, eq_null_iff_of_encode h, fun a' => eq_of_encode_eq h, ?_, ?_⟩
  · intro h0
    obtain ⟨hn, ha⟩ := encode_eq_ok_iff.mp h
    obtain ⟨hcov, -⟩ := ha.resolve_left h0
    obtain ⟨hb, he⟩ := toNat_eq_of_encode h h0
    refine ⟨UInt64.lt_iff_toNat_lt.mpr hb, ?_, offset_lt hcov, ?_⟩
    · rw [hn, toNat_bits_compress hcov h0]
    · rw [← he]
      exact a.toNat_lt
  · rintro b s codec source target v hl hv rfl
    obtain ⟨r, ho, hr, hm⟩ := apply_decode (b := b) hl target n
    exact ⟨apply_encode hl hv h, r, ho, hr.trans (decode_of_encode h), hm⟩

/-- The last aligned address of the address space. -/
theorem encode_exact_at_top :
    let base : UInt64 := 0xFFFFFFFFFFFFF000
    let stop : UInt64 := 0xFFFFFFFFFFFFFFFF
    let a : UInt64 := 0xFFFFFFFFFFFFFFF8
    let n : NarrowRef := ⟨0x1FF⟩
    ∃ c, ofLayout base 3 (base + 8) stop = .ok c ∧ c.encode a = .ok n ∧ c.decode n = a ∧
      let s : State := { State.initial with
        locals := { Locals.fresh with
          codecs := (∅ : Bindings Codec).set "c" c
          views := (∅ : Bindings View).set "x" ⟨.direct a, none⟩ } }
      (CodecOp.encode "c" "x").apply (.standard .direct true) s = s.done (.narrow n) := by
  intro base stop a n
  let c : Codec := ⟨base, 3, base + 8, stop, by decide, by decide, by decide, by decide, by decide⟩
  have hc : ofLayout base 3 (base + 8) stop = .ok c :=
    ofLayout_eq_ok_iff.mpr ⟨rfl, rfl, rfl, rfl⟩
  have hn : c.encode a = .ok n :=
    encode_eq_ok_iff.mpr ⟨by decide, .inr ⟨by decide, by decide⟩⟩
  obtain ⟨hd, -, -, -, ho⟩ := encode_exact hc hn
  exact ⟨c, hc, hn, hd, (ho (.standard .direct true) _ "c" "x" "y" ⟨.direct a, none⟩ rfl rfl rfl).1⟩

end HeapRefs.Codec
