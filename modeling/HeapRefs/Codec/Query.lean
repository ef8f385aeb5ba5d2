import HeapRefs.Failure

/-! # Questions to a codec

The questions take their addresses in any form, to be resolved before they are answered.
-/

namespace HeapRefs

inductive Query (α : Type)
  | encode (address : α)
  | encodeFast (address : α)
  | decode (n : NarrowRef)
  | covers (address : α)
  | encodeDecode (address : α)
  | decodeEncode (n : NarrowRef)
  deriving Repr

namespace Query

variable {α β : Type}

def resolve (f : α → Option β) : Query α → Option (Query β)
  | encode a => (f a).map encode
  | encodeFast a => (f a).map encodeFast
  | decode n => some (decode n)
  | covers a => (f a).map covers
  | encodeDecode a => (f a).map encodeDecode
  | decodeEncode n => some (decodeEncode n)

inductive Answer
  | narrow (n : NarrowRef)
  | address (a : UInt64)
  | covered (b : Bool)
  | encodedDecoded (n : NarrowRef) (a : UInt64)
  | decodedEncoded (a : UInt64) (n : NarrowRef)
  deriving DecidableEq, Repr

end Query

namespace Codec

/-- Encodes without validation; with assertions on, an address that cannot be encoded is a fault. -/
def encodeOrFault (c : Codec) (asserts : Bool) (address : UInt64) : Except Fault NarrowRef :=
  match c.encodeFast asserts address with
  | .ok n => .ok n
  | .error e => .error (.unencodable address e)

def answer (c : Codec) (asserts : Bool) : Query UInt64 → Except Failure Query.Answer
  | .encode a =>
    match c.encode a with
    | .ok n => .ok (.narrow n)
    | .error e => .error (.encode e)
  | .encodeFast a =>
    match c.encodeOrFault asserts a with
    | .ok n => .ok (.narrow n)
    | .error e => .error (.fault e)
  | .decode n => .ok (.address (c.decode n))
  | .covers a => .ok (.covered (c.covers a))
  | .encodeDecode a =>
    match c.encode a with
    | .ok n => .ok (.encodedDecoded n (c.decode n))
    | .error e => .error (.encode e)
  | .decodeEncode n =>
    match c.encode (c.decode n) with
    | .ok m => .ok (.decodedEncoded (c.decode n) m)
    | .error e => .error (.encode e)

end Codec

end HeapRefs
