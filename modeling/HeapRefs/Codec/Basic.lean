import HeapRefs.Comparison
import HeapRefs.Text.Hex

/-! # Compressed references

A codec maps the aligned addresses of a reserved range to 32-bit numbers: the distance from a base,
counted in granules of `2 ^ shift` bytes. The base lies below the range, so that zero is free for
null.
-/

namespace HeapRefs

structure NarrowRef where
  bits : UInt32
  deriving DecidableEq, Repr

namespace NarrowRef

def null : NarrowRef := ⟨0⟩

def isNull (n : NarrowRef) : Bool := n.bits == 0

def compare (n m : NarrowRef) : Comparison := .of n.bits m.bits

def detail (n : NarrowRef) : String := "NarrowOop(" ++ Hex.render n.bits.toNat ++ ")"

end NarrowRef

inductive LayoutError
  | invalidShift (shift : UInt32)
  | misalignedBase (base : UInt64)
  | invalidReservedRange (start stop : UInt64)
  | reservedTooLarge (span : UInt64)
  deriving DecidableEq, Repr

namespace LayoutError

def message : LayoutError → String
  | invalidShift shift => "shift " ++ toString shift.toNat ++ " exceeds the maximum of 3"
  | misalignedBase base =>
    "heap base " ++ Hex.render base.toNat ++ " is not aligned to the encoding granularity"
  | invalidReservedRange start stop =>
    "reserved range " ++ Hex.render start.toNat ++ ".." ++ Hex.render stop.toNat ++
      " must be non-empty and lie above the heap base"
  | reservedTooLarge span =>
    "reserved range ends " ++ Hex.render span.toNat ++
      " bytes above the heap base, beyond the encoding window"

end LayoutError

inductive EncodeError
  | outOfRange (address : UInt64)
  | misaligned (address : UInt64)
  deriving DecidableEq, Repr

namespace EncodeError

def message : EncodeError → String
  | outOfRange address =>
    "address " ++ Hex.render address.toNat ++ " lies outside of the reserved heap range"
  | misaligned address =>
    "address " ++ Hex.render address.toNat ++ " is not aligned to the encoding granularity"

def detail : EncodeError → String
  | outOfRange address => "OutOfRange(" ++ toString address.toNat ++ ")"
  | misaligned address => "Misaligned(" ++ toString address.toNat ++ ")"

end EncodeError

/-- The number of bytes that one unit of a compressed reference stands for. -/
def granule (shift : UInt32) : UInt64 := 1 <<< shift.toUInt64

/-- The number of bytes that 32 bits of granules reach. -/
def window (shift : UInt32) : UInt64 := (1 : UInt64) <<< 32 <<< shift.toUInt64

structure Codec where
  base : UInt64
  shift : UInt32
  start : UInt64
  stop : UInt64
  shift_le : shift ≤ 3
  base_aligned : base % granule shift = 0
  base_lt_start : base < start
  start_lt_stop : start < stop
  span_le : stop - base ≤ window shift
  deriving DecidableEq, Repr

namespace Codec

/-- The codec of a layout, or the first fault of the layout. -/
def ofLayout (base : UInt64) (shift : UInt32) (start stop : UInt64) : Except LayoutError Codec :=
  if hs : shift ≤ 3 then
    if ha : base % granule shift = 0 then
      if hr : base < start ∧ start < stop then
        if hw : stop - base ≤ window shift then
          .ok ⟨base, shift, start, stop, hs, ha, hr.1, hr.2, hw⟩
        else .error (.reservedTooLarge (stop - base))
      else .error (.invalidReservedRange start stop)
    else .error (.misalignedBase base)
  else .error (.invalidShift shift)

def covers (c : Codec) (address : UInt64) : Bool := c.start ≤ address && address < c.stop

def encode (c : Codec) (address : UInt64) : Except EncodeError NarrowRef :=
  if address = 0 then .ok .null
  else if ¬ c.covers address then .error (.outOfRange address)
  else
    let offset := address - c.base
    if offset % granule c.shift ≠ 0 then .error (.misaligned address)
    else .ok ⟨(offset >>> c.shift.toUInt64).toUInt32⟩

/-- The distance from the base in granules, wrapped around the address space and cut to 32 bits. -/
def compress (c : Codec) (address : UInt64) : NarrowRef :=
  if address = 0 then .null else ⟨((address - c.base) >>> c.shift.toUInt64).toUInt32⟩

def encodeFast (c : Codec) (asserts : Bool) (address : UInt64) : Except EncodeError NarrowRef :=
  match asserts, c.encode address with
  | true, .error e => .error e
  | _, _ => .ok (c.compress address)

/-- The address of a compressed reference, modulo the address space if the codec did not make it. -/
def decode (c : Codec) (n : NarrowRef) : UInt64 :=
  if n.bits = 0 then 0 else c.base + (n.bits.toUInt64 <<< c.shift.toUInt64)

/-- Encoding with validation compresses what it accepts, and without wrapping. -/
theorem encode_eq (c : Codec) (address : UInt64) :
    c.encode address =
      if address = 0 then .ok .null
      else if ¬ c.covers address then .error (.outOfRange address)
      else if (address - c.base) % granule c.shift ≠ 0 then .error (.misaligned address)
      else .ok (c.compress address) := by
  unfold encode compress
  by_cases h : address = 0 <;> simp only [h, if_true, if_false]

def detail (c : Codec) : String :=
  "CompressedOops \x7b base: " ++ toString c.base.toNat ++ ", shift: " ++ toString c.shift.toNat ++
    ", reserved: " ++ toString c.start.toNat ++ ".." ++ toString c.stop.toNat ++ " \x7d"

end Codec

end HeapRefs
