import HeapRefs.Kind.Object
import HeapRefs.Text.Hex
import HeapRefs.Comparison

/-! # References

A reference holds the address of an object, zero for none. A direct reference is no more than that;
a checked one may also hold the slot under which its thread has registered it. References are
compared by address.
-/

namespace HeapRefs

/-- The number of a registration, unique on its thread. -/
abbrev Slot := Nat

inductive Representation
  | direct
  | checked
  deriving DecidableEq, Repr

namespace Representation

def label : Representation → String
  | direct => "DirectOop"
  | checked => "CheckedOop"

end Representation

inductive Reference
  | direct (address : UInt64)
  | checked (address : UInt64) (slot? : Option Slot)
  deriving DecidableEq, Repr

namespace Reference

def null : Representation → Reference
  | .direct => direct 0
  | .checked => checked 0 none

def address : Reference → UInt64
  | direct a => a
  | checked a _ => a

def slot? : Reference → Option Slot
  | direct _ => none
  | checked _ s => s

def representation : Reference → Representation
  | direct _ => .direct
  | checked _ _ => .checked

def isNull (r : Reference) : Bool := r.address == 0

def detail (r : Reference) : String :=
  r.representation.label ++ "(" ++ Hex.render r.address.toNat ++ ")"

def compare (r s : Reference) : Comparison := .of r.address s.address

def max (r s : Reference) : Reference := if r.address ≤ s.address then s else r

def min (r s : Reference) : Reference := if r.address ≤ s.address then r else s

end Reference

/-- A reference as a variable holds it: untyped, or narrowed to a kind. -/
structure View where
  reference : Reference
  kind? : Option ObjectKind
  deriving DecidableEq, Repr

namespace View

def address (v : View) : UInt64 := v.reference.address

def detail (v : View) : String :=
  match v.kind? with
  | none => v.reference.detail
  | some k => k.refName ++ "(" ++ Hex.render v.address.toNat ++ ")"

/-- Views of one type: both untyped with one representation, or both narrowed to one kind. -/
def comparable (v w : View) : Bool :=
  v.kind? == w.kind? && v.reference.representation == w.reference.representation

end View

inductive AddressForm
  | bits
  | pointer
  | raw
  deriving DecidableEq, Repr

/-- The place in a program from which a reference was made, as it is printed. -/
structure Origin where
  label : String
  deriving DecidableEq, Repr

namespace Origin

/-! A place that nobody names is told apart by the kind of the call only. -/

def checked : AddressForm → Origin
  | .bits => ⟨"<from_bits>"⟩
  | .pointer => ⟨"<from_ptr>"⟩
  | .raw => ⟨"<from_raw>"⟩

def managed : AddressForm → Origin
  | .bits => ⟨"<oop_from_bits>"⟩
  | .pointer => ⟨"<oop_from_ptr>"⟩
  | .raw => ⟨"<oop_from_raw>"⟩

def clone : Origin := ⟨"<clone>"⟩

def untypedClone : Origin := ⟨"<as_oop>"⟩

def resolve : Origin := ⟨"<resolve>"⟩

def decode : Origin := ⟨"<decode_oop>"⟩

end Origin

end HeapRefs
