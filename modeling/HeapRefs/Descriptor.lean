import HeapRefs.Kind.Descriptor
import HeapRefs.Text.Quoted

/-! # Type descriptors

A descriptor is shared by all objects of one type. Its size is that of an instance, header
included.
-/

namespace HeapRefs

structure Descriptor where
  name : String
  kind : DescriptorKind
  instanceSize : UInt64
  deriving DecidableEq, Repr

namespace Descriptor

def objectKind (d : Descriptor) : ObjectKind := d.kind.objectKind

def label (d : Descriptor) : String := d.name ++ " (" ++ d.kind.label ++ ")"

def detail (d : Descriptor) : String :=
  "Klass \x7b name: " ++ Text.quote d.name ++ ", kind: " ++ d.kind.label ++ ", instance_size: " ++
    toString d.instanceSize.toNat ++ " \x7d"

end Descriptor

/-- A descriptor in its place in memory. Two of equal contents are told apart by their numbers. -/
structure Klass where
  number : Nat
  descriptor : Descriptor
  deriving DecidableEq, Repr

end HeapRefs
