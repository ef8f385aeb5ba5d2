import HeapRefs.Kind.Object

/-! # Kinds of type descriptors

Descriptors have a hierarchy of their own, apart from that of the objects which they describe;
`objectKind` leads from one to the other.
-/

namespace HeapRefs

inductive DescriptorKind
  | inst
  | instClass
  | instRef
  | method
  | constMethod
  | methodData
  | descriptor
  | instDescriptor
  | arrayDescriptor
  | refArrayDescriptor
  | primArrayDescriptor
  | array
  | refArray
  | primArray
  | constantPool
  | constantPoolCache
  | inlineCache
  deriving DecidableEq, Repr

namespace DescriptorKind

def all : List DescriptorKind :=
  [inst, instClass, instRef, method, constMethod, methodData, descriptor, instDescriptor,
    arrayDescriptor, refArrayDescriptor, primArrayDescriptor, array, refArray, primArray,
    constantPool, constantPoolCache, inlineCache]

def tag (k : DescriptorKind) : Nat := all.idxOf k

def parent : DescriptorKind → Option DescriptorKind
  | instClass | instRef => some inst
  | instDescriptor | arrayDescriptor => some descriptor
  | refArrayDescriptor | primArrayDescriptor => some arrayDescriptor
  | refArray | primArray => some array
  | _ => none

def ancestors (k : DescriptorKind) : List DescriptorKind := lineage parent 2 k

def isWithin (k other : DescriptorKind) : Bool := k.ancestors.contains other

/-- The kind of the objects that descriptors of this kind describe. -/
def objectKind : DescriptorKind → ObjectKind
  | inst | instClass | instRef => .inst
  | method => .method
  | constMethod => .constMethod
  | methodData => .methodData
  | descriptor | instDescriptor | arrayDescriptor | refArrayDescriptor | primArrayDescriptor =>
    .descriptor
  | array => .array
  | refArray => .refArray
  | primArray => .primArray
  | constantPool => .constantPool
  | constantPoolCache => .constantPoolCache
  | inlineCache => .inlineCache

def label : DescriptorKind → String
  | inst => "Instance"
  | instClass => "InstanceMirror"
  | instRef => "InstanceRef"
  | method => "Method"
  | constMethod => "ConstMethod"
  | methodData => "MethodData"
  | descriptor => "KlassKlass"
  | instDescriptor => "InstanceKlassKlass"
  | arrayDescriptor => "ArrayKlassKlass"
  | refArrayDescriptor => "ObjArrayKlassKlass"
  | primArrayDescriptor => "TypeArrayKlassKlass"
  | array => "Array"
  | refArray => "ObjArray"
  | primArray => "TypeArray"
  | constantPool => "ConstantPool"
  | constantPoolCache => "ConstantPoolCache"
  | inlineCache => "CompiledICHolder"

def ofLabel? (s : String) : Option DescriptorKind := all.find? (·.label == s)

theorem mem_all (k : DescriptorKind) : k ∈ all := by cases k <;> decide

instance decidableForall (p : DescriptorKind → Prop) [DecidablePred p] : Decidable (∀ k, p k) :=
  decidable_of_iff (∀ k ∈ all, p k) ⟨fun h k => h k (mem_all k), fun h k _ => h k⟩

@[simp] theorem isWithin_self (k : DescriptorKind) : k.isWithin k = true := by
  cases k <;> rfl

end DescriptorKind

end HeapRefs
