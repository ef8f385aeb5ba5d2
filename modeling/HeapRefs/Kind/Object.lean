import HeapRefs.Kind.Lineage

/-! # Kinds of heap objects

Every object has one kind. A reference to an object may be narrowed to the object's kind or to any
kind above it; `any` is above all.
-/

namespace HeapRefs

inductive ObjectKind
  | any
  | inst
  | method
  | constMethod
  | methodData
  | array
  | refArray
  | primArray
  | constantPool
  | constantPoolCache
  | descriptor
  | inlineCache
  deriving DecidableEq, Repr

namespace ObjectKind

/-- Every kind, parents before their children. -/
def all : List ObjectKind :=
  [any, inst, method, constMethod, methodData, array, refArray, primArray, constantPool,
    constantPoolCache, descriptor, inlineCache]

def tag (k : ObjectKind) : Nat := all.idxOf k

def parent : ObjectKind → Option ObjectKind
  | any => none
  | refArray | primArray => some array
  | _ => some any

def ancestors (k : ObjectKind) : List ObjectKind := lineage parent 2 k

def isWithin (k other : ObjectKind) : Bool := k.ancestors.contains other

def label : ObjectKind → String
  | any => "Oop"
  | inst => "Instance"
  | method => "Method"
  | constMethod => "ConstMethod"
  | methodData => "MethodData"
  | array => "Array"
  | refArray => "ObjArray"
  | primArray => "TypeArray"
  | constantPool => "ConstantPool"
  | constantPoolCache => "ConstantPoolCache"
  | descriptor => "Klass"
  | inlineCache => "CompiledICHolder"

def ofLabel? (s : String) : Option ObjectKind := all.find? (·.label == s)

def refName : ObjectKind → String
  | any => "oop"
  | inst => "instanceOop"
  | method => "methodOop"
  | constMethod => "constMethodOop"
  | methodData => "methodDataOop"
  | array => "arrayOop"
  | refArray => "objArrayOop"
  | primArray => "typeArrayOop"
  | constantPool => "constantPoolOop"
  | constantPoolCache => "constantPoolCacheOop"
  | descriptor => "klassOop"
  | inlineCache => "compiledICHolderOop"

def isArray (k : ObjectKind) : Bool := k.isWithin array

theorem mem_all (k : ObjectKind) : k ∈ all := by cases k <;> decide

instance decidableForall (p : ObjectKind → Prop) [DecidablePred p] : Decidable (∀ k, p k) :=
  decidable_of_iff (∀ k ∈ all, p k) ⟨fun h k => h k (mem_all k), fun h k _ => h k⟩

@[simp] theorem isWithin_self (k : ObjectKind) : k.isWithin k = true := by
  cases k <;> rfl

theorem isWithin_trans {k l m : ObjectKind} (hkl : k.isWithin l = true)
    (hlm : l.isWithin m = true) : k.isWithin m = true := by
  revert k l m
  decide +kernel

end ObjectKind

end HeapRefs
