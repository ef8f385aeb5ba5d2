import HeapRefs.Codec.Query
import HeapRefs.Kind.Descriptor
import HeapRefs.Object.Header
import HeapRefs.Reference

/-! # Sessions

A session is a list of steps on one thread: operations on named variables, and sessions of other
threads, which are waited for.
-/

namespace HeapRefs.Session

/-- An address, given as it is or as the name of an object. -/
inductive Operand
  | word (w : UInt64)
  | object (name : String)
  deriving DecidableEq, Repr

inductive Seed
  | address (form : AddressForm) (operand : Operand)
  | null
  deriving DecidableEq, Repr

inductive ThreadOp
  | attach (name : String)
  | detach
  | status
  | poll
  | entries
  | unhandled
  | install (settings : Settings)
  | installVariable (value : Option ByteArray)

/-- The origin of a reference that is made from a seed at no place of its own. -/
def Seed.origin (representation? : Option Representation) : Seed → Origin
  | address form _ =>
    match representation? with
    | none => .managed form
    | some _ => .checked form
  | null => .checked .bits

/-- Operations on references, the ones that make a reference with the place that they stand at.
Without a representation, `create` makes a managed reference. -/
inductive ReferenceOp
  | create (target : String) (representation? : Option Representation) (seed : Seed)
    (origin : Origin := seed.origin representation?)
  | clone (target source : String) (origin : Origin := .clone)
  | move (target source : String)
  | drop (name : String)
  | forget (name : String)
  | inspect (name : String)
  | allow (name : String)
  | foreignSlot (name : String)
  | compare (left right : String)
  | address (name : String)
  | intoAddress (name : String)
  | typedNull (target : String) (kind : ObjectKind)
  | narrow (target source : String) (kind : ObjectKind)
  | widen (target source : String) (kind : ObjectKind)
  | untype (target source : String)
  | cloneUntyped (target source : String) (origin : Origin := .untypedClone)
  deriving DecidableEq, Repr

inductive HeapOp
  | alloc (name : String) (kind : DescriptorKind) (size : UInt64) (descriptor? : Option String)
  | allocArray (name : String) (kind : DescriptorKind) (length : UInt32) (elementSize : Nat)
  | header (name : String)
  | setMark (name : String) (mark : MarkWord)
  | typedHeader (name : String)
  | length (name : String)
  deriving DecidableEq, Repr

inductive HandleOp
  | create (target source : String)
  | resolve (target handle : String) (origin : Origin := .resolve)
  | address (name : String)
  | equal (left right : String)
  | mark (name : String)
  | release (name : String)
  | relocate (source target : Operand)
  deriving DecidableEq, Repr

inductive CodecOp
  | create (target : String) (base : Operand) (shift : UInt32) (start stop : Operand)
  | equal (left right : String)
  | encode (codec source : String)
  | decode (target codec : String) (n : NarrowRef) (origin : Origin := .decode)
  | install (name : String)
  | installed
  | ask (query : Query Operand)
  deriving Repr

inductive Op
  | thread (op : ThreadOp)
  | reference (op : ReferenceOp)
  | heap (op : HeapOp)
  | handle (op : HandleOp)
  | codec (op : CodecOp)

inductive Step
  | op (op : Op)
  | spawn (steps : List Step)

end HeapRefs.Session
