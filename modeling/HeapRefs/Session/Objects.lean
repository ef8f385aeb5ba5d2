import HeapRefs.Session.State

/-! # Operations on objects -/

namespace HeapRefs.Session

def State.withObject (s : State) (name : String) (k : View → Object → Effect) : Effect :=
  s.withView name fun v =>
    match s.shared.heap.find? v.address with
    | none => s.refused (.noObject v.address)
    | some o => k v o

/-- Runs `k` on the object that a typed variable refers to, as the description of its kind. -/
def State.withDescription (s : State) (name : String) (k : Description → Effect) : Effect :=
  s.withObject name fun v o =>
    match v.kind? with
    | none => s.refused (.notTyped name)
    | some kind => k (o.describe kind)

def State.alloc (s : State) (allocator : Allocator) (name : String) (size : Nat) (o : Object) :
    Effect :=
  match s.shared.heap.alloc? allocator size o with
  | none => s.refused .outOfMemory
  | some (a, heap) =>
    State.done { s with shared := { s.shared with heap, objects := s.shared.objects.set name a } }
      (.address a)

def State.newObject (s : State) (name : String) (kind : DescriptorKind) (size : Nat)
    (length : UInt32) : Object :=
  ⟨.ofKlass ⟨s.shared.heap.size, ⟨name, kind, UInt64.ofNat size⟩⟩, length⟩

namespace HeapOp

/-- A plain object has room for its header at least; the elements of an array follow 24 bytes. -/
def apply (b : Build) (s : State) : HeapOp → Effect
  | alloc name kind size descriptor? =>
    let size := Nat.max size.toNat 16
    s.alloc b.platform.allocator name size (s.newObject (descriptor?.getD kind.label) kind size 0)
  | allocArray name kind n elementSize =>
    let size := 24 + n.toNat * elementSize
    s.alloc b.platform.allocator name size (s.newObject kind.label kind size n)
  | header name => s.withObject name fun _ o => s.done (.header o.header)
  | setMark name mark =>
    s.withObject name fun v _ =>
      State.done { s with shared := { s.shared with heap := s.shared.heap.setMark v.address mark } }
        (.address mark.bits)
  | typedHeader name => s.withDescription name fun d => s.done (.typedHeader d.header)
  | length name =>
    s.withDescription name fun d =>
      match d.length? with
      | none => s.refused (.notArray name)
      | some n => s.done (.length n)

end HeapOp

end HeapRefs.Session
