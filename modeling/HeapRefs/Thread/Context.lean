import HeapRefs.Registry

/-! # Thread contexts

What a thread owns while it is attached: its registry and its anchors.
-/

namespace HeapRefs

structure Context where
  name : String
  registry : Registry
  anchors : AnchorTable
  atSafepoint : Bool
  deriving DecidableEq, Repr

namespace Context

def fresh (name : String) : Context := ⟨name, .empty, .empty, false⟩

def insert (c : Context) (e : Entry) : Context := { c with registry := c.registry.insert e }

def erase (c : Context) (slot : Slot) : Context := { c with registry := c.registry.erase slot }

def allow (c : Context) (slot : Slot) : Context := { c with registry := c.registry.allow slot }

def release (c : Context) (m : Mark) : Context := { c with anchors := c.anchors.release m }

def relocate (c : Context) (source target : UInt64) : Context :=
  { c with anchors := c.anchors.relocate source target }

def park (c : Context) : Context := { c with atSafepoint := true }

def resume (c : Context) : Context := { c with atSafepoint := false }

/-- The references that a collection would now leave dangling. -/
def unhandled (c : Context) : List Entry := c.registry.unhandled c.anchors

end Context

end HeapRefs
