import HeapRefs.Session.Operation
import HeapRefs.Session.Outcome
import HeapRefs.Shared

/-! # States of a session -/

namespace HeapRefs.Session

/-- What the library is given by others: the cell for the installed codec, and the allocator. -/
structure Platform where
  once : OnceCell Codec Bool
  allocator : Allocator

def Platform.standard : Platform := ⟨.standard, .bump⟩

/-- How the library is built: which representation it hands out and gives to typed references,
whether assertions are on, and for which platform. -/
structure Build where
  managed : Representation
  asserts : Bool
  platform : Platform

def Build.standard (managed : Representation) (asserts : Bool) : Build :=
  ⟨managed, asserts, .standard⟩

/-- The variables of a thread. The guard is the name under which the thread was attached; it is
there until the thread is detached. -/
structure Locals where
  guard? : Option String
  views : Bindings View
  handles : Bindings Handle
  marks : Bindings Mark
  codecs : Bindings Codec
  deriving DecidableEq, Repr

namespace Locals

def fresh : Locals := ⟨none, ∅, ∅, ∅, ∅⟩

end Locals

structure State where
  shared : Shared
  thread : Thread
  locals : Locals

/-- What a step does: its outcome, the state after it, and what it logs. -/
structure Effect where
  outcome : Outcome
  state : State
  log : List Record

namespace State

/-- A thread starts amid what all share, with thread-local variables and with variables of its
own. -/
def start (shared : Shared) (thread : Thread) : State := ⟨shared, thread.start, .fresh⟩

def initial : State := start .initial .main

def done (s : State) (a : Answer) : Effect := ⟨.done a, s, []⟩

def failed (s : State) (e : Failure) : Effect := ⟨.failed e, s, []⟩

def fault (s : State) (f : Fault) : Effect := s.failed (.fault f)

def refused (s : State) (why : Refusal) : Effect := ⟨.refused why, s, []⟩

def record (s : State) (e : Event) : Record := s.thread.record e

def word? (s : State) : Operand → Option UInt64
  | .word w => some w
  | .object name => s.shared.objects.get? name

def withWord (s : State) (o : Operand) (k : UInt64 → Effect) : Effect :=
  match s.word? o with
  | none => s.refused .noAddress
  | some w => k w

def withContext (s : State) (k : Context → Effect) : Effect :=
  match s.locals.guard?, s.thread.context? with
  | none, _ => s.refused .notAttached
  | some _, none => s.fault .noContext
  | some _, some c => k c

def counts? (s : State) : Option Counts :=
  match s.locals.guard?, s.thread.context? with
  | some _, some c => some ⟨c.registry.size, c.anchors.size⟩
  | _, _ => none

/-! ### Variables that hold references -/

def withView (s : State) (name : String) (k : View → Effect) : Effect :=
  match s.locals.views.get? name with
  | none => s.refused (.unbound name)
  | some v => k v

def create (s : State) (representation : Representation) (address : UInt64) (origin : Origin) :
    Reference × State :=
  let (r, thread) := s.thread.create s.shared.checking representation address origin
  (r, { s with thread })

def destroy (s : State) (v : View) : State := { s with thread := s.thread.destroy v.reference }

/-- Unbinds a variable and leaves its reference alone. -/
def unbind (s : State) (name : String) : State :=
  { s with locals := { s.locals with views := s.locals.views.erase name } }

/-- Binds a variable; the reference that it held before is destroyed. -/
def bind (s : State) (name : String) (v : View) : State :=
  let t := match s.locals.views.get? name with
    | none => s
    | some old => s.destroy old
  { t with locals := { t.locals with views := t.locals.views.set name v } }

def bindDone (s : State) (name : String) (v : View) : Effect := (s.bind name v).done (.view v)

end State

end HeapRefs.Session
