import HeapRefs.Failure
import HeapRefs.Log
import HeapRefs.Thread.Context
import HeapRefs.Thread.Local

/-! # Threads

A thread reaches its context and its two counters as thread-local variables. The context is there
while the thread is attached; the counters outlive every attachment, so that no slot and no stamp is
issued twice.
-/

namespace HeapRefs

/-- The cell for the context of a thread. While a context is borrowed nothing else reaches it. -/
inductive ContextCell
  | vacant
  | present (c : Context)
  | borrowed (c : Context)
  deriving DecidableEq, Repr

def ContextCell.content? : ContextCell → Option Context
  | present c => some c
  | vacant | borrowed _ => none

structure Storage where
  current : ThreadLocal ContextCell
  nextSlot : ThreadLocal Nat
  nextStamp : ThreadLocal Nat

namespace Storage

def empty : Storage := ⟨.const .vacant, .const 0, .const 0⟩

def start (s : Storage) (i : ThreadId) : Storage where
  current := s.current.set i .vacant
  nextSlot := s.nextSlot.set i 0
  nextStamp := s.nextStamp.set i 0

end Storage

/-- A thread that runs, with the storage in which it finds its variables. -/
structure Thread where
  id : ThreadId
  storage : Storage

namespace Thread

def start (t : Thread) : Thread := ⟨t.id, t.storage.start t.id⟩

def main : Thread := ⟨⟨0, 0⟩, .empty⟩

def next (t : Thread) : Thread := ⟨t.id.next, t.storage⟩

def join (t ended : Thread) : Thread := ⟨t.id, ended.storage⟩

/-! ### Thread-local variables -/

def cell (t : Thread) : ContextCell := t.storage.current.get t.id

def context? (t : Thread) : Option Context := t.cell.content?

def nextSlot (t : Thread) : Nat := t.storage.nextSlot.get t.id

def nextStamp (t : Thread) : Nat := t.storage.nextStamp.get t.id

def setCell (t : Thread) (cell : ContextCell) : Thread :=
  { t with storage := { t.storage with current := t.storage.current.set t.id cell } }

def advanceSlot (t : Thread) : Thread :=
  { t with storage := { t.storage with
    nextSlot := t.storage.nextSlot.set t.id (t.nextSlot + 1) } }

def advanceStamp (t : Thread) : Thread :=
  { t with storage := { t.storage with
    nextStamp := t.storage.nextStamp.set t.id (t.nextStamp + 1) } }

def setContext (t : Thread) (c : Context) : Thread := t.setCell (.present c)

def mapContext (t : Thread) (f : Context → Context) : Thread :=
  match t.context? with
  | none => t
  | some c => t.setContext (f c)

def observe (t : Thread) : Observation :=
  match t.context? with
  | none => ⟨false, false⟩
  | some c => ⟨true, c.atSafepoint⟩

def record (t : Thread) (e : Event) : Record := ⟨e, t.observe⟩

/-! ### References -/

/-- Registers an address under the next slot, if checking is on and the context can be borrowed. -/
def register (t : Thread) (checking : Bool) (address : UInt64) (origin : Origin) :
    Option Slot × Thread :=
  match checking, t.context? with
  | true, some c =>
    (some t.nextSlot, t.advanceSlot.setContext (c.insert ⟨t.nextSlot, address, origin, false⟩))
  | _, _ => (none, t)

/-- Makes a reference; a checked one that is not null is registered. -/
def create (t : Thread) (checking : Bool) (representation : Representation) (address : UInt64)
    (origin : Origin) : Reference × Thread :=
  match representation with
  | .direct => (.direct address, t)
  | .checked =>
    if address = 0 then (.checked 0 none, t)
    else
      let (slot?, t) := t.register checking address origin
      (.checked address slot?, t)

/-- Ends a reference, and with it its registration in the present attachment. -/
def destroy (t : Thread) (r : Reference) : Thread :=
  match r.slot? with
  | none => t
  | some slot => t.mapContext (·.erase slot)

def allow (t : Thread) (r : Reference) : Thread :=
  match r.slot? with
  | none => t
  | some slot => t.mapContext (·.allow slot)

/-! ### Attachment -/

/-- Gives the thread a context, unless it has one. -/
def attach (t : Thread) (name : String) : Except Failure Thread :=
  match t.cell with
  | .vacant => .ok (t.setContext (.fresh name))
  | .present c => .error (.alreadyAttached c.name)
  | .borrowed _ => .error (.fault .contextBorrowed)

/-! The following take the context of the attached thread. -/

/-- What is reported of a context that comes to its end. -/
def remains (c : Context) : List Event :=
  if c.registry.isEmpty then []
  else [.leftRegistered c.name c.registry.size, .leftEntries c.registry]

def detach (t : Thread) (c : Context) : List Record × Thread :=
  let gone := t.setCell .vacant
  ((remains c ++ [Event.detached c.name]).map gone.record, gone)

/-! ### Handles -/

def anchor (t : Thread) (c : Context) (address : UInt64) : Handle × Thread :=
  let (h, anchors) := c.anchors.push address t.nextStamp
  (h, t.advanceStamp.setContext { c with anchors })

/-! ### Safepoints -/

def park (t : Thread) (c : Context) : Thread := t.setContext c.park

/-- The thread while a part of it works on the context. -/
def lend (t : Thread) (c : Context) : Thread := t.setCell (.borrowed c)

def resume (t : Thread) : Thread := t.mapContext Context.resume

/-- Records every unhandled reference of a context that the thread has lent. Any is a fault. -/
def verify (t : Thread) (c : Context) : Option Fault × List Record :=
  let found := c.unhandled
  (if found.isEmpty then none else some (.unhandled c.name found),
    found.map fun e => t.record (.unhandled c.name e))

/-- Stops at a safepoint, verifies the registry and goes on. -/
def poll (t : Thread) (c : Context) : Option Fault × List Record × Thread :=
  let parked := t.park c
  let (fault?, log) := (parked.lend c.park).verify c.park
  let returned := (parked.lend c.park).setContext c.park
  -- Whoever leaves, by passing or with a fault, first returns the context and then resumes.
  (fault?, log, returned.resume)

/-! ### What the operations leave -/

section

variable (t : Thread) (cell : ContextCell) (c : Context) (f : Context → Context)

@[simp] theorem id_setCell : (t.setCell cell).id = t.id := rfl

@[simp] theorem cell_setCell : (t.setCell cell).cell = cell := by simp [Thread.cell, setCell]

@[simp] theorem nextSlot_setCell : (t.setCell cell).nextSlot = t.nextSlot := rfl

@[simp] theorem nextStamp_setCell : (t.setCell cell).nextStamp = t.nextStamp := rfl

@[simp] theorem context?_setCell : (t.setCell cell).context? = cell.content? := by
  rw [context?, cell_setCell]

@[simp] theorem setCell_setCell (cell' : ContextCell) :
    (t.setCell cell).setCell cell' = t.setCell cell' := by
  simp [setCell]

theorem setCell_cell : t.setCell t.cell = t := by
  simp [setCell, Thread.cell]

@[simp] theorem context?_setContext : (t.setContext c).context? = some c := context?_setCell ..

@[simp] theorem nextSlot_setContext : (t.setContext c).nextSlot = t.nextSlot := rfl

@[simp] theorem nextStamp_setContext : (t.setContext c).nextStamp = t.nextStamp := rfl

@[simp] theorem context?_advanceSlot : t.advanceSlot.context? = t.context? := rfl

@[simp] theorem nextSlot_advanceSlot : t.advanceSlot.nextSlot = t.nextSlot + 1 := by
  simp [Thread.nextSlot, advanceSlot]

@[simp] theorem nextStamp_advanceSlot : t.advanceSlot.nextStamp = t.nextStamp := rfl

@[simp] theorem context?_advanceStamp : t.advanceStamp.context? = t.context? := rfl

@[simp] theorem nextSlot_advanceStamp : t.advanceStamp.nextSlot = t.nextSlot := rfl

@[simp] theorem nextStamp_advanceStamp : t.advanceStamp.nextStamp = t.nextStamp + 1 := by
  simp [Thread.nextStamp, advanceStamp]

@[simp] theorem context?_anchor (address : UInt64) : (t.anchor c address).2.context? =
    some { c with anchors := (c.anchors.push address t.nextStamp).2 } :=
  context?_setContext ..

@[simp] theorem nextSlot_anchor (address : UInt64) :
    (t.anchor c address).2.nextSlot = t.nextSlot := rfl

@[simp] theorem nextStamp_anchor (address : UInt64) :
    (t.anchor c address).2.nextStamp = t.nextStamp + 1 :=
  t.nextStamp_advanceStamp

variable {t c}

theorem cell_of_context? (h : t.context? = some c) : t.cell = .present c := by
  unfold context? ContextCell.content? at h
  split at h <;> cases h
  assumption

theorem setContext_self (h : t.context? = some c) : t.setContext c = t := by
  rw [setContext, ← cell_of_context? h, setCell_cell]

theorem mapContext_of_context? (h : t.context? = some c) :
    t.mapContext f = t.setContext (f c) := by
  simp only [mapContext, h]

variable (t)

@[simp] theorem context?_mapContext : (t.mapContext f).context? = t.context?.map f := by
  unfold mapContext
  cases h : t.context? <;> simp [h]

@[simp] theorem nextSlot_mapContext : (t.mapContext f).nextSlot = t.nextSlot := by
  unfold mapContext
  cases t.context? <;> rfl

@[simp] theorem nextStamp_mapContext : (t.mapContext f).nextStamp = t.nextStamp := by
  unfold mapContext
  cases t.context? <;> rfl

@[simp] theorem cell_start : t.start.cell = .vacant := by simp [Thread.cell, start, Storage.start]

@[simp] theorem context?_start : t.start.context? = none := by rw [context?, cell_start]; rfl

@[simp] theorem nextSlot_start : t.start.nextSlot = 0 := by
  simp [Thread.nextSlot, start, Storage.start]

@[simp] theorem nextStamp_start : t.start.nextStamp = 0 := by
  simp [Thread.nextStamp, start, Storage.start]

@[simp] theorem address_create (checking : Bool) (representation : Representation)
    (address : UInt64) (origin : Origin) :
    (t.create checking representation address origin).1.address = address := by
  cases representation
  · rfl
  · by_cases h : address = 0 <;> simp [create, h, Reference.address]

@[simp] theorem representation_create (checking : Bool) (representation : Representation)
    (address : UInt64) (origin : Origin) :
    (t.create checking representation address origin).1.representation = representation := by
  cases representation
  · rfl
  · by_cases h : address = 0 <;> simp [create, h, Reference.representation]

theorem detach_eq (c : Context) :
    t.detach c = ((remains c ++ [Event.detached c.name]).map fun e => ⟨e, ⟨false, false⟩⟩,
      t.setCell .vacant) := by
  have hobserve : (t.setCell .vacant).observe = ⟨false, false⟩ := by
    simp [observe, ContextCell.content?]
  simp only [detach, ← hobserve]
  rfl

/-- Observers of the records see no context, as it is borrowed. The thread goes on with the context
that it had, at no safepoint. -/
theorem poll_eq (c : Context) :
    t.poll c =
      (if c.unhandled.isEmpty then none else some (.unhandled c.name c.unhandled),
        c.unhandled.map fun e => ⟨.unhandled c.name e, ⟨false, false⟩⟩,
        t.setContext c.resume) := by
  have hu : c.park.unhandled = c.unhandled := rfl
  simp [poll, verify, record, observe, park, lend, resume, mapContext, setContext,
    ContextCell.content?, Context.resume, hu]
  simp [Context.park]

end

end Thread

end HeapRefs
