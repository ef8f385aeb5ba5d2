import HeapRefs.Proofs.Session.Reachable

/-! # The ledger of a thread's references

The ledger keeps every reference that a thread has made, in the order of their making: how it was
made, whether it has been allowed since, and where it is now. It is read off a run act by act,
without looking at any registry.
-/

namespace HeapRefs.Session

/-- Where a reference is: in a variable, left alone by the variable that held it, or destroyed. -/
inductive Place
  | held (name : String)
  | forgotten
  | ended
  deriving DecidableEq, Repr

/-- How a reference was made: its origin, and whether checking was on and the thread attached. -/
structure Making where
  reference : Reference
  origin? : Option Origin
  checking : Bool
  attachment? : Option Nat
  deriving DecidableEq, Repr

/-- A reference after its making. It stays the same as it moves from variable to variable, and as it
is narrowed and widened. -/
structure Instance extends Making where
  allowed : Bool
  place : Place
  deriving DecidableEq, Repr

/-- All instances of a thread, how often it was attached, and which attachment it is in. -/
structure Ledger where
  instances : List Instance
  attachments : Nat
  current? : Option Nat
  deriving DecidableEq, Repr

/-- A reference that its thread registers as it is made: checked, not null, and made while checking
was on and the thread attached. -/
def Making.Registrable (m : Making) : Prop :=
  m.reference.representation = .checked ∧ m.reference.address ≠ 0 ∧ m.checking = true ∧
    m.attachment?.isSome = true

instance (m : Making) : Decidable m.Registrable :=
  inferInstanceAs (Decidable (_ ∧ _ ∧ _ ∧ _))

namespace Instance

/-- Puts what a variable holds elsewhere. -/
def vacate (name : String) (place : Place) (x : Instance) : Instance :=
  if x.place = .held name then { x with place } else x

def allow (name : String) (x : Instance) : Instance :=
  if x.place = .held name then { x with allowed := true } else x

def registration? (x : Instance) : Option Entry := do
  let slot ← x.reference.slot?
  let origin ← x.origin?
  return ⟨slot, x.reference.address, origin, x.allowed⟩

end Instance

namespace Ledger

def empty : Ledger := ⟨[], 0, none⟩

def makings (l : Ledger) : List Making := l.instances.map Instance.toMaking

def located (l : Ledger) (place : Place) : List Instance := l.instances.filter (·.place = place)

/-- The instance could be registered as it was made, that was during the present attachment, and it
has not been destroyed since. -/
def Registered (l : Ledger) (x : Instance) : Prop :=
  x.Registrable ∧ x.attachment? = l.current? ∧ x.place ≠ .ended

instance (l : Ledger) : DecidablePred l.Registered := fun _ =>
  inferInstanceAs (Decidable (_ ∧ _ ∧ _))

def registered (l : Ledger) : List Instance := l.instances.filter l.Registered

def mapInstances (l : Ledger) (f : Instance → Instance) : Ledger :=
  { l with instances := l.instances.map f }

def vacate (l : Ledger) (name : String) (place : Place) : Ledger :=
  l.mapInstances (·.vacate name place)

def make (l : Ledger) (checking : Bool) (target : String) (reference : Reference)
    (origin? : Option Origin) : Ledger :=
  let made := { reference, origin?, checking, attachment? := l.current? }
  { l with instances := l.instances ++ [⟨made, false, .held target⟩] }

/-- The ledger after an act. What a variable held is destroyed when it is given something else. -/
def note (checking : Bool) (l : Ledger) : Act → Ledger
  | .create target reference origin? =>
    (l.vacate target .ended).make checking target reference origin?
  | .transfer target source =>
    if target = source then l else (l.vacate target .ended).vacate source (.held target)
  | .discard name => l.vacate name .ended
  | .forget name => l.vacate name .forgotten
  | .allow name => l.mapInstances (·.allow name)
  | .attach _ => { l with attachments := l.attachments + 1, current? := some l.attachments }
  | .detach => { l with current? := none }
  | .resume | .anchor .. | .mark _ | .release _ | .relocate .. | .other => l

/-- The ledger after a run, from the one before it. -/
def follow (b : Build) (l : Ledger) : State → List Step → Ledger
  | _, [] => l
  | s, step :: steps =>
    (l.note s.shared.checking (step.act b s)).follow b (step.run b s).2 steps

end Ledger

/-- An entry with the slot, the address and the origin of an instance, allowed as it is. -/
def Describes (e : Entry) (x : Instance) : Prop :=
  x.reference.slot? = some e.slot ∧ x.reference.address = e.address ∧ x.origin? = some e.origin ∧
    (e.allowed = true ↔ x.allowed = true)

theorem registration?_eq_some_iff {e : Entry} {x : Instance} :
    x.registration? = some e ↔ Describes e x := by
  simp only [Instance.registration?, Describes, Option.pure_def, Option.bind_eq_bind,
    Option.bind_eq_some_iff, Option.some.injEq]
  constructor
  · rintro ⟨slot, hs, origin, ho, rfl⟩
    exact ⟨hs, rfl, ho, Iff.rfl⟩
  · rintro ⟨hs, ha, ho, hl⟩
    refine ⟨e.slot, hs, e.origin, ho, ?_⟩
    rw [ha, ← Bool.eq_iff_iff.mpr hl]

namespace Instance

variable {x : Instance} {name : String} {place : Place}

theorem toMaking_vacate (name : String) (place : Place) (x : Instance) :
    (x.vacate name place).toMaking = x.toMaking := by
  unfold vacate
  split <;> rfl

theorem toMaking_allow (name : String) (x : Instance) : (x.allow name).toMaking = x.toMaking := by
  unfold allow
  split <;> rfl

theorem vacate_of_held (h : x.place = .held name) : x.vacate name place = { x with place } :=
  if_pos h

theorem vacate_of_not_held (h : x.place ≠ .held name) : x.vacate name place = x := if_neg h

theorem place_vacate (name : String) (place : Place) (x : Instance) :
    (x.vacate name place).place = if x.place = .held name then place else x.place := by
  unfold vacate
  split <;> rfl

theorem place_allow (name : String) (x : Instance) : (x.allow name).place = x.place := by
  unfold allow
  split <;> rfl

theorem registration?_allow_of_held (h : x.place = .held name) :
    (x.allow name).registration? = x.registration?.map Entry.allow := by
  rw [allow, if_pos h]
  unfold registration?
  cases x.reference.slot? with
  | none => rfl
  | some slot => cases x.origin? <;> rfl

end Instance

namespace Ledger

variable {l : Ledger} {x : Instance} {f : Instance → Instance}

theorem makings_mapInstances (hf : ∀ x, (f x).toMaking = x.toMaking) :
    (l.mapInstances f).makings = l.makings := by
  simp only [makings, mapInstances, List.map_map]
  exact List.map_congr_left fun x _ => hf x

theorem makings_make (checking : Bool) (target : String) (reference : Reference)
    (origin? : Option Origin) :
    (l.make checking target reference origin?).makings =
      l.makings ++ [⟨reference, origin?, checking, l.current?⟩] := by
  simp [makings, make]

theorem mem_registered : x ∈ l.registered ↔ x ∈ l.instances ∧ l.Registered x := by
  simp [registered]

theorem mem_located {place : Place} : x ∈ l.located place ↔ x ∈ l.instances ∧ x.place = place := by
  simp [located]

theorem mem_makings (hx : x ∈ l.instances) : x.toMaking ∈ l.makings := List.mem_map_of_mem hx

theorem map_reference_located_mapInstances (hf : ∀ x, (f x).toMaking = x.toMaking)
    (place : Place) :
    ((l.mapInstances f).located place).map (·.reference) =
      (l.instances.filter fun x => (f x).place = place).map (·.reference) := by
  simp only [located, mapInstances, List.filter_map, List.map_map]
  exact List.map_congr_left fun x _ => congrArg Making.reference (hf x)

theorem registered_allow (name : String) (x : Instance) :
    l.Registered (x.allow name) ↔ l.Registered x := by
  unfold Registered
  rw [Instance.toMaking_allow, Instance.place_allow]

theorem exists_registered_mapInstances {e : Entry} :
    (∃ y ∈ (l.mapInstances f).registered, Describes e y) ↔
      ∃ x ∈ l.instances, l.Registered (f x) ∧ Describes e (f x) := by
  simp only [mem_registered, mapInstances, List.mem_map]
  constructor
  · rintro ⟨_, ⟨⟨x, hx, rfl⟩, hr⟩, he⟩
    exact ⟨x, hx, hr, he⟩
  · rintro ⟨x, hx, hr, he⟩
    exact ⟨f x, ⟨⟨x, hx, rfl⟩, hr⟩, he⟩

theorem exists_registered_make {checking : Bool} {target : String} {reference : Reference}
    {origin? : Option Origin} {e : Entry} :
    (∃ x ∈ (l.make checking target reference origin?).registered, Describes e x) ↔
      (∃ x ∈ l.registered, Describes e x) ∨
        Making.Registrable ⟨reference, origin?, checking, l.current?⟩ ∧
          Describes e ⟨⟨reference, origin?, checking, l.current?⟩, false, .held target⟩ := by
  simp only [mem_registered, make, List.mem_append, List.mem_singleton, Registered]
  constructor
  · rintro ⟨x, ⟨hx | rfl, hr⟩, he⟩
    · exact .inl ⟨x, ⟨hx, hr⟩, he⟩
    · exact .inr ⟨hr.1, he⟩
  · rintro (⟨x, ⟨hx, hr⟩, he⟩ | ⟨hr, he⟩)
    · exact ⟨x, ⟨.inl hx, hr⟩, he⟩
    · exact ⟨_, ⟨.inr rfl, hr, rfl, Place.noConfusion⟩, he⟩

end Ledger

end HeapRefs.Session
