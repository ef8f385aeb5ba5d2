import HeapRefs.Proofs.Session.Slots

/-! # Fresh slots

A thread issues the slots 0, 1, 2 and so on, one to each reference that it registers and none to any
other, and goes on where it was when it is attached again. So no slot is given twice, and the next
one is always free.
-/

namespace HeapRefs

def Registry.insertFree? (r : Registry) (e : Entry) : Option Registry :=
  match r.get? e.slot with
  | some _ => none
  | none => some (r.insert e)

/-- Registers an address as `Thread.register` does, but fails if there is an entry in the slot. -/
def Thread.registerFree? (t : Thread) (checking : Bool) (address : UInt64) (origin : Origin) :
    Option (Option Slot × Thread) :=
  match checking, t.context? with
  | true, some c =>
    (c.registry.insertFree? ⟨t.nextSlot, address, origin, false⟩).map fun registry =>
      (some t.nextSlot, t.advanceSlot.setContext { c with registry })
  | _, _ => some (none, t)

theorem Registry.Issued.get?_eq_none {r : Registry} {nextSlot : Nat} (h : r.Issued nextSlot) :
    r.get? nextSlot = none := by
  apply Option.eq_none_iff_forall_ne_some.mpr
  intro e he
  obtain ⟨he, hslot⟩ := get?_eq_some_iff.mp he
  exact Nat.ne_of_lt (h e he).2 hslot

/-- As long as all slots in use have been issued, registering finds its slot free. -/
theorem Thread.Sound.registerFree?_eq {t : Thread} {guard? : Option String} (h : t.Sound guard?)
    (checking : Bool) (address : UInt64) (origin : Origin) :
    t.registerFree? checking address origin = some (t.register checking address origin) := by
  unfold registerFree? register
  cases checking with
  | false => rfl
  | true =>
    cases hc : t.context? with
    | none => rfl
    | some c =>
      have hfree := (h.context c hc).issued.get?_eq_none
      simp only [Registry.insertFree?, hfree, Option.map_some, Context.insert]

namespace Session

def Ledger.slots (l : Ledger) : List Slot := l.makings.filterMap (·.reference.slot?)

variable {b : Build} {s t : State} {l : Ledger} {act : Act}

namespace Ledger

theorem slots_note (l : Ledger) (checking : Bool) (act : Act) :
    (l.note checking act).slots = l.slots ++ act.slot?.toList := by
  rw [slots, makings_note, List.filterMap_append, Act.filterMap_making?]
  rfl

theorem slots_turn (h : l.slots = List.range s.thread.nextSlot) (ht : Turn s act t) :
    (l.note s.shared.checking act).slots = List.range t.thread.nextSlot := by
  rw [slots_note, h]
  obtain ⟨hslot, hnext⟩ | ⟨hslot, hnext⟩ := ht.slot_cases
  · rw [hslot, hnext, Option.toList_none, List.append_nil]
  · rw [hslot, hnext, Option.toList_some, List.range_succ]

theorem slots_follow (h : l.slots = List.range s.thread.nextSlot) (steps : List Step) :
    (l.follow b s steps).slots = List.range (runSteps b s steps).2.thread.nextSlot := by
  induction steps generalizing l s with
  | nil => simpa [Ledger.follow] using h
  | cons step steps ih =>
    rw [state_runSteps_cons, Ledger.follow]
    exact ih (slots_turn h (step.turn b s))

theorem Agrees.slots_apart (h : l.Agrees s) : l.instances.Pairwise fun x y =>
    ∀ i, x.reference.slot? = some i → y.reference.slot? ≠ some i :=
  (List.pairwise_map.mp h.made.increasing).imp fun hlt i hx hy =>
    Nat.lt_irrefl i (hlt i i hx hy)

end Ledger

/-- What a ledger and a state say of slots: they were issued one by one, to the instances that could
be registered, and never twice. -/
structure Ledger.Numbers (l : Ledger) (s : State) : Prop where
  issued : l.slots = List.range s.thread.nextSlot
  slot_iff : ∀ x ∈ l.instances, x.reference.slot?.isSome = true ↔ x.Registrable
  held : ∀ name, (l.located (.held name)).map (·.reference) = (s.held? name).toList
  apart : l.instances.Pairwise fun x y =>
    ∀ i, x.reference.slot? = some i → y.reference.slot? ≠ some i
  below : ∀ x ∈ l.instances, ∀ i, x.reference.slot? = some i → i < s.thread.nextSlot
  stored : ∀ c, s.thread.context? = some c → ∀ e ∈ c.registry.stored, e.slot < s.thread.nextSlot
  free : ∀ checking address origin, s.thread.registerFree? checking address origin =
    some (s.thread.register checking address origin)

/-- Along any run and across attachments, slots are issued in order, each once, and each free. -/
theorem slots_issued_once (b : Build) (shared : Shared) (thread : Thread) (steps : List Step) :
    (Ledger.empty.follow b (.start shared thread) steps).Numbers
      (runSteps b (.start shared thread) steps).2 := by
  have h := (Ledger.Agrees.start shared thread).follow (b := b) steps
  have hs : (runSteps b (.start shared thread) steps).2.Sound :=
    Reachable.sound ⟨shared, thread, steps, rfl⟩
  constructor
  case issued =>
    refine Ledger.slots_follow ?_ steps
    rw [State.start, Thread.nextSlot_start]
    rfl
  case slot_iff => exact fun x hx => h.made.slot_iff _ (Ledger.mem_makings hx)
  case held => exact h.held
  case apart => exact h.slots_apart
  case below => exact fun x hx => h.made.issued _ (Ledger.mem_makings hx)
  case stored => exact fun c hc e he => ((hs.context c hc).issued e he).2
  case free => exact hs.registerFree?_eq

/-- One reference was made before any attachment, one while checking was off, and one is null; of
the registered ones, one was left alone and one is of an earlier attachment. -/
theorem slots_issued_once_across_attachments :
    let b : Build := .standard .checked true
    let reference (op : ReferenceOp) : Step := .op (.reference op)
    let seed (w : UInt64) : Seed := .address .bits (.word w)
    let install (checking : Bool) : Step := .op (.thread (.install ⟨checking⟩))
    let steps : List Step := [
      install true, reference (.create "early" none (seed 0x1000)), .op (.thread (.attach "main")),
      reference (.create "x" none (seed 0x1000)), reference (.clone "y" "x"),
      reference (.forget "y"), install false, reference (.clone "z" "x"), install true,
      reference (.create "n" none (seed 0)), .op (.thread .detach),
      .op (.thread (.attach "again")), reference (.clone "z" "z"), reference (.clone "y" "z")]
    let s := (runSteps b .initial steps).2
    let l := Ledger.empty.follow b .initial steps
    l.Numbers s ∧ l.slots = [0, 1, 2, 3] ∧
      ["early", "x", "n", "z", "y"].map (fun name => (s.held? name).bind Reference.slot?) =
        [none, some 0, none, some 2, some 3] := by
  intro b reference seed install steps s l
  have h : l.Numbers s := slots_issued_once b .initial .main steps
  exact ⟨h, by decide +kernel, by decide +kernel⟩

end Session

end HeapRefs
