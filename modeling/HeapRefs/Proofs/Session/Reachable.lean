import HeapRefs.Proofs.Session.Turn
import HeapRefs.Proofs.Thread.Parts

/-! # Reachable states

A thread starts with what all threads share, without a context, and runs any steps. In every state
that it reaches it has a context exactly while its guard is there, it is at no safepoint, and all
slots and stamps in use have been issued.
-/

namespace HeapRefs

/-- Every entry is of an object, and its slot has been issued. -/
def Registry.Issued (r : Registry) (nextSlot : Nat) : Prop :=
  ∀ e ∈ r.stored, e.address ≠ 0 ∧ e.slot < nextSlot

/-- Stamps grow along the table and have been issued. -/
structure AnchorTable.Stamped (t : AnchorTable) (nextStamp : Nat) : Prop where
  increasing : t.toList.Pairwise fun x y => x.stamp < y.stamp
  issued : ∀ x ∈ t.toList, x.stamp < nextStamp

namespace Registry

variable {r : Registry} {nextSlot : Nat}

theorem issued_empty : empty.Issued nextSlot := fun _ h => absurd h List.not_mem_nil

theorem Issued.insert (h : r.Issued nextSlot) {address : UInt64} (ha : address ≠ 0)
    (origin : Origin) : (r.insert ⟨nextSlot, address, origin, false⟩).Issued (nextSlot + 1) := by
  intro e he
  rcases mem_insert.mp he with rfl | ⟨he, -⟩
  · exact ⟨ha, Nat.lt_succ_self _⟩
  · exact ⟨(h e he).1, Nat.lt_succ_of_lt (h e he).2⟩

theorem Issued.eraseOf (h : r.Issued nextSlot) (x : Reference) : (r.eraseOf x).Issued nextSlot :=
  fun e he => h e (mem_eraseOf.mp he).1

theorem Issued.eraseHeld (h : r.Issued nextSlot) (x? : Option Reference) :
    (r.eraseHeld x?).Issued nextSlot := by
  cases x? with
  | none => exact h
  | some x => exact h.eraseOf x

theorem Issued.allowOf (h : r.Issued nextSlot) (x : Reference) : (r.allowOf x).Issued nextSlot := by
  intro e he
  obtain ⟨y, hy, rfl⟩ := mem_allowOf.mp he
  split <;> exact h y hy

end Registry

namespace AnchorTable

variable {t : AnchorTable} {nextStamp : Nat}

theorem stamped_empty : empty.Stamped nextStamp := ⟨.nil, fun _ h => absurd h List.not_mem_nil⟩

theorem Stamped.push (h : t.Stamped nextStamp) (address : UInt64) :
    (t.push address nextStamp).2.Stamped (nextStamp + 1) := by
  constructor
  · refine List.pairwise_append.mpr ⟨h.increasing, List.pairwise_singleton _ _, ?_⟩
    intro x hx y hy
    obtain rfl := List.mem_singleton.mp hy
    exact h.issued x hx
  · intro x hx
    rcases List.mem_append.mp hx with hx | hx
    · exact Nat.lt_succ_of_lt (h.issued x hx)
    · obtain rfl := List.mem_singleton.mp hx
      exact Nat.lt_succ_self _

theorem Stamped.truncate (h : t.Stamped nextStamp) (length : Nat) :
    (t.truncate length).Stamped nextStamp :=
  ⟨h.increasing.sublist (List.take_sublist ..), fun x hx => h.issued x (List.mem_of_mem_take hx)⟩

theorem stamp_relocate (source target : UInt64) (x : Anchor) :
    (if x.address = source then { x with address := target } else x).stamp = x.stamp := by
  split <;> rfl

theorem Stamped.relocate (h : t.Stamped nextStamp) (source target : UInt64) :
    (t.relocate source target).Stamped nextStamp := by
  constructor
  · simpa only [AnchorTable.relocate, List.pairwise_map, stamp_relocate] using h.increasing
  · intro x hx
    obtain ⟨y, hy, rfl⟩ := List.mem_map.mp hx
    rw [stamp_relocate]
    exact h.issued y hy

end AnchorTable

namespace Session

variable {b : Build} {s t : State} {act : Act}

@[simp] theorem state_run_op (op : Op) : ((Step.op op).run b s).2 = (op.apply b s).state := by
  simp only [Step.run]

@[simp] theorem state_runSteps_nil : (runSteps b s []).2 = s := by simp only [runSteps]

@[simp] theorem state_runSteps_cons (step : Step) (steps : List Step) :
    (runSteps b s (step :: steps)).2 = (runSteps b (step.run b s).2 steps).2 := by
  simp only [runSteps]

theorem state_runSteps_append (before after : List Step) :
    (runSteps b s (before ++ after)).2 = (runSteps b (runSteps b s before).2 after).2 := by
  induction before generalizing s with
  | nil => simp
  | cons step before ih => simpa using ih

theorem runSteps_preserves {P : State → Prop}
    (hp : ∀ {s t : State} {act : Act}, P s → Turn s act t → P t) (hs : P s)
    (steps : List Step) : P (runSteps b s steps).2 := by
  induction steps generalizing s with
  | nil => simpa using hs
  | cons step steps ih =>
    rw [state_runSteps_cons]
    exact ih (hp hs (step.turn b s))

/-- The states of a thread that starts amid what is shared, in any storage. -/
def Reachable (b : Build) (s : State) : Prop :=
  ∃ shared thread steps, (runSteps b (.start shared thread) steps).2 = s

theorem Reachable.run (h : Reachable b s) (steps : List Step) :
    Reachable b (runSteps b s steps).2 := by
  obtain ⟨shared, thread, before, rfl⟩ := h
  exact ⟨shared, thread, before ++ steps, state_runSteps_append ..⟩

namespace State

/-- What a variable holds, whatever it is seen as. -/
def held? (s : State) (name : String) : Option Reference :=
  (s.locals.views.get? name).map View.reference

def displace (s : State) (name : String) : Thread :=
  s.thread.mapRegistry (·.eraseHeld (s.held? name))

theorem bind_eq (s : State) (name : String) (v : View) :
    s.bind name v =
      { s with
        thread := s.displace name
        locals := { s.locals with views := s.locals.views.set name v } } := by
  unfold bind displace held?
  cases s.locals.views.get? name with
  | none => exact congrArg (State.mk _ · _) (Thread.mapRegistry_id _).symm
  | some old => exact congrArg (State.mk _ · _) (Thread.destroy_eq ..)

theorem held?_unbind (s : State) (name other : String) :
    (s.unbind name).held? other = if other = name then none else s.held? other := by
  simp only [held?, unbind, Bindings.get?_erase]
  split <;> rfl

theorem held?_bind (s : State) (name : String) (v : View) (other : String) :
    (s.bind name v).held? other = if other = name then some v.reference else s.held? other := by
  rw [bind_eq]
  simp only [held?, Bindings.get?_set]
  split <;> rfl

end State

end Session

/-- The context of a thread that runs: at no safepoint, with slots and stamps that were issued. -/
structure Context.Sound (c : Context) (nextSlot nextStamp : Nat) : Prop where
  running : c.atSafepoint = false
  issued : c.registry.Issued nextSlot
  stamped : c.anchors.Stamped nextStamp

/-- The guard tells whether a thread has a context, and the name of the context. The context is lent
to nobody. -/
structure Thread.Sound (t : Thread) (guard? : Option String) : Prop where
  guard_eq : guard? = t.name?
  context : ∀ c, t.context? = some c → c.Sound t.nextSlot t.nextStamp
  returned : ∀ c, t.cell ≠ .borrowed c

namespace Thread

variable {t : Thread} {guard? : Option String} {c : Context}

theorem sound_start (t : Thread) : t.start.Sound none where
  guard_eq := by rw [name?, context?_start, Option.map_none]
  context c hc := by rw [context?_start] at hc; cases hc
  returned c := by rw [cell_start]; exact ContextCell.noConfusion

theorem Sound.guard_eq_some (h : t.Sound guard?) (hc : t.context? = some c) :
    guard? = some c.name := by
  rw [h.guard_eq, name?, hc, Option.map_some]

theorem Sound.cell_eq_vacant (h : t.Sound guard?) (hc : t.context? = none) : t.cell = .vacant := by
  cases hd : t.cell with
  | vacant => rfl
  | present d => rw [context?, hd] at hc; cases hc
  | borrowed d => exact absurd hd (h.returned d)

theorem sound_setContext (t : Thread) (hc : c.Sound t.nextSlot t.nextStamp) :
    (t.setContext c).Sound (some c.name) where
  guard_eq := by rw [name?, context?_setContext, Option.map_some]
  context d hd := by
    rw [context?_setContext] at hd
    cases hd
    exact hc
  returned d := by rw [setContext, cell_setCell]; exact ContextCell.noConfusion

theorem Sound.setContext (h : t.Sound guard?) (hc : t.context? = some c) {c' : Context}
    (hn : c'.name = c.name) (hc' : c'.Sound t.nextSlot t.nextStamp) :
    (t.setContext c').Sound guard? := by
  rw [h.guard_eq_some hc, ← hn]
  exact t.sound_setContext hc'

theorem Sound.mapRegistry (h : t.Sound guard?) {f : Registry → Registry}
    (hf : ∀ r : Registry, r.Issued t.nextSlot → (f r).Issued t.nextSlot) :
    (t.mapRegistry f).Sound guard? := by
  cases hc : t.context? with
  | none => rwa [Thread.mapRegistry, mapContext, hc]
  | some c =>
    obtain ⟨running, issued, stamped⟩ := h.context c hc
    rw [Thread.mapRegistry, mapContext_of_context? _ hc]
    exact h.setContext hc rfl ⟨running, hf _ issued, stamped⟩

theorem Sound.create (h : t.Sound guard?) (checking : Bool) (representation : Representation)
    (address : UInt64) (origin : Origin) :
    (t.create checking representation address origin).2.Sound guard? := by
  by_cases hr : t.Registers checking representation address
  · obtain ⟨c, hc⟩ := Option.isSome_iff_exists.mp hr.2.2.2
    obtain ⟨running, issued, stamped⟩ := h.context c hc
    have hc' : t.advanceSlot.context? = some c := hc
    rw [create_of_registers hr, enter, Thread.mapRegistry, mapContext_of_context? _ hc',
      h.guard_eq_some hc]
    refine t.advanceSlot.sound_setContext (c := { c with registry := _ }) ⟨running, ?_, stamped⟩
    rw [nextSlot_advanceSlot]
    exact issued.insert hr.2.1 origin
  · rw [(create_of_not_registers hr origin).2]
    exact h

theorem Sound.rest (h : t.Sound guard?) {t' : Thread} (hr : t.Rests t') : t'.Sound guard? where
  guard_eq := by rw [name?, hr.context?_eq]; exact h.guard_eq
  context c hc := by
    rw [hr.context?_eq] at hc
    rw [hr.nextSlot_eq, hr.nextStamp_eq]
    exact h.context c hc
  returned c := by rw [hr.cell_eq]; exact h.returned c

end Thread

namespace Session

variable {b : Build} {s t : State} {act : Act}

def State.Sound (s : State) : Prop := s.thread.Sound s.locals.guard?

theorem State.Sound.displace (h : s.Sound) (name : String) :
    (s.displace name).Sound s.locals.guard? :=
  Thread.Sound.mapRegistry h fun _ hr => hr.eraseHeld _

theorem State.Sound.bind (h : s.Sound) (name : String) (v : View) : (s.bind name v).Sound := by
  rw [State.bind_eq]
  exact h.displace name

theorem State.Sound.transition (h : s.Sound) (ht : Transition s act t) : t.Sound := by
  cases ht with
  | null target representation kind? => exact h.bind ..
  | create target representation address origin kind? =>
    have hm : (s.create representation address origin).2.Sound := Thread.Sound.create h ..
    exact hm.bind ..
  | @transfer source v target kind? hv =>
    have hu : (s.unbind source).Sound := h
    exact hu.bind ..
  | discard hv =>
    rw [State.Sound, State.destroy, Thread.destroy_eq]
    exact Thread.Sound.mapRegistry h fun _ hr => hr.eraseOf _
  | forget hv => exact h
  | allow hv =>
    rw [State.Sound, Thread.allow_eq]
    exact Thread.Sound.mapRegistry h fun _ hr => hr.allowOf _
  | attach name hc =>
    exact s.thread.sound_setContext (c := .fresh name)
      ⟨rfl, Registry.issued_empty, AnchorTable.stamped_empty⟩
  | detach hc =>
    have hnone : (s.thread.setCell .vacant).context? = none := s.thread.context?_setCell _
    refine ⟨?_, fun c hd => ?_, fun c => ?_⟩
    · rw [Thread.name?, hnone, Option.map_none]
    · rw [hnone] at hd
      cases hd
    · rw [Thread.cell_setCell]
      exact ContextCell.noConfusion
  | resume hc =>
    obtain ⟨-, issued, stamped⟩ := h.context _ hc
    exact Thread.Sound.setContext h hc rfl ⟨rfl, issued, stamped⟩
  | @anchor source v c target hv hc =>
    obtain ⟨running, issued, stamped⟩ := h.context _ hc
    rw [State.Sound, h.guard_eq_some hc]
    refine s.thread.advanceStamp.sound_setContext (c := { c with anchors := _ })
      ⟨running, issued, ?_⟩
    rw [Thread.nextStamp_advanceStamp]
    exact stamped.push _
  | mark name hc =>
    obtain ⟨running, issued, stamped⟩ := h.context _ hc
    cases s.locals.marks.get? name with
    | none => exact Thread.Sound.setContext h hc rfl ⟨running, issued, stamped⟩
    | some old => exact Thread.Sound.setContext h hc rfl ⟨running, issued, stamped.truncate _⟩
  | release hm hc =>
    obtain ⟨running, issued, stamped⟩ := h.context _ hc
    exact Thread.Sound.setContext h hc rfl ⟨running, issued, stamped.truncate _⟩
  | relocate source target hc =>
    obtain ⟨running, issued, stamped⟩ := h.context _ hc
    exact Thread.Sound.setContext h hc rfl ⟨running, issued, stamped.relocate ..⟩
  | other shared codecs => exact h

theorem State.Sound.turn (h : s.Sound) (ht : Turn s act t) : t.Sound := by
  cases ht with
  | take ht => exact h.transition ht
  | wait shared hr => exact Thread.Sound.rest h hr

theorem withContext_eq {c : Context} (hs : s.Sound) (hc : s.thread.context? = some c)
    (k : Context → Effect) : s.withContext k = k c := by
  simp only [State.withContext, hs.guard_eq_some hc, hc]

theorem State.Sound.runSteps (hs : s.Sound) (steps : List Step) : (runSteps b s steps).2.Sound :=
  runSteps_preserves State.Sound.turn hs steps

theorem Reachable.sound (h : Reachable b s) : s.Sound := by
  obtain ⟨shared, thread, steps, rfl⟩ := h
  have hs : (State.start shared thread).Sound := thread.sound_start
  exact hs.runSteps steps

end Session

end HeapRefs
