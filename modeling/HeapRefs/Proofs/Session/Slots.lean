import HeapRefs.Proofs.Session.Attachment
import HeapRefs.Proofs.Session.Registration

/-! # Slots

A thread issues slots one after the other, each to the reference that it makes just then. So the
slots that it issues during an attachment, of which its counter knows only how many they are, are
those of the references that the ledger has made in it.
-/

namespace HeapRefs.Session

def Act.making? (checking : Bool) (attachment? : Option Nat) : Act → Option Making
  | .create _ reference origin? => some ⟨reference, origin?, checking, attachment?⟩
  | _ => none

def Act.slot? : Act → Option Slot
  | .create _ reference _ => reference.slot?
  | _ => none

def Ledger.slotsIn (l : Ledger) (n : Nat) : List Slot :=
  (l.makings.filter (·.attachment? = some n)).filterMap (·.reference.slot?)

/-- The thread is in the attachment `n`, to which all slots from `first` on were issued. -/
structure Ledger.Issues (l : Ledger) (s : State) (name : String) (n first : Nat) : Prop where
  attached : s.Attached (some name)
  current : l.current? = some n
  first_le : first ≤ s.thread.nextSlot
  slots : l.slotsIn n = List.range' first (s.thread.nextSlot - first)

variable {b : Build} {s t : State} {l : Ledger} {act : Act} {name : String} {n first : Nat}

/-- A new reference is given the next slot, or none is used up. -/
theorem Transition.slot_cases (ht : Transition s act t) :
    act.slot? = none ∧ t.thread.nextSlot = s.thread.nextSlot ∨
      act.slot? = some s.thread.nextSlot ∧ t.thread.nextSlot = s.thread.nextSlot + 1 := by
  cases ht with
  | null target representation kind? =>
    refine .inl ⟨?_, Ledger.Agrees.nextSlot_bind ..⟩
    cases representation <;> rfl
  | create target representation address origin kind? =>
    simp only [State.creation, State.creates, Act.slot?, Ledger.Agrees.nextSlot_bind, State.create]
    by_cases hr : s.thread.Registers s.shared.checking representation address
    · rw [Thread.create_of_registers hr]
      exact .inr ⟨rfl, s.thread.nextSlot_enter _ _⟩
    · obtain ⟨hslot, hthread⟩ := Thread.create_of_not_registers hr origin
      exact .inl ⟨hslot, congrArg Thread.nextSlot hthread⟩
  | transfer target kind? hv => exact .inl ⟨rfl, Ledger.Agrees.nextSlot_bind ..⟩
  | discard hv =>
    refine .inl ⟨rfl, ?_⟩
    rw [State.destroy, Thread.destroy_eq]
    exact s.thread.nextSlot_mapRegistry _
  | allow hv =>
    refine .inl ⟨rfl, ?_⟩
    rw [Thread.allow_eq]
    exact s.thread.nextSlot_mapRegistry _
  | forget | attach | detach | resume | anchor | mark | release | relocate | other =>
    exact .inl ⟨rfl, rfl⟩

theorem Turn.slot_cases (ht : Turn s act t) :
    act.slot? = none ∧ t.thread.nextSlot = s.thread.nextSlot ∨
      act.slot? = some s.thread.nextSlot ∧ t.thread.nextSlot = s.thread.nextSlot + 1 := by
  cases ht with
  | take ht => exact ht.slot_cases
  | wait shared hr => exact .inl ⟨rfl, hr.nextSlot_eq⟩

theorem Act.attachment?_of_making? {checking : Bool} {attachment? : Option Nat} {m : Making}
    (hm : act.making? checking attachment? = some m) : m.attachment? = attachment? := by
  cases act with
  | create target reference origin? =>
    obtain rfl := Option.some.inj hm
    rfl
  | _ => cases hm

theorem Act.filterMap_making? (act : Act) (checking : Bool) (attachment? : Option Nat) :
    (act.making? checking attachment?).toList.filterMap (·.reference.slot?) =
      act.slot?.toList := by
  cases act with
  | create target reference origin? =>
    simp only [making?, slot?, Option.toList_some]
    cases h : reference.slot? <;> simp [h]
  | _ => rfl

theorem Turn.current?_note (ht : Turn s act t) (hs : s.thread.context?.isSome = true)
    (hs' : t.thread.context?.isSome = true) :
    (l.note s.shared.checking act).current? = l.current? := by
  obtain ht | ⟨shared, hr⟩ := ht
  case wait => rfl
  cases ht with
  | attach name hc =>
    rw [Thread.context?, hc] at hs
    cases hs
  | detach hc =>
    rw [Thread.context?_setCell] at hs'
    cases hs'
  | @transfer source v target kind? hv =>
    rw [Ledger.note]
    split <;> rfl
  | null | create | discard | forget | allow | resume | anchor | mark | release | relocate
  | other => rfl

namespace Ledger

theorem makings_note (l : Ledger) (checking : Bool) (act : Act) :
    (l.note checking act).makings = l.makings ++ (act.making? checking l.current?).toList := by
  have hvacate (l : Ledger) (name : String) (place : Place) :
      (l.vacate name place).makings = l.makings :=
    makings_mapInstances (Instance.toMaking_vacate name place)
  cases act with
  | create target reference origin? =>
    simp only [note, makings_make, hvacate, Act.making?, Option.toList_some]
    rfl
  | transfer target source =>
    rw [note]
    split
    · exact (List.append_nil _).symm
    · rw [hvacate, hvacate]
      exact (List.append_nil _).symm
  | discard name | forget name =>
    rw [note, hvacate]
    exact (List.append_nil _).symm
  | allow name =>
    rw [note, makings_mapInstances (Instance.toMaking_allow name)]
    exact (List.append_nil _).symm
  | attach | detach | resume | anchor | mark | release | relocate | other =>
    exact (List.append_nil _).symm

theorem slotsIn_note (hl : l.current? = some n) (checking : Bool) (act : Act) :
    (l.note checking act).slotsIn n = l.slotsIn n ++ act.slot?.toList := by
  have hmade : ((act.making? checking (some n)).toList.filter (·.attachment? = some n)) =
      (act.making? checking (some n)).toList := by
    refine List.filter_eq_self.mpr fun m hm => decide_eq_true ?_
    exact Act.attachment?_of_making? (Option.mem_toList.mp hm)
  rw [slotsIn, makings_note, hl, List.filter_append, hmade, List.filterMap_append,
    Act.filterMap_making?]
  rfl

namespace Issues

theorem attach (h : l.Agrees s) (hs : s.Attached none) (b : Build) (name : String) :
    let step : Step := .op (.thread (.attach name))
    (l.note s.shared.checking (step.act b s)).Issues (step.run b s).2 name l.attachments
      s.thread.nextSlot := by
  intro step
  have hc := hs.sound.guard?_eq_none_iff.mp hs.guard
  have hact : step.act b s = .attach name := if_pos (hs.sound.cell_eq_vacant hc)
  have hnext : (step.run b s).2.thread.nextSlot = s.thread.nextSlot := by
    rw [state_run_op, Op.apply, apply_attach_of_none hs.sound hc]
    rfl
  rw [hact]
  refine ⟨hs.run step, rfl, Nat.le_of_eq hnext.symm, ?_⟩
  rw [hnext, Nat.sub_self, List.range'_zero, slotsIn, List.filter_eq_nil_iff.mpr,
    List.filterMap_nil]
  intro m hm
  rw [decide_eq_true_iff]
  exact fun hn => Nat.lt_irrefl _ (h.made.attachment m hm _ hn)

theorem run (h : l.Issues s name n first) {step : Step} (hstep : step ≠ .op (.thread .detach)) :
    (l.note s.shared.checking (step.act b s)).Issues (step.run b s).2 name n first := by
  have hattached := h.attached.run (b := b) step
  have hname : step.attachment (some name) = some name := by
    unfold Step.attachment Op.attachment
    split
    · split
      · rfl
      · exact absurd rfl hstep
      · rfl
    · rfl
  rw [hname] at hattached
  have context {s : State} (hs : s.Attached (some name)) : s.thread.context?.isSome = true := by
    obtain ⟨c, hc⟩ := hs.sound.context?_of_guard (Option.isSome_of_eq_some hs.guard)
    exact Option.isSome_of_eq_some hc
  have ht := step.turn b s
  refine ⟨hattached, ?_, ?_, ?_⟩
  · rw [ht.current?_note (context h.attached) (context hattached), h.current]
  · have := h.first_le
    obtain ⟨-, hn⟩ | ⟨-, hn⟩ := ht.slot_cases <;> omega
  · rw [slotsIn_note h.current, h.slots]
    obtain ⟨hslot, hn⟩ | ⟨hslot, hn⟩ := ht.slot_cases
    · rw [hslot, hn, Option.toList_none, List.append_nil]
    · have hle := h.first_le
      have hlast : first + 1 * (s.thread.nextSlot - first) = s.thread.nextSlot := by omega
      rw [hslot, hn, Option.toList_some, Nat.sub_add_comm hle, List.range'_concat, hlast]

theorem runSteps (h : l.Issues s name n first) {steps : List Step}
    (hsteps : Step.op (.thread .detach) ∉ steps) :
    (l.follow b s steps).Issues (runSteps b s steps).2 name n first := by
  induction steps generalizing l s with
  | nil =>
    rw [state_runSteps_nil]
    exact h
  | cons step steps ih =>
    rw [List.mem_cons, not_or] at hsteps
    obtain ⟨hstep, hsteps⟩ := hsteps
    rw [state_runSteps_cons]
    exact ih (h.run (Ne.symm hstep)) hsteps

end Issues

end Ledger

end HeapRefs.Session
