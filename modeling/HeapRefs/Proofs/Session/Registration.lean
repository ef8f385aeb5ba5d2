import Mathlib.Data.List.Forall2
import HeapRefs.Proofs.Registry.Listing
import HeapRefs.Proofs.Session.Agreement

/-! # The registry of a run

Along any run, the entries of an attached thread correspond one to one to the instances that are
registered by its ledger, in the order in which they were made.
-/

namespace HeapRefs.Session

theorem forall₂_describes {l : List Instance} (h : ∀ x ∈ l, ∃ e, Describes e x) :
    List.Forall₂ Describes (l.filterMap Instance.registration?) l := by
  induction l with
  | nil => exact .nil
  | cons x l ih =>
    obtain ⟨e, he⟩ := h x List.mem_cons_self
    rw [List.filterMap_cons_some (registration?_eq_some_iff.mpr he)]
    exact .cons he (ih fun y hy => h y (List.mem_cons_of_mem x hy))

namespace Ledger

variable {b : Build} {l : Ledger} {s : State}

theorem Agrees.follow (h : l.Agrees s) (steps : List Step) :
    (l.follow b s steps).Agrees (runSteps b s steps).2 := by
  induction steps generalizing l s with
  | nil => simpa [Ledger.follow] using h
  | cons step steps ih =>
    rw [state_runSteps_cons, Ledger.follow]
    exact ih (h.turn (step.turn b s))

theorem Agrees.exists_describes (h : l.Agrees s) {x : Instance} (hx : x ∈ l.registered) :
    ∃ e, Describes e x := by
  obtain ⟨hx, hr, -⟩ := mem_registered.mp hx
  obtain ⟨slot, hs⟩ := Option.isSome_iff_exists.mp ((h.made.slot_iff _ (mem_makings hx)).mpr hr)
  obtain ⟨origin, ho⟩ := Option.isSome_iff_exists.mp (h.made.origin _ (mem_makings hx) hr)
  exact ⟨⟨slot, x.reference.address, origin, x.allowed⟩, hs, rfl, ho, Iff.rfl⟩

theorem Agrees.entered_context (h : l.Agrees s) {c : Context} (hc : s.thread.context? = some c)
    (e : Entry) : e ∈ c.registry.stored ↔ ∃ x ∈ l.registered, Describes e x :=
  h.entered _ (by rw [Thread.registrations?, hc, Option.map_some]) e

theorem Agrees.entries_eq (h : l.Agrees s) {c : Context} (hc : s.thread.context? = some c) :
    c.registry.entries = l.registered.filterMap Instance.registration? := by
  refine Registry.entries_eq (fun e => ?_) ?_
  · rw [h.entered_context hc, List.mem_filterMap]
    simp only [registration?_eq_some_iff]
  · have hi := (List.pairwise_map.mp h.made.increasing).sublist
      (List.filter_sublist (p := fun x => l.Registered x))
    refine List.pairwise_filterMap.mpr (hi.imp fun hlt e he e' he' => ?_)
    exact hlt _ _ (registration?_eq_some_iff.mp he).1 (registration?_eq_some_iff.mp he').1

/-- An instance that is not registered has no entry, also if it had one in an earlier attachment. -/
theorem Agrees.slot?_ne_of_not_registered (h : l.Agrees s) {c : Context}
    (hc : s.thread.context? = some c) {x : Instance} (hx : x ∈ l.instances)
    (hr : ¬ l.Registered x) : ∀ e ∈ c.registry.entries, x.reference.slot? ≠ some e.slot := by
  intro e he hs
  -- The entry with its slot would be that of a registered instance, and that is another one.
  obtain ⟨y, hy, hd⟩ := (h.entered_context hc e).mp (Registry.mem_entries.mp he)
  obtain ⟨hy, hyr⟩ := mem_registered.mp hy
  exact hr (h.eq_of_slot hy hx hd.1 hs ▸ hyr)

end Ledger

/-- Along any run, the entries of an attached thread describe the instances that are registered, one
by one and in the order of their making. -/
theorem entries_describe_registered (b : Build) (shared : Shared) (thread : Thread)
    (steps : List Step) :
    let s := (runSteps b (.start shared thread) steps).2
    let l := Ledger.empty.follow b (.start shared thread) steps
    (∀ c, s.thread.context? = some c →
      List.Forall₂ Describes c.registry.entries l.registered ∧
        c.registry.entries.Perm c.registry.stored ∧
        c.registry.entries.Pairwise (fun e e' => e.slot < e'.slot) ∧
        ∀ e ∈ c.registry.entries, e.address ≠ 0) ∧
      ∀ name, (l.located (.held name)).map (·.reference) = (s.held? name).toList := by
  intro s l
  have h : l.Agrees s := (Ledger.Agrees.start shared thread).follow steps
  refine ⟨fun c hc => ⟨?_, c.registry.perm_entries, c.registry.pairwise_lt_entries, ?_⟩, h.held⟩
  · rw [h.entries_eq hc]
    exact forall₂_describes fun x hx => h.exists_describes hx
  · intro e he
    have hs : s.Sound := Reachable.sound ⟨shared, thread, steps, rfl⟩
    exact ((hs.context c hc).issued e (Registry.mem_entries.mp he)).1

theorem entries_describe_registered_after_moves :
    let steps : List Step := [
      .op (.thread (.install ⟨true⟩)), .op (.thread (.attach "main")),
      .op (.reference (.create "old" none (.address .bits (.word 0x500)))),
      .op (.thread .detach), .op (.thread (.attach "main")),
      .op (.reference (.create "x" none (.address .bits (.word 0x1000)))),
      .op (.reference (.clone "y" "x")), .op (.reference (.allow "y")),
      .op (.reference (.move "z" "y")), .op (.reference (.drop "x")),
      .op (.reference (.create "x" none (.address .pointer (.word 0x2000)))),
      .op (.reference (.forget "x")), .op (.reference (.allow "old"))]
    let s := (runSteps (.standard .checked true) .initial steps).2
    let l := Ledger.empty.follow (.standard .checked true) .initial steps
    ∃ c, s.thread.context? = some c ∧
      c.registry.entries =
        [⟨2, 0x1000, .clone, true⟩, ⟨3, 0x2000, .managed .pointer, false⟩] ∧
      l.registered.map (·.place) = [.held "z", .forgotten] ∧
      List.Forall₂ Describes c.registry.entries l.registered := by
  intro steps s l
  obtain ⟨c, hc⟩ : ∃ c, s.thread.context? = some c :=
    Option.isSome_iff_exists.mp (by decide +kernel)
  have h := ((entries_describe_registered (.standard .checked true) .initial .main steps).1 c hc).1
  have hentries : s.thread.context?.map (·.registry.entries) =
      some [⟨2, 0x1000, .clone, true⟩, ⟨3, 0x2000, .managed .pointer, false⟩] := by decide +kernel
  refine ⟨c, hc, ?_, by decide +kernel, h⟩
  rw [hc] at hentries
  exact Option.some.inj hentries

end HeapRefs.Session
