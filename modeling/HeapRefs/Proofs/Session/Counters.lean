import HeapRefs.Proofs.Handle.Events
import HeapRefs.Proofs.Session.Slots

/-! # Counters

The counters of a thread are kept in words of 64 bits. A turn advances each by one at most, so that
within `2 ^ 64` turns none wraps, and a count without bound comes to the same.
-/

namespace HeapRefs

def Thread.words (t : Thread) : UInt64 × UInt64 := (.ofNat t.nextSlot, .ofNat t.nextStamp)

namespace Session

variable {b : Build} {s t : State} {act : Act}

theorem Transition.nextStamp_cases (ht : Transition s act t) :
    t.thread.nextStamp = s.thread.nextStamp ∨ t.thread.nextStamp = s.thread.nextStamp + 1 := by
  cases ht with
  | null target representation kind? =>
    exact .inl (congrArg Anchorage.nextStamp (State.anchorage_bind ..))
  | create target representation address origin kind? =>
    have h := (State.anchorage_bind (s.create representation address origin).2 target
      ⟨(s.create representation address origin).1, kind?⟩).trans (Thread.anchorage_create ..)
    exact .inl (congrArg Anchorage.nextStamp h)
  | transfer target kind? hv => exact .inl (congrArg Anchorage.nextStamp (State.anchorage_bind ..))
  | discard hv =>
    rw [State.destroy, Thread.destroy_eq]
    exact .inl (s.thread.nextStamp_mapRegistry _)
  | allow hv =>
    rw [Thread.allow_eq]
    exact .inl (s.thread.nextStamp_mapRegistry _)
  | anchor target hv hc => exact .inr (s.thread.nextStamp_anchor _ _)
  | forget | attach | detach | resume | mark | release | relocate | other => exact .inl rfl

theorem Turn.counters_le (ht : Turn s act t) :
    t.thread.nextSlot ≤ s.thread.nextSlot + 1 ∧ t.thread.nextStamp ≤ s.thread.nextStamp + 1 := by
  have hslot : t.thread.nextSlot ≤ s.thread.nextSlot + 1 := by
    obtain ⟨-, hn⟩ | ⟨-, hn⟩ := ht.slot_cases <;> omega
  refine ⟨hslot, ?_⟩
  cases ht with
  | take ht => obtain hn | hn := ht.nextStamp_cases <;> omega
  | wait shared hr =>
    rw [hr.nextStamp_eq]
    exact Nat.le_succ _

theorem counters_runSteps_le (b : Build) (s : State) (steps : List Step) :
    (runSteps b s steps).2.thread.nextSlot ≤ s.thread.nextSlot + steps.length ∧
      (runSteps b s steps).2.thread.nextStamp ≤ s.thread.nextStamp + steps.length := by
  induction steps generalizing s with
  | nil => simp
  | cons step steps ih =>
    obtain ⟨hslot, hstamp⟩ := (step.turn b s).counters_le
    obtain ⟨hslots, hstamps⟩ := ih (step.run b s).2
    rw [state_runSteps_cons, List.length_cons]
    omega

/-- A thread that takes fewer than `2 ^ 64` turns wraps no counter. -/
theorem words_runSteps (b : Build) (shared : Shared) (thread : Thread) {steps : List Step}
    (h : steps.length < UInt64.size) :
    let t := (runSteps b (.start shared thread) steps).2.thread
    t.words.1.toNat = t.nextSlot ∧ t.words.2.toNat = t.nextStamp := by
  intro t
  have hslot : (State.start shared thread).thread.nextSlot = 0 := thread.nextSlot_start
  have hstamp : (State.start shared thread).thread.nextStamp = 0 := thread.nextStamp_start
  obtain ⟨hslots, hstamps⟩ := counters_runSteps_le b (.start shared thread) steps
  rw [hslot, Nat.zero_add] at hslots
  rw [hstamp, Nat.zero_add] at hstamps
  exact ⟨UInt64.toNat_ofNat_of_lt' (Nat.lt_of_le_of_lt hslots h),
    UInt64.toNat_ofNat_of_lt' (Nat.lt_of_le_of_lt hstamps h)⟩

end Session

end HeapRefs
