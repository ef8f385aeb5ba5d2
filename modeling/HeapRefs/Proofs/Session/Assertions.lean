import HeapRefs.Proofs.Codec.Granules
import HeapRefs.Proofs.Session.Reachable
import HeapRefs.Proofs.Session.Replies

/-! # Assertions

A build without assertions encodes without validation, narrows without looking at the object, and
resolves a released handle to null. As long as no assertion fails, it answers like the build with
assertions, and comes to the same states.
-/

namespace HeapRefs

/-- The fault is a failed assertion: builds without assertions do not have it. -/
def Fault.isAssertion : Fault → Bool
  | unencodable .. | wrongKind .. | releasedHandle _ => true
  | unhandled .. | notAbove .. | noContext | contextBorrowed => false

namespace Codec

theorem encodeOrFault_without_assertions (c : Codec) (a : UInt64) :
    c.encodeOrFault false a = .ok (c.compress a) := rfl

theorem encodeOrFault_with_assertions (c : Codec) (a : UInt64) :
    c.encodeOrFault true a = .ok (c.compress a) ∨
      ∃ f, c.encodeOrFault true a = .error f ∧ f.isAssertion = true := by
  unfold encodeOrFault encodeFast
  cases c.encode a with
  | ok n => exact .inl rfl
  | error e => exact .inr ⟨_, rfl, rfl⟩

end Codec

namespace Session

/-- No assertion failed, and no header was read where there is no object. -/
def Outcome.passesAssertions : Outcome → Bool
  | .failed (.fault f) => !f.isAssertion
  | .refused (.noObject _) => false
  | _ => true

variable {m : Representation} {p : Platform} {s : State}

theorem ReferenceOp.apply_without_assertions (op : ReferenceOp)
    (h : (op.apply ⟨m, true, p⟩ s).outcome.passesAssertions = true) :
    op.apply ⟨m, false, p⟩ s = op.apply ⟨m, true, p⟩ s := by
  cases op with
  | narrow target source kind =>
    simp only [ReferenceOp.apply, State.withView] at h ⊢
    cases hv : s.locals.views.get? source with
    | none => rfl
    | some v =>
      simp only [hv] at h ⊢
      split
      · next hm =>
        rw [if_pos hm] at h
        have hw : s.narrowFault? ⟨m, false, p⟩ v.reference kind = .ok none := rfl
        rw [hw]
        obtain hf | ⟨actual, hf⟩ | hf := s.narrowFault?_cases ⟨m, true, p⟩ v.reference kind
        · rw [hf]
        · rw [hf] at h
          simp [State.fault, State.failed, Outcome.passesAssertions, Fault.isAssertion] at h
        · rw [hf] at h
          simp [State.refused, Outcome.passesAssertions] at h
      · rfl
  | _ => rfl

theorem HandleOp.apply_without_assertions (op : HandleOp)
    (h : (op.apply ⟨m, true, p⟩ s).outcome.passesAssertions = true) :
    op.apply ⟨m, false, p⟩ s = op.apply ⟨m, true, p⟩ s := by
  cases op with
  | resolve target handle origin =>
    simp only [HandleOp.apply, State.withHandle, State.withContext] at h ⊢
    cases hh : s.locals.handles.get? handle with
    | none => rfl
    | some handle =>
      cases hg : s.locals.guard? with
      | none => rfl
      | some guard =>
        cases hc : s.thread.context? with
        | none => rfl
        | some c =>
          simp only [hh, hg, hc] at h ⊢
          cases ha : c.anchors.address? handle with
          | none =>
            rw [ha] at h
            simp [State.fault, State.failed, Outcome.passesAssertions, Fault.isAssertion] at h
          | some a => rfl
  | _ => rfl

theorem CodecOp.apply_without_assertions (op : CodecOp)
    (h : (op.apply ⟨m, true, p⟩ s).outcome.passesAssertions = true) :
    op.apply ⟨m, false, p⟩ s = op.apply ⟨m, true, p⟩ s := by
  cases op with
  | encode codec source =>
    simp only [CodecOp.apply, State.withCodec, State.withView] at h ⊢
    cases hc : s.locals.codecs.get? codec with
    | none => rfl
    | some c =>
      cases hv : s.locals.views.get? source with
      | none => rfl
      | some v =>
        simp only [hc, hv] at h ⊢
        rw [c.encodeOrFault_without_assertions]
        obtain hn | ⟨f, hf, ha⟩ := c.encodeOrFault_with_assertions v.address
        · rw [hn]
        · rw [hf] at h
          simp [State.fault, State.failed, Outcome.passesAssertions, ha] at h
  | ask query =>
    simp only [CodecOp.apply] at h ⊢
    cases hc : s.shared.codec? with
    | none => rfl
    | some c =>
      cases hq : query.resolve s.word? with
      | none => rfl
      | some q =>
        simp only [hc, hq] at h ⊢
        cases q with
        | encodeFast a =>
          simp only [Codec.answer, c.encodeOrFault_without_assertions] at h ⊢
          obtain hn | ⟨f, hf, ha⟩ := c.encodeOrFault_with_assertions a
          · rw [hn]
          · rw [hf] at h
            simp [State.failed, Outcome.passesAssertions, ha] at h
        | _ => rfl
  | _ => rfl

theorem Op.apply_without_assertions (op : Op)
    (h : (op.apply ⟨m, true, p⟩ s).outcome.passesAssertions = true) :
    op.apply ⟨m, false, p⟩ s = op.apply ⟨m, true, p⟩ s := by
  cases op with
  | thread op => rfl
  | heap op => rfl
  | reference op => exact op.apply_without_assertions h
  | handle op => exact op.apply_without_assertions h
  | codec op => exact op.apply_without_assertions h

mutual

theorem Step.run_without_assertions (s : State) (step : Step)
    (h : (step.run ⟨m, true, p⟩ s).1.all Outcome.passesAssertions = true) :
    step.run ⟨m, false, p⟩ s = step.run ⟨m, true, p⟩ s := by
  cases step with
  | op operation =>
    simp only [Step.run, Reply.all] at h ⊢
    rw [operation.apply_without_assertions h]
  | spawn steps =>
    simp only [Step.run, Reply.all] at h ⊢
    rw [runSteps_without_assertions (.start s.shared s.thread.next) steps h]

theorem runSteps_without_assertions (s : State) (steps : List Step)
    (h : allReplies Outcome.passesAssertions (runSteps ⟨m, true, p⟩ s steps).1 = true) :
    runSteps ⟨m, false, p⟩ s steps = runSteps ⟨m, true, p⟩ s steps := by
  cases steps with
  | nil => simp only [runSteps]
  | cons step steps =>
    rw [runSteps_cons] at h
    obtain ⟨hstep, hsteps⟩ := allReplies_cons.mp h
    have heq := Step.run_without_assertions s step hstep
    rw [runSteps_cons, runSteps_cons, heq, runSteps_without_assertions _ steps hsteps]

end

/-- As long as no assertion has failed, the run without assertions gives the same replies and is in
the same state. The assertion that a registration finds its slot free cannot fail. -/
theorem passed_assertions_change_nothing (hr : Reachable ⟨m, true, p⟩ s)
    (steps : List Step) (n : Nat)
    (h : allReplies Outcome.passesAssertions ((runSteps ⟨m, true, p⟩ s steps).1.take n) = true) :
    let t := (runSteps ⟨m, true, p⟩ s (steps.take n)).2
    (runSteps ⟨m, false, p⟩ s steps).1.take n = (runSteps ⟨m, true, p⟩ s steps).1.take n ∧
      (runSteps ⟨m, false, p⟩ s (steps.take n)).2 = t ∧
      ∀ c, t.thread.context? = some c → ∀ e ∈ c.registry.stored, e.slot ≠ t.thread.nextSlot := by
  intro t
  rw [take_replies] at h
  have heq := runSteps_without_assertions s (steps.take n) h
  refine ⟨?_, congrArg Prod.snd heq, fun c hc e he => ?_⟩
  · rw [take_replies, take_replies, heq]
  · have hs : t.Sound := (hr.run (steps.take n)).sound
    exact Nat.ne_of_lt ((hs.context c hc).issued e he).2

/-- All but the last step of this session pass their assertions; the last resolves a handle that has
been released. -/
theorem passed_assertions_change_nothing_until_released :
    let steps : List Step := [
      .op (.thread (.attach "main")), .op (.heap (.alloc "o" .inst 16 none)),
      .op (.reference (.create "x" none (.address .bits (.object "o")))),
      .op (.handle (.create "h" "x")), .op (.handle (.mark "m")),
      .op (.reference (.narrow "y" "x" .inst)), .op (.handle (.create "g" "y")),
      .op (.handle (.release "m")), .op (.handle (.resolve "z" "h")),
      .op (.handle (.resolve "z" "g"))]
    (runSteps (.standard .checked false) .initial steps).1.take 9 =
        (runSteps (.standard .checked true) .initial steps).1.take 9 ∧
      allReplies Outcome.passesAssertions (runSteps (.standard .checked true) .initial steps).1 =
        false := by
  intro steps
  have h : allReplies Outcome.passesAssertions
      ((runSteps (.standard .checked true) .initial steps).1.take 9) = true := by decide +kernel
  have hr : Reachable (.standard .checked true) .initial :=
    ⟨.initial, .main, [], state_runSteps_nil⟩
  obtain ⟨heq, -⟩ := passed_assertions_change_nothing hr steps 9 h
  exact ⟨heq, by decide +kernel⟩

end Session

end HeapRefs
