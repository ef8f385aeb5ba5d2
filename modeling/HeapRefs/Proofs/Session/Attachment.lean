import HeapRefs.Proofs.Session.Frame
import HeapRefs.Proofs.Session.Replies

/-! # Attachment

The guard of a thread and its context are apart, but come and go together: both are there from the
first attach to the next detach, whatever happens in between and whatever fails. So nothing that
needs the guard ever misses the context.
-/

namespace HeapRefs.Session

/-- The name that a thread is attached under after an operation, from the one before it. -/
def Op.attachment (name? : Option String) : Op → Option String
  | .thread (.attach name) => name?.or (some name)
  | .thread .detach => none
  | _ => name?

def Step.attachment (name? : Option String) : Step → Option String
  | .op operation => operation.attachment name?
  | .spawn _ => name?

/-- The name that a thread is attached under after its steps, read off the steps alone. -/
def attachment (steps : List Step) : Option String := steps.foldl Step.attachment none

/-- The guard and the context of the state have the name, if there is one, and no mark is there
without them. -/
structure State.Attached (s : State) (name? : Option String) : Prop where
  sound : s.Sound
  guard : s.locals.guard? = name?
  marks : name? = none → s.locals.marks = ∅

variable {b : Build} {s : State} {op : Op} {name? : Option String} {c : Context}

theorem Op.attachment_of_not_reframes (h : op.reframes = false) : op.attachment name? = name? := by
  unfold attachment
  split
  · cases h
  · cases h
  · rfl

theorem apply_attach_of_none (hs : s.Sound) (hc : s.thread.context? = none) (name : String) :
    (ThreadOp.attach name).apply s =
      let t := { s with
        thread := s.thread.setContext (.fresh name)
        locals := { s.locals with guard? := some name } }
      ⟨.done (.attached name), t, [t.record (.attached name)]⟩ := by
  simp only [ThreadOp.apply, Thread.attach, hs.cell_eq_vacant hc]

theorem apply_attach_of_some (hc : s.thread.context? = some c) (name : String) :
    (ThreadOp.attach name).apply s = s.failed (.alreadyAttached c.name) := by
  simp only [ThreadOp.apply, Thread.attach, Thread.cell_of_context? hc]

namespace State.Sound

theorem guard?_eq_none_iff (hs : s.Sound) : s.locals.guard? = none ↔ s.thread.context? = none := by
  rw [hs.guard_eq, Thread.name?, Option.map_eq_none_iff]

theorem context?_of_guard (hs : s.Sound) (hg : s.locals.guard?.isSome = true) :
    ∃ c, s.thread.context? = some c := by
  rw [hs.guard_eq, Thread.name?, Option.isSome_map] at hg
  exact Option.isSome_iff_exists.mp hg

theorem apply (hs : s.Sound) (op : Op) : (op.apply b s).state.Sound :=
  hs.transition (op.transition b s)

theorem withContext_eq_refused (hs : s.Sound) (hc : s.thread.context? = none)
    (k : Context → Effect) : s.withContext k = s.refused .notAttached := by
  simp only [withContext, hs.guard?_eq_none_iff.mpr hc]

theorem foundContext (hs : s.Sound) (op : Op) : (op.apply b s).outcome.foundContext = true := by
  obtain hr | ⟨name, rfl⟩ | rfl | ⟨name, rfl⟩ := op.reframes_cases
  · obtain h | ⟨hg, hc⟩ := (Op.frames (b := b) (s := s) hr).context
    · exact h
    · obtain ⟨c, hc'⟩ := hs.context?_of_guard hg
      cases hc.symm.trans hc'
  · cases hc : s.thread.context? with
    | none => rw [Op.apply, apply_attach_of_none hs hc]; rfl
    | some c => rw [Op.apply, apply_attach_of_some hc]; rfl
  · rw [Op.apply, ThreadOp.apply]
    cases hc : s.thread.context? with
    | none => rw [hs.withContext_eq_refused hc]; rfl
    | some c => rw [withContext_eq hs hc]; rfl
  · obtain ⟨-, he⟩ | ⟨c, -, codec?, he | ⟨content, he⟩⟩ := CodecOp.install_cases b s name
    all_goals rw [Op.apply, he]; rfl

end State.Sound

namespace State.Attached

theorem name_eq (h : s.Attached name?) : s.thread.name? = name? :=
  h.sound.guard_eq.symm.trans h.guard

theorem apply (h : s.Attached name?) (op : Op) :
    (op.apply b s).state.Attached (op.attachment name?) := by
  have hs := h.sound.apply (b := b) op
  obtain hr | ⟨name, rfl⟩ | rfl | ⟨name, rfl⟩ := op.reframes_cases
  · have hf := Op.frames (b := b) (s := s) hr
    rw [Op.attachment_of_not_reframes hr]
    refine ⟨hs, hf.guard.trans h.guard, fun hn => ?_⟩
    -- Marks change only under a guard, and there is none.
    obtain hm | hg := hf.marks
    · rw [hm, h.marks hn]
    · rw [h.guard, hn] at hg
      cases hg
  · cases hc : s.thread.context? with
    | none =>
      obtain rfl : name? = none := h.guard ▸ h.sound.guard?_eq_none_iff.mpr hc
      rw [Op.apply, apply_attach_of_none h.sound hc] at hs ⊢
      exact ⟨hs, rfl, fun hn => nomatch hn⟩
    | some c =>
      obtain rfl : name? = some c.name := h.guard ▸ h.sound.guard_eq_some hc
      rw [Op.apply, apply_attach_of_some hc]
      exact h
  · rw [Op.apply, ThreadOp.apply] at hs ⊢
    cases hc : s.thread.context? with
    | none =>
      obtain rfl : name? = none := h.guard ▸ h.sound.guard?_eq_none_iff.mpr hc
      rw [h.sound.withContext_eq_refused hc]
      exact h
    | some c =>
      rw [withContext_eq h.sound hc] at hs ⊢
      exact ⟨hs, rfl, fun _ => rfl⟩
  · obtain ⟨-, he⟩ | ⟨c, -, codec?, he | ⟨content, he⟩⟩ := CodecOp.install_cases b s name
    all_goals rw [Op.apply, he]; exact ⟨h.sound, h.guard, h.marks⟩

theorem run (h : s.Attached name?) (step : Step) :
    (step.run b s).2.Attached (step.attachment name?) := by
  cases step with
  | op operation =>
    rw [state_run_op]
    exact h.apply operation
  | spawn steps =>
    have hs := h.sound.turn ((Step.spawn steps).turn b s)
    simp only [Step.run] at hs ⊢
    exact ⟨hs, h.guard, h.marks⟩

theorem runSteps (h : s.Attached name?) (steps : List Step) :
    (runSteps b s steps).2.Attached (steps.foldl Step.attachment name?) := by
  induction steps generalizing s name? with
  | nil => rwa [state_runSteps_nil]
  | cons step steps ih =>
    rw [state_runSteps_cons]
    exact ih (h.run step)

theorem start (shared : Shared) (thread : Thread) : (State.start shared thread).Attached none :=
  ⟨thread.sound_start, rfl, fun _ => rfl⟩

end State.Attached

theorem invariant_sound (b : Build) : Invariant b State.Sound where
  start _ thread := thread.sound_start
  run step hs := hs.turn (step.turn b _)

theorem runSteps_foundContext (hs : s.Sound) (steps : List Step) :
    allReplies Outcome.foundContext (runSteps b s steps).1 = true :=
  (invariant_sound b).runSteps_all (fun op hs => hs.foundContext op) hs steps

/-- The guard and the context of a thread are there, under one name, from an attach to the next
detach. So no operation fails to find the context, whatever failed before. -/
theorem guard?_eq_attachment (b : Build) (shared : Shared) (thread : Thread)
    (steps : List Step) :
    let s := (runSteps b (.start shared thread) steps).2
    (s.locals.guard? = attachment steps ∧
      s.thread.context?.map Context.name = attachment steps) ∧
    (∀ name,
      let e := Op.apply b s (.thread (.attach name))
      ((∃ a, e.outcome = .done a) ↔ s.thread.context? = none) ∧
      (s.thread.context? = none →
        e.outcome = .done (.attached name) ∧
        e.state = { s with
          thread := s.thread.setContext ⟨name, .empty, .empty, false⟩
          locals := { s.locals with guard? := some name } } ∧
        e.state.thread.nextSlot = s.thread.nextSlot ∧
        e.state.thread.nextStamp = s.thread.nextStamp) ∧
      ∀ present, attachment steps = some present →
        e = s.failed (.alreadyAttached present)) ∧
    (∀ guard, s.locals.guard? = some guard →
      ∃ c, s.thread.context? = some c ∧ c.name = guard ∧ ∀ k, s.withContext k = k c) ∧
    (∀ name m, s.locals.marks.get? name = some m → s.locals.guard?.isSome = true) ∧
    allReplies Outcome.foundContext (runSteps b (.start shared thread) steps).1 = true := by
  intro s
  have h : s.Attached (attachment steps) := (State.Attached.start shared thread).runSteps steps
  refine ⟨⟨h.guard, h.name_eq⟩, fun name => ?_, fun guard hg => ?_, fun name m hm => ?_,
    runSteps_foundContext (State.Attached.start shared thread).sound steps⟩
  · cases hc : s.thread.context? with
    | none =>
      rw [Op.apply, apply_attach_of_none h.sound hc]
      refine ⟨⟨fun _ => rfl, fun _ => ⟨_, rfl⟩⟩, fun _ => ⟨rfl, rfl, rfl, rfl⟩,
        fun present hp => ?_⟩
      cases (h.guard.symm.trans (h.sound.guard?_eq_none_iff.mpr hc)).symm.trans hp
    | some c =>
      rw [Op.apply, apply_attach_of_some hc]
      refine ⟨⟨nofun, nofun⟩, nofun, fun present hp => ?_⟩
      obtain rfl := Option.some.inj ((h.sound.guard_eq_some hc).symm.trans (h.guard.trans hp))
      rfl
  · obtain ⟨c, hc⟩ := h.sound.context?_of_guard (Option.isSome_of_eq_some hg)
    have hn := Option.some.inj ((h.sound.guard_eq_some hc).symm.trans hg)
    exact ⟨c, hc, hn, withContext_eq h.sound hc⟩
  · rw [h.guard, Option.isSome_iff_ne_none]
    intro hn
    rw [h.marks hn, Bindings.get?_empty] at hm
    cases hm

end HeapRefs.Session
