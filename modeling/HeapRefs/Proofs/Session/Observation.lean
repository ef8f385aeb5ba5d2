import HeapRefs.Proofs.Session.Attachment
import HeapRefs.Proofs.Session.Quiet
import HeapRefs.Proofs.Session.Safepoint
import HeapRefs.Proofs.Session.Schedule

/-! # What observers see

Whoever handles a record may ask whether the thread is attached and at a safepoint. A thread holds
its context while it verifies the registry, and then the answers are those of a thread that has
none: of the safepoint nothing is ever seen.
-/

namespace HeapRefs.Session

/-- The records of the effect are no errors, and are seen from the state after it, which is at no
safepoint. -/
def Effect.Seen (e : Effect) : Prop :=
  ∀ r ∈ e.log, r.event.level ≠ .error ∧ r.seen = ⟨e.state.thread.context?.isSome, false⟩

variable {b : Build} {s : State} {c : Context}

theorem State.Sound.observe_eq (hs : s.Sound) :
    s.thread.observe = ⟨s.thread.context?.isSome, false⟩ := by
  unfold Thread.observe
  cases hc : s.thread.context? with
  | none => rfl
  | some c => simp only [(hs.context c hc).running, Option.isSome_some]

theorem stable_sound (b : Build) : Stable b State.Sound where
  start _ thread := thread.sound_start
  apply op hs := hs.apply op
  wait hr hs := Thread.Sound.rest hs hr
  share _ hs _ := hs

namespace Effect.Seen

theorem of_log_eq {e : Effect} (h : e.log = []) : e.Seen := by
  intro r hr
  rw [h] at hr
  cases hr

theorem record {o : Outcome} {e : Event} (hs : s.Sound) (he : e.level ≠ .error) :
    Effect.Seen ⟨o, s, [s.record e]⟩ := by
  intro r hr
  obtain rfl := List.mem_singleton.mp hr
  exact ⟨he, hs.observe_eq⟩

end Effect.Seen

theorem ThreadOp.seen_detach (hs : s.Sound) : (ThreadOp.detach.apply s).Seen := by
  rw [ThreadOp.apply]
  cases hc : s.thread.context? with
  | none =>
    rw [hs.withContext_eq_refused hc]
    exact .of_log_eq rfl
  | some c =>
    rw [withContext_eq hs hc]
    simp only [Thread.detach_eq]
    intro r hr
    obtain ⟨e, he, rfl⟩ := List.mem_map.mp hr
    have hgone : (s.thread.setCell .vacant).context? = none := s.thread.context?_setCell _
    refine ⟨?_, by rw [hgone, Option.isSome_none]⟩
    -- Besides the last one, there are records only of what is left in the registry.
    rw [List.mem_append, Thread.remains] at he
    split at he
    · obtain rfl : e = .detached _ := by simpa using he
      exact Level.noConfusion
    · obtain (rfl | rfl) | rfl :
          (e = .leftRegistered _ _ ∨ e = .leftEntries _) ∨ e = .detached _ := by simpa using he
      all_goals exact Level.noConfusion

theorem ThreadOp.seen (hs : s.Sound) (op : ThreadOp) (hop : op ≠ .poll) : (op.apply s).Seen := by
  have idle : Idle s Effect.Seen := ⟨fun _ => .of_log_eq rfl, fun _ _ => .of_log_eq rfl⟩
  have install (settings : Settings) : (s.install settings).Seen := .record hs Level.noConfusion
  cases op with
  | attach name =>
    have hs' := hs.apply (b := .standard .direct false) (.thread (.attach name))
    cases hc : s.thread.context? with
    | none =>
      rw [Op.apply, apply_attach_of_none hs hc] at hs'
      rw [apply_attach_of_none hs hc]
      exact .record hs' Level.noConfusion
    | some c =>
      rw [apply_attach_of_some hc]
      exact .of_log_eq rfl
  | detach => exact seen_detach hs
  | status => exact .of_log_eq rfl
  | poll => exact absurd rfl hop
  | entries => exact idle.withContext fun c _ _ => .of_log_eq rfl
  | unhandled => exact idle.withContext fun c _ _ => .of_log_eq rfl
  | install settings => exact install settings
  | installVariable value? =>
    rw [ThreadOp.apply]
    cases Settings.ofEnvironment fun _ => value? with
    | error e => exact .of_log_eq rfl
    | ok settings => exact install settings

/-- Operations other than polls are seen from the state that they leave. -/
theorem State.Sound.seen (hs : s.Sound) (op : Op) (hop : op ≠ .thread .poll) :
    (op.apply b s).Seen := by
  cases op with
  | thread op => exact op.seen hs fun h => hop (congrArg Op.thread h)
  | reference op => exact .of_log_eq op.quiet.log
  | heap op => exact .of_log_eq op.log_eq
  | handle op => exact .of_log_eq op.quiet.log
  | codec op =>
    obtain h | ⟨name, h⟩ | h | ⟨name, h⟩ := (Op.codec op).reframes_cases
    · exact .of_log_eq (op.quiet h).log
    · cases h
    · cases h
    · cases h
      obtain ⟨-, he⟩ | ⟨c, -, codec?, he | ⟨content, he⟩⟩ := CodecOp.install_cases b s name
      · exact .of_log_eq (congrArg Effect.log he)
      · exact .of_log_eq (congrArg Effect.log he)
      · rw [Op.apply, he]
        have hs' : State.Sound { s with shared := { s.shared with codec? } } := hs
        exact .record hs' Level.noConfusion

theorem seen_of_poll (hs : s.Sound) {r : Record} (hr : r ∈ (ThreadOp.poll.apply s).log) :
    r.seen = ⟨false, false⟩ := by
  cases hc : s.thread.context? with
  | none =>
    rw [ThreadOp.apply, hs.withContext_eq_refused hc] at hr
    cases hr
  | some c =>
    rw [apply_poll hs hc] at hr
    obtain ⟨e, -, rfl⟩ := List.mem_map.mp hr
    rfl

theorem seen_of_apply (hs : s.Sound) (op : Op) {r : Record} (hr : r ∈ (op.apply b s).log) :
    r.seen.atSafepoint = false ∧ (r.event.level = .error → r.seen = ⟨false, false⟩) := by
  by_cases hop : op = .thread .poll
  · subst hop
    have hseen := seen_of_poll hs hr
    exact ⟨congrArg Observation.atSafepoint hseen, fun _ => hseen⟩
  · obtain ⟨hlevel, hseen⟩ := hs.seen op hop r hr
    exact ⟨congrArg Observation.atSafepoint hseen, fun h => absurd h hlevel⟩

theorem seen_of_finish (hs : s.Sound) {r : Record} (hr : r ∈ s.finish.1) :
    r.seen.atSafepoint = false ∧ (r.event.level = .error → r.seen = ⟨false, false⟩) := by
  obtain ⟨hlevel, hseen⟩ := ThreadOp.seen_detach hs r hr
  exact ⟨congrArg Observation.atSafepoint hseen, fun h => absurd h hlevel⟩

/-- The threads that a poll passes through: it is seen at a safepoint until it lends the context,
and then as on a thread that is not attached. The records are made while it is lent. -/
theorem poll_passes (hs : s.Sound) (hc : s.thread.context? = some c) :
    let parked := s.thread.park c
    let lent := parked.lend c.park
    parked.observe = ⟨true, true⟩ ∧ lent.observe = ⟨false, false⟩ ∧
      (ThreadOp.poll.apply s).log = (lent.verify c.park).2 ∧
      (ThreadOp.poll.apply s).log =
        c.unhandled.map (fun e => ⟨.unhandled c.name e, lent.observe⟩) ∧
      (ThreadOp.poll.apply s).state.thread = (lent.setContext c.park).resume := by
  intro parked lent
  have hparked : parked.observe = ⟨true, true⟩ := by
    simp only [parked, Thread.park, Thread.observe, Thread.context?_setContext, Context.park]
  have hlent : lent.observe = ⟨false, false⟩ := by
    simp only [lent, Thread.lend, Thread.observe, Thread.context?_setCell, ContextCell.content?]
  have hpoll : (ThreadOp.poll.apply s).log = (s.thread.poll c).2.1 ∧
      (ThreadOp.poll.apply s).state.thread = (s.thread.poll c).2.2 := by
    rw [ThreadOp.apply, withContext_eq hs hc]
    exact ⟨rfl, rfl⟩
  refine ⟨hparked, hlent, hpoll.1, ?_, hpoll.2⟩
  rw [apply_poll hs hc, hlent]

/-- A thread that polls is attached and at a safepoint, but all that it records is seen as on one
that is neither. No record of a run is seen at a safepoint, and between operations there is none. -/
theorem safepoint_is_never_seen (b : Build) (shared : Shared) (turns : List (Nat × Step)) :
    let p : Process := .fresh shared
    let xs : List Taken := p.operations b turns
    (∀ x ∈ xs,
      ThreadOp.status.apply x.state = x.state.done
        (.status ⟨x.state.thread.context?.isSome, false⟩ x.state.shared.checking
          x.state.locals.guard?) ∧
      (x.op = .thread .poll → ∀ c, x.state.thread.context? = some c →
        let parked := x.state.thread.park c
        let lent := parked.lend c.park
        parked.observe = ⟨true, true⟩ ∧ lent.observe = ⟨false, false⟩ ∧
        (x.effect b).log = (lent.verify c.park).2 ∧
        (x.effect b).log = c.unhandled.map (fun e => ⟨.unhandled c.name e, lent.observe⟩) ∧
        (x.effect b).state.thread = (lent.setContext c.park).resume) ∧
      (x.op ≠ .thread .poll → ∀ r ∈ (x.effect b).log,
        r.event.level ≠ .error ∧
        r.seen = ⟨(x.effect b).state.thread.context?.isSome, false⟩)) ∧
    ∀ r ∈ allRecords (p.run b turns).1,
      r.seen.atSafepoint = false ∧ (r.event.level = .error → r.seen = ⟨false, false⟩) := by
  intro p xs
  have hs := stable_sound b
  have hall : p.All State.Sound := .fresh hs shared
  constructor
  · intro x hx
    have hsound : x.state.Sound := hall.operations hs turns x hx
    refine ⟨?_, fun hop c hc => ?_, hsound.seen x.op⟩
    · rw [ThreadOp.apply, hsound.observe_eq]
    · rw [Taken.effect, hop]
      exact poll_passes hsound hc
  · exact hall.records hs (fun op h r hr => seen_of_apply h op hr)
      (fun h r => seen_of_finish h) turns

/-- A spawned thread polls with a reference that is not anchored. -/
theorem safepoint_is_never_seen_of_spawned :
    let b : Build := .standard .checked true
    let p : Process := .fresh .initial
    let turns : List (Nat × Step) := [
      (0, .op (.thread (.install ⟨true⟩))),
      (0, .spawn [.op (.thread (.attach "worker")),
        .op (.reference (.create "x" none (.address .bits (.word 0x1000)))),
        .op (.thread .poll)])]
    ∃ x ∈ p.operations b turns, x.op = .thread .poll ∧
      (∃ c, x.state.thread.context? = some c ∧ (x.state.thread.park c).observe = ⟨true, true⟩) ∧
      (x.effect b).log =
        [⟨.unhandled "worker" ⟨0, 0x1000, .managed .bits, false⟩, ⟨false, false⟩⟩] := by
  intro b p turns
  obtain ⟨hop, -⟩ := safepoint_is_never_seen b .initial turns
  obtain ⟨x, hx, hpoll, c, hc, hn, hu⟩ : ∃ x ∈ p.operations b turns, x.op = .thread .poll ∧
      ∃ c, x.state.thread.context? = some c ∧ c.name = "worker" ∧
        c.unhandled = [⟨0, 0x1000, .managed .bits, false⟩] :=
    ⟨_, .tail _ (.tail _ (.tail _ (.head _))), rfl, _, rfl, rfl, by decide⟩
  obtain ⟨-, hparked, -⟩ := hop x hx
  obtain ⟨hseen, hlent, -, hlog, -⟩ := hparked hpoll c hc
  refine ⟨x, hx, hpoll, ⟨c, hc, hseen⟩, ?_⟩
  rw [hlog, hu, hn, hlent]
  rfl

/-- An attached thread with one unhandled reference stops at a safepoint, and its error is seen as
on a thread that is not attached. -/
theorem safepoint_hidden_from_error_record :
    let steps : List Step := [
      .op (.thread (.install ⟨true⟩)), .op (.thread (.attach "main")),
      .op (.reference (.create "x" (some .checked) (.address .bits (.word 0x1000))))]
    let s := (runSteps (.standard .checked true) .initial steps).2
    (∃ c, s.thread.context? = some c ∧ c.unhandled.length = 1 ∧
      (s.thread.park c).observe = ⟨true, true⟩) ∧
    ∃ r ∈ (ThreadOp.poll.apply s).log, r.event.level = .error ∧ r.seen ≠ ⟨true, true⟩ := by
  refine ⟨⟨_, rfl, by decide, rfl⟩, _, .head _, rfl, by decide⟩

end HeapRefs.Session
