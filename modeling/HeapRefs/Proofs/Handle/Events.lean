import HeapRefs.Proofs.Session.Reachable

/-! # The history of a thread's anchors

The anchors of a thread change by few events, which can be read off its run without looking at any
anchor. They form a machine of their own, and a run of the thread is a run of this machine.
-/

namespace HeapRefs

/-- What happens to the anchors of a thread. An attached thread has a table already; a mark that is
dropped releases the anchors from its length on. -/
inductive AnchorEvent
  | attached
  | detached
  | pushed (address : UInt64)
  | released (length : Nat)
  | relocated (source target : UInt64)
  deriving DecidableEq, Repr

/-- The anchors of a thread, if it has a context, and the next stamp. -/
structure Anchorage where
  table? : Option AnchorTable
  nextStamp : Nat

namespace Anchorage

def apply (x : Anchorage) : AnchorEvent → Anchorage
  | .attached => { x with table? := x.table?.or (some .empty) }
  | .detached => { x with table? := none }
  | .pushed a => ⟨x.table?.map fun t => (t.push a x.nextStamp).2, x.nextStamp + 1⟩
  | .released length => { x with table? := x.table?.map (·.truncate length) }
  | .relocated source target => { x with table? := x.table?.map (·.relocate source target) }

theorem foldl_released (x : Anchorage) (marks : List Mark) :
    (marks.map fun m => AnchorEvent.released m.length).foldl apply x =
      { x with table? := x.table?.map fun t => marks.foldl AnchorTable.release t } := by
  induction marks generalizing x with
  | nil => simp
  | cons m marks ih =>
    rw [List.map_cons, List.foldl_cons, ih]
    simp only [apply, Option.map_map]
    rfl

end Anchorage

namespace Thread

def anchorage (t : Thread) : Anchorage := ⟨t.anchors?, t.nextStamp⟩

theorem table?_anchorage {t : Thread} {c : Context} (hc : t.context? = some c) :
    t.anchorage.table? = some c.anchors := by
  simp [anchorage, anchors?, hc]

@[simp] theorem anchorage_setContext (t : Thread) (c : Context) :
    (t.setContext c).anchorage = ⟨some c.anchors, t.nextStamp⟩ := by
  simp [anchorage, anchors?]

@[simp] theorem anchorage_setCell_vacant (t : Thread) :
    (t.setCell .vacant).anchorage = ⟨none, t.nextStamp⟩ := by
  simp [anchorage, anchors?, ContextCell.content?]

@[simp] theorem anchorage_mapRegistry (t : Thread) (f : Registry → Registry) :
    (t.mapRegistry f).anchorage = t.anchorage := by
  simp only [anchorage, anchors?_mapRegistry, nextStamp_mapRegistry]

@[simp] theorem anchorage_create (t : Thread) (checking : Bool) (representation : Representation)
    (address : UInt64) (origin : Origin) :
    (t.create checking representation address origin).2.anchorage = t.anchorage := by
  by_cases hr : t.Registers checking representation address
  · rw [create_of_registers hr]
    simp only [anchorage, anchors?_enter, nextStamp_enter]
  · rw [(create_of_not_registers hr origin).2]

end Thread

namespace Session

variable {b : Build} {s t : State} {act : Act}

/-- The events of an act. The marks that a thread still has are dropped when it is detached. -/
def State.anchorEvents (s : State) : Act → List AnchorEvent
  | .attach _ => [.attached]
  | .detach => s.locals.marks.values.map (fun m => .released m.length) ++ [.detached]
  | .anchor _ source => (s.locals.views.get? source).toList.map fun v => .pushed v.address
  | .mark name | .release name =>
    (s.locals.marks.get? name).toList.map fun m => .released m.length
  | .relocate source target => [.relocated source target]
  | .create .. | .transfer .. | .discard _ | .forget _ | .allow _ | .resume | .other => []

def anchorHistory (b : Build) : State → List Step → List AnchorEvent
  | _, [] => []
  | s, step :: steps =>
    s.anchorEvents (step.act b s) ++ anchorHistory b (step.run b s).2 steps

theorem anchorHistory_append (before after : List Step) :
    anchorHistory b s (before ++ after) =
      anchorHistory b s before ++ anchorHistory b (runSteps b s before).2 after := by
  induction before generalizing s with
  | nil => simp [anchorHistory]
  | cons step before ih =>
    rw [List.cons_append, anchorHistory, ih, anchorHistory, List.append_assoc,
      state_runSteps_cons]

@[simp] theorem State.anchorage_displace (s : State) (name : String) :
    (s.displace name).anchorage = s.thread.anchorage :=
  s.thread.anchorage_mapRegistry _

@[simp] theorem State.anchorage_bind (s : State) (name : String) (v : View) :
    (s.bind name v).thread.anchorage = s.thread.anchorage := by
  rw [State.bind_eq]
  exact s.anchorage_displace name

theorem Transition.anchorage (ht : Transition s act t) :
    t.thread.anchorage = (s.anchorEvents act).foldl Anchorage.apply s.thread.anchorage := by
  cases ht with
  | null target representation kind? => exact State.anchorage_bind ..
  | create target representation address origin kind? =>
    exact (State.anchorage_bind ..).trans (Thread.anchorage_create ..)
  | transfer target kind? hv => exact State.anchorage_bind ..
  | discard hv =>
    rw [State.destroy, Thread.destroy_eq]
    exact Thread.anchorage_mapRegistry ..
  | forget hv => rfl
  | allow hv =>
    rw [Thread.allow_eq]
    exact Thread.anchorage_mapRegistry ..
  | attach name hc =>
    have hnone : s.thread.context? = none := by rw [Thread.context?, hc]; rfl
    rw [Thread.anchorage_setContext]
    simp [State.anchorEvents, Anchorage.apply, Thread.anchorage, Thread.anchors?, hnone,
      Context.fresh]
  | detach hc =>
    rw [State.anchorEvents, List.foldl_append, Anchorage.foldl_released,
      Thread.anchorage_setCell_vacant]
    rfl
  | resume hc =>
    rw [Thread.anchorage_setContext]
    simp [State.anchorEvents, Thread.anchorage, Thread.anchors?, hc, Context.resume]
  | anchor target hv hc =>
    simp [State.anchorEvents, Anchorage.apply, Thread.anchorage, Thread.anchors?, hv, hc]
  | mark name hc =>
    rw [State.anchorEvents, Anchorage.foldl_released, Thread.anchorage_setContext]
    cases s.locals.marks.get? name <;>
      simp [Thread.anchorage, Thread.anchors?, Context.release, hc]
  | release hm hc =>
    rw [State.anchorEvents, Anchorage.foldl_released, hm, Thread.anchorage_setContext]
    simp [Thread.anchorage, Thread.anchors?, Context.release, hc]
  | relocate source target hc =>
    rw [Thread.anchorage_setContext]
    simp [State.anchorEvents, Anchorage.apply, Thread.anchorage, Thread.anchors?,
      Context.relocate, hc]
  | other shared codecs => rfl

theorem Turn.anchorage (ht : Turn s act t) :
    t.thread.anchorage = (s.anchorEvents act).foldl Anchorage.apply s.thread.anchorage := by
  cases ht with
  | take ht => exact ht.anchorage
  | wait shared hr =>
    simp only [Thread.anchorage, Thread.anchors?, hr.context?_eq, hr.nextStamp_eq]
    rfl

theorem anchorage_runSteps (steps : List Step) :
    (runSteps b s steps).2.thread.anchorage =
      (anchorHistory b s steps).foldl Anchorage.apply s.thread.anchorage := by
  induction steps generalizing s with
  | nil => simp [anchorHistory]
  | cons step steps ih =>
    rw [state_runSteps_cons, ih, anchorHistory, List.foldl_append,
      (step.turn b s).anchorage]

end Session

end HeapRefs
