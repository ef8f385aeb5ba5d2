import HeapRefs.Session.State

/-! # Operations on threads and settings -/

namespace HeapRefs.Session

def State.install (s : State) (settings : Settings) : Effect :=
  let s := { s with shared := { s.shared with checking := settings.checkUnhandled } }
  ⟨.done (.truth settings.checkUnhandled), s, [s.record (.installed settings)]⟩

namespace ThreadOp

def apply (s : State) : ThreadOp → Effect
  | attach name =>
    match s.thread.attach name with
    | .error e => s.failed e
    | .ok thread =>
      let s := { s with thread, locals := { s.locals with guard? := some name } }
      ⟨.done (.attached name), s, [s.record (.attached name)]⟩
  | detach =>
    s.withContext fun c =>
      let (log, thread) := s.thread.detach (s.locals.marks.values.foldl Context.release c)
      ⟨.done (.done .detached),
        { s with thread, locals := { s.locals with guard? := none, marks := ∅ } }, log⟩
  | status =>
    s.done (.status s.thread.observe s.shared.checking s.locals.guard?)
  | poll =>
    s.withContext fun c =>
      let (fault?, log, thread) := s.thread.poll c
      let outcome := match fault? with
        | none => .done (.done .passed)
        | some f => .failed (.fault f)
      ⟨outcome, { s with thread }, log⟩
  | entries => s.withContext fun c => s.done (.entries c.registry.entries)
  | unhandled => s.withContext fun c => s.done (.entries c.unhandled)
  | install settings => s.install settings
  | installVariable value? =>
    match Settings.ofEnvironment fun _ => value? with
    | .error e => s.failed (.settings e)
    | .ok settings => s.install settings

end ThreadOp

/-- What a thread does at its end: it is detached if it still is attached, and then lets go of its
references. -/
def State.finish (s : State) : List Record × State :=
  let e := ThreadOp.detach.apply s
  (e.log, e.state.locals.views.values.foldl State.destroy e.state)

theorem State.finish_induction {motive : State → Prop} (s : State)
    (detach : motive (ThreadOp.detach.apply s).state)
    (destroy : ∀ t v, motive t → motive (t.destroy v)) : motive s.finish.2 := by
  rw [finish]
  generalize (ThreadOp.detach.apply s).state = t at detach
  generalize t.locals.views.values = vs
  induction vs generalizing t with
  | nil => exact detach
  | cons v vs ih => exact ih (t.destroy v) (destroy t v detach)

end HeapRefs.Session
