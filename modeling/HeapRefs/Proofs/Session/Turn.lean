import HeapRefs.Proofs.Session.Transition
import HeapRefs.Proofs.Thread.Isolation

/-! # Turns of a thread

In its turn a thread takes an operation, or waits until a thread that it spawns has come to its end.
Operations change no other thread, and a spawned thread with all that it spawns changes none that
lives. So whoever waits finds itself as it was.
-/

namespace HeapRefs

/-- The thread and those that come of it, by spawning. -/
def ThreadId.Spawns (i k : ThreadId) : Prop := k.line = i.line ∧ i.level ≤ k.level

namespace ThreadId

variable {i k : ThreadId}

theorem Spawns.refl (i : ThreadId) : i.Spawns i := ⟨rfl, Nat.le_refl _⟩

theorem Spawns.of_next (h : i.next.Spawns k) : i.Spawns k := ⟨h.1, Nat.le_of_succ_le h.2⟩

theorem not_spawns_next (i : ThreadId) : ¬ i.next.Spawns i := fun h => Nat.not_succ_le_self _ h.2

end ThreadId

namespace Thread

/-- The thread goes on as itself, and no thread changes but those that come of it. -/
structure Confines (t t' : Thread) : Prop where
  id : t'.id = t.id
  others : ∀ k, ¬ t.id.Spawns k → t'.storage.row k = t.storage.row k

variable {t t' t'' : Thread}

theorem Spares.confines (h : t.Spares t') : t.Confines t' :=
  ⟨h.id, fun k hk => h.others k fun he => hk (he ▸ .refl _)⟩

namespace Confines

theorem trans (h : t.Confines t') (h' : t'.Confines t'') : t.Confines t'' where
  id := h'.id.trans h.id
  others k hk := (h'.others k (h.id ▸ hk)).trans (h.others k hk)

theorem join (h : t.next.Confines t') : t.Confines (t.join t') :=
  ⟨rfl, fun k hk => h.others k fun hn => hk hn.of_next⟩

theorem rests (h : t.next.Confines t') : t.Rests (t.join t') :=
  ⟨rfl, h.others _ t.id.not_spawns_next⟩

end Confines

end Thread

namespace Session

variable {s t : State}

theorem State.spares_bind (s : State) (name : String) (v : View) :
    s.thread.Spares (s.bind name v).thread := by
  unfold State.bind
  cases s.locals.views.get? name with
  | none => exact .refl _
  | some old => exact s.thread.spares_destroy _

theorem Transition.spares_others {act : Act} (h : Transition s act t) :
    s.thread.Spares t.thread := by
  cases h with
  | null target representation kind? => exact s.spares_bind _ _
  | create target representation address origin kind? =>
    exact (s.thread.spares_create ..).trans
      ((s.create representation address origin).2.spares_bind _ _)
  | @transfer source v target kind? hv => exact (s.unbind source).spares_bind _ _
  | discard hv => exact s.thread.spares_destroy _
  | forget hv => exact .refl _
  | allow hv => exact s.thread.spares_allow _
  | attach name hc => exact s.thread.spares_setContext _
  | detach hc => exact s.thread.spares_setCell _
  | resume hc => exact s.thread.spares_setContext _
  | anchor target hv hc => exact s.thread.spares_anchor _ _
  | mark name hc => exact s.thread.spares_setContext _
  | release hm hc => exact s.thread.spares_setContext _
  | relocate source target hc => exact s.thread.spares_setContext _
  | other shared codecs => exact .refl _

theorem Op.spares_others (b : Build) (s : State) (op : Op) :
    s.thread.Spares (op.apply b s).state.thread :=
  (op.transition b s).spares_others

theorem State.spares_finish (s : State) : s.thread.Spares s.finish.2.thread := by
  refine s.finish_induction (motive := fun t => s.thread.Spares t.thread) ?_ fun t v ht => ?_
  · exact (Transition.threadOp .detach).spares_others
  · exact ht.trans (t.thread.spares_destroy _)

mutual

theorem Step.confines (b : Build) (s : State) (step : Step) :
    s.thread.Confines (step.run b s).2.thread := by
  cases step with
  | op operation =>
    simp only [Step.run]
    exact (operation.spares_others b s).confines
  | spawn steps =>
    simp only [Step.run]
    exact (confines_spawned b s steps).join

/-- Whatever threads a session spawns, none changes a thread that it does not come from. -/
theorem runSteps_confines (b : Build) (s : State) (steps : List Step) :
    s.thread.Confines (runSteps b s steps).2.thread := by
  cases steps with
  | nil =>
    simp only [runSteps]
    exact (Thread.Spares.refl _).confines
  | cons step steps =>
    simp only [runSteps]
    exact (Step.confines b s step).trans (runSteps_confines b _ steps)

theorem confines_spawned (b : Build) (s : State) (steps : List Step) :
    s.thread.next.Confines
      (runSteps b (.start s.shared s.thread.next) steps).2.finish.2.thread :=
  (s.thread.next.spares_start.confines.trans
    (runSteps_confines b (.start s.shared s.thread.next) steps)).trans
      (State.spares_finish _).confines

end

inductive Turn (s : State) : Act → State → Prop where

  | take {act : Act} {t : State} : Transition s act t → Turn s act t

  | wait (shared : Shared) {thread : Thread} : s.thread.Rests thread →
      Turn s .other { s with shared, thread }

/-- Waiting for a spawned session is no act. -/
def Step.act (b : Build) (s : State) : Step → Act
  | .op operation => operation.act b s
  | .spawn _ => .other

theorem Step.turn (b : Build) (s : State) (step : Step) :
    Turn s (step.act b s) (step.run b s).2 := by
  cases step with
  | op operation =>
    simp only [Step.run]
    exact .take (operation.transition b s)
  | spawn steps =>
    simp only [Step.run]
    exact .wait _ (confines_spawned b s steps).rests

end Session

end HeapRefs
