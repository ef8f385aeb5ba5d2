import HeapRefs.Session.Run

/-! # Replies of sessions

A session gives one reply for each of its steps; those of a spawned session are part of one. What is
asked of the outcomes of a session is asked of the spawned ones as well.
-/

namespace HeapRefs.Session

mutual

/-- The outcome of a reply passes a test, or all outcomes do of a spawned session. -/
def Reply.all (p : Outcome → Bool) : Reply → Bool
  | .step outcome _ _ => p outcome
  | .spawned replies _ _ => allReplies p replies

def allReplies (p : Outcome → Bool) : List Reply → Bool
  | [] => true
  | reply :: replies => reply.all p && allReplies p replies

end

/-- What an operation of the thread itself answers. -/
def Reply.taken? : Reply → Option (Outcome × List Record × Option Counts)
  | .step outcome log counts? => some (outcome, log, counts?)
  | .spawned .. => none

theorem Reply.eq_of_taken? {reply : Reply} {outcome : Outcome} {log : List Record}
    {counts? : Option Counts} (h : reply.taken? = some (outcome, log, counts?)) :
    reply = .step outcome log counts? := by
  cases reply with
  | step => cases h; rfl
  | spawned => cases h

variable {b : Build} {s : State} {p : Outcome → Bool}

theorem allReplies_cons {reply : Reply} {replies : List Reply} :
    allReplies p (reply :: replies) = true ↔
      reply.all p = true ∧ allReplies p replies = true := by
  rw [allReplies, Bool.and_eq_true]

theorem runSteps_cons (b : Build) (s : State) (step : Step) (steps : List Step) :
    runSteps b s (step :: steps) =
      ((step.run b s).1 :: (runSteps b (step.run b s).2 steps).1,
        (runSteps b (step.run b s).2 steps).2) := by
  simp only [runSteps]

theorem take_replies (n : Nat) (steps : List Step) :
    (runSteps b s steps).1.take n = (runSteps b s (steps.take n)).1 := by
  induction steps generalizing n s with
  | nil => simp [runSteps]
  | cons step steps ih =>
    cases n with
    | zero => simp [runSteps]
    | succ n => rw [List.take_succ_cons, runSteps_cons, runSteps_cons, List.take_succ_cons, ih]

/-- A property that threads start with and keep in all their steps. -/
structure Invariant (b : Build) (P : State → Prop) : Prop where
  start : ∀ shared thread, P (.start shared thread)
  run : ∀ {s} (step : Step), P s → P (step.run b s).2

mutual

theorem Invariant.run_all {P : State → Prop} (h : Invariant b P)
    (hop : ∀ {s} (op : Op), P s → p (op.apply b s).outcome = true) {s : State} (hs : P s)
    (step : Step) : (step.run b s).1.all p = true := by
  cases step with
  | op operation =>
    simp only [Step.run, Reply.all]
    exact hop operation hs
  | spawn steps =>
    simp only [Step.run, Reply.all]
    exact h.runSteps_all hop (h.start s.shared s.thread.next) steps

/-- If every operation passes a test where the invariant holds, all outcomes of a run pass it, and
so do those of the sessions that it spawns. -/
theorem Invariant.runSteps_all {P : State → Prop} (h : Invariant b P)
    (hop : ∀ {s} (op : Op), P s → p (op.apply b s).outcome = true) {s : State} (hs : P s)
    (steps : List Step) : allReplies p (runSteps b s steps).1 = true := by
  cases steps with
  | nil => simp only [runSteps, allReplies]
  | cons step steps =>
    rw [runSteps_cons]
    exact allReplies_cons.mpr ⟨h.run_all hop hs step, h.runSteps_all hop (h.run step hs) steps⟩

end

end HeapRefs.Session
