import HeapRefs.Proofs.Session.Replies
import HeapRefs.Proofs.Session.Turn

/-! # Histories

All operations of a run follow one another on what the threads share, whichever thread takes them.
What a thread starts with, and neither its own operations nor those of others end, holds in every
state in which an operation is taken.
-/

namespace HeapRefs.Session

/-- An operation and the state in which a thread takes it. -/
structure Taken where
  state : State
  op : Op

def Taken.effect (b : Build) (x : Taken) : Effect := x.op.apply b x.state

mutual

/-- The operations of a step, those of spawned threads included, in order. -/
def Step.taken (b : Build) (s : State) : Step → List Taken
  | .op operation => [⟨s, operation⟩]
  | .spawn session => allTaken b (.start s.shared s.thread.next) session

def allTaken (b : Build) (s : State) : List Step → List Taken
  | [] => []
  | step :: rest => step.taken b s ++ allTaken b (step.run b s).2 rest

end

mutual

/-- The outcomes and the logs of the operations that a reply tells of, in order. -/
def Reply.shown : Reply → List (Outcome × List Record)
  | .step outcome log _ => [(outcome, log)]
  | .spawned replies _ _ => allShown replies

def allShown : List Reply → List (Outcome × List Record)
  | [] => []
  | reply :: replies => reply.shown ++ allShown replies

end

mutual

/-- All that is recorded, also as threads end, in order. -/
def Reply.records : Reply → List Record
  | .step _ log _ => log
  | .spawned replies ending _ => allRecords replies ++ ending

def allRecords : List Reply → List Record
  | [] => []
  | reply :: replies => reply.records ++ allRecords replies

end

/-- Each operation finds shared what the one before it left. -/
inductive History (b : Build) : Shared → List Taken → Shared → Prop
  | nil (shared : Shared) : History b shared [] shared
  | cons {shared after : Shared} {x : Taken} {xs : List Taken} :
      x.state.shared = shared → History b (x.effect b).state.shared xs after →
      History b shared (x :: xs) after

variable {b : Build} {s : State} {shared after : Shared} {xs ys : List Taken}

namespace History

variable {between : Shared}

theorem append (h : History b shared xs between) (h' : History b between ys after) :
    History b shared (xs ++ ys) after := by
  induction h with
  | nil => exact h'
  | cons hx _ ih => exact .cons hx (ih h')

theorem of_append (h : History b shared (xs ++ ys) after) :
    ∃ between, History b shared xs between ∧ History b between ys after := by
  induction xs generalizing shared with
  | nil => exact ⟨shared, .nil shared, h⟩
  | cons x xs ih =>
    cases h with
    | cons hx h =>
      obtain ⟨between, hxs, hys⟩ := ih h
      exact ⟨between, .cons hx hxs, hys⟩

end History

theorem State.shared_finish (s : State) : s.finish.2.shared = s.shared := by
  refine s.finish_induction (motive := fun t => t.shared = s.shared) ?_ fun t v ht => ht
  have idle : Idle s fun e => e.state.shared = s.shared := ⟨fun _ => rfl, fun _ _ => rfl⟩
  exact idle.withContext fun c _ _ => rfl

/-- The operations lead from one shared state to the other, and their effects are shown. -/
structure Traces (b : Build) (shared : Shared) (xs : List Taken)
    (shown : List (Outcome × List Record)) (after : Shared) : Prop where
  history : History b shared xs after
  shown_eq : shown = xs.map fun x => ((x.effect b).outcome, (x.effect b).log)

theorem Traces.nil (b : Build) (shared : Shared) : Traces b shared [] [] shared := ⟨.nil _, rfl⟩

theorem Traces.append {between : Shared} {shown shown' : List (Outcome × List Record)}
    (h : Traces b shared xs shown between) (h' : Traces b between ys shown' after) :
    Traces b shared (xs ++ ys) (shown ++ shown') after where
  history := h.history.append h'.history
  shown_eq := by rw [List.map_append, h.shown_eq, h'.shown_eq]

mutual

theorem Step.traces (b : Build) (s : State) (step : Step) :
    Traces b s.shared (step.taken b s) (step.run b s).1.shown (step.run b s).2.shared := by
  cases step with
  | op operation =>
    simp only [Step.taken, Step.run, Reply.shown]
    exact ⟨.cons rfl (.nil _), rfl⟩
  | spawn session =>
    have h := traces_runSteps b (.start s.shared s.thread.next) session
    simp only [Step.taken, Step.run, Reply.shown, State.shared_finish]
    exact h

theorem traces_runSteps (b : Build) (s : State) (session : List Step) :
    Traces b s.shared (allTaken b s session) (allShown (runSteps b s session).1)
      (runSteps b s session).2.shared := by
  cases session with
  | nil =>
    simp only [allTaken, runSteps, allShown]
    exact .nil b s.shared
  | cons step rest =>
    simp only [allTaken, runSteps, allShown]
    exact (step.traces b s).append (traces_runSteps b _ rest)

end

section

variable {α : Type} {f : Record → Option α}

mutual

theorem Step.filterMap_records (hf : ∀ s : State, s.finish.1.filterMap f = []) (s : State)
    (step : Step) :
    (step.run b s).1.records.filterMap f =
      ((step.taken b s).flatMap fun x => (x.effect b).log).filterMap f := by
  cases step with
  | op operation =>
    simp only [Step.run, Reply.records, Step.taken, List.flatMap_singleton]
    rfl
  | spawn session =>
    have h := filterMap_allRecords hf (.start s.shared s.thread.next) session
    simp only [Step.run, Reply.records, Step.taken, List.filterMap_append, hf, List.append_nil]
    exact h

/-- What is never recorded as a thread ends is recorded by the operations alone. -/
theorem filterMap_allRecords (hf : ∀ s : State, s.finish.1.filterMap f = []) (s : State)
    (session : List Step) :
    (allRecords (runSteps b s session).1).filterMap f =
      ((allTaken b s session).flatMap fun x => (x.effect b).log).filterMap f := by
  cases session with
  | nil => simp only [runSteps, allRecords, allTaken, List.flatMap_nil]
  | cons step rest =>
    simp only [runSteps, allRecords, allTaken, List.filterMap_append, List.flatMap_append]
    rw [step.filterMap_records hf s, filterMap_allRecords hf _ rest]

end

end

/-- A property that threads start with and keep, in their own operations, while they wait, and in
the operations of others, which change only what is shared. -/
structure Stable (b : Build) (P : State → Prop) : Prop where
  start : ∀ shared thread, P (.start shared thread)
  apply : ∀ {s} (op : Op), P s → P (op.apply b s).state
  wait : ∀ {s thread}, s.thread.Rests thread → P s → P { s with thread }
  share : ∀ {s t} (op : Op), P t → t.shared = s.shared →
    P { t with shared := (op.apply b s).state.shared }

namespace Stable

variable {P : State → Prop}

/-- Whoever takes no part in a history keeps the property. -/
theorem history (hs : Stable b P) (h : History b shared xs after) {t : State} (ht : P t)
    (heq : t.shared = shared) : P { t with shared := after } := by
  induction h generalizing t with
  | nil => exact heq ▸ ht
  | @cons shared after x xs hx _ ih =>
    have hnext := hs.share x.op ht (heq.trans hx.symm)
    exact (ih hnext rfl :)

theorem others (hs : Stable b P) (h : History b shared xs after) {t : State} (ht : P t)
    (heq : t.shared = shared) {thread : Thread} (hr : t.thread.Rests thread) :
    P { t with shared := after, thread } :=
  hs.wait (s := { t with shared := after }) hr (hs.history h ht heq)

theorem run (hs : Stable b P) (h : P s) (step : Step) : P (step.run b s).2 := by
  cases step with
  | op operation =>
    simp only [Step.run]
    exact hs.apply operation h
  | spawn session =>
    have hrests := (confines_spawned b s session).rests
    have htraces := traces_runSteps b (.start s.shared s.thread.next) session
    simp only [Step.run, State.shared_finish]
    exact hs.others htraces.history h rfl hrests

theorem runSteps (hs : Stable b P) (h : P s) (session : List Step) :
    P (runSteps b s session).2 := by
  induction session generalizing s with
  | nil =>
    simp only [Session.runSteps]
    exact h
  | cons step rest ih =>
    simp only [Session.runSteps]
    exact ih (hs.run h step)

mutual

theorem taken (hs : Stable b P) {s : State} (h : P s) (step : Step) :
    ∀ x ∈ step.taken b s, P x.state := by
  cases step with
  | op operation =>
    simp only [Step.taken]
    exact List.forall_mem_singleton.mpr h
  | spawn session =>
    simp only [Step.taken]
    exact hs.allTaken (hs.start s.shared s.thread.next) session

theorem allTaken (hs : Stable b P) {s : State} (h : P s) (session : List Step) :
    ∀ x ∈ allTaken b s session, P x.state := by
  cases session with
  | nil =>
    simp only [Session.allTaken]
    exact List.forall_mem_nil _
  | cons step rest =>
    simp only [Session.allTaken]
    exact List.forall_mem_append.mpr ⟨hs.taken h step, hs.allTaken (hs.run h step) rest⟩

end

section

variable {Q : Record → Prop}

mutual

theorem records (hs : Stable b P)
    (hop : ∀ {s} (op : Op), P s → ∀ r ∈ (op.apply b s).log, Q r)
    (hfinish : ∀ {s : State}, P s → ∀ r ∈ s.finish.1, Q r) {s : State} (h : P s) (step : Step) :
    ∀ r ∈ (step.run b s).1.records, Q r := by
  cases step with
  | op operation =>
    simp only [Step.run, Reply.records]
    exact hop operation h
  | spawn session =>
    have hstart := hs.start s.shared s.thread.next
    simp only [Step.run, Reply.records]
    exact List.forall_mem_append.mpr
      ⟨hs.allRecords hop hfinish hstart session, hfinish (hs.runSteps hstart session)⟩

theorem allRecords (hs : Stable b P)
    (hop : ∀ {s} (op : Op), P s → ∀ r ∈ (op.apply b s).log, Q r)
    (hfinish : ∀ {s : State}, P s → ∀ r ∈ s.finish.1, Q r) {s : State} (h : P s)
    (session : List Step) : ∀ r ∈ allRecords (Session.runSteps b s session).1, Q r := by
  cases session with
  | nil =>
    simp only [Session.runSteps, Session.allRecords]
    exact List.forall_mem_nil _
  | cons step rest =>
    simp only [Session.runSteps, Session.allRecords]
    exact List.forall_mem_append.mpr
      ⟨hs.records hop hfinish h step, hs.allRecords hop hfinish (hs.run h step) rest⟩

end

end

end Stable

end HeapRefs.Session
