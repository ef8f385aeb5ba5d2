import HeapRefs.Proofs.Session.History

/-! # Schedules

The threads of a process take turns in any order, and spawned threads take theirs within a turn.
All threads find their thread-local variables in one storage.
-/

namespace HeapRefs.Session

/-- What all threads share, the storage of their thread-local variables, and the variables that each
has for itself. The threads that nobody has spawned are numbered. -/
structure Process where
  shared : Shared
  storage : Storage
  locals : Nat → Locals

namespace Process

def fresh (shared : Shared) : Process := ⟨shared, .empty, fun _ => .fresh⟩

def threadOf (p : Process) (i : Nat) : Thread := ⟨⟨i, 0⟩, p.storage⟩

def stateOf (p : Process) (i : Nat) : State := ⟨p.shared, p.threadOf i, p.locals i⟩

def update (p : Process) (i : Nat) (s : State) : Process where
  shared := s.shared
  storage := s.thread.storage
  locals k := if k = i then s.locals else p.locals k

def run (b : Build) (p : Process) : List (Nat × Step) → List Reply × Process
  | [] => ([], p)
  | (i, step) :: turns =>
    let (reply, s) := step.run b (p.stateOf i)
    let (replies, p) := (p.update i s).run b turns
    (reply :: replies, p)

def operations (b : Build) (p : Process) : List (Nat × Step) → List Taken
  | [] => []
  | (i, step) :: turns =>
    let s := p.stateOf i
    step.taken b s ++ (p.update i (step.run b s).2).operations b turns

variable {b : Build} {p : Process} {P : State → Prop}

theorem traces_run (b : Build) (p : Process) (turns : List (Nat × Step)) :
    Traces b p.shared (p.operations b turns) (allShown (p.run b turns).1)
      (p.run b turns).2.shared := by
  induction turns generalizing p with
  | nil => exact .nil b p.shared
  | cons turn turns ih =>
    exact (turn.2.traces b (p.stateOf turn.1)).append (ih (p.update turn.1 _))

theorem filterMap_records {α : Type} {f : Record → Option α}
    (hf : ∀ s : State, s.finish.1.filterMap f = []) (p : Process) (turns : List (Nat × Step)) :
    (allRecords (p.run b turns).1).filterMap f =
      ((p.operations b turns).flatMap fun x => (x.effect b).log).filterMap f := by
  induction turns generalizing p with
  | nil => simp only [run, allRecords, operations, List.flatMap_nil]
  | cons turn turns ih =>
    simp only [run, allRecords, operations, List.filterMap_append, List.flatMap_append]
    rw [turn.2.filterMap_records hf, ih]

theorem stateOf_update_self {i : Nat} {s : State} (h : s.thread.id = ⟨i, 0⟩) :
    (p.update i s).stateOf i = s := by
  have hlocals : (p.update i s).locals i = s.locals := if_pos rfl
  rw [stateOf, threadOf, ← h, hlocals]
  rfl

theorem stateOf_update_of_ne {i k : Nat} (hk : k ≠ i) (s : State) :
    (p.update i s).stateOf k =
      { p.stateOf k with shared := s.shared, thread := (p.threadOf k).join s.thread } := by
  have hlocals : (p.update i s).locals k = p.locals k := if_neg hk
  rw [stateOf, hlocals]
  rfl

def All (P : State → Prop) (p : Process) : Prop := ∀ i, P (p.stateOf i)

namespace All

theorem fresh (hs : Stable b P) (shared : Shared) : All P (.fresh shared) := by
  intro i
  have h : (Process.fresh shared).stateOf i = .start shared ⟨⟨i, 0⟩, .empty⟩ := by
    rw [State.start, Thread.start, Storage.start_empty]
    rfl
  exact h ▸ hs.start shared _

theorem update (hs : Stable b P) (h : p.All P) (i : Nat) (step : Step) :
    (p.update i (step.run b (p.stateOf i)).2).All P := by
  intro k
  have hconfines := step.confines b (p.stateOf i)
  by_cases hk : k = i
  · subst hk
    rw [stateOf_update_self hconfines.id]
    exact hs.run (h k) step
  · have hspawns : ¬ (p.threadOf i).id.Spawns (p.threadOf k).id := fun hn => hk hn.1
    have hrests : (p.threadOf k).Rests ((p.threadOf k).join (step.run b (p.stateOf i)).2.thread) :=
      ⟨rfl, hconfines.others _ hspawns⟩
    rw [stateOf_update_of_ne hk]
    exact hs.others (step.traces b (p.stateOf i)).history (h k) rfl hrests

theorem operations (hs : Stable b P) (h : p.All P) (turns : List (Nat × Step)) :
    ∀ x ∈ p.operations b turns, P x.state := by
  induction turns generalizing p with
  | nil => exact List.forall_mem_nil _
  | cons turn turns ih =>
    exact List.forall_mem_append.mpr
      ⟨hs.taken (h turn.1) turn.2, ih (h.update hs turn.1 turn.2)⟩

theorem records (hs : Stable b P) {Q : Record → Prop}
    (hop : ∀ {s} (op : Op), P s → ∀ r ∈ (op.apply b s).log, Q r)
    (hfinish : ∀ {s : State}, P s → ∀ r ∈ s.finish.1, Q r) (h : p.All P)
    (turns : List (Nat × Step)) : ∀ r ∈ allRecords (p.run b turns).1, Q r := by
  induction turns generalizing p with
  | nil => exact List.forall_mem_nil _
  | cons turn turns ih =>
    exact List.forall_mem_append.mpr
      ⟨hs.records hop hfinish (h turn.1) turn.2, ih (h.update hs turn.1 turn.2)⟩

end All

end Process

end HeapRefs.Session
