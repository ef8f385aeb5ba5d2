import HeapRefs.Proofs.Session.Replies
import HeapRefs.Proofs.Thread.Parts

/-! # Plain sessions

A plain session uses direct references only and leaves checking off, so that nothing is ever
registered. Every state, reply and session has a plain one, in which slots, registrations and the
setting are forgotten, with what depends on them: what the registry lists and logs, whether a poll
passes, and the name of the representation in a fault.
-/

namespace HeapRefs

def Reference.plain (r : Reference) : Reference := .direct r.address

def View.plain (v : View) : View := { v with reference := v.reference.plain }

def Context.plain (c : Context) : Context := { c with registry := .empty }

def ContextCell.plain : ContextCell → ContextCell
  | vacant => vacant
  | present c => present c.plain
  | borrowed c => borrowed c.plain

def ThreadLocal.map {α β : Type} (f : α → β) (v : ThreadLocal α) : ThreadLocal β :=
  ⟨fun i => f (v.get i)⟩

def Storage.plain (s : Storage) : Storage where
  current := s.current.map ContextCell.plain
  nextSlot := .const 0
  nextStamp := s.nextStamp

def Thread.plain (t : Thread) : Thread := ⟨t.id, t.storage.plain⟩

def Shared.plain (s : Shared) : Shared := { s with checking := false }

def Fault.plain : Fault → Fault
  | .wrongKind _ address actual expected => .wrongKind .direct address actual expected
  | f => f

/-- Events of the registry have no plain event. -/
def Event.plain? : Event → Option Event
  | .installed _ => some (.installed .default)
  | .leftRegistered .. | .leftEntries _ | .unhandled .. => none
  | .attached name => some (.attached name)
  | .detached name => some (.detached name)
  | .codecInstalled c => some (.codecInstalled c)

def Record.plain? (r : Record) : Option Record := r.event.plain?.map fun e => ⟨e, r.seen⟩

def plainLog (log : List Record) : List Record := log.filterMap Record.plain?

namespace Session

def Build.plain (b : Build) : Build := { b with managed := .direct }

def Locals.plain (l : Locals) : Locals := { l with views := l.views.map View.plain }

def State.plain (s : State) : State := ⟨s.shared.plain, s.thread.plain, s.locals.plain⟩

def Counts.plain (c : Counts) : Counts := { c with registered := 0 }

def Answer.plain : Answer → Answer
  | .status seen _ name? => .status seen false name?
  | .entries _ => .entries []
  | .view v => .view v.plain
  | a => a

/-- A plain poll passes, as nothing is registered. -/
def Outcome.plain : Outcome → Outcome
  | .done a => .done a.plain
  | .failed (.fault (.unhandled ..)) => .done (.done .passed)
  | .failed (.fault f) => .failed (.fault f.plain)
  | o => o

/-- Installing any settings has become installing the defaults. -/
def ThreadOp.plain : ThreadOp → ThreadOp
  | .install _ => .install .default
  | .installVariable value? =>
    match Settings.ofEnvironment fun _ => value? with
    | .error _ => .installVariable value?
    | .ok _ => .install .default
  | op => op

/-- Whichever representation was asked for, a managed reference is made. -/
def ReferenceOp.plain : ReferenceOp → ReferenceOp
  | .create target _ seed origin => .create target none seed origin
  | op => op

def Op.plain : Op → Op
  | .thread op => .thread op.plain
  | .reference op => .reference op.plain
  | op => op

/-- The plain outcome of an operation. Installing settings answers with the setting. -/
def Op.plainOutcome : Op → Outcome → Outcome
  | .thread (.install _), .done _ | .thread (.installVariable _), .done _ => .done (.truth false)
  | _, o => o.plain

mutual

def Step.plain : Step → Step
  | .op op => .op op.plain
  | .spawn steps => .spawn (plainSteps steps)

def plainSteps : List Step → List Step
  | [] => []
  | step :: steps => step.plain :: plainSteps steps

end

mutual

def Step.plainReply : Step → Reply → Reply
  | .op op, .step outcome log counts? =>
    .step (op.plainOutcome outcome) (plainLog log) (counts?.map Counts.plain)
  | .spawn steps, .spawned replies ending counts? =>
    .spawned (plainReplies steps replies) (plainLog ending) (counts?.map Counts.plain)
  | _, reply => reply

def plainReplies : List Step → List Reply → List Reply
  | step :: steps, reply :: replies => step.plainReply reply :: plainReplies steps replies
  | _, replies => replies

end

end Session

/-! ### What the plain form keeps -/

@[simp] theorem View.address_plain (v : View) : v.plain.address = v.address := rfl

@[simp] theorem View.kind?_plain (v : View) : v.plain.kind? = v.kind? := rfl

@[simp] theorem Context.anchors_plain (c : Context) : c.plain.anchors = c.anchors := rfl

@[simp] theorem Session.Build.asserts_plain (b : Build) : b.plain.asserts = b.asserts := rfl

@[simp] theorem Session.Build.platform_plain (b : Build) : b.plain.platform = b.platform := rfl

theorem ThreadLocal.map_set {α β : Type} (f : α → β) (v : ThreadLocal α) (i : ThreadId) (a : α) :
    (v.set i a).map f = (v.map f).set i (f a) := by
  simp only [map, set, mk.injEq]
  funext k
  split <;> rfl

theorem ThreadLocal.set_const {α : Type} (i : ThreadId) (a : α) : (const a).set i a = const a := by
  simp only [const, set, ite_self]

namespace Thread

variable (t : Thread) (c : Context)

@[simp] theorem cell_plain : t.plain.cell = t.cell.plain := rfl

@[simp] theorem context?_plain : t.plain.context? = t.context?.map Context.plain := by
  rw [context?, context?, cell_plain]
  cases t.cell <;> rfl

theorem plain_setCell (cell : ContextCell) :
    (t.setCell cell).plain = t.plain.setCell cell.plain := by
  simp only [plain, setCell, Storage.plain, ThreadLocal.map_set]

theorem plain_setContext : (t.setContext c).plain = t.plain.setContext c.plain :=
  t.plain_setCell _

theorem plain_start : t.start.plain = t.plain.start := by
  simp only [plain, start, Storage.plain, Storage.start, ThreadLocal.map_set,
    ThreadLocal.set_const]
  rfl

theorem plain_anchor (a : UInt64) :
    (t.anchor c a).1 = (t.plain.anchor c.plain a).1 ∧
      (t.anchor c a).2.plain = (t.plain.anchor c.plain a).2 :=
  ⟨rfl, t.advanceStamp.plain_setContext _⟩

end Thread

namespace Session.State

variable (s : State)

@[simp] theorem heap_plain : s.plain.shared.heap = s.shared.heap := rfl

@[simp] theorem codec?_plain : s.plain.shared.codec? = s.shared.codec? := rfl

@[simp] theorem context?_plain :
    s.plain.thread.context? = s.thread.context?.map Context.plain :=
  s.thread.context?_plain

@[simp] theorem guard?_plain : s.plain.locals.guard? = s.locals.guard? := rfl

@[simp] theorem get?_views_plain (name : String) :
    s.plain.locals.views.get? name = (s.locals.views.get? name).map View.plain :=
  Bindings.get?_map ..

@[simp] theorem handles_plain : s.plain.locals.handles = s.locals.handles := rfl

@[simp] theorem marks_plain : s.plain.locals.marks = s.locals.marks := rfl

@[simp] theorem codecs_plain : s.plain.locals.codecs = s.locals.codecs := rfl

@[simp] theorem word?_plain : s.plain.word? = s.word? := rfl

end Session.State

/-! ### Registering and destroying leave no trace in plain threads -/

namespace Thread

variable (t : Thread)

@[simp] theorem plain_mapRegistry (f : Registry → Registry) :
    (t.mapRegistry f).plain = t.plain := by
  unfold mapRegistry mapContext
  cases hc : t.context? with
  | none => rfl
  | some c =>
    rw [plain_setContext]
    exact setContext_self (by rw [context?_plain, hc]; rfl)

@[simp] theorem plain_destroy (r : Reference) : (t.destroy r).plain = t.plain := by
  rw [destroy_eq, plain_mapRegistry]

@[simp] theorem plain_allow (r : Reference) : (t.allow r).plain = t.plain := by
  rw [allow_eq, plain_mapRegistry]

@[simp] theorem plain_create (checking : Bool) (representation : Representation)
    (address : UInt64) (origin : Origin) :
    (t.create checking representation address origin).2.plain = t.plain := by
  by_cases hr : t.Registers checking representation address
  · rw [create_of_registers hr]
    exact t.advanceSlot.plain_mapRegistry _
  · rw [(create_of_not_registers hr origin).2]

@[simp] theorem observe_plain : t.plain.observe = t.observe := by
  unfold observe
  rw [context?_plain]
  cases t.context? <;> rfl

end Thread

namespace Session.State

variable (s : State)

@[simp] theorem plain_destroy (v : View) : (s.destroy v).plain = s.plain :=
  congrArg (State.mk _ · _) (s.thread.plain_destroy v.reference)

@[simp] theorem plain_unbind (name : String) : (s.unbind name).plain = s.plain.unbind name := by
  simp only [plain, unbind, Locals.plain, Bindings.map_erase]

@[simp] theorem plain_bind (name : String) (v : View) :
    (s.bind name v).plain = s.plain.bind name v.plain := by
  have hd (old : View) : s.plain.destroy old.plain = s.plain := rfl
  have hs (t : State) :
      State.plain { t with locals := { t.locals with views := t.locals.views.set name v } } =
        { t.plain with
          locals := { t.plain.locals with views := t.plain.locals.views.set name v.plain } } := by
    simp only [plain, Locals.plain, Bindings.map_set]
  unfold bind
  rw [get?_views_plain]
  cases s.locals.views.get? name with
  | none => exact hs s
  | some old =>
    rw [Option.map_some]
    dsimp only
    rw [hd, ← s.plain_destroy old]
    exact hs (s.destroy old)

theorem plain_create (representation : Representation) (address : UInt64) (origin : Origin) :
    (s.create representation address origin).1.plain = .direct address ∧
      (s.create representation address origin).2.plain = s.plain := by
  refine ⟨?_, congrArg (State.mk _ · _) (s.thread.plain_create ..)⟩
  exact congrArg Reference.direct (Thread.address_create ..)

@[simp] theorem record_plain (e : Event) : s.plain.record e = s.record e :=
  congrArg (Record.mk e) s.thread.observe_plain

theorem plainLog_record {e e' : Event} (he : e.plain? = some e') (s : State) :
    plainLog [s.record e] = [s.plain.record e'] := by
  rw [record_plain]
  simp [plainLog, Record.plain?, State.record, Thread.record, he]

theorem narrowFault?_plain (b : Build) (r : Reference) (kind : ObjectKind) :
    s.plain.narrowFault? b.plain r.plain kind =
      (s.narrowFault? b r kind).map (Option.map Fault.plain) := by
  have hb : (b.plain.asserts && !r.plain.isNull) = (b.asserts && !r.isNull) := rfl
  have hk : s.plain.shared.heap.kindAt? r.plain.address = s.shared.heap.kindAt? r.address := rfl
  rw [narrowFault?, narrowFault?, hb, hk]
  split
  · cases s.shared.heap.kindAt? r.address with
    | none => rfl
    | some actual =>
      dsimp only
      split <;> rfl
  · rfl

theorem plain_foldl_destroy (views : List View) (s : State) :
    (views.foldl destroy s).plain = s.plain := by
  induction views generalizing s with
  | nil => rfl
  | cons v views ih => rw [List.foldl_cons, ih, plain_destroy]

theorem foldl_destroy_plain (views : List View) (s : State) :
    (views.map View.plain).foldl destroy s = s := by
  induction views with
  | nil => rfl
  | cons v views ih => exact ih

@[simp] theorem counts?_plain : s.plain.counts? = s.counts?.map Counts.plain := by
  unfold counts?
  rw [guard?_plain, context?_plain]
  cases s.locals.guard? <;> cases s.thread.context? <;> rfl

end Session.State

end HeapRefs
