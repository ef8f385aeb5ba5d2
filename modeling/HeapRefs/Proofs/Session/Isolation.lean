import HeapRefs.Proofs.Session.Replies
import HeapRefs.Proofs.Session.Turn

/-! # Isolation of threads

Whatever an operation looks up or changes of the thread-local variables belongs to its own thread.
So an operation does the same if there are no other threads, and then so does a session with all
that it spawns.
-/

namespace HeapRefs

namespace Thread

/-- The thread as if there were no others: its variables are alone in the storage. -/
def alone (t : Thread) : Thread where
  id := main.id
  storage :=
    { current := Storage.empty.current.set main.id t.cell
      nextSlot := Storage.empty.nextSlot.set main.id t.nextSlot
      nextStamp := Storage.empty.nextStamp.set main.id t.nextStamp }

variable (t : Thread) (c : Context)

@[simp] theorem cell_alone : t.alone.cell = t.cell := ThreadLocal.get_set_self ..

@[simp] theorem nextSlot_alone : t.alone.nextSlot = t.nextSlot := ThreadLocal.get_set_self ..

@[simp] theorem nextStamp_alone : t.alone.nextStamp = t.nextStamp := ThreadLocal.get_set_self ..

@[simp] theorem context?_alone : t.alone.context? = t.context? := by
  rw [context?, cell_alone]
  rfl

@[simp] theorem observe_alone : t.alone.observe = t.observe := by
  simp only [observe, context?_alone]

@[simp] theorem record_alone (e : Event) : t.alone.record e = t.record e := by
  rw [record, observe_alone]
  rfl

theorem alone_eq_of_row_eq {t t' : Thread} (h : t.row = t'.row) : t.alone = t'.alone := by
  have hcell : t.cell = t'.cell := congrArg Row.cell h
  have hslot : t.nextSlot = t'.nextSlot := congrArg Row.nextSlot h
  have hstamp : t.nextStamp = t'.nextStamp := congrArg Row.nextStamp h
  rw [alone, alone, hcell, hslot, hstamp]

/-! What the thread does to its variables, it does alone. -/

theorem setCell_alone (cell : ContextCell) : t.alone.setCell cell = (t.setCell cell).alone := by
  simp only [alone, cell_setCell, nextSlot_setCell, nextStamp_setCell]
  simp only [setCell, ThreadLocal.set_set]

theorem setContext_alone : t.alone.setContext c = (t.setContext c).alone := t.setCell_alone _

theorem advanceSlot_alone : t.alone.advanceSlot = t.advanceSlot.alone := by
  have hcell : t.advanceSlot.cell = t.cell := rfl
  rw [advanceSlot, nextSlot_alone, alone, alone, nextSlot_advanceSlot, nextStamp_advanceSlot, hcell]
  simp only [ThreadLocal.set_set]

theorem advanceStamp_alone : t.alone.advanceStamp = t.advanceStamp.alone := by
  have hcell : t.advanceStamp.cell = t.cell := rfl
  rw [advanceStamp, nextStamp_alone, alone, alone, nextStamp_advanceStamp, nextSlot_advanceStamp,
    hcell]
  simp only [ThreadLocal.set_set]

theorem mapContext_alone (f : Context → Context) :
    t.alone.mapContext f = (t.mapContext f).alone := by
  unfold mapContext
  rw [context?_alone]
  cases t.context? with
  | none => rfl
  | some c => exact t.setContext_alone _

theorem register_alone (checking : Bool) (address : UInt64) (origin : Origin) :
    t.alone.register checking address origin =
      ((t.register checking address origin).1, (t.register checking address origin).2.alone) := by
  unfold register
  rw [context?_alone, nextSlot_alone, advanceSlot_alone]
  cases checking with
  | false => rfl
  | true =>
    cases t.context? with
    | none => rfl
    | some c => exact congrArg _ (setContext_alone ..)

theorem create_alone (checking : Bool) (representation : Representation) (address : UInt64)
    (origin : Origin) :
    t.alone.create checking representation address origin =
      ((t.create checking representation address origin).1,
        (t.create checking representation address origin).2.alone) := by
  unfold create
  cases representation with
  | direct => rfl
  | checked =>
    dsimp only
    split
    · rfl
    · rw [register_alone]

theorem destroy_alone (r : Reference) : t.alone.destroy r = (t.destroy r).alone := by
  unfold destroy
  cases r.slot? with
  | none => rfl
  | some slot => exact t.mapContext_alone _

theorem allow_alone (r : Reference) : t.alone.allow r = (t.allow r).alone := by
  unfold allow
  cases r.slot? with
  | none => rfl
  | some slot => exact t.mapContext_alone _

theorem attach_alone (name : String) :
    t.alone.attach name = (t.attach name).map Thread.alone := by
  unfold attach
  rw [cell_alone]
  cases t.cell with
  | vacant => exact congrArg Except.ok (t.setContext_alone _)
  | present c => rfl
  | borrowed c => rfl

theorem detach_alone : t.alone.detach c = ((t.detach c).1, (t.detach c).2.alone) := by
  rw [detach_eq, detach_eq, setCell_alone]

theorem anchor_alone (address : UInt64) :
    t.alone.anchor c address = ((t.anchor c address).1, (t.anchor c address).2.alone) := by
  unfold anchor
  rw [nextStamp_alone, advanceStamp_alone]
  exact congrArg _ (setContext_alone ..)

theorem poll_alone : t.alone.poll c = ((t.poll c).1, (t.poll c).2.1, (t.poll c).2.2.alone) := by
  rw [poll_eq, poll_eq, setContext_alone]

end Thread

namespace Session

/-- The state as if there were no other threads. -/
def State.alone (s : State) : State := { s with thread := s.thread.alone }

def Effect.alone (e : Effect) : Effect := { e with state := e.state.alone }

variable {b : Build} {s : State} {name : String}

namespace State

@[simp] theorem shared_alone (s : State) : s.alone.shared = s.shared := rfl

@[simp] theorem thread_alone (s : State) : s.alone.thread = s.thread.alone := rfl

@[simp] theorem locals_alone (s : State) : s.alone.locals = s.locals := rfl

@[simp] theorem record_alone (s : State) (e : Event) : s.alone.record e = s.record e :=
  s.thread.record_alone e

@[simp] theorem counts?_alone (s : State) : s.alone.counts? = s.counts? := by
  simp only [counts?, locals_alone, thread_alone, Thread.context?_alone]

theorem create_alone (representation : Representation) (address : UInt64) (origin : Origin) :
    s.alone.create representation address origin =
      ((s.create representation address origin).1,
        (s.create representation address origin).2.alone) := by
  rw [create, thread_alone, Thread.create_alone]
  rfl

theorem destroy_alone (s : State) (v : View) : s.alone.destroy v = (s.destroy v).alone := by
  rw [destroy, thread_alone, Thread.destroy_alone]
  rfl

theorem bind_alone (s : State) (v : View) : s.alone.bind name v = (s.bind name v).alone := by
  unfold bind
  rw [locals_alone]
  cases s.locals.views.get? name with
  | none => rfl
  | some old => simp only [destroy_alone]; rfl

theorem bindDone_alone (s : State) (v : View) :
    s.alone.bindDone name v = (s.bindDone name v).alone := by
  rw [bindDone, bind_alone]
  rfl

theorem create_bindDone_alone (representation : Representation) (address : UInt64)
    (origin : Origin) (kind? : Option ObjectKind) :
    (s.alone.create representation address origin).2.bindDone name
        ⟨(s.alone.create representation address origin).1, kind?⟩ =
      ((s.create representation address origin).2.bindDone name
        ⟨(s.create representation address origin).1, kind?⟩).alone := by
  rw [create_alone]
  exact bindDone_alone _ _

/-! What an operation needs, it finds alone as well. -/

theorem word?_alone (s : State) (operand : Operand) : s.alone.word? operand = s.word? operand := by
  cases operand <;> rfl

theorem withWord_alone {operand : Operand} {k k' : UInt64 → Effect} (h : ∀ a, k' a = (k a).alone) :
    s.alone.withWord operand k' = (s.withWord operand k).alone := by
  rw [withWord, withWord, word?_alone]
  cases s.word? operand with
  | none => rfl
  | some a => exact h a

theorem withView_alone {k k' : View → Effect} (h : ∀ v, k' v = (k v).alone) :
    s.alone.withView name k' = (s.withView name k).alone := by
  rw [withView, withView, locals_alone]
  cases s.locals.views.get? name with
  | none => rfl
  | some v => exact h v

theorem withContext_alone {k k' : Context → Effect} (h : ∀ c, k' c = (k c).alone) :
    s.alone.withContext k' = (s.withContext k).alone := by
  rw [withContext, withContext, locals_alone, thread_alone, Thread.context?_alone]
  cases s.locals.guard? with
  | none => rfl
  | some guard =>
    cases s.thread.context? with
    | none => rfl
    | some c => exact h c

theorem withHandle_alone {k k' : Handle → Effect} (h : ∀ g, k' g = (k g).alone) :
    s.alone.withHandle name k' = (s.withHandle name k).alone := by
  rw [withHandle, withHandle, locals_alone]
  cases s.locals.handles.get? name with
  | none => rfl
  | some g => exact h g

theorem withCodec_alone {k k' : Codec → Effect} (h : ∀ c, k' c = (k c).alone) :
    s.alone.withCodec name k' = (s.withCodec name k).alone := by
  rw [withCodec, withCodec, locals_alone]
  cases s.locals.codecs.get? name with
  | none => rfl
  | some c => exact h c

theorem withObject_alone {k k' : View → Object → Effect} (h : ∀ v o, k' v o = (k v o).alone) :
    s.alone.withObject name k' = (s.withObject name k).alone := by
  refine withView_alone fun v => ?_
  rw [shared_alone]
  cases s.shared.heap.find? v.address with
  | none => rfl
  | some o => exact h v o

theorem withDescription_alone {k k' : Description → Effect} (h : ∀ d, k' d = (k d).alone) :
    s.alone.withDescription name k' = (s.withDescription name k).alone := by
  refine withObject_alone fun v o => ?_
  cases v.kind? with
  | none => rfl
  | some kind => exact h _

theorem alloc_alone (s : State) (allocator : Allocator) (size : Nat) (o : Object) :
    s.alone.alloc allocator name size o = (s.alloc allocator name size o).alone := by
  rw [alloc, alloc, shared_alone]
  cases s.shared.heap.alloc? allocator size o <;> rfl

theorem recorded_alone (s : State) (o : Outcome) (e : Event) :
    (⟨o, s.alone, [s.alone.record e]⟩ : Effect) = Effect.alone ⟨o, s, [s.record e]⟩ := by
  rw [record_alone]
  rfl

theorem install_alone (s : State) (settings : Settings) :
    s.alone.install settings = (s.install settings).alone :=
  recorded_alone { s with shared := { s.shared with checking := settings.checkUnhandled } } ..

end State

open State

theorem ThreadOp.alone (op : ThreadOp) : op.apply s.alone = (op.apply s).alone := by
  cases op with
  | attach name =>
    rw [apply, apply, thread_alone, Thread.attach_alone]
    cases s.thread.attach name with
    | error e => rfl
    | ok thread =>
      exact recorded_alone { s with thread, locals := { s.locals with guard? := some name } } ..
  | detach =>
    refine withContext_alone fun c => ?_
    rw [thread_alone, Thread.detach_alone]
    rfl
  | status =>
    rw [apply, thread_alone, Thread.observe_alone]
    rfl
  | poll =>
    refine withContext_alone fun c => ?_
    rw [thread_alone, Thread.poll_alone]
    rfl
  | entries => exact withContext_alone fun c => rfl
  | unhandled => exact withContext_alone fun c => rfl
  | install settings => exact s.install_alone settings
  | installVariable value? =>
    rw [apply, apply]
    cases Settings.ofEnvironment fun _ => value? with
    | error e => rfl
    | ok settings => exact s.install_alone settings

theorem ReferenceOp.alone (b : Build) (op : ReferenceOp) :
    op.apply b s.alone = (op.apply b s).alone := by
  cases op with
  | create target representation? seed origin =>
    cases seed with
    | address form operand => exact withWord_alone fun a => create_bindDone_alone ..
    | null => exact s.bindDone_alone _
  | clone target source origin => exact withView_alone fun v => create_bindDone_alone ..
  | move target source => exact withView_alone fun v => (s.unbind source).bindDone_alone v
  | drop name =>
    refine withView_alone fun v => ?_
    exact congrArg (State.done · _) ((s.unbind name).destroy_alone v)
  | forget name => exact withView_alone fun v => rfl
  | inspect name => exact withView_alone fun v => rfl
  | allow name =>
    refine withView_alone fun v => ?_
    rw [thread_alone, Thread.allow_alone]
    rfl
  | foreignSlot name => exact withView_alone fun v => rfl
  | compare left right =>
    refine withView_alone fun v => withView_alone fun w => ?_
    split <;> rfl
  | address name => exact withView_alone fun v => rfl
  | intoAddress name =>
    refine withView_alone fun v => ?_
    exact congrArg (State.done · _) ((s.unbind name).destroy_alone v)
  | typedNull target kind => exact s.bindDone_alone _
  | narrow target source kind =>
    refine withView_alone fun v => ?_
    have hfault : s.alone.narrowFault? b v.reference kind = s.narrowFault? b v.reference kind := rfl
    rw [hfault]
    split
    · cases s.narrowFault? b v.reference kind with
      | error why => rfl
      | ok fault? =>
        cases fault? with
        | none => exact (s.unbind source).bindDone_alone _
        | some f => exact congrArg (State.fault · f) ((s.unbind source).destroy_alone v)
    · rfl
  | widen target source kind =>
    refine withView_alone fun v => ?_
    cases v.kind? with
    | none => rfl
    | some own =>
      dsimp only
      split
      · exact (s.unbind source).bindDone_alone _
      · exact congrArg (State.fault · _) ((s.unbind source).destroy_alone v)
  | untype target source =>
    refine withView_alone fun v => ?_
    cases v.kind? with
    | none => rfl
    | some own => exact (s.unbind source).bindDone_alone _
  | cloneUntyped target source origin =>
    refine withView_alone fun v => ?_
    cases v.kind? with
    | none => rfl
    | some own => exact create_bindDone_alone ..

theorem HeapOp.alone (b : Build) (op : HeapOp) : op.apply b s.alone = (op.apply b s).alone := by
  cases op with
  | alloc name kind size descriptor? => exact s.alloc_alone ..
  | allocArray name kind n elementSize => exact s.alloc_alone ..
  | header name => exact withObject_alone fun v o => rfl
  | setMark name mark => exact withObject_alone fun v o => rfl
  | typedHeader name =>
    rw [apply, apply]
    exact withDescription_alone fun d => rfl
  | length name =>
    rw [apply, apply]
    refine withDescription_alone fun d => ?_
    cases d.length? <;> rfl

theorem HandleOp.alone (b : Build) (op : HandleOp) :
    op.apply b s.alone = (op.apply b s).alone := by
  cases op with
  | create target source =>
    refine withView_alone fun v => withContext_alone fun c => ?_
    rw [thread_alone, Thread.anchor_alone]
    rfl
  | resolve target handle origin =>
    refine withHandle_alone fun h => withContext_alone fun c => ?_
    split
    · rfl
    · exact create_bindDone_alone ..
  | address name => exact withHandle_alone fun h => withContext_alone fun c => rfl
  | equal left right => exact withHandle_alone fun h => withHandle_alone fun g => rfl
  | mark name =>
    refine withContext_alone fun c => ?_
    dsimp only
    rw [thread_alone, Thread.setContext_alone]
    rfl
  | release name =>
    rw [apply, apply, locals_alone]
    cases s.locals.marks.get? name with
    | none => rfl
    | some m =>
      refine withContext_alone fun c => ?_
      rw [thread_alone, Thread.setContext_alone]
      rfl
  | relocate source target =>
    refine withWord_alone fun a => withWord_alone fun d => withContext_alone fun c => ?_
    rw [thread_alone, Thread.setContext_alone]
    rfl

theorem CodecOp.alone (b : Build) (op : CodecOp) : op.apply b s.alone = (op.apply b s).alone := by
  cases op with
  | create target base shift start stop =>
    refine withWord_alone fun base => withWord_alone fun start => withWord_alone fun stop => ?_
    cases Codec.ofLayout base shift start stop <;> rfl
  | equal left right => exact withCodec_alone fun c => withCodec_alone fun d => rfl
  | encode codec source =>
    refine withCodec_alone fun c => withView_alone fun v => ?_
    cases c.encodeOrFault b.asserts v.address <;> rfl
  | decode target codec n origin => exact withCodec_alone fun c => create_bindDone_alone ..
  | install name =>
    refine withCodec_alone fun c => ?_
    rw [shared_alone]
    generalize s.shared.installCodec b.platform.once c = installed
    obtain ⟨content?, shared⟩ := installed
    cases content? with
    | none => rfl
    | some content => exact recorded_alone { s with shared } ..
  | installed =>
    rw [apply, apply, shared_alone]
    cases s.shared.codec? <;> rfl
  | ask query =>
    have hword : s.alone.word? = s.word? := funext s.word?_alone
    rw [apply, apply, shared_alone, hword]
    cases s.shared.codec? with
    | none => rfl
    | some c =>
      cases query.resolve s.word? with
      | none => rfl
      | some q =>
        dsimp only
        cases c.answer b.asserts q <;> rfl

theorem Op.alone (b : Build) (s : State) (op : Op) : op.apply b s.alone = (op.apply b s).alone := by
  cases op with
  | thread op => exact op.alone
  | reference op => exact op.alone b
  | heap op => exact op.alone b
  | handle op => exact op.alone b
  | codec op => exact op.alone b

theorem State.finish_alone (s : State) : s.alone.finish = (s.finish.1, s.finish.2.alone) := by
  rw [finish, finish, ThreadOp.alone]
  refine congrArg (Prod.mk _) ?_
  change (ThreadOp.detach.apply s).state.locals.views.values.foldl State.destroy
    (ThreadOp.detach.apply s).state.alone = _
  generalize (ThreadOp.detach.apply s).state = t
  -- By induction on the references that the thread lets go of.
  generalize t.locals.views.values = vs
  induction vs generalizing t with
  | nil => rfl
  | cons v vs ih => rw [List.foldl_cons, destroy_alone, ih, List.foldl_cons]

/-! ### Two runs -/

theorem State.start_congr (shared : Shared) (t t' : Thread) :
    (start shared t).alone = (start shared t').alone := by
  have h : t.start.row = t'.start.row := t.row_start.trans t'.row_start.symm
  rw [alone, alone]
  exact congrArg (State.mk shared · .fresh) (Thread.alone_eq_of_row_eq h)

section

variable {s s' : State}

theorem State.counts?_congr (h : s.alone = s'.alone) : s.counts? = s'.counts? := by
  rw [← s.counts?_alone, ← s'.counts?_alone, h]

theorem State.finish_congr (h : s.alone = s'.alone) :
    s.finish.1 = s'.finish.1 ∧ s.finish.2.shared = s'.finish.2.shared := by
  have hs := s.finish_alone
  rw [h, s'.finish_alone] at hs
  exact ⟨(congrArg Prod.fst hs :).symm, (congrArg (·.2.shared) hs :).symm⟩

theorem Op.apply_congr (h : s.alone = s'.alone) (op : Op) :
    (op.apply b s).outcome = (op.apply b s').outcome ∧ (op.apply b s).log = (op.apply b s').log ∧
      (op.apply b s).state.alone = (op.apply b s').state.alone := by
  have he : (op.apply b s).alone = (op.apply b s').alone := by
    rw [← op.alone b s, ← op.alone b s', h]
  exact ⟨(congrArg Effect.outcome he :), (congrArg Effect.log he :), (congrArg Effect.state he :)⟩

end

theorem State.alone_join (b : Build) (s : State) (session : List Step) :
    ((Step.spawn session).run b s).2.alone =
      { s.alone with
        shared := (runSteps b (.start s.shared s.thread.next) session).2.finish.2.shared } := by
  simp only [Step.run]
  have hrests := (confines_spawned b s session).rests
  rw [alone]
  exact congrArg (State.mk _ · s.locals) (Thread.alone_eq_of_row_eq hrests.row)

theorem Step.reply_spawn (b : Build) (s : State) (session : List Step) :
    let inner := runSteps b (.start s.shared s.thread.next) session
    ((Step.spawn session).run b s).1 = .spawned inner.1 inner.2.finish.1 s.counts? := by
  intro inner
  have hcounts : ((Step.spawn session).run b s).2.counts? = s.counts? := by
    rw [← State.counts?_alone, State.alone_join]
    exact s.counts?_alone
  simp only [Step.run] at hcounts ⊢
  rw [hcounts]

mutual

theorem Step.run_congr {s s' : State} (h : s.alone = s'.alone) (step : Step) :
    (step.run b s).1 = (step.run b s').1 ∧
      (step.run b s).2.alone = (step.run b s').2.alone := by
  cases step with
  | op operation =>
    obtain ⟨houtcome, hlog, hstate⟩ := operation.apply_congr (b := b) h
    simp only [Step.run]
    rw [houtcome, hlog, State.counts?_congr hstate]
    exact ⟨rfl, hstate⟩
  | spawn session =>
    -- Whichever threads are spawned, both start with variables that nobody has written.
    have hshared : s.shared = s'.shared := (congrArg State.shared h :)
    have hinner := runSteps_congr (State.start_congr s'.shared s.thread.next s'.thread.next) session
    obtain ⟨hending, hended⟩ := State.finish_congr hinner.2
    rw [Step.reply_spawn, Step.reply_spawn, State.alone_join, State.alone_join, hshared, hinner.1,
      hending, hended, h, State.counts?_congr h]
    exact ⟨rfl, rfl⟩

/-- Sessions that start alike do alike, whatever other threads there are. -/
theorem runSteps_congr {s s' : State} (h : s.alone = s'.alone) (session : List Step) :
    (runSteps b s session).1 = (runSteps b s' session).1 ∧
      (runSteps b s session).2.alone = (runSteps b s' session).2.alone := by
  cases session with
  | nil =>
    simp only [runSteps]
    exact ⟨trivial, h⟩
  | cons step rest =>
    obtain ⟨hreply, hfirst⟩ := Step.run_congr h step
    obtain ⟨hreplies, hrest⟩ := runSteps_congr hfirst rest
    rw [runSteps_cons, runSteps_cons, hreply, hreplies]
    exact ⟨rfl, hrest⟩

end

theorem spawned_congr (shared : Shared) (t t' : Thread) (session : List Step) :
    let inner := runSteps b (.start shared t) session
    let inner' := runSteps b (.start shared t') session
    inner.1 = inner'.1 ∧ inner.2.finish.1 = inner'.2.finish.1 ∧
      inner.2.finish.2.shared = inner'.2.finish.2.shared := by
  intro inner inner'
  obtain ⟨hreplies, hinner⟩ := runSteps_congr (State.start_congr shared t t') session
  exact ⟨hreplies, State.finish_congr hinner⟩

/-- A spawned session leaves the threads that it does not come from as they are, and neither its
replies nor what it leaves shared depend on what has spawned it. -/
theorem spawn_isolated (b : Build) (s : State) (session : List Step) :
    let after := ((Step.spawn session).run b s).2
    after.thread.context? = s.thread.context? ∧ after.thread.nextSlot = s.thread.nextSlot ∧
      after.thread.nextStamp = s.thread.nextStamp ∧ after.locals = s.locals ∧
      (∀ k, ¬ s.thread.id.next.Spawns k →
        after.thread.storage.row k = s.thread.storage.row k) ∧
      ∃ replies ending,
        ((Step.spawn session).run b s).1 = .spawned replies ending s.counts? ∧
          ∀ s' : State, s'.shared = s.shared →
            ((Step.spawn session).run b s').1 = .spawned replies ending s'.counts? ∧
              ((Step.spawn session).run b s').2.shared = after.shared := by
  intro after
  have hconfines := confines_spawned b s session
  have hrests := hconfines.rests
  have hafter : after = { s with
      shared := (runSteps b (.start s.shared s.thread.next) session).2.finish.2.shared
      thread := s.thread.join
        (runSteps b (.start s.shared s.thread.next) session).2.finish.2.thread } := by
    simp only [after, Step.run]
  rw [hafter]
  refine ⟨hrests.context?_eq, hrests.nextSlot_eq, hrests.nextStamp_eq, rfl, hconfines.others,
    _, _, Step.reply_spawn b s session, fun s' hs' => ?_⟩
  obtain ⟨hreplies, hending, hshared⟩ :=
    spawned_congr (b := b) s.shared s'.thread.next s.thread.next session
  rw [Step.reply_spawn, hs', hreplies, hending]
  simp only [Step.run, hs', hshared, and_self]

/-- In both threads slot 0 is in use, but in one of them only, and the spawned thread ends with two
references that are registered. -/
theorem spawn_isolated_with_equal_slots :
    let b : Build := .standard .checked true
    let make (x : String) (a : UInt64) : Step :=
      .op (.reference (.create x none (.address .bits (.word a))))
    let attach (name : String) : Step := .op (.thread (.attach name))
    let session := [attach "other", make "x" 0x8000, make "y" 0x8000, make "z" 0x8000,
      .spawn [attach "inner", make "x" 0x9000], .op (.reference (.drop "x"))]
    let install : Step := .op (.thread (.install ⟨true⟩))
    let s := (runSteps b .initial [install, attach "main", make "x" 0x1000]).2
    let s' := (runSteps b .initial [install, attach "spare"]).2
    s.thread.context? ≠ s'.thread.context? ∧ s'.shared = s.shared ∧
      ((Step.spawn session).run b s).2.thread.context? = s.thread.context? ∧
      ∃ replies ending,
        ((Step.spawn session).run b s).1 = .spawned replies ending (some ⟨1, 0⟩) ∧
          ((Step.spawn session).run b s').1 = .spawned replies ending (some ⟨0, 0⟩) := by
  intro b make attach session install s s'
  have hshared : s'.shared = s.shared := by decide +kernel
  obtain ⟨hcontext, -, -, -, -, replies, ending, hreply, hsame⟩ := spawn_isolated b s session
  obtain ⟨hreply', -⟩ := hsame s' hshared
  exact ⟨by decide +kernel, hshared, hcontext, replies, ending, hreply, hreply'⟩

end Session

end HeapRefs
