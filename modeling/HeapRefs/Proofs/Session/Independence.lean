import HeapRefs.Proofs.Session.Plain

/-! # Independence of the representation

Whatever the build and the setting, a run of a session whose steps make sense is, with slots and
registrations forgotten, the plain run of the plain session. So two runs of one session agree in all
that is left, whichever representations they use and whatever settings they install.
-/

namespace HeapRefs.Session

/-- The step made sense in the state that it met. -/
def Outcome.accepted : Outcome → Bool
  | .refused _ => false
  | _ => true

def Effect.plain (e : Effect) : Effect := ⟨e.outcome.plain, e.state.plain, plainLog e.log⟩

/-- Unless it is refused, the first effect is the second one in plain form. -/
def Effect.ForgetsTo (e e' : Effect) : Prop := e.outcome.accepted = true → e.plain = e'

namespace Effect.ForgetsTo

variable {b : Build} {s : State} {name target : String}

theorem refused (why : Refusal) (e : Effect) : (s.refused why).ForgetsTo e :=
  fun h => nomatch h

theorem done (s : State) (a : Answer) : (s.done a).ForgetsTo (s.plain.done a.plain) := fun _ => rfl

theorem thread {shared : Shared} {t t' : Thread} {l : Locals} (ht : t.plain = t') (a : Answer) :
    (State.done ⟨shared, t, l⟩ a).ForgetsTo (State.done ⟨shared.plain, t', l.plain⟩ a.plain) := by
  subst ht
  exact done ⟨shared, t, l⟩ a

theorem withView {k k' : View → Effect} (h : ∀ v, (k v).ForgetsTo (k' v.plain)) :
    (s.withView name k).ForgetsTo (s.plain.withView name k') := by
  unfold State.withView
  rw [s.get?_views_plain]
  cases s.locals.views.get? name with
  | none => exact .refused _ _
  | some v => exact h v

theorem withContext {k k' : Context → Effect} (h : ∀ c, (k c).ForgetsTo (k' c.plain)) :
    (s.withContext k).ForgetsTo (s.plain.withContext k') := by
  unfold State.withContext
  rw [s.guard?_plain, s.context?_plain]
  cases s.locals.guard? with
  | none => exact .refused _ _
  | some guard =>
    cases s.thread.context? with
    | none => exact fun _ => rfl
    | some c => exact h c

/-! What all threads share is the same but for the setting, and so are the other variables. -/

theorem withWord {operand : Operand} {k k' : UInt64 → Effect}
    (h : ∀ a, (k a).ForgetsTo (k' a)) :
    (s.withWord operand k).ForgetsTo (s.plain.withWord operand k') := by
  unfold State.withWord
  rw [s.word?_plain]
  cases s.word? operand with
  | none => exact .refused _ _
  | some a => exact h a

theorem withHandle {k k' : Handle → Effect} (h : ∀ g, (k g).ForgetsTo (k' g)) :
    (s.withHandle name k).ForgetsTo (s.plain.withHandle name k') := by
  unfold State.withHandle
  rw [s.handles_plain]
  cases s.locals.handles.get? name with
  | none => exact .refused _ _
  | some g => exact h g

theorem withCodec {k k' : Codec → Effect} (h : ∀ c, (k c).ForgetsTo (k' c)) :
    (s.withCodec name k).ForgetsTo (s.plain.withCodec name k') := by
  unfold State.withCodec
  rw [s.codecs_plain]
  cases s.locals.codecs.get? name with
  | none => exact .refused _ _
  | some c => exact h c

theorem withObject {k k' : View → Object → Effect} (h : ∀ v o, (k v o).ForgetsTo (k' v.plain o)) :
    (s.withObject name k).ForgetsTo (s.plain.withObject name k') := by
  refine withView fun v => ?_
  rw [s.heap_plain, v.address_plain]
  cases s.shared.heap.find? v.address with
  | none => exact .refused _ _
  | some o => exact h v o

theorem withDescription {k k' : Description → Effect} (h : ∀ d, (k d).ForgetsTo (k' d)) :
    (s.withDescription name k).ForgetsTo (s.plain.withDescription name k') := by
  refine withObject fun v o => ?_
  rw [v.kind?_plain]
  cases v.kind? with
  | none => exact .refused _ _
  | some kind => exact h _

theorem alloc (s : State) (allocator : Allocator) (name : String) (size : Nat) (o : Object) :
    (s.alloc allocator name size o).ForgetsTo (s.plain.alloc allocator name size o) := by
  unfold State.alloc
  rw [s.heap_plain]
  cases s.shared.heap.alloc? allocator size o with
  | none => exact .refused _ _
  | some placed => exact fun _ => rfl

theorem bindDone (s : State) (name : String) (v : View) :
    (s.bindDone name v).ForgetsTo (s.plain.bindDone name v.plain) := by
  intro _
  rw [State.bindDone, State.bindDone, ← State.plain_bind]
  rfl

theorem createDone (s : State) (representation : Representation) (address : UInt64)
    (origin : Origin) (target : String) (kind? : Option ObjectKind) :
    ((s.create representation address origin).2.bindDone target
        ⟨(s.create representation address origin).1, kind?⟩).ForgetsTo
      (s.plain.bindDone target ⟨.direct address, kind?⟩) := by
  have h := bindDone (s.create representation address origin).2 target
    ⟨(s.create representation address origin).1, kind?⟩
  obtain ⟨hr, hs⟩ := s.plain_create representation address origin
  rw [View.plain, hr, hs] at h
  exact h

theorem nullDone (s : State) (representation : Representation) (target : String)
    (kind? : Option ObjectKind) :
    (s.bindDone target ⟨.null representation, kind?⟩).ForgetsTo
      (s.plain.bindDone target ⟨.null .direct, kind?⟩) := by
  have hn : (Reference.null representation).plain = .null .direct := by
    cases representation <;> rfl
  have h := bindDone s target ⟨.null representation, kind?⟩
  rw [View.plain, hn] at h
  exact h

theorem transferDone (s : State) (source target : String) (v : View) :
    ((s.unbind source).bindDone target v).ForgetsTo
      ((s.plain.unbind source).bindDone target v.plain) := by
  rw [← State.plain_unbind]
  exact bindDone _ _ _

theorem discard (s : State) (name : String) (v : View) {o o' : Outcome} (ho : o.plain = o') :
    Effect.ForgetsTo ⟨o, (s.unbind name).destroy v, []⟩
      ⟨o', (s.plain.unbind name).destroy v.plain, []⟩ := by
  intro _
  have hd : (s.plain.unbind name).destroy v.plain = s.plain.unbind name := rfl
  rw [hd, ← ho, ← State.plain_unbind, ← State.plain_destroy _ v]
  rfl

theorem recorded {o : Outcome} {t : State} {e : Event} (he : e.plain? = some e) :
    Effect.ForgetsTo ⟨o, t, [t.record e]⟩ ⟨o.plain, t.plain, [t.plain.record e]⟩ := by
  intro _
  rw [Effect.plain, t.plainLog_record he]

end Effect.ForgetsTo

variable {b : Build} {s : State}

open Effect (ForgetsTo)

theorem plain_failed_of_answer {c : Codec} {asserts : Bool} {q : Query UInt64} {e : Failure}
    (h : c.answer asserts q = .error e) : (Outcome.failed e).plain = .failed e := by
  cases q with
  | encodeFast a =>
    simp only [Codec.answer, Codec.encodeOrFault] at h
    cases hn : c.encodeFast asserts a with
    | ok n => simp [hn] at h
    | error cause =>
      rw [hn] at h
      cases h
      rfl
  | encode a | encodeDecode a | decodeEncode n =>
    simp only [Codec.answer] at h
    split at h
    · cases h
    · cases h
      rfl
  | decode n | covers a => cases h

theorem CodecOp.forgets (op : CodecOp) :
    (op.apply b s).ForgetsTo (op.apply b.plain s.plain) := by
  cases op with
  | create target base shift start stop =>
    refine .withWord fun base => .withWord fun start => .withWord fun stop => ?_
    cases Codec.ofLayout base shift start stop <;> exact fun _ => rfl
  | equal left right => exact .withCodec fun c => .withCodec fun d => .done _ _
  | encode codec source =>
    refine .withCodec fun c => .withView fun v => ?_
    rw [b.asserts_plain, v.address_plain]
    unfold Codec.encodeOrFault
    cases c.encodeFast b.asserts v.address <;> exact fun _ => rfl
  | decode target codec n origin => exact .withCodec fun c => .createDone _ _ _ _ _ _
  | install name =>
    refine .withCodec fun c => ?_
    have hs : s.plain.shared.installCodec b.platform.once c =
        ((s.shared.installCodec b.platform.once c).1,
          (s.shared.installCodec b.platform.once c).2.plain) := rfl
    rw [b.platform_plain, hs]
    generalize s.shared.installCodec b.platform.once c = result
    obtain ⟨content?, shared⟩ := result
    cases content? with
    | none => exact fun _ => rfl
    | some content => exact .recorded rfl
  | installed =>
    simp only [CodecOp.apply, s.codec?_plain]
    cases s.shared.codec? <;> exact fun _ => rfl
  | ask query =>
    simp only [CodecOp.apply, s.codec?_plain, s.word?_plain, b.asserts_plain]
    cases s.shared.codec? with
    | none => exact .refused _ _
    | some c =>
      cases query.resolve s.word? with
      | none => exact .refused _ _
      | some q =>
        dsimp only
        cases he : c.answer b.asserts q with
        | ok a => exact fun _ => rfl
        | error e =>
          intro _
          exact congrArg (Effect.mk · s.plain []) (plain_failed_of_answer he)

theorem HandleOp.forgets (op : HandleOp) :
    (op.apply b s).ForgetsTo (op.apply b.plain s.plain) := by
  cases op with
  | create target source =>
    exact .withView fun v => .withContext fun c => .thread (s.thread.plain_anchor c v.address).2 _
  | resolve target handle origin =>
    refine .withHandle fun h => .withContext fun c => ?_
    rw [c.anchors_plain, b.asserts_plain]
    cases b.asserts <;> cases c.anchors.address? h
    case true.none => exact fun _ => rfl
    all_goals exact .createDone _ _ _ _ _ _
  | address name => exact .withHandle fun h => .withContext fun c => .done _ _
  | equal left right => exact .withHandle fun h => .withHandle fun g => .done _ _
  | mark name =>
    refine .withContext fun c => ?_
    rw [s.marks_plain]
    cases s.locals.marks.get? name <;> exact .thread (s.thread.plain_setContext _) _
  | release name =>
    simp only [HandleOp.apply, s.marks_plain]
    cases s.locals.marks.get? name with
    | none => exact .refused _ _
    | some m => exact .withContext fun c => .thread (s.thread.plain_setContext _) _
  | relocate source target =>
    exact .withWord fun a => .withWord fun d => .withContext fun c =>
      .thread (s.thread.plain_setContext _) _

theorem HeapOp.forgets (op : HeapOp) :
    (op.apply b s).ForgetsTo (op.apply b.plain s.plain) := by
  cases op with
  | alloc name kind size descriptor? => exact .alloc _ _ _ _ _
  | allocArray name kind n elementSize => exact .alloc _ _ _ _ _
  | header name => exact .withObject fun v o => .done _ _
  | setMark name mark => exact .withObject fun v o => fun _ => rfl
  | typedHeader name => exact .withDescription fun d => .done _ _
  | length name =>
    rw [apply, apply]
    refine .withDescription fun d => ?_
    cases d.length? with
    | none => exact .refused _ _
    | some n => exact .done _ _

theorem ReferenceOp.forgets (op : ReferenceOp) :
    (op.apply b s).ForgetsTo (op.plain.apply b.plain s.plain) := by
  cases op with
  | create target representation? seed origin =>
    cases seed with
    | null => exact .nullDone _ _ _ _
    | address form operand => exact .withWord fun a => .createDone _ _ _ _ _ _
  | clone target source origin => exact .withView fun v => .createDone _ _ _ _ _ _
  | move target source => exact .withView fun v => .transferDone _ _ _ _
  | drop name => exact .withView fun v => .discard _ _ _ rfl
  | forget name =>
    refine .withView fun v => ?_
    rw [← State.plain_unbind]
    exact .done _ _
  | inspect name => exact .withView fun v => .done _ _
  | allow name =>
    refine .withView fun v => fun _ => ?_
    exact congrArg (Effect.mk _ · []) (congrArg (State.mk _ · _) (s.thread.plain_allow v.reference))
  | foreignSlot name => exact .withView fun v => .done _ _
  | compare left right =>
    refine .withView fun v => .withView fun w => ?_
    split
    · next hc =>
      obtain ⟨hk, -⟩ := Bool.and_eq_true_iff.mp hc
      have hp : v.plain.comparable w.plain = true := Bool.and_eq_true_iff.mpr ⟨hk, rfl⟩
      rw [if_pos hp]
      exact .done _ _
    · exact .refused _ _
  | address name => exact .withView fun v => .done _ _
  | intoAddress name => exact .withView fun v => .discard _ _ _ rfl
  | typedNull target kind => exact .nullDone _ _ _ _
  | narrow target source kind =>
    refine .withView fun v => ?_
    split
    · next hm =>
      have hp : v.plain.kind? = none ∧ v.plain.reference.representation = b.plain.managed :=
        ⟨hm.1, rfl⟩
      have hn : s.plain.narrowFault? b.plain v.plain.reference kind = _ :=
        s.narrowFault?_plain b v.reference kind
      rw [if_pos hp, hn]
      obtain hf | ⟨actual, hf⟩ | hf := s.narrowFault?_cases b v.reference kind
      · rw [hf]
        exact .transferDone _ _ _ _
      · rw [hf]
        exact .discard _ _ _ rfl
      · rw [hf]
        exact .refused _ _
    · exact .refused _ _
  | widen target source kind =>
    refine .withView fun v => ?_
    rw [v.kind?_plain]
    cases v.kind? with
    | none => exact .refused _ _
    | some own =>
      dsimp only
      split
      · exact .transferDone _ _ _ _
      · exact .discard _ _ _ rfl
  | untype target source =>
    refine .withView fun v => ?_
    rw [v.kind?_plain]
    cases v.kind? with
    | none => exact .refused _ _
    | some own => exact .transferDone _ _ _ _
  | cloneUntyped target source origin =>
    refine .withView fun v => ?_
    rw [v.kind?_plain]
    cases v.kind? with
    | none => exact .refused _ _
    | some own => exact .createDone _ _ _ _ _ _

theorem plain_foldl_release (marks : List Mark) (c : Context) :
    (marks.foldl Context.release c).plain = marks.foldl Context.release c.plain := by
  induction marks generalizing c with
  | nil => rfl
  | cons m marks ih => exact ih (c.release m)

theorem plainLog_detach (t : Thread) (c : Context) :
    plainLog (t.detach c).1 = (t.plain.detach c.plain).1 := by
  have hp : Thread.remains c.plain = [] := rfl
  rw [Thread.detach_eq, Thread.detach_eq, hp]
  unfold Thread.remains
  split <;> rfl

theorem ThreadOp.forgets_poll :
    (ThreadOp.poll.apply s).ForgetsTo (ThreadOp.poll.apply s.plain) := by
  refine .withContext fun c => fun _ => ?_
  have hlog : plainLog (c.unhandled.map fun e => ⟨.unhandled c.name e, ⟨false, false⟩⟩) = [] := by
    simp [plainLog, Record.plain?, Event.plain?]
  have ht : s.plain.thread = s.thread.plain := rfl
  simp only [Thread.poll_eq, ht, Effect.plain, hlog]
  congr 1
  · cases c.unhandled.isEmpty <;> rfl
  · exact congrArg (State.mk _ · _) (s.thread.plain_setContext _)

theorem ThreadOp.forgets_attach (name : String) :
    ((ThreadOp.attach name).apply s).ForgetsTo ((ThreadOp.attach name).apply s.plain) := by
  have hcell : s.plain.thread.cell = s.thread.cell.plain := rfl
  simp only [ThreadOp.apply, Thread.attach, hcell]
  cases s.thread.cell with
  | vacant =>
    have h := ForgetsTo.recorded (o := .done (.attached name)) (e := .attached name) rfl
      (t := ⟨s.shared, s.thread.setContext (.fresh name), { s.locals with guard? := some name }⟩)
    rw [State.plain, Thread.plain_setContext] at h
    exact h
  | present c => exact fun _ => rfl
  | borrowed c => exact fun _ => rfl

theorem ThreadOp.forgets_detach :
    (ThreadOp.detach.apply s).ForgetsTo (ThreadOp.detach.apply s.plain) := by
  refine .withContext fun c => fun _ => ?_
  rw [s.marks_plain, ← plain_foldl_release]
  have hlog := plainLog_detach s.thread (s.locals.marks.values.foldl Context.release c)
  simp only [Effect.plain, hlog]
  exact congrArg (Effect.mk _ · _) (congrArg (State.mk _ · _) (s.thread.plain_setCell .vacant))

theorem plain_finish (s : State) :
    plainLog s.finish.1 = s.plain.finish.1 ∧ s.finish.2.plain = s.plain.finish.2 := by
  have he : (ThreadOp.detach.apply s).state.plain = (ThreadOp.detach.apply s.plain).state ∧
      plainLog (ThreadOp.detach.apply s).log = (ThreadOp.detach.apply s.plain).log := by
    cases ha : (ThreadOp.detach.apply s).outcome.accepted with
    | true =>
      have h := ThreadOp.forgets_detach ha
      exact ⟨congrArg Effect.state h, congrArg Effect.log h⟩
    | false =>
      have hg : s.locals.guard? = none := by
        cases hg : s.locals.guard? with
        | none => rfl
        | some name =>
          simp only [ThreadOp.apply, State.withContext, hg] at ha
          cases hc : s.thread.context? <;> rw [hc] at ha <;> cases ha
      simp only [ThreadOp.apply, State.withContext, State.guard?_plain, hg]
      exact ⟨rfl, rfl⟩
  obtain ⟨hstate, hlog⟩ := he
  have hviews : (ThreadOp.detach.apply s.plain).state.locals.views.values =
      ((ThreadOp.detach.apply s).state.locals.views.values).map View.plain := by
    rw [← hstate]
    simp [State.plain, Locals.plain, Bindings.values, Bindings.map]
  refine ⟨hlog, ?_⟩
  simp only [State.finish]
  rw [hviews, State.plain_foldl_destroy, State.foldl_destroy_plain, hstate]

def Op.plainEffect (op : Op) (e : Effect) : Effect :=
  ⟨op.plainOutcome e.outcome, e.state.plain, plainLog e.log⟩

theorem State.plain_install (s : State) (settings : Settings) {op : Op}
    (ho : op.plainOutcome (.done (.truth settings.checkUnhandled)) = .done (.truth false)) :
    op.plainEffect (s.install settings) = s.plain.install .default := by
  have hl := State.plainLog_record (e := .installed settings) rfl
    { s with shared := { s.shared with checking := settings.checkUnhandled } }
  simp only [Op.plainEffect, State.install, ho, hl]
  rfl

theorem Op.plain_apply (op : Op) (h : (op.apply b s).outcome.accepted = true) :
    op.plainEffect (op.apply b s) = op.plain.apply b.plain s.plain := by
  cases op with
  | reference op => exact op.forgets h
  | heap op => exact op.forgets h
  | handle op => exact op.forgets h
  | codec op => exact op.forgets h
  | thread op =>
    cases op with
    | attach name => exact ThreadOp.forgets_attach name h
    | detach => exact ThreadOp.forgets_detach h
    | status =>
      have hs : s.plain.thread.observe = s.thread.observe := s.thread.observe_plain
      simp only [Op.plain, ThreadOp.plain, Op.apply, ThreadOp.apply, hs]
      rfl
    | poll => exact ThreadOp.forgets_poll h
    | entries => exact ForgetsTo.withContext (fun c => .done _ _) h
    | unhandled => exact ForgetsTo.withContext (fun c => .done _ _) h
    | install settings => exact s.plain_install settings rfl
    | installVariable value? =>
      cases hv : Settings.ofEnvironment fun _ => value? with
      | error e =>
        simp only [Op.plain, ThreadOp.plain, Op.apply, ThreadOp.apply, hv]
        rfl
      | ok settings =>
        simp only [Op.plain, ThreadOp.plain, Op.apply, ThreadOp.apply, hv]
        exact s.plain_install settings rfl

mutual

theorem Step.plain_run (s : State) (step : Step)
    (h : (step.run b s).1.all Outcome.accepted = true) :
    step.plainReply (step.run b s).1 = (step.plain.run b.plain s.plain).1 ∧
      (step.run b s).2.plain = (step.plain.run b.plain s.plain).2 := by
  cases step with
  | op op =>
    simp only [Step.run, Reply.all] at h
    have he := op.plain_apply h
    simp only [Step.run, Step.plain, Step.plainReply, ← he, Op.plainEffect, State.counts?_plain,
      and_self]
  | spawn steps =>
    simp only [Step.run, Reply.all] at h
    obtain ⟨hr, hs⟩ := plain_runSteps (.start s.shared s.thread.next) steps h
    have hi : (State.start s.shared s.thread.next).plain =
        .start s.plain.shared s.plain.thread.next :=
      congrArg (State.mk _ · _) s.thread.next.plain_start
    rw [hi] at hr hs
    obtain ⟨hending, hended⟩ := plain_finish (runSteps b (.start s.shared s.thread.next) steps).2
    rw [hs] at hending hended
    have hjoined : State.plain { s with
        shared := (runSteps b (.start s.shared s.thread.next) steps).2.finish.2.shared
        thread := s.thread.join
          (runSteps b (.start s.shared s.thread.next) steps).2.finish.2.thread } =
        { s.plain with
          shared := (runSteps b (.start s.shared s.thread.next) steps).2.finish.2.plain.shared
          thread := s.plain.thread.join
            (runSteps b (.start s.shared s.thread.next) steps).2.finish.2.plain.thread } := rfl
    simp only [Step.run, Step.plain, Step.plainReply, ← State.counts?_plain, hr, hending, hjoined,
      hended, and_self]

/-- The plain form of a run is the plain run of the plain session. -/
theorem plain_runSteps (s : State) (steps : List Step)
    (h : allReplies Outcome.accepted (runSteps b s steps).1 = true) :
    plainReplies steps (runSteps b s steps).1 =
        (runSteps b.plain s.plain (plainSteps steps)).1 ∧
      (runSteps b s steps).2.plain = (runSteps b.plain s.plain (plainSteps steps)).2 := by
  cases steps with
  | nil =>
    constructor
    · simp only [runSteps, plainSteps, plainReplies]
    · simp only [runSteps, plainSteps]
  | cons step steps =>
    rw [runSteps_cons] at h ⊢
    obtain ⟨hstep, hsteps⟩ := allReplies_cons.mp h
    obtain ⟨hr, hs⟩ := Step.plain_run s step hstep
    obtain ⟨hrs, hss⟩ := plain_runSteps (step.run b s).2 steps hsteps
    rw [hs] at hrs hss
    simp only [plainSteps, plainReplies, runSteps_cons, hr, hrs, hss, and_self]

end

/-- Two runs of one session, but for the settings that it installs and the representations that it
names, differ in nothing but slots and registrations and what depends on them. -/
theorem plainReplies_eq {b b' : Build} (hb : b.asserts = b'.asserts)
    (hp : b.platform = b'.platform) {s s' : State}
    (hs : s.plain = s'.plain) {steps steps' : List Step}
    (hsteps : plainSteps steps = plainSteps steps')
    (h : allReplies Outcome.accepted (runSteps b s steps).1 = true)
    (h' : allReplies Outcome.accepted (runSteps b' s' steps').1 = true) :
    plainReplies steps (runSteps b s steps).1 = plainReplies steps' (runSteps b' s' steps').1 ∧
      (runSteps b s steps).2.plain = (runSteps b' s' steps').2.plain := by
  have hp : b.plain = b'.plain := by rw [Build.plain, Build.plain, hb, hp]
  obtain ⟨hr, ht⟩ := plain_runSteps s steps h
  obtain ⟨hr', ht'⟩ := plain_runSteps s' steps' h'
  rw [hr, ht, hr', ht', hp, hs, hsteps]
  exact ⟨rfl, rfl⟩

/-- A session with direct references and one with checked references that are registered. Only the
polls in the second one fail. -/
theorem plainReplies_eq_of_unhandled :
    let steps (checking : Bool) : List Step := [
      .op (.thread (.install ⟨checking⟩)), .op (.thread (.attach "main")),
      .op (.heap (.alloc "o" .refArray 24 none)),
      .op (.reference (.create "x" none (.address .bits (.object "o")))),
      .op (.reference (.clone "y" "x")), .op (.reference (.narrow "z" "x" .array)),
      .op (.thread .poll), .op (.reference (.narrow "w" "y" .method)),
      .op (.handle (.create "h" "z")),
      .spawn [.op (.thread (.install ⟨!checking⟩)), .op (.thread (.attach "other"))],
      .op (.handle (.relocate (.object "o") (.word 0x8000))), .op (.thread .poll),
      .op (.handle (.resolve "v" "h")), .op (.thread .detach)]
    let direct := (runSteps (.standard .direct true) .initial (steps false)).1
    let checked := (runSteps (.standard .checked true) .initial (steps true)).1
    plainReplies (steps false) direct = plainReplies (steps true) checked ∧
      direct[6]? = some (.step (.done (.done .passed)) [] (some ⟨0, 0⟩)) ∧
      checked[6]? ≠ direct[6]? := by
  intro steps direct checked
  have h : allReplies Outcome.accepted direct = true := by decide +kernel
  have h' : allReplies Outcome.accepted checked = true := by decide +kernel
  have hsteps : plainSteps (steps false) = plainSteps (steps true) := rfl
  let b : Build := .standard .direct true
  let b' : Build := .standard .checked true
  have hb : b.asserts = b'.asserts := rfl
  have hp : b.platform = b'.platform := rfl
  have hs : State.initial.plain = State.initial.plain := rfl
  have heq := plainReplies_eq hb hp hs hsteps h h'
  have hpassed : (direct[6]?).bind Reply.taken? =
      some (.done (.done .passed), [], some ⟨0, 0⟩) := by decide +kernel
  refine ⟨?_, ?_, fun hne => ?_⟩
  · exact heq.1
  · obtain ⟨reply, hreply, htaken⟩ := Option.bind_eq_some_iff.mp hpassed
    rw [hreply, Reply.eq_of_taken? htaken]
  have hc : (checked[6]?).map (·.all fun o => o == .done (.done .passed)) = some false := by
    decide +kernel
  rw [hne] at hc
  cases hc

end HeapRefs.Session
