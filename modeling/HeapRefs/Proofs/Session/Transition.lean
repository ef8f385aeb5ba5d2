import HeapRefs.Proofs.Session.Effects

/-! # Transitions of a thread

Every operation comes down to one act on the thread that takes it: a reference is made, handed on,
ended, left alone or allowed, the thread is attached, detached or resumed, its anchors change, or
nothing of this happens. What operations preserve is shown act by act.
-/

namespace HeapRefs.Session

/-- What a step does to its thread. A reference is made with the value that the making call returns;
null has no origin. -/
inductive Act
  | create (target : String) (reference : Reference) (origin? : Option Origin)
  | transfer (target source : String)
  | discard (name : String)
  | forget (name : String)
  | allow (name : String)
  | attach (name : String)
  | detach
  | resume
  | anchor (target source : String)
  | mark (name : String)
  | release (name : String)
  | relocate (source target : UInt64)
  | other
  deriving DecidableEq, Repr

namespace State

def actOn (s : State) (name : String) (k : View → Act) : Act :=
  match s.locals.views.get? name with
  | none => .other
  | some v => k v

def actAttached (s : State) (a : Act) : Act :=
  match s.locals.guard?, s.thread.context? with
  | some _, some _ => a
  | _, _ => .other

def creation (s : State) (target : String) (representation : Representation) (address : UInt64)
    (origin : Origin) : Act :=
  .create target (s.create representation address origin).1 (some origin)

end State

def ThreadOp.act (s : State) : ThreadOp → Act
  | attach name => if s.thread.cell = .vacant then .attach name else .other
  | detach => s.actAttached .detach
  | poll => s.actAttached .resume
  | status | entries | unhandled | install _ | installVariable _ => .other

def ReferenceOp.act (b : Build) (s : State) : ReferenceOp → Act
  | create target representation? .null _ =>
    .create target (.null (representation?.getD b.managed)) none
  | create target representation? (.address _ operand) origin =>
    match s.word? operand with
    | none => .other
    | some a => s.creation target (representation?.getD b.managed) a origin
  | clone target source origin =>
    s.actOn source fun v => s.creation target v.reference.representation v.address origin
  | move target source => s.actOn source fun _ => .transfer target source
  | drop name | intoAddress name => s.actOn name fun _ => .discard name
  | forget name => s.actOn name fun _ => .forget name
  | allow name => s.actOn name fun _ => .allow name
  | typedNull target _ => .create target (.null b.managed) none
  | narrow target source kind =>
    s.actOn source fun v =>
      if v.kind? = none ∧ v.reference.representation = b.managed then
        match s.narrowFault? b v.reference kind with
        | .error _ => .other
        | .ok (some _) => .discard source
        | .ok none => .transfer target source
      else .other
  | widen target source kind =>
    s.actOn source fun v =>
      match v.kind? with
      | none => .other
      | some own => if own.isWithin kind then .transfer target source else .discard source
  | untype target source =>
    s.actOn source fun v => if v.kind?.isSome then .transfer target source else .other
  | cloneUntyped target source origin =>
    s.actOn source fun v =>
      if v.kind?.isSome then s.creation target v.reference.representation v.address origin
      else .other
  | inspect _ | foreignSlot _ | compare _ _ | address _ => .other

def HandleOp.act (b : Build) (s : State) : HandleOp → Act
  | create target source => s.actOn source fun _ => s.actAttached (.anchor target source)
  | resolve target handle origin =>
    match s.locals.handles.get? handle, s.locals.guard?, s.thread.context? with
    | some h, some _, some c =>
      match b.asserts, c.anchors.address? h with
      | true, none => .other
      | _, address? => s.creation target b.managed (address?.getD 0) origin
    | _, _, _ => .other
  | mark name => s.actAttached (.mark name)
  | release name =>
    if (s.locals.marks.get? name).isSome then s.actAttached (.release name) else .other
  | relocate source target =>
    match s.word? source, s.word? target with
    | some a, some d => s.actAttached (.relocate a d)
    | _, _ => .other
  | address _ | equal _ _ => .other

def CodecOp.act (b : Build) (s : State) : CodecOp → Act
  | decode target codec n origin =>
    match s.locals.codecs.get? codec with
    | none => .other
    | some c => s.creation target b.managed (c.decode n) origin
  | create .. | equal _ _ | encode _ _ | install _ | installed | ask _ => .other

def Op.act (b : Build) (s : State) : Op → Act
  | .thread op => op.act s
  | .reference op => op.act b s
  | .handle op => op.act b s
  | .codec op => op.act b s
  | .heap _ => .other

def State.creates (s : State) (target : String) (representation : Representation)
    (address : UInt64) (origin : Origin) (kind? : Option ObjectKind) : State :=
  (s.create representation address origin).2.bind target
    ⟨(s.create representation address origin).1, kind?⟩

inductive Transition (s : State) : Act → State → Prop where

  | null (target : String) (representation : Representation) (kind? : Option ObjectKind) :
      Transition s (.create target (.null representation) none)
        (s.bind target ⟨.null representation, kind?⟩)

  | create (target : String) (representation : Representation) (address : UInt64)
      (origin : Origin) (kind? : Option ObjectKind) :
      Transition s (s.creation target representation address origin)
        (s.creates target representation address origin kind?)

  | transfer {source : String} {v : View} (target : String) (kind? : Option ObjectKind) :
      s.locals.views.get? source = some v →
      Transition s (.transfer target source) ((s.unbind source).bind target ⟨v.reference, kind?⟩)

  | discard {name : String} {v : View} : s.locals.views.get? name = some v →
      Transition s (.discard name) ((s.unbind name).destroy v)

  | forget {name : String} {v : View} : s.locals.views.get? name = some v →
      Transition s (.forget name) (s.unbind name)

  | allow {name : String} {v : View} : s.locals.views.get? name = some v →
      Transition s (.allow name) { s with thread := s.thread.allow v.reference }

  | attach (name : String) : s.thread.cell = .vacant →
      Transition s (.attach name)
        { s with
          thread := s.thread.setContext (.fresh name)
          locals := { s.locals with guard? := some name } }

  | detach {c : Context} : s.thread.context? = some c →
      Transition s .detach
        { s with
          thread := s.thread.setCell .vacant
          locals := { s.locals with guard? := none, marks := ∅ } }

  | resume {c : Context} : s.thread.context? = some c →
      Transition s .resume
        { s with thread := s.thread.setContext c.resume }

  | anchor {source : String} {v : View} {c : Context} (target : String) :
      s.locals.views.get? source = some v → s.thread.context? = some c →
      Transition s (.anchor target source)
        { s with
          thread := (s.thread.anchor c v.address).2
          locals := { s.locals with
            handles := s.locals.handles.set target (s.thread.anchor c v.address).1 } }

  | mark {c : Context} (name : String) : s.thread.context? = some c →
      Transition s (.mark name)
        { s with
          thread := s.thread.setContext
            (((s.locals.marks.get? name).toList).foldl Context.release c)
          locals := { s.locals with marks := s.locals.marks.set name c.anchors.mark } }

  | release {name : String} {m : Mark} {c : Context} : s.locals.marks.get? name = some m →
      s.thread.context? = some c →
      Transition s (.release name)
        { s with
          thread := s.thread.setContext (c.release m)
          locals := { s.locals with marks := s.locals.marks.erase name } }

  | relocate {c : Context} (source target : UInt64) : s.thread.context? = some c →
      Transition s (.relocate source target)
        { s with thread := s.thread.setContext (c.relocate source target) }

  | other (shared : Shared) (codecs : Bindings Codec) :
      Transition s .other { s with shared, locals := { s.locals with codecs } }

namespace Transition

variable {b : Build} {s : State} {name : String}

theorem refl (s : State) : Transition s .other s := .other s.shared s.locals.codecs

theorem withView {act : View → Act} {apply : View → Effect}
    (h : ∀ v, s.locals.views.get? name = some v → Transition s (act v) (apply v).state) :
    Transition s (s.actOn name act) (s.withView name apply).state := by
  unfold State.actOn State.withView
  cases hv : s.locals.views.get? name with
  | none => exact refl s
  | some v => exact h v hv

theorem withContext {act : Act} {apply : Context → Effect}
    (h : ∀ c, s.thread.context? = some c → Transition s act (apply c).state) :
    Transition s (s.actAttached act) (s.withContext apply).state := by
  unfold State.actAttached State.withContext
  cases s.locals.guard? with
  | none => exact refl s
  | some guard =>
    cases hc : s.thread.context? with
    | none => exact refl s
    | some c => exact h c hc

theorem idle (s : State) : Idle s fun e => Transition s .other e.state :=
  ⟨fun _ => refl s, fun _ _ => refl s⟩

/-! One transition for each kind of operation. -/

theorem threadOp (op : ThreadOp) : Transition s (op.act s) (op.apply s).state := by
  cases op with
  | attach name =>
    simp only [ThreadOp.act, ThreadOp.apply, Thread.attach]
    cases hc : s.thread.cell with
    | vacant => exact .attach name hc
    | present c => exact refl s
    | borrowed c => exact refl s
  | detach => exact withContext fun c hc => .detach hc
  | status => exact refl s
  | poll =>
    refine withContext fun c hc => ?_
    rw [s.thread.poll_eq]
    exact .resume hc
  | entries => exact (idle s).withContext fun c _ _ => refl s
  | unhandled => exact (idle s).withContext fun c _ _ => refl s
  | install settings => exact .other _ _
  | installVariable value? =>
    simp only [ThreadOp.apply]
    cases Settings.ofEnvironment fun _ => value? with
    | error e => exact refl s
    | ok settings => exact .other _ _

theorem referenceOp (op : ReferenceOp) : Transition s (op.act b s) (op.apply b s).state := by
  cases op with
  | create target representation? seed origin =>
    cases seed with
    | null => exact .null ..
    | address form operand =>
      simp only [ReferenceOp.act, ReferenceOp.apply, State.withWord]
      cases s.word? operand with
      | none => exact refl s
      | some a => exact .create ..
  | clone target source origin => exact withView fun v hv => .create ..
  | move target source => exact withView fun v hv => .transfer _ _ hv
  | drop name => exact withView fun v hv => .discard hv
  | forget name => exact withView fun v hv => .forget hv
  | inspect name => exact (idle s).withView fun v _ => refl s
  | allow name => exact withView fun v hv => .allow hv
  | foreignSlot name => exact (idle s).withView fun v _ => refl s
  | compare left right =>
    refine (idle s).withView fun v _ => (idle s).withView fun w _ => ?_
    split <;> exact refl s
  | address name => exact (idle s).withView fun v _ => refl s
  | intoAddress name => exact withView fun v hv => .discard hv
  | typedNull target kind => exact .null ..
  | narrow target source kind =>
    refine withView fun v hv => ?_
    split
    · cases s.narrowFault? b v.reference kind with
      | error why => exact refl s
      | ok fault? =>
        cases fault? with
        | none => exact .transfer _ _ hv
        | some f => exact .discard hv
    · exact refl s
  | widen target source kind =>
    refine withView fun v hv => ?_
    cases v.kind? with
    | none => exact refl s
    | some own =>
      dsimp only
      split
      · exact .transfer _ _ hv
      · exact .discard hv
  | untype target source =>
    refine withView fun v hv => ?_
    cases v.kind? with
    | none => exact refl s
    | some own => exact .transfer _ _ hv
  | cloneUntyped target source origin =>
    refine withView fun v hv => ?_
    cases v.kind? with
    | none => exact refl s
    | some own => exact .create ..

theorem heapOp (op : HeapOp) : Transition s .other (op.apply b s).state := by
  cases op with
  | alloc name kind size descriptor? => exact (idle s).alloc fun a heap _ => .other _ _
  | allocArray name kind n elementSize => exact (idle s).alloc fun a heap _ => .other _ _
  | header name => exact (idle s).withObject fun v o => refl s
  | setMark name mark => exact (idle s).withObject fun v o => .other _ _
  | typedHeader name => exact (idle s).withDescription fun d => refl s
  | length name => exact (idle s).length fun n => refl s

theorem handleOp (op : HandleOp) : Transition s (op.act b s) (op.apply b s).state := by
  cases op with
  | create target source =>
    exact withView fun v hv => withContext fun c hc => .anchor target hv hc
  | resolve target handle origin =>
    simp only [HandleOp.act, HandleOp.apply, State.withHandle, State.withContext]
    cases s.locals.handles.get? handle with
    | none => exact refl s
    | some h =>
      cases s.locals.guard? with
      | none => exact refl s
      | some guard =>
        cases s.thread.context? with
        | none => exact refl s
        | some c =>
          dsimp only
          cases b.asserts <;> cases c.anchors.address? h
          case true.none => exact refl s
          all_goals exact .create ..
  | address name => exact (idle s).withHandle fun h => (idle s).withContext fun c _ _ => refl s
  | equal left right => exact (idle s).withHandle fun h => (idle s).withHandle fun g => refl s
  | mark name =>
    refine withContext fun c hc => ?_
    have h := Transition.mark name hc
    cases hm : s.locals.marks.get? name with
    | none => simpa [hm, State.done] using h
    | some old => simpa [hm, State.done] using h
  | release name =>
    simp only [HandleOp.act, HandleOp.apply]
    cases hm : s.locals.marks.get? name with
    | none => exact refl s
    | some m => exact withContext fun c hc => .release hm hc
  | relocate source target =>
    simp only [HandleOp.act, HandleOp.apply, State.withWord]
    cases s.word? source with
    | none => exact refl s
    | some a =>
      cases s.word? target with
      | none => exact refl s
      | some d => exact withContext fun c hc => .relocate a d hc

theorem codecOp (op : CodecOp) : Transition s (op.act b s) (op.apply b s).state := by
  cases op with
  | create target base shift start stop =>
    refine (idle s).withWord fun base => (idle s).withWord fun start =>
      (idle s).withWord fun stop => ?_
    cases Codec.ofLayout base shift start stop with
    | error e => exact refl s
    | ok c => exact .other _ _
  | equal left right => exact (idle s).withCodec fun c => (idle s).withCodec fun d => refl s
  | encode codec source =>
    refine (idle s).withCodec fun c => (idle s).withView fun v _ => ?_
    cases c.encodeOrFault b.asserts v.address <;> exact refl s
  | decode target codec n origin =>
    simp only [CodecOp.act, CodecOp.apply, State.withCodec]
    cases s.locals.codecs.get? codec with
    | none => exact refl s
    | some c => exact .create ..
  | install name =>
    refine (idle s).withCodec fun c => ?_
    dsimp only
    split <;> exact .other _ _
  | installed =>
    simp only [CodecOp.apply]
    cases s.shared.codec? <;> exact refl s
  | ask query =>
    simp only [CodecOp.apply]
    cases s.shared.codec? with
    | none => exact refl s
    | some c =>
      cases query.resolve s.word? with
      | none => exact refl s
      | some q =>
        dsimp only
        cases c.answer b.asserts q <;> exact refl s

end Transition

/-- Every operation is one transition of the thread that takes it. -/
theorem Op.transition (b : Build) (s : State) (op : Op) :
    Transition s (op.act b s) (op.apply b s).state := by
  cases op with
  | thread op => exact .threadOp op
  | reference op => exact .referenceOp op
  | heap op => exact .heapOp op
  | handle op => exact .handleOp op
  | codec op => exact .codecOp op

end HeapRefs.Session
