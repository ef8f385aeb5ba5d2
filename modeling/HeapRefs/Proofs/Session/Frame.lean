import HeapRefs.Proofs.Session.Effects
import HeapRefs.Proofs.Session.Reachable

/-! # What operations leave alone

A thread is attached and detached, and a codec is installed, by one operation each. All others keep
the guard and the installed codec, touch the marks only while there is a guard, and miss a context
only if there is a guard without one.
-/

namespace HeapRefs

def Record.codec? (r : Record) : Option Codec :=
  match r.event with
  | .codecInstalled c => some c
  | _ => none

namespace Session

/-- The operations that attach or detach the thread, or install a codec. -/
def Op.reframes : Op → Bool
  | .thread (.attach _) | .thread .detach | .codec (.install _) => true
  | _ => false

def Outcome.foundContext (outcome : Outcome) : Bool := outcome != .failed (.fault .noContext)

/-- What no other operation changes, marks of an attached thread apart. -/
def State.frame (s : State) : Option Codec × Option String × Bindings Mark :=
  (s.shared.codec?, s.locals.guard?, s.locals.marks)

/-- The effect leaves the installed codec and the guard as they are in the state, and is no failure
to find a context that is there. -/
structure Effect.Frames (s : State) (e : Effect) : Prop where
  codec : e.state.shared.codec? = s.shared.codec?
  log : e.log.filterMap Record.codec? = []
  guard : e.state.locals.guard? = s.locals.guard?
  marks : e.state.locals.marks = s.locals.marks ∨ s.locals.guard?.isSome = true
  context : e.outcome.foundContext = true ∨
    s.locals.guard?.isSome = true ∧ s.thread.context? = none

namespace Effect.Frames

variable {s t : State}

theorem done {a : Answer} (h : t.frame = s.frame) : (t.done a).Frames s where
  codec := congrArg (·.1) h
  log := rfl
  guard := congrArg (·.2.1) h
  marks := .inl (congrArg (·.2.2) h)
  context := .inl rfl

theorem failed {f : Failure} (h : t.frame = s.frame)
    (hf : (Outcome.failed f).foundContext = true) : (t.failed f).Frames s where
  codec := congrArg (·.1) h
  log := rfl
  guard := congrArg (·.2.1) h
  marks := .inl (congrArg (·.2.2) h)
  context := .inl hf

theorem refused (s : State) (why : Refusal) : (s.refused why).Frames s :=
  ⟨rfl, rfl, rfl, .inl rfl, .inl rfl⟩

theorem idle (s : State) : Idle s (Frames s) :=
  ⟨refused s, fun hg hc => ⟨rfl, rfl, rfl, .inl rfl, .inr ⟨hg, hc⟩⟩⟩

theorem bindDone {target : String} {v : View} (h : t.frame = s.frame) :
    (t.bindDone target v).Frames s := by
  refine .done (Eq.trans ?_ h)
  rw [State.bind_eq]
  rfl

end Effect.Frames

open Effect (Frames)

variable {b : Build} {s : State}

theorem ReferenceOp.frames (op : ReferenceOp) : (op.apply b s).Frames s := by
  have idle := Frames.idle s
  cases op with
  | create target representation? seed origin =>
    cases seed with
    | null => exact .bindDone rfl
    | address form operand => exact idle.withWord fun a => .bindDone rfl
  | clone target source origin => exact idle.withView fun v _ => .bindDone rfl
  | move target source => exact idle.withView fun v _ => .bindDone rfl
  | drop name => exact idle.withView fun v _ => .done rfl
  | forget name => exact idle.withView fun v _ => .done rfl
  | inspect name => exact idle.withView fun v _ => .done rfl
  | allow name => exact idle.withView fun v _ => .done rfl
  | foreignSlot name => exact idle.withView fun v _ => .done rfl
  | compare left right =>
    refine idle.withView fun v _ => idle.withView fun w _ => ?_
    split
    · exact .done rfl
    · exact .refused _ _
  | address name => exact idle.withView fun v _ => .done rfl
  | intoAddress name => exact idle.withView fun v _ => .done rfl
  | typedNull target kind => exact .bindDone rfl
  | narrow target source kind =>
    refine idle.withView fun v _ => ?_
    split
    · obtain hf | ⟨actual, hf⟩ | hf := s.narrowFault?_cases b v.reference kind
      · rw [hf]
        exact .bindDone rfl
      · rw [hf]
        exact .failed rfl rfl
      · rw [hf]
        exact .refused _ _
    · exact .refused _ _
  | widen target source kind =>
    refine idle.withView fun v _ => ?_
    cases v.kind? with
    | none => exact .refused _ _
    | some own =>
      dsimp only
      split
      · exact .bindDone rfl
      · exact .failed rfl rfl
  | untype target source =>
    refine idle.withView fun v _ => ?_
    cases v.kind? with
    | none => exact .refused _ _
    | some own => exact .bindDone rfl
  | cloneUntyped target source origin =>
    refine idle.withView fun v _ => ?_
    cases v.kind? with
    | none => exact .refused _ _
    | some own => exact .bindDone rfl

theorem HeapOp.frames (op : HeapOp) : (op.apply b s).Frames s := by
  have idle := Frames.idle s
  cases op with
  | alloc name kind size descriptor? => exact idle.alloc fun a heap _ => .done rfl
  | allocArray name kind n elementSize => exact idle.alloc fun a heap _ => .done rfl
  | header name => exact idle.withObject fun v o => .done rfl
  | setMark name mark => exact idle.withObject fun v o => .done rfl
  | typedHeader name =>
    rw [apply]
    exact idle.withDescription fun d => .done rfl
  | length name => exact idle.length fun n => .done rfl

theorem HandleOp.frames (op : HandleOp) : (op.apply b s).Frames s := by
  have idle := Frames.idle s
  cases op with
  | create target source =>
    exact idle.withView fun v _ => idle.withContext fun c _ _ => .done rfl
  | resolve target handle origin =>
    refine idle.withHandle fun h => idle.withContext fun c _ _ => ?_
    cases b.asserts <;> cases c.anchors.address? h
    case true.none => exact .failed rfl rfl
    all_goals exact .bindDone rfl
  | address name => exact idle.withHandle fun h => idle.withContext fun c _ _ => .done rfl
  | equal left right => exact idle.withHandle fun h => idle.withHandle fun g => .done rfl
  | mark name => exact idle.withContext fun c hg _ => ⟨rfl, rfl, rfl, .inr hg, .inl rfl⟩
  | release name =>
    simp only [HandleOp.apply]
    cases s.locals.marks.get? name with
    | none => exact .refused _ _
    | some m => exact idle.withContext fun c hg _ => ⟨rfl, rfl, rfl, .inr hg, .inl rfl⟩
  | relocate source target =>
    exact idle.withWord fun a => idle.withWord fun d => idle.withContext fun c _ _ => .done rfl

theorem foundContext_of_answer {c : Codec} {asserts : Bool} {q : Query UInt64} {e : Failure}
    (h : c.answer asserts q = .error e) : (Outcome.failed e).foundContext = true := by
  cases q with
  | encodeFast a =>
    simp only [Codec.answer, Codec.encodeOrFault] at h
    cases he : c.encodeFast asserts a with
    | ok n => simp [he] at h
    | error cause =>
      obtain rfl : .fault (.unencodable a cause) = e := by simpa [he] using h
      rfl
  | encode a | encodeDecode a | decodeEncode n =>
    rw [Codec.answer] at h
    split at h
    · cases h
    · obtain rfl := Except.error.inj h
      rfl
  | decode n | covers a => cases h

theorem CodecOp.frames (op : CodecOp) (h : (Op.codec op).reframes = false) :
    (op.apply b s).Frames s := by
  have idle := Frames.idle s
  cases op with
  | install name => cases h
  | create target base shift start stop =>
    refine idle.withWord fun base => idle.withWord fun start => idle.withWord fun stop => ?_
    cases Codec.ofLayout base shift start stop with
    | error e => exact .failed rfl rfl
    | ok c => exact .done rfl
  | equal left right => exact idle.withCodec fun c => idle.withCodec fun d => .done rfl
  | encode codec source =>
    refine idle.withCodec fun c => idle.withView fun v _ => ?_
    unfold Codec.encodeOrFault
    cases c.encodeFast b.asserts v.address with
    | ok n => exact .done rfl
    | error e => exact .failed rfl rfl
  | decode target codec n origin => exact idle.withCodec fun c => .bindDone rfl
  | installed =>
    simp only [CodecOp.apply]
    cases s.shared.codec? <;> exact .done rfl
  | ask query =>
    simp only [CodecOp.apply]
    cases s.shared.codec? with
    | none => exact .refused _ _
    | some c =>
      cases query.resolve s.word? with
      | none => exact .refused _ _
      | some q =>
        dsimp only
        cases he : c.answer b.asserts q with
        | ok a => exact .done rfl
        | error e => exact .failed rfl (foundContext_of_answer he)

theorem ThreadOp.frames_install (settings : Settings) : (s.install settings).Frames s :=
  ⟨rfl, rfl, rfl, .inl rfl, .inl rfl⟩

theorem ThreadOp.frames_poll : (ThreadOp.poll.apply s).Frames s := by
  refine (Frames.idle s).withContext fun c _ _ => ⟨rfl, ?_, rfl, .inl rfl, ?_⟩
  · simp [s.thread.poll_eq, Record.codec?]
  · simp only [s.thread.poll_eq]
    cases c.unhandled.isEmpty <;> exact .inl rfl

theorem ThreadOp.frames (op : ThreadOp) (h : (Op.thread op).reframes = false) :
    (op.apply s).Frames s := by
  have idle := Frames.idle s
  cases op with
  | attach name => cases h
  | detach => cases h
  | status => exact .done rfl
  | poll => exact frames_poll
  | entries => exact idle.withContext fun c _ _ => .done rfl
  | unhandled => exact idle.withContext fun c _ _ => .done rfl
  | install settings => exact frames_install settings
  | installVariable value? =>
    simp only [ThreadOp.apply]
    cases Settings.ofEnvironment fun _ => value? with
    | error e => exact .failed rfl rfl
    | ok settings => exact frames_install settings

/-- All operations but three leave the frame alone. -/
theorem Op.frames {op : Op} (h : op.reframes = false) : (op.apply b s).Frames s := by
  cases op with
  | thread op => exact op.frames h
  | reference op => exact op.frames
  | heap op => exact op.frames
  | handle op => exact op.frames
  | codec op => exact op.frames h

theorem Op.reframes_cases (op : Op) :
    op.reframes = false ∨ (∃ name, op = .thread (.attach name)) ∨ op = .thread .detach ∨
      ∃ name, op = .codec (.install name) := by
  unfold reframes
  split <;> simp

theorem CodecOp.install_cases (b : Build) (s : State) (name : String) :
    (s.locals.codecs.get? name = none ∧
      (install name).apply b s = s.refused (.unbound name)) ∨
    ∃ c, s.locals.codecs.get? name = some c ∧ ∃ codec?,
      let t : State := { s with shared := { s.shared with codec? } }
      (install name).apply b s = t.failed .codecInUse ∨
        ∃ content, (install name).apply b s =
          ⟨.done (.codec content), t, [t.record (.codecInstalled content)]⟩ := by
  simp only [apply, State.withCodec]
  cases s.locals.codecs.get? name with
  | none => exact .inl ⟨rfl, rfl⟩
  | some c =>
    refine .inr ⟨c, rfl, (s.shared.installCodec b.platform.once c).2.codec?, ?_⟩
    dsimp only
    cases (s.shared.installCodec b.platform.once c).1 with
    | none => exact .inl rfl
    | some content => exact .inr ⟨content, rfl⟩

end Session

end HeapRefs
