import HeapRefs.Proofs.Session.Frame
import HeapRefs.Proofs.Session.Handling

/-! # Quiet operations

Operations on references and on handles change nothing that threads share, and log nothing. The heap
is changed by operations on objects alone, and these log nothing either.
-/

namespace HeapRefs.Session

/-- The effect leaves what threads share as it is in the state, and logs nothing. -/
structure Effect.Quiet (s : State) (e : Effect) : Prop where
  shared : e.state.shared = s.shared
  log : e.log = []

namespace Effect.Quiet

variable {s t : State}

theorem done {a : Answer} (h : t.shared = s.shared) : (t.done a).Quiet s := ⟨h, rfl⟩

theorem failed {f : Failure} (h : t.shared = s.shared) : (t.failed f).Quiet s := ⟨h, rfl⟩

theorem refused (s : State) (why : Refusal) : (s.refused why).Quiet s := ⟨rfl, rfl⟩

theorem idle (s : State) : Idle s (Quiet s) := ⟨refused s, fun _ _ => ⟨rfl, rfl⟩⟩

theorem bindDone {target : String} {v : View} (h : t.shared = s.shared) :
    (t.bindDone target v).Quiet s := by
  refine .done (Eq.trans ?_ h)
  rw [State.bind_eq]

end Effect.Quiet

open Effect (Quiet)

variable {b : Build} {s : State}

theorem Handling.quiet {names : List String} {e : Effect} (h : Handling s names e) : e.Quiet s := by
  cases h with
  | look | forget | discard | allow => exact ⟨rfl, rfl⟩
  | bind | transfer | create => exact .bindDone rfl

theorem ReferenceOp.quiet (op : ReferenceOp) : (op.apply b s).Quiet s := op.handling.quiet

theorem HandleOp.quiet (op : HandleOp) : (op.apply b s).Quiet s := by
  have idle := Quiet.idle s
  cases op with
  | create target source =>
    exact idle.withView fun v _ => idle.withContext fun c _ _ => .done rfl
  | resolve target handle origin =>
    refine idle.withHandle fun h => idle.withContext fun c _ _ => ?_
    cases b.asserts <;> cases c.anchors.address? h
    case true.none => exact .failed rfl
    all_goals exact .bindDone rfl
  | address name => exact idle.withHandle fun h => idle.withContext fun c _ _ => .done rfl
  | equal left right => exact idle.withHandle fun h => idle.withHandle fun g => .done rfl
  | mark name => exact idle.withContext fun c _ _ => .done rfl
  | release name =>
    simp only [HandleOp.apply]
    cases s.locals.marks.get? name with
    | none => exact .refused _ _
    | some m => exact idle.withContext fun c _ _ => .done rfl
  | relocate source target =>
    exact idle.withWord fun a => idle.withWord fun d => idle.withContext fun c _ _ => .done rfl

theorem CodecOp.quiet (op : CodecOp) (h : (Op.codec op).reframes = false) :
    (op.apply b s).Quiet s := by
  have idle := Quiet.idle s
  cases op with
  | install name => cases h
  | create target base shift start stop =>
    refine idle.withWord fun base => idle.withWord fun start => idle.withWord fun stop => ?_
    cases Codec.ofLayout base shift start stop with
    | error e => exact .failed rfl
    | ok c => exact .done rfl
  | equal left right => exact idle.withCodec fun c => idle.withCodec fun d => .done rfl
  | encode codec source =>
    refine idle.withCodec fun c => idle.withView fun v _ => ?_
    cases c.encodeOrFault b.asserts v.address with
    | ok n => exact .done rfl
    | error e => exact .failed rfl
  | decode target codec n origin => exact idle.withCodec fun c => .bindDone rfl
  | installed =>
    simp only [CodecOp.apply]
    cases s.shared.codec? <;> exact .done rfl
  | ask query =>
    simp only [CodecOp.apply]
    cases s.shared.codec? with
    | none => exact .refused _ _
    | some c =>
      cases query.resolve s.word? with
      | none => exact .refused _ _
      | some q =>
        dsimp only
        cases c.answer b.asserts q with
        | ok a => exact .done rfl
        | error e => exact .failed rfl

theorem HeapOp.log_eq (op : HeapOp) : (op.apply b s).log = [] := by
  have idle : Idle s fun e => e.log = [] := ⟨fun _ => rfl, fun _ _ => rfl⟩
  cases op with
  | alloc name kind size descriptor? => exact idle.alloc fun a heap _ => rfl
  | allocArray name kind n elementSize => exact idle.alloc fun a heap _ => rfl
  | header name => exact idle.withObject fun v o => rfl
  | setMark name mark => exact idle.withObject fun v o => rfl
  | typedHeader name => exact idle.withDescription fun d => rfl
  | length name => exact idle.length fun n => rfl

theorem ThreadOp.heap_eq (op : ThreadOp) : (op.apply s).state.shared.heap = s.shared.heap := by
  have idle : Idle s fun e => e.state.shared.heap = s.shared.heap := ⟨fun _ => rfl, fun _ _ => rfl⟩
  cases op with
  | attach name =>
    rw [ThreadOp.apply]
    cases s.thread.attach name <;> rfl
  | detach => exact idle.withContext fun c _ _ => rfl
  | status => rfl
  | poll => exact idle.withContext fun c _ _ => rfl
  | entries => exact idle.withContext fun c _ _ => rfl
  | unhandled => exact idle.withContext fun c _ _ => rfl
  | install settings => rfl
  | installVariable value? =>
    rw [ThreadOp.apply]
    cases Settings.ofEnvironment fun _ => value? <;> rfl

theorem CodecOp.heap_eq (op : CodecOp) : (op.apply b s).state.shared.heap = s.shared.heap := by
  obtain h | ⟨name, h⟩ | h | ⟨name, h⟩ := (Op.codec op).reframes_cases
  · rw [(op.quiet h).shared]
  · cases h
  · cases h
  · cases h
    obtain ⟨-, he⟩ | ⟨c, -, codec?, he | ⟨content, he⟩⟩ := install_cases b s name
    all_goals exact he ▸ rfl

end HeapRefs.Session
