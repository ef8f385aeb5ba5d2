import HeapRefs.Proofs.Object.Growth
import HeapRefs.Proofs.Session.Frame

/-! # Typed variables

With assertions on, what a typed variable refers to is within its kind: narrowing looks at the
object, widening at the kinds, and no operation takes an object away or gives it another descriptor.
-/

namespace HeapRefs.Session

/-- Every typed view in a variable is null or is of a kind that its object is within. -/
def State.Typed (s : State) : Prop :=
  ∀ name v, s.locals.views.get? name = some v → s.shared.heap.Fits v

/-- The effect keeps all objects and, with assertions on, the views typed. -/
structure Effect.KeepsTypes (b : Build) (s : State) (e : Effect) : Prop where
  grows : s.shared.heap.Grows e.state.shared.heap
  typed : b.asserts = true → s.Typed → e.state.Typed

variable {b : Build} {s t : State}

namespace State

theorem get?_unbind {name other : String} {v : View}
    (h : (s.unbind name).locals.views.get? other = some v) :
    s.locals.views.get? other = some v := by
  simp only [unbind, Bindings.get?_erase] at h
  split at h
  · cases h
  · exact h

theorem typed_start (shared : Shared) (thread : Thread) : (start shared thread).Typed :=
  fun _ _ h => nomatch h

namespace Typed

theorem of_views (h : s.Typed) (hg : s.shared.heap.Grows t.shared.heap)
    (hv : ∀ name v, t.locals.views.get? name = some v → s.locals.views.get? name = some v) :
    t.Typed := by
  intro name v hn
  exact (h name v (hv name v hn)).grows hg

theorem bind (h : s.Typed) {name : String} {v : View} (hf : s.shared.heap.Fits v) :
    (s.bind name v).Typed := by
  rw [bind_eq]
  intro other w hw
  simp only [Bindings.get?_set] at hw
  split at hw
  · obtain rfl := Option.some.inj hw
    exact hf
  · exact h other w hw

end Typed

theorem narrowFault?_eq_ok_none_iff (hb : b.asserts = true) {r : Reference} {kind : ObjectKind} :
    s.narrowFault? b r kind = .ok none ↔ s.shared.heap.Fits ⟨r, some kind⟩ := by
  rw [Heap.fits_some_iff, narrowFault?, hb, Reference.isNull, Heap.kindAt?]
  by_cases hn : r.address = 0
  · simp [hn]
  · cases ho : s.shared.heap.find? r.address with
    | none => simp [hn]
    | some o =>
      cases hw : o.header.kind.isWithin kind <;> simp [hn, hw]

end State

namespace Effect.KeepsTypes

theorem of_views {e : Effect} (hg : s.shared.heap.Grows e.state.shared.heap)
    (hv : ∀ name v,
      e.state.locals.views.get? name = some v → s.locals.views.get? name = some v) :
    e.KeepsTypes b s :=
  ⟨hg, fun _ h => h.of_views hg hv⟩

theorem of_eq {e : Effect} (hh : e.state.shared.heap = s.shared.heap)
    (hv : e.state.locals.views = s.locals.views) : e.KeepsTypes b s :=
  of_views (hh ▸ .refl _) fun _ _ hn => hv ▸ hn

theorem idle (s : State) : Idle s (KeepsTypes b s) :=
  ⟨fun _ => of_eq rfl rfl, fun _ _ => of_eq rfl rfl⟩

theorem unbind {e : Effect} {name : String} (hh : e.state.shared.heap = s.shared.heap)
    (hv : e.state.locals.views = (s.unbind name).locals.views) : e.KeepsTypes b s :=
  of_views (hh ▸ .refl _) fun _ _ hn => State.get?_unbind (hv ▸ hn)

theorem bindDone {target : String} {v : View} (hh : t.shared.heap = s.shared.heap)
    (hv : ∀ name w, t.locals.views.get? name = some w → s.locals.views.get? name = some w)
    (hf : b.asserts = true → s.Typed → s.shared.heap.Fits v) :
    (t.bindDone target v).KeepsTypes b s := by
  have hg : s.shared.heap.Grows t.shared.heap := hh ▸ .refl _
  constructor
  · rw [State.bindDone, State.bind_eq]
    exact hg
  · intro hb h
    have ht : t.Typed := h.of_views hg hv
    exact ht.bind ((hf hb h).grows hg)

theorem bindUntyped {target : String} {r : Reference} (hh : t.shared.heap = s.shared.heap)
    (hv : ∀ name w, t.locals.views.get? name = some w → s.locals.views.get? name = some w) :
    (t.bindDone target ⟨r, none⟩).KeepsTypes b s :=
  .bindDone hh hv fun _ _ => Heap.fits_untyped _ _

end Effect.KeepsTypes

open Effect (KeepsTypes)

theorem ReferenceOp.keepsTypes (op : ReferenceOp) : (op.apply b s).KeepsTypes b s := by
  have idle := KeepsTypes.idle (b := b) s
  cases op with
  | create target representation? seed origin =>
    cases seed with
    | null => exact .bindUntyped rfl fun _ _ => id
    | address form operand => exact idle.withWord fun a => .bindUntyped rfl fun _ _ => id
  | clone target source origin =>
    refine idle.withView fun v hv => .bindDone rfl (fun _ _ => id) fun _ h => ?_
    exact (h source v hv).of_address_eq (Thread.address_create ..)
  | move target source =>
    exact idle.withView fun v hv =>
      .bindDone rfl (fun _ _ => State.get?_unbind) fun _ h => h source v hv
  | drop name => exact idle.withView fun v _ => .unbind rfl rfl
  | forget name => exact idle.withView fun v _ => .unbind rfl rfl
  | inspect name => exact idle.withView fun v _ => .of_eq rfl rfl
  | allow name => exact idle.withView fun v _ => .of_eq rfl rfl
  | foreignSlot name => exact idle.withView fun v _ => .of_eq rfl rfl
  | compare left right =>
    refine idle.withView fun v _ => idle.withView fun w _ => ?_
    split <;> exact .of_eq rfl rfl
  | address name => exact idle.withView fun v _ => .of_eq rfl rfl
  | intoAddress name => exact idle.withView fun v _ => .unbind rfl rfl
  | typedNull target kind => exact .bindDone rfl (fun _ _ => id) fun _ _ => Heap.fits_null _ _ _
  | narrow target source kind =>
    refine idle.withView fun v _ => ?_
    split
    · cases hn : s.narrowFault? b v.reference kind with
      | error why => exact .of_eq rfl rfl
      | ok fault? =>
        cases fault? with
        | none =>
          exact .bindDone rfl (fun _ _ => State.get?_unbind)
            fun hb _ => (State.narrowFault?_eq_ok_none_iff hb).mp hn
        | some f => exact .unbind rfl rfl
    · exact .of_eq rfl rfl
  | widen target source kind =>
    refine idle.withView fun v hv => ?_
    obtain ⟨r, kind?⟩ := v
    cases kind? with
    | none => exact .of_eq rfl rfl
    | some own =>
      dsimp only
      split
      · next hw =>
        exact .bindDone rfl (fun _ _ => State.get?_unbind) fun _ h => (h source _ hv).widen hw
      · exact .unbind rfl rfl
  | untype target source =>
    refine idle.withView fun v _ => ?_
    cases v.kind? with
    | none => exact .of_eq rfl rfl
    | some own => exact .bindUntyped rfl fun _ _ => State.get?_unbind
  | cloneUntyped target source origin =>
    refine idle.withView fun v _ => ?_
    cases v.kind? with
    | none => exact .of_eq rfl rfl
    | some own => exact .bindUntyped rfl fun _ _ => id

theorem HeapOp.keepsTypes (op : HeapOp) : (op.apply b s).KeepsTypes b s := by
  have idle := KeepsTypes.idle (b := b) s
  cases op with
  | alloc name kind size descriptor? =>
    exact idle.alloc fun a heap ha => .of_views (Heap.grows_alloc? ha) fun _ _ => id
  | allocArray name kind n elementSize =>
    exact idle.alloc fun a heap ha => .of_views (Heap.grows_alloc? ha) fun _ _ => id
  | header name => exact idle.withObject fun v o => .of_eq rfl rfl
  | setMark name mark =>
    exact idle.withObject fun v o => .of_views (Heap.grows_setMark _ _ _) fun _ _ => id
  | typedHeader name =>
    rw [apply]
    exact idle.withDescription fun d => .of_eq rfl rfl
  | length name => exact idle.length fun n => .of_eq rfl rfl

theorem HandleOp.keepsTypes (op : HandleOp) : (op.apply b s).KeepsTypes b s := by
  have idle := KeepsTypes.idle (b := b) s
  cases op with
  | create target source =>
    exact idle.withView fun v _ => idle.withContext fun c _ _ => .of_eq rfl rfl
  | resolve target handle origin =>
    refine idle.withHandle fun h => idle.withContext fun c _ _ => ?_
    cases b.asserts <;> cases c.anchors.address? h
    case true.none => exact .of_eq rfl rfl
    all_goals exact .bindUntyped rfl fun _ _ => id
  | address name => exact idle.withHandle fun h => idle.withContext fun c _ _ => .of_eq rfl rfl
  | equal left right => exact idle.withHandle fun h => idle.withHandle fun g => .of_eq rfl rfl
  | mark name => exact idle.withContext fun c _ _ => .of_eq rfl rfl
  | release name =>
    rw [HandleOp.apply]
    cases s.locals.marks.get? name with
    | none => exact .of_eq rfl rfl
    | some m => exact idle.withContext fun c _ _ => .of_eq rfl rfl
  | relocate source target =>
    exact idle.withWord fun a => idle.withWord fun d =>
      idle.withContext fun c _ _ => .of_eq rfl rfl

theorem CodecOp.keepsTypes (op : CodecOp) : (op.apply b s).KeepsTypes b s := by
  have idle := KeepsTypes.idle (b := b) s
  cases op with
  | create target base shift start stop =>
    refine idle.withWord fun base => idle.withWord fun start => idle.withWord fun stop => ?_
    cases Codec.ofLayout base shift start stop <;> exact .of_eq rfl rfl
  | equal left right => exact idle.withCodec fun c => idle.withCodec fun d => .of_eq rfl rfl
  | encode codec source =>
    refine idle.withCodec fun c => idle.withView fun v _ => ?_
    cases c.encodeOrFault b.asserts v.address <;> exact .of_eq rfl rfl
  | decode target codec n origin =>
    exact idle.withCodec fun c => .bindUntyped rfl fun _ _ => id
  | install name =>
    obtain ⟨-, he⟩ | ⟨c, -, codec?, he | ⟨content, he⟩⟩ := CodecOp.install_cases b s name
    all_goals rw [he]; exact .of_eq rfl rfl
  | installed =>
    rw [CodecOp.apply]
    cases s.shared.codec? <;> exact .of_eq rfl rfl
  | ask query =>
    rw [CodecOp.apply]
    cases s.shared.codec? with
    | none => exact .of_eq rfl rfl
    | some c =>
      cases query.resolve s.word? with
      | none => exact .of_eq rfl rfl
      | some q =>
        dsimp only
        cases c.answer b.asserts q <;> exact .of_eq rfl rfl

theorem ThreadOp.keepsTypes (op : ThreadOp) : (op.apply s).KeepsTypes b s := by
  have idle := KeepsTypes.idle (b := b) s
  cases op with
  | attach name =>
    rw [ThreadOp.apply]
    cases s.thread.attach name <;> exact .of_eq rfl rfl
  | detach => exact idle.withContext fun c _ _ => .of_eq rfl rfl
  | status => exact .of_eq rfl rfl
  | poll => exact idle.withContext fun c _ _ => .of_eq rfl rfl
  | entries => exact idle.withContext fun c _ _ => .of_eq rfl rfl
  | unhandled => exact idle.withContext fun c _ _ => .of_eq rfl rfl
  | install settings => exact .of_eq rfl rfl
  | installVariable value? =>
    rw [ThreadOp.apply]
    cases Settings.ofEnvironment fun _ => value? <;> exact .of_eq rfl rfl

theorem Op.keepsTypes (op : Op) : (op.apply b s).KeepsTypes b s := by
  cases op with
  | thread op => exact op.keepsTypes
  | reference op => exact op.keepsTypes
  | heap op => exact op.keepsTypes
  | handle op => exact op.keepsTypes
  | codec op => exact op.keepsTypes

end HeapRefs.Session
