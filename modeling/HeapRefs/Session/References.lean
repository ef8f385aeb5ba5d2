import HeapRefs.Session.State

/-! # Operations on references

Making or cloning a reference may register it; moving, narrowing, widening and untyping keep the
reference as it is. An operation that takes its source away takes it away also when it fails, and
then destroys it.
-/

namespace HeapRefs.Session

/-- What is wrong with narrowing a reference to a kind. With assertions on, the object that it
refers to must be within the kind; null is within all. -/
def State.narrowFault? (s : State) (b : Build) (r : Reference) (kind : ObjectKind) :
    Except Refusal (Option Fault) :=
  if b.asserts && !r.isNull then
    match s.shared.heap.kindAt? r.address with
    | none => .error (.noObject r.address)
    | some actual =>
      if actual.isWithin kind then .ok none
      else .ok (some (.wrongKind r.representation r.address actual kind))
  else .ok none

theorem State.narrowFault?_cases (s : State) (b : Build) (r : Reference) (kind : ObjectKind) :
    s.narrowFault? b r kind = .ok none ∨
      (∃ actual, s.narrowFault? b r kind =
        .ok (some (.wrongKind r.representation r.address actual kind))) ∨
      s.narrowFault? b r kind = .error (.noObject r.address) := by
  unfold State.narrowFault?
  split
  · cases s.shared.heap.kindAt? r.address with
    | none => exact .inr (.inr rfl)
    | some actual =>
      dsimp only
      split
      · exact .inl rfl
      · exact .inr (.inl ⟨actual, rfl⟩)
  · exact .inl rfl

namespace ReferenceOp

def apply (b : Build) (s : State) : ReferenceOp → Effect
  | create target representation? seed origin =>
    let representation := representation?.getD b.managed
    match seed with
    | .null => s.bindDone target ⟨.null representation, none⟩
    | .address _ operand =>
      s.withWord operand fun a =>
        let (r, s) := s.create representation a origin
        s.bindDone target ⟨r, none⟩
  | clone target source origin =>
    s.withView source fun v =>
      let (r, s) := s.create v.reference.representation v.address origin
      s.bindDone target ⟨r, v.kind?⟩
  | move target source => s.withView source fun v => (s.unbind source).bindDone target v
  | drop name =>
    s.withView name fun v => ((s.unbind name).destroy v).done (.done .dropped)
  | forget name => s.withView name fun _ => (s.unbind name).done (.done .forgotten)
  | inspect name => s.withView name fun v => s.done (.view v)
  | allow name =>
    s.withView name fun v =>
      State.done { s with thread := s.thread.allow v.reference } (.done .allowed)
  | foreignSlot name => s.withView name fun _ => s.done .nothing
  | compare left right =>
    s.withView left fun v =>
      s.withView right fun w =>
        if v.comparable w then s.done (.comparison (v.reference.compare w.reference))
        else s.refused .notComparable
  | address name => s.withView name fun v => s.done (.address v.address)
  | intoAddress name =>
    s.withView name fun v => ((s.unbind name).destroy v).done (.address v.address)
  | typedNull target kind => s.bindDone target ⟨.null b.managed, some kind⟩
  | narrow target source kind =>
    s.withView source fun v =>
      if v.kind? = none ∧ v.reference.representation = b.managed then
        match s.narrowFault? b v.reference kind with
        | .error why => s.refused why
        | .ok (some f) => ((s.unbind source).destroy v).fault f
        | .ok none => (s.unbind source).bindDone target ⟨v.reference, some kind⟩
      else s.refused (.notUntyped source)
  | widen target source kind =>
    s.withView source fun v =>
      match v.kind? with
      | none => s.refused (.notTyped source)
      | some own =>
        if own.isWithin kind then (s.unbind source).bindDone target ⟨v.reference, some kind⟩
        else ((s.unbind source).destroy v).fault (.notAbove kind own)
  | untype target source =>
    s.withView source fun v =>
      match v.kind? with
      | none => s.refused (.notTyped source)
      | some _ => (s.unbind source).bindDone target ⟨v.reference, none⟩
  | cloneUntyped target source origin =>
    s.withView source fun v =>
      match v.kind? with
      | none => s.refused (.notTyped source)
      | some _ =>
        let (r, s) := s.create v.reference.representation v.address origin
        s.bindDone target ⟨r, none⟩

end ReferenceOp

end HeapRefs.Session
