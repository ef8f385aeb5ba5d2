import HeapRefs.Proofs.Session.Effects

/-! # Handling references

An operation on references does one thing with the variables that it names: it binds one to a new
reference or to one that is handed on, ends or forgets or allows the reference in one, or looks at
them. What follows for one of these follows for all operations that do it.
-/

namespace HeapRefs.Session

def ReferenceOp.names : ReferenceOp → List String
  | create target .. | typedNull target _ => [target]
  | clone target source _ | move target source | narrow target source _ | widen target source _
  | untype target source | cloneUntyped target source _ => [target, source]
  | compare left right => [left, right]
  | drop name | forget name | inspect name | allow name | foreignSlot name | address name
  | intoAddress name => [name]

def Op.names : Op → List String
  | .thread _ => []
  | .reference op => op.names
  | .heap op =>
    match op with
    | .header name | .setMark name _ | .typedHeader name | .length name => [name]
    | .alloc .. | .allocArray .. => []
  | .handle op =>
    match op with
    | .create _ name | .resolve name .. => [name]
    | .address _ | .equal .. | .mark _ | .release _ | .relocate .. => []
  | .codec op =>
    match op with
    | .encode _ name | .decode name .. => [name]
    | .create .. | .equal .. | .install _ | .installed | .ask _ => []

inductive Handling (s : State) (names : List String) : Effect → Prop

  | look (outcome : Outcome) : Handling s names ⟨outcome, s, []⟩

  | forget (outcome : Outcome) (name : String) : Handling s names ⟨outcome, s.unbind name, []⟩

  | discard (outcome : Outcome) {name : String} {v : View} : name ∈ names →
      s.locals.views.get? name = some v →
      Handling s names ⟨outcome, (s.unbind name).destroy v, []⟩

  | allow (outcome : Outcome) {name : String} {v : View} : name ∈ names →
      s.locals.views.get? name = some v →
      Handling s names ⟨outcome, { s with thread := s.thread.allow v.reference }, []⟩

  | bind {target : String} (v : View) : target ∈ names → Handling s names (s.bindDone target v)

  | transfer {target : String} (source : String) (v : View) : target ∈ names →
      Handling s names ((s.unbind source).bindDone target v)

  | create {target : String} (representation : Representation) (address : UInt64) (origin : Origin)
      (v : View) : target ∈ names →
      Handling s names ((s.create representation address origin).2.bindDone target v)

variable {b : Build} {s : State}

theorem ReferenceOp.handling (op : ReferenceOp) : Handling s op.names (op.apply b s) := by
  have idle : Idle s (Handling s op.names) := ⟨fun _ => .look _, fun _ _ => .look _⟩
  have first {x y : String} : x ∈ [x, y] := .head _
  have second {x y : String} : y ∈ [x, y] := .tail _ (.head _)
  cases op with
  | create target representation? seed origin =>
    cases seed with
    | null => exact .bind _ (.head _)
    | address form operand => exact idle.withWord fun a => .create _ _ _ _ (.head _)
  | clone target source origin => exact idle.withView fun v _ => .create _ _ _ _ first
  | move target source => exact idle.withView fun v _ => .transfer source v first
  | drop name => exact idle.withView fun v hv => .discard _ (.head _) hv
  | forget name => exact idle.withView fun v _ => .forget _ name
  | inspect name => exact idle.withView fun v _ => .look _
  | allow name => exact idle.withView fun v hv => .allow _ (.head _) hv
  | foreignSlot name => exact idle.withView fun v _ => .look _
  | compare left right =>
    refine idle.withView fun v _ => idle.withView fun w _ => ?_
    split <;> exact .look _
  | address name => exact idle.withView fun v _ => .look _
  | intoAddress name => exact idle.withView fun v hv => .discard _ (.head _) hv
  | typedNull target kind => exact .bind _ (.head _)
  | narrow target source kind =>
    refine idle.withView fun v hv => ?_
    split
    · obtain hf | ⟨actual, hf⟩ | hf := s.narrowFault?_cases b v.reference kind
      · rw [hf]
        exact .transfer source _ first
      · rw [hf]
        exact .discard _ second hv
      · rw [hf]
        exact .look _
    · exact .look _
  | widen target source kind =>
    refine idle.withView fun v hv => ?_
    cases v.kind? with
    | none => exact .look _
    | some own =>
      dsimp only
      split
      · exact .transfer source _ first
      · exact .discard _ second hv
  | untype target source =>
    refine idle.withView fun v _ => ?_
    cases v.kind? with
    | none => exact .look _
    | some own => exact .transfer source _ first
  | cloneUntyped target source origin =>
    refine idle.withView fun v _ => ?_
    cases v.kind? with
    | none => exact .look _
    | some own => exact .create _ _ _ _ first

end HeapRefs.Session
