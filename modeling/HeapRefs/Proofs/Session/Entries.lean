import HeapRefs.Proofs.Session.Agreement
import HeapRefs.Proofs.Session.Handling

/-! # The entries that operations touch

As long as its thread stays attached, an operation removes or changes no entries but those of the
references in the variables that it names, and makes none but in the next slot. A reference that is
not registered in the present attachment has no entry, so that what is done with it touches nothing.
-/

namespace HeapRefs.Session

/-- From one registry to the other, all entries are kept but those of references in the variables,
and all slots are old but the next one. -/
structure Registry.Spares (s : State) (names : List String) (r r' : Registry) : Prop where
  kept : ∀ e ∈ r.stored, e.slot ≠ s.thread.nextSlot →
    (∀ name ∈ names, ∀ x, s.held? name = some x → x.slot? ≠ some e.slot) → e ∈ r'.stored
  slots : ∀ e ∈ r'.stored, (∃ y ∈ r.stored, y.slot = e.slot) ∨ e.slot = s.thread.nextSlot

/-- From one state to the other the registry, if there is one, is spared but for the variables. -/
def State.Spares (s : State) (names : List String) (t : State) : Prop :=
  ∃ f : Registry → Registry, t.thread.registrations? = s.thread.registrations?.map f ∧
    ∀ r, Registry.Spares s names r (f r)

variable {b : Build} {s t : State} {names : List String} {name source target : String} {v : View}

namespace State.Spares

theorem of_eq (h : t.thread.registrations? = s.thread.registrations?) : s.Spares names t := by
  refine ⟨fun r => r, by rw [h, Option.map_id'], fun r => ⟨fun e he _ _ => he, fun e he => ?_⟩⟩
  exact .inl ⟨e, he, rfl⟩

theorem discard (hv : s.locals.views.get? name = some v) (hn : name ∈ names) :
    s.Spares names ((s.unbind name).destroy v) := by
  refine ⟨(·.eraseOf v.reference), ?_, fun r => ⟨fun e he _ hnamed => ?_, fun e he => ?_⟩⟩
  · rw [State.destroy, Thread.destroy_eq]
    exact Thread.registrations?_mapRegistry ..
  · exact Registry.mem_eraseOf.mpr ⟨he, hnamed name hn _ (Ledger.Agrees.held?_eq_some hv)⟩
  · exact .inl ⟨e, (Registry.mem_eraseOf.mp he).1, rfl⟩

theorem allow (hv : s.locals.views.get? name = some v) (hn : name ∈ names) :
    s.Spares names { s with thread := s.thread.allow v.reference } := by
  refine ⟨(·.allowOf v.reference), ?_, fun r => ⟨fun e he _ hnamed => ?_, fun e he => ?_⟩⟩
  · rw [Thread.allow_eq]
    exact Thread.registrations?_mapRegistry ..
  · exact Registry.mem_allowOf.mpr
      ⟨e, he, if_neg (hnamed name hn _ (Ledger.Agrees.held?_eq_some hv))⟩
  · obtain ⟨y, hy, rfl⟩ := Registry.mem_allowOf.mp he
    refine .inl ⟨y, hy, ?_⟩
    split <;> rfl

theorem bind (h : s.Spares names t) (hheld : ∀ x, t.held? target = some x → s.held? target = some x)
    (hn : target ∈ names) (v : View) : s.Spares names (t.bind target v) := by
  obtain ⟨f, hf, hspares⟩ := h
  refine ⟨fun r => (f r).eraseHeld (t.held? target), ?_, fun r =>
    ⟨fun e he hnext hnamed => ?_, fun e he => ?_⟩⟩
  · rw [Ledger.Agrees.registrations?_bind, hf, Option.map_map]
    rfl
  · refine Registry.mem_eraseHeld.mpr ⟨(hspares r).kept e he hnext hnamed, fun x hx => ?_⟩
    exact hnamed target hn x (hheld x hx)
  · exact (hspares r).slots e (Registry.mem_eraseHeld.mp he).1

theorem transfer (source : String) (hn : target ∈ names) (v : View) :
    s.Spares names ((s.unbind source).bind target v) := by
  have h : s.Spares names (s.unbind source) := of_eq rfl
  refine h.bind (fun x hx => ?_) hn v
  rw [State.held?_unbind] at hx
  split at hx
  · cases hx
  · exact hx

theorem create (hn : target ∈ names) (representation : Representation) (address : UInt64)
    (origin : Origin) (v : View) :
    s.Spares names ((s.create representation address origin).2.bind target v) := by
  have h : s.Spares names (s.create representation address origin).2 := by
    by_cases hr : s.thread.Registers s.shared.checking representation address
    · rw [State.create, Thread.create_of_registers hr]
      refine ⟨(·.insert ⟨s.thread.nextSlot, address, origin, false⟩),
        Thread.registrations?_enter .., fun r => ⟨fun e he hnext _ => ?_, fun e he => ?_⟩⟩
      · exact Registry.mem_insert.mpr (.inr ⟨he, hnext⟩)
      · obtain rfl | ⟨he, -⟩ := Registry.mem_insert.mp he
        · exact .inr rfl
        · exact .inl ⟨e, he, rfl⟩
    · refine of_eq ?_
      exact congrArg Thread.registrations? (Thread.create_of_not_registers hr origin).2
  exact h.bind (fun x hx => hx) hn v

end State.Spares

theorem Handling.spares {e : Effect} (h : Handling s names e) : s.Spares names e.state := by
  cases h with
  | look | forget => exact .of_eq rfl
  | discard outcome hn hv => exact .discard hv hn
  | allow outcome hn hv => exact .allow hv hn
  | bind v hn =>
    have h : s.Spares names s := .of_eq rfl
    exact h.bind (fun _ hx => hx) hn v
  | transfer source v hn => exact .transfer source hn v
  | create representation address origin v hn => exact .create hn representation address origin v

/-- An operation that names variables spares the entries of all references but those in them. -/
theorem Op.spares (op : Op) (hn : name ∈ op.names) : s.Spares op.names (op.apply b s).state := by
  have idle {names : List String} : Idle s fun e => s.Spares names e.state :=
    ⟨fun _ => .of_eq rfl, fun _ _ => .of_eq rfl⟩
  cases op with
  | thread op => cases hn
  | reference op => exact op.handling.spares
  | heap op =>
    have ht : Transition s .other (op.apply b s).state := .heapOp op
    rw [Op.apply]
    generalize (op.apply b s).state = t at ht
    cases ht
    exact .of_eq rfl
  | handle op =>
    cases op with
    | create target source =>
      refine idle.withView fun v _ => idle.withContext fun c _ hc => .of_eq ?_
      simp only [State.done, Thread.registrations?, Thread.context?_anchor, hc, Option.map_some]
    | resolve target handle origin =>
      refine idle.withHandle fun h => idle.withContext fun c _ _ => ?_
      cases b.asserts <;> cases c.anchors.address? h
      case true.none => exact .of_eq rfl
      all_goals exact .create (.head _) ..
    | address | equal | mark | release | relocate => cases hn
  | codec op =>
    cases op with
    | encode codec source =>
      refine idle.withCodec fun c => idle.withView fun v _ => ?_
      cases c.encodeOrFault b.asserts v.address <;> exact .of_eq rfl
    | decode target codec n origin => exact idle.withCodec fun c => .create (.head _) ..
    | create | equal | install | installed | ask => cases hn

end HeapRefs.Session
