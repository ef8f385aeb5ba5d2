import HeapRefs.Proofs.Session.Agreement
import HeapRefs.Proofs.Session.Replies
import HeapRefs.Proofs.Session.Typing

/-! # Chains of conversions

Moving, narrowing, widening and untyping take a reference out of its variable and hand it on. A
chain of them, however long and in whichever order, ends with the reference that it began with,
under the same registration.
-/

namespace HeapRefs

namespace Registry

theorem get?_eraseOf {r : Registry} {x : Reference} {slot : Slot} (h : x.slot? ≠ some slot) :
    (r.eraseOf x).get? slot = r.get? slot := by
  unfold eraseOf
  cases hx : x.slot? with
  | none => rfl
  | some other =>
    have hne : slot ≠ other := by
      rintro rfl
      exact h hx
    simp only [get?, erase, List.find?_filter]
    congr 1
    funext e
    by_cases he : e.slot = slot <;> simp [he, hne]

end Registry

namespace Session

inductive Conversion
  | move
  | narrow (kind : ObjectKind)
  | widen (kind : ObjectKind)
  | untype
  deriving DecidableEq, Repr

def Outcome.isDone : Outcome → Bool
  | .done _ => true
  | _ => false

namespace Conversion

def op (target source : String) : Conversion → ReferenceOp
  | move => .move target source
  | narrow kind => .narrow target source kind
  | widen kind => .widen target source kind
  | untype => .untype target source

/-- The kind that a reference has been given, from the one that it had. -/
def kind? (kind? : Option ObjectKind) : Conversion → Option ObjectKind
  | move => kind?
  | narrow kind | widen kind => some kind
  | untype => none

end Conversion

/-- Conversions one after the other, each with the variable that takes the reference up. -/
abbrev Chain := List (Conversion × String)

namespace Chain

def steps (source : String) : Chain → List Step
  | [] => []
  | (c, target) :: rest => .op (.reference (c.op target source)) :: steps target rest

def target (source : String) (chain : Chain) : String := chain.foldl (fun _ link => link.2) source

/-- The kind that the reference has in the end. -/
def kind? (kind? : Option ObjectKind) (chain : Chain) : Option ObjectKind :=
  chain.foldl (fun k? link => link.1.kind? k?) kind?

def Succeeds (b : Build) (s : State) (source : String) (chain : Chain) : Prop :=
  allReplies Outcome.isDone (runSteps b s (chain.steps source)).1 = true

instance (b : Build) (s : State) (source : String) (chain : Chain) :
    Decidable (chain.Succeeds b s source) :=
  inferInstanceAs (Decidable (_ = true))

def after (b : Build) (s : State) (source : String) (chain : Chain) : State :=
  (runSteps b s (chain.steps source)).2

def result? (b : Build) (s : State) (source : String) (chain : Chain) : Option View :=
  (chain.after b s source).locals.views.get? (chain.target source)

end Chain

namespace State

def registration? (s : State) (r : Reference) : Option Entry := do
  let slot ← r.slot?
  let registry ← s.thread.registrations?
  registry.get? slot

end State

/-- From one state to the other a reference keeps its registration, and nothing is registered. -/
structure Keeps (r : Reference) (s t : State) : Prop where
  registration : t.registration? r = s.registration? r
  nextSlot : t.thread.nextSlot = s.thread.nextSlot
  entries : ∀ registry, t.thread.registrations? = some registry → ∀ e ∈ registry.stored,
    ∃ before, s.thread.registrations? = some before ∧ e ∈ before.stored

variable {b : Build} {s t u : State} {r : Reference} {v : View} {source target : String}

namespace Keeps

theorem refl (r : Reference) (s : State) : Keeps r s s := ⟨rfl, rfl, fun _ hr _ he => ⟨_, hr, he⟩⟩

theorem trans (h : Keeps r s t) (h' : Keeps r t u) : Keeps r s u where
  registration := h'.registration.trans h.registration
  nextSlot := h'.nextSlot.trans h.nextSlot
  entries := by
    intro registry hr e he
    obtain ⟨between, hr, he⟩ := h'.entries registry hr e he
    exact h.entries between hr e he

theorem eraseHeld {x? : Option Reference}
    (hr : t.thread.registrations? = s.thread.registrations?.map (·.eraseHeld x?))
    (hn : t.thread.nextSlot = s.thread.nextSlot)
    (hx : ∀ x slot, x? = some x → r.slot? = some slot → x.slot? ≠ some slot) : Keeps r s t where
  registration := by
    unfold State.registration?
    rw [hr]
    cases hs : r.slot? with
    | none => rfl
    | some slot =>
      cases s.thread.registrations? with
      | none => rfl
      | some registry =>
        cases x? with
        | none => rfl
        | some x => exact Registry.get?_eraseOf (hx x slot rfl hs)
  nextSlot := hn
  entries := by
    intro registry hreg e he
    rw [hr] at hreg
    obtain ⟨before, hb, rfl⟩ := Option.map_eq_some_iff.mp hreg
    exact ⟨before, hb, (Registry.mem_eraseHeld.mp he).1⟩

end Keeps

theorem Ledger.Agrees.slot_ne {l : Ledger} (h : l.Agrees s) {name other : String}
    (hne : other ≠ name) {x y : Reference} (hx : s.held? name = some x)
    (hy : s.held? other = some y) {slot : Slot} (hs : x.slot? = some slot) :
    y.slot? ≠ some slot := by
  intro hs'
  obtain ⟨i, hi, hpi, rfl⟩ := h.exists_held hx
  obtain ⟨j, hj, hpj, rfl⟩ := h.exists_held hy
  obtain rfl := h.eq_of_slot hi hj hs hs'
  rw [hpi] at hpj
  cases hpj
  exact hne rfl

/-- Handing a reference on destroys no other reference but the one that the variable held. -/
theorem Ledger.Agrees.keeps_transfer {l : Ledger} (h : l.Agrees s)
    (hv : s.locals.views.get? source = some v) (target : String) (kind? : Option ObjectKind) :
    Keeps v.reference s ((s.unbind source).bind target ⟨v.reference, kind?⟩) := by
  refine .eraseHeld (registrations?_bind ..) (nextSlot_bind ..) fun x slot hx hs => ?_
  rw [State.held?_unbind] at hx
  split at hx
  · cases hx
  · -- Only what the target held is destroyed, and that has a slot of its own.
    next hne => exact h.slot_ne hne (held?_eq_some hv) hx hs

/-! ### Which conversions succeed -/

section

variable {kind own : ObjectKind}

theorem isDone_narrow_iff (hb : b.asserts = true) (hv : s.locals.views.get? source = some v)
    (hk : v.kind? = none) (hr : v.reference.representation = b.managed) :
    ((ReferenceOp.narrow target source kind).apply b s).outcome.isDone = true ↔
      s.shared.heap.Fits ⟨v.reference, some kind⟩ := by
  rw [← State.narrowFault?_eq_ok_none_iff hb]
  simp only [ReferenceOp.apply, State.withView, hv, if_pos (And.intro hk hr)]
  obtain hf | ⟨actual, hf⟩ | hf := s.narrowFault?_cases b v.reference kind
  · rw [hf]
    exact iff_of_true rfl rfl
  · rw [hf]
    exact iff_of_false Bool.false_ne_true (by simp)
  · rw [hf]
    exact iff_of_false Bool.false_ne_true (by simp)

theorem apply_narrow_of_not_within (hb : b.asserts = true)
    (hv : s.locals.views.get? source = some v) (hk : v.kind? = none)
    (hr : v.reference.representation = b.managed) (hn : v.address ≠ 0) {o : Object}
    (ho : s.shared.heap.find? v.address = some o) (hw : o.header.kind.isWithin kind = false) :
    (ReferenceOp.narrow target source kind).apply b s =
      ((s.unbind source).destroy v).fault
        (.wrongKind v.reference.representation v.address o.header.kind kind) := by
  have hf : s.narrowFault? b v.reference kind =
      .ok (some (.wrongKind v.reference.representation v.address o.header.kind kind)) := by
    rw [View.address] at hn ho
    simp [State.narrowFault?, Reference.isNull, Heap.kindAt?, View.address, hb, hn, ho, hw]
  simp only [ReferenceOp.apply, State.withView, hv, if_pos (And.intro hk hr), hf]

theorem isDone_widen_iff (hv : s.locals.views.get? source = some v) (hk : v.kind? = some own) :
    ((ReferenceOp.widen target source kind).apply b s).outcome.isDone = true ↔
      own.isWithin kind = true := by
  simp only [ReferenceOp.apply, State.withView, hv, hk]
  split
  · next hw => exact iff_of_true rfl hw
  · next hw => exact iff_of_false Bool.false_ne_true hw

theorem apply_widen_of_not_within (hv : s.locals.views.get? source = some v)
    (hk : v.kind? = some own) (hw : own.isWithin kind = false) :
    (ReferenceOp.widen target source kind).apply b s =
      ((s.unbind source).destroy v).fault (.notAbove kind own) := by
  simp only [ReferenceOp.apply, State.withView, hv, hk, hw]
  rfl

end

theorem Conversion.apply_of_isDone {c : Conversion} (hv : s.locals.views.get? source = some v)
    (h : ((c.op target source).apply b s).outcome.isDone = true) :
    (c.op target source).apply b s =
      (s.unbind source).bindDone target ⟨v.reference, c.kind? v.kind?⟩ := by
  cases c with
  | move => simp only [op, ReferenceOp.apply, State.withView, hv, kind?]
  | narrow kind =>
    simp only [op, ReferenceOp.apply, State.withView, hv] at h ⊢
    split at h
    · next hu =>
      rw [if_pos hu]
      obtain hf | ⟨actual, hf⟩ | hf := s.narrowFault?_cases b v.reference kind
      · rw [hf]
        rfl
      · rw [hf] at h
        cases h
      · rw [hf] at h
        cases h
    · cases h
  | widen kind =>
    simp only [op, ReferenceOp.apply, State.withView, hv] at h ⊢
    cases hk : v.kind? with
    | none =>
      rw [hk] at h
      cases h
    | some own =>
      simp only [hk] at h ⊢
      split at h
      · next hw => rw [if_pos hw, kind?]
      · cases h
  | untype =>
    simp only [op, ReferenceOp.apply, State.withView, hv] at h ⊢
    cases hk : v.kind? with
    | none =>
      rw [hk] at h
      cases h
    | some own => rfl

namespace Chain

theorem succeeds_cons {c : Conversion} {rest : Chain} :
    Succeeds b s source ((c, target) :: rest) ↔
      ((c.op target source).apply b s).outcome.isDone = true ∧
        Succeeds b ((c.op target source).apply b s).state target rest := by
  simp only [Succeeds, steps, runSteps_cons, allReplies_cons, Step.run, Reply.all, Op.apply]

theorem after_cons {c : Conversion} {rest : Chain} :
    after b s source ((c, target) :: rest) =
      after b ((c.op target source).apply b s).state target rest := by
  simp only [after, steps, runSteps_cons, Step.run, Op.apply]

theorem result?_of_succeeds {l : Ledger} (hl : l.Agrees s)
    (hv : s.locals.views.get? source = some v) {chain : Chain} (h : chain.Succeeds b s source) :
    chain.result? b s source = some ⟨v.reference, chain.kind? v.kind?⟩ ∧
      Keeps v.reference s (chain.after b s source) := by
  induction chain generalizing l s source v with
  | nil => exact ⟨hv, .refl ..⟩
  | cons link rest ih =>
    obtain ⟨c, next⟩ := link
    obtain ⟨hdone, hrest⟩ := succeeds_cons.mp h
    have hstate : ((c.op next source).apply b s).state =
        (s.unbind source).bind next ⟨v.reference, c.kind? v.kind?⟩ := by
      rw [Conversion.apply_of_isDone hv hdone]
      rfl
    have hkeeps := hl.keeps_transfer hv next (c.kind? v.kind?)
    have hl' : (l.note s.shared.checking (.transfer next source)).Agrees
        ((s.unbind source).bind next ⟨v.reference, c.kind? v.kind?⟩) := hl.transfer hv _ _
    have hv' : ((s.unbind source).bind next ⟨v.reference, c.kind? v.kind?⟩).locals.views.get? next =
        some ⟨v.reference, c.kind? v.kind?⟩ := by
      rw [State.bind_eq, Bindings.get?_set, if_pos rfl]
    rw [← hstate] at hkeeps hl' hv'
    obtain ⟨hresult, hrest⟩ := ih hl' hv' hrest
    rw [result?, after_cons]
    exact ⟨hresult, hkeeps.trans hrest⟩

theorem result?_eq_of_kind?_eq {l : Ledger} (hl : l.Agrees s)
    (hv : s.locals.views.get? source = some v) {chain chain' : Chain}
    (h : chain.Succeeds b s source) (h' : chain'.Succeeds b s source)
    (hkind : chain.kind? v.kind? = chain'.kind? v.kind?) :
    chain.result? b s source = chain'.result? b s source ∧
      (chain.after b s source).registration? v.reference =
        (chain'.after b s source).registration? v.reference := by
  obtain ⟨hresult, hkeeps⟩ := result?_of_succeeds hl hv h
  obtain ⟨hresult', hkeeps'⟩ := result?_of_succeeds hl hv h'
  constructor
  · rw [hresult, hresult', hkind]
  · rw [hkeeps.registration, hkeeps'.registration]

end Chain

end Session

end HeapRefs
