import HeapRefs.Object.Description
import HeapRefs.Proofs.Session.Quiet
import HeapRefs.Proofs.Session.Soundness

/-! # Headers

All references to an object read one header, whatever they are seen as: the mark that was written
last through any of them, and the descriptor that the object was allocated with. A mark is written
to one object only.
-/

namespace HeapRefs

theorem Header.setMarks_append (h : Header) (ms ns : List MarkWord) :
    h.setMarks (ms ++ ns) = (h.setMarks ms).setMarks ns :=
  List.foldl_append

theorem Header.setMarks_eq (h : Header) (ms : List MarkWord) :
    h.setMarks ms = ⟨ms.getLast?.getD h.mark, h.klass⟩ := by
  rw [← mark_setMarks, ← klass_setMarks h ms]

namespace Session

/-- The mark that an operation writes through a reference to the address. -/
def Op.written? (s : State) (a : UInt64) : Op → Option MarkWord
  | .heap (.setMark name m) =>
    match s.locals.views.get? name with
    | none => none
    | some v => if v.address = a then some m else none
  | _ => none

def Taken.written? (a : UInt64) (x : Taken) : Option MarkWord := x.op.written? x.state a

/-- Every reference to the address, in whichever variable and of whichever representation and kind,
reads the header, and every one that is narrowed to a kind of arrays reads the length too. -/
structure State.Reads (b : Build) (s : State) (a : UInt64) (h : Header) (n : UInt32) : Prop where
  header : ∀ name v, s.locals.views.get? name = some v → v.address = a →
    (HeapOp.header name).apply b s = s.done (.header h)
  typed : ∀ name v k, s.locals.views.get? name = some v → v.address = a → v.kind? = some k →
    (HeapOp.typedHeader name).apply b s = s.done (.typedHeader h) ∧
    (k.isArray = true → (HeapOp.length name).apply b s = s.done (.length n))

variable {b : Build} {s : State} {shared after : Shared} {x y : Taken} {xs ys zs : List Taken}
  {a : UInt64} {o : Object}

namespace HeapOp

theorem find?_apply (op : HeapOp) (ho : s.shared.heap.find? a = some o) :
    (op.apply b s).state.shared.heap.find? a =
      some ⟨o.header.setMarks ((Op.heap op).written? s a).toList, o.length⟩ := by
  have idle : Idle s fun e => e.state.shared.heap.find? a = some o := ⟨fun _ => ho, fun _ _ => ho⟩
  cases op with
  | alloc name kind size descriptor? => exact State.find?_alloc ho
  | allocArray name kind n elementSize => exact State.find?_alloc ho
  | header name => exact idle.withObject fun v o => ho
  | setMark name mark =>
    simp only [apply, State.withObject, State.withView, Op.written?]
    cases hv : s.locals.views.get? name with
    | none => exact ho
    | some v =>
      by_cases hva : v.address = a
      · subst hva
        simp only [ho, State.done, Heap.find?_setMark, if_true]
        rfl
      · simp only [if_neg hva]
        cases hother : s.shared.heap.find? v.address with
        | none => exact ho
        | some other =>
          simp only [State.done, Heap.find?_setMark, ho, if_neg (Ne.symm hva)]
          rfl
  | typedHeader name =>
    rw [apply]
    exact idle.withDescription fun d => ho
  | length name => exact idle.length fun n => ho

end HeapOp

theorem Op.find?_apply (op : Op) (ho : s.shared.heap.find? a = some o) :
    (op.apply b s).state.shared.heap.find? a =
      some ⟨o.header.setMarks (op.written? s a).toList, o.length⟩ := by
  cases op with
  | thread op => exact (congrArg (Heap.find? · a) op.heap_eq).trans ho
  | reference op => exact (congrArg (fun shared => shared.heap.find? a) op.quiet.shared).trans ho
  | heap op => exact op.find?_apply ho
  | handle op => exact (congrArg (fun shared => shared.heap.find? a) op.quiet.shared).trans ho
  | codec op => exact (congrArg (Heap.find? · a) op.heap_eq).trans ho

/-- The marks that are written through references to an object are set one after the other. -/
theorem History.find?_eq (h : History b shared xs after) (ho : shared.heap.find? a = some o) :
    after.heap.find? a = some ⟨o.header.setMarks (xs.filterMap (Taken.written? a)), o.length⟩ := by
  induction h generalizing o with
  | nil => exact ho
  | @cons shared after x xs hx _ ih =>
    subst hx
    have hstep : (x.effect b).state.shared.heap.find? a =
        some ⟨o.header.setMarks (x.written? a).toList, o.length⟩ := x.op.find?_apply ho
    rw [ih hstep, ← Header.setMarks_append]
    cases hw : x.written? a with
    | none => rw [List.filterMap_cons_none hw, Option.toList_none, List.nil_append]
    | some m => rw [List.filterMap_cons_some hw, Option.toList_some, List.singleton_append]

theorem State.reads_of_find? {h : Header} {n : UInt32}
    (ho : s.shared.heap.find? a = some ⟨h, n⟩) : s.Reads b a h n where
  header := by
    intro name v hv ha
    simp only [HeapOp.apply, withObject, withView, hv, ha, ho]
  typed := by
    intro name v k hv ha hk
    subst ha
    refine ⟨?_, fun harray => HeapOp.apply_length hv hk harray ho⟩
    simp only [HeapOp.apply, withDescription, withObject, withView, hv, ho, hk, Object.describe,
      Description.header_build]

theorem History.find?_of_makes {op : HeapOp} {d : Descriptor} {n : UInt32}
    (h : History b shared (xs ++ x :: (ys ++ y :: zs)) after) (hop : x.op = .heap op)
    (hd : op.Makes d n) (hdone : (x.effect b).outcome = .done (.address a)) :
    y.state.shared.heap.find? a =
      some ⟨⟨(ys.filterMap (Taken.written? a)).getLast?.getD .fresh,
        x.state.shared.heap.size, d⟩, n⟩ := by
  obtain ⟨_, -, hrest⟩ := h.of_append
  cases hrest with
  | cons _ hrest =>
    obtain ⟨_, hys, hrest⟩ := hrest.of_append
    cases hrest with
    | cons hy _ =>
      subst hy
      have hx : (x.effect b).state.shared.heap.find? a =
          some ⟨.ofKlass ⟨x.state.shared.heap.size, d⟩, n⟩ := by
        rw [Taken.effect, hop] at hdone ⊢
        exact hd.find?_eq hdone
      rw [hys.find?_eq hx, Header.setMarks_eq]
      rfl

theorem HeapOp.find?_setMark_of_ne {name : String} {m : MarkWord} {v : View}
    (hv : s.locals.views.get? name = some v) (ha : a ≠ v.address) :
    ((setMark name m).apply b s).state.shared.heap.find? a = s.shared.heap.find? a := by
  simp only [apply, State.withObject, State.withView, hv]
  cases s.shared.heap.find? v.address with
  | none => rfl
  | some o =>
    simp only [State.done, Heap.find?_setMark, if_neg ha]
    exact Option.map_id'

namespace Chain

variable {source target target' : String} {v : View} {kind above : ObjectKind}

theorem shared_after (b : Build) (s : State) (source : String) (chain : Chain) :
    (chain.after b s source).shared = s.shared := by
  induction chain generalizing s source with
  | nil => rfl
  | cons link rest ih =>
    obtain ⟨c, next⟩ := link
    rw [after_cons, ih]
    exact (c.op next source).quiet.shared

theorem succeeds_narrow_widen (hv : s.locals.views.get? source = some v) (hk : v.kind? = none)
    (hr : v.reference.representation = b.managed)
    (hf : s.shared.heap.Fits ⟨v.reference, some kind⟩) (hw : kind.isWithin above = true) :
    Succeeds b s source [(.narrow kind, target), (.widen above, target')] := by
  have hfault : s.narrowFault? b v.reference kind = .ok none := by
    cases hb : b.asserts with
    | true => exact (State.narrowFault?_eq_ok_none_iff hb).mpr hf
    | false => simp [State.narrowFault?, hb]
  have happly : (ReferenceOp.narrow target source kind).apply b s =
      (s.unbind source).bindDone target ⟨v.reference, some kind⟩ := by
    simp only [ReferenceOp.apply, State.withView, hv, if_pos (And.intro hk hr), hfault]
  have hnarrowed : ((ReferenceOp.narrow target source kind).apply b s).state.locals.views.get?
      target = some ⟨v.reference, some kind⟩ := by
    rw [happly, State.bindDone, State.bind_eq]
    exact (Bindings.get?_set ..).trans (if_pos rfl)
  refine succeeds_cons.mpr ⟨?_, succeeds_cons.mpr ⟨?_, rfl⟩⟩
  · exact congrArg (·.outcome.isDone) happly
  · exact (isDone_widen_iff hnarrowed rfl).mpr hw

end Chain

/-- All references to an object read one header, with the mark that was written last and with the
klass of the allocation; so does every description of it. -/
theorem references_read_one_header (b : Build) (shared : Shared) (turns : List (Nat × Step)) :
    let xs : List Taken := (Process.fresh shared).operations b turns
    (∀ (before : List Taken) (x : Taken) (between : List Taken) (y : Taken) (later : List Taken),
      xs = before ++ x :: (between ++ y :: later) →
      ∀ op d n a, x.op = .heap op → op.Makes d n → (x.effect b).outcome = .done (.address a) →
        let h : Header := ⟨(between.filterMap (Taken.written? a)).getLast?.getD .fresh,
          x.state.shared.heap.size, d⟩
        h.kind = d.objectKind ∧ y.state.Reads b a h n ∧
        ∀ source v, y.state.locals.views.get? source = some v → v.address = a →
          (∀ chain : Chain, chain.Succeeds b y.state source →
            chain.result? b y.state source = some ⟨v.reference, chain.kind? v.kind?⟩ ∧
            (chain.after b y.state source).Reads b a h n) ∧
          (v.kind? = none → v.reference.representation = b.managed →
            ∀ kind above target target', d.objectKind.isWithin kind = true →
              kind.isWithin above = true →
              Chain.Succeeds b y.state source [(.narrow kind, target), (.widen above, target')])) ∧
    (∀ x ∈ xs, ∀ name m v, x.op = .heap (.setMark name m) →
      x.state.locals.views.get? name = some v →
      ∀ a, a ≠ v.address → (x.effect b).state.shared.heap.find? a = x.state.shared.heap.find? a) ∧
    ∀ (kind : ObjectKind) (k : Klass) (marks : List MarkWord) (n : UInt32),
      let header := (Header.ofKlass k).setMarks marks
      let description := Description.build kind header n
      description.header = ⟨marks.getLast?.getD .fresh, k⟩ ∧
      description.header.kind = k.descriptor.objectKind ∧
      (description.length? = if kind ∈ [.array, .refArray, .primArray] then some n else none) ∧
      description.super? = kind.parent.map (Description.build · header n) := by
  intro xs
  refine ⟨?_, ?_, ?_⟩
  · intro before x between y later hxs op d n a hop hd hdone h
    have hhistory : History b shared xs _ := ((Process.fresh shared).traces_run b turns).history
    rw [hxs] at hhistory
    -- Objects are never moved, so that all references find this one, and nothing else.
    have ho : y.state.shared.heap.find? a = some ⟨h, n⟩ := hhistory.find?_of_makes hop hd hdone
    refine ⟨rfl, State.reads_of_find? ho, fun source v hv ha => ⟨fun chain hchain => ?_, ?_⟩⟩
    · have hs := stable_agrees b
      have hy : y ∈ xs := by simp [hxs]
      obtain ⟨l, hl⟩ := (Process.All.fresh hs shared).operations hs turns y hy
      refine ⟨(Chain.result?_of_succeeds hl hv hchain).1, State.reads_of_find? ?_⟩
      rw [chain.shared_after]
      exact ho
    · intro hk hr kind above target target' hkind habove
      refine Chain.succeeds_narrow_widen hv hk hr (Heap.fits_some_iff.mpr (.inr ?_)) habove
      exact ⟨_, (congrArg _ ha).trans ho, hkind⟩
  · intro x _ name m v hop hv a ha
    rw [Taken.effect, hop]
    exact HeapOp.find?_setMark_of_ne (b := b) hv ha
  · intro kind k marks n header description
    have hheader : description.header = ⟨marks.getLast?.getD .fresh, k⟩ :=
      (Description.header_build ..).trans (Header.setMarks_eq ..)
    refine ⟨hheader, congrArg Header.kind hheader, ?_, Description.super?_build ..⟩
    cases kind <;> rfl

/-- Two threads and a spawned one write marks to two objects in turns; the array is read through a
reference that has been narrowed, and widened again. -/
theorem references_read_one_header_of_interleaved_marks :
    let b : Build := .standard .checked true
    let p : Process := .fresh .initial
    let reference (op : ReferenceOp) : Step := .op (.reference op)
    let heap (op : HeapOp) : Step := .op (.heap op)
    let array : Seed := .address .bits (.object "array")
    let turns : List (Nat × Step) := [
      (0, heap (.alloc "plain" .inst 0 none)),
      (1, heap (.allocArray "array" .refArray 3 8)),
      (0, reference (.create "x" (some .direct) array)),
      (1, reference (.create "y" none array)),
      (0, reference (.create "z" none (.address .bits (.object "plain")))),
      (0, heap (.setMark "x" ⟨5⟩)),
      (0, .spawn [reference (.create "w" none array), reference (.narrow "w" "w" .refArray),
        heap (.setMark "w" ⟨7⟩)]),
      (0, heap (.setMark "z" ⟨9⟩)),
      (1, reference (.narrow "y" "y" .refArray)),
      (1, heap (.typedHeader "y"))]
    let xs := p.operations b turns
    let h : Header := ⟨⟨7⟩, ⟨1, ⟨"ObjArray", .refArray, 48⟩⟩⟩
    let chain : Chain := [(.widen .array, "x"), (.untype, "y"), (.narrow .any, "z")]
    (∀ y : Taken, xs[11]? = some y → y.effect b = y.state.done (.typedHeader h) ∧
      (chain.after b y.state "y").Reads b 0x2000000010 h 3) ∧
    ∀ x : Taken, xs[9]? = some x → (x.effect b).state.shared.heap.find? 0x2000000010 =
      x.state.shared.heap.find? 0x2000000010 := by
  intro b p reference heap array turns xs h chain
  obtain ⟨hreads, hkept, -⟩ := references_read_one_header b .initial turns
  constructor
  · intro y hy
    let between : List Taken := (xs.take 11).drop 2
    have hmark : (between.filterMap (Taken.written? 0x2000000010)).getLast?.getD .fresh = ⟨7⟩ := by
      decide +kernel
    obtain ⟨x, hxs, hx⟩ : ∃ x, xs = xs.take 1 ++ x :: (between ++ [y]) ∧
        x.op = .heap (.allocArray "array" .refArray 3 8) ∧
        (x.effect b).outcome = .done (.address 0x2000000010) ∧ x.state.shared.heap.size = 1 := by
      obtain rfl := Option.some.inj hy
      exact ⟨_, rfl, rfl, by decide +kernel, by decide +kernel⟩
    obtain ⟨hop, hview, hchain⟩ : y.op = .heap (.typedHeader "y") ∧
        y.state.locals.views.get? "y" =
          some ⟨.checked 0x2000000010 none, some .refArray⟩ ∧ chain.Succeeds b y.state "y" := by
      obtain rfl := Option.some.inj hy
      exact ⟨rfl, by decide +kernel, by decide +kernel⟩
    obtain ⟨-, hy, hchains⟩ := hreads _ x between y [] hxs _ _ _ _ hx.1 (.array ..) hx.2.1
    rw [hmark, hx.2.2] at hy hchains
    rw [Taken.effect, hop]
    exact ⟨(hy.typed _ _ _ hview rfl rfl).1, ((hchains _ _ hview rfl).1 chain hchain).2⟩
  · intro x hx
    obtain ⟨hop, hview⟩ : x.op = .heap (.setMark "z" ⟨9⟩) ∧
        x.state.locals.views.get? "z" = some ⟨.checked 0x2000000000 none, none⟩ := by
      obtain rfl := Option.some.inj hx
      exact ⟨rfl, by decide +kernel⟩
    exact hkept x (List.mem_of_getElem? hx) "z" ⟨9⟩ _ hop hview _ (by decide)

end Session

end HeapRefs
