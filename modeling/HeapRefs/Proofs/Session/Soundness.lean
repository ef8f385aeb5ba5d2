import HeapRefs.Proofs.Session.Allocation
import HeapRefs.Proofs.Session.Conversion
import HeapRefs.Proofs.Session.Schedule

/-! # Soundness of kinds

With assertions on, a reference of a kind is null or refers to an object within the kind, as long as
it lives, whichever threads take which turns meanwhile.
-/

namespace HeapRefs.Session

variable {b : Build} {s : State} {shared after : Shared} {x y : Taken} {xs ys : List Taken}

theorem stable_typed (hb : b.asserts = true) : Stable b State.Typed where
  start := State.typed_start
  apply op h := (op.keepsTypes).typed hb h
  wait _ h := h
  share op h hs := by
    refine h.of_views ?_ fun _ _ => id
    rw [hs]
    exact op.keepsTypes.grows

theorem stable_agrees (b : Build) : Stable b fun s => ∃ l : Ledger, l.Agrees s where
  start shared thread := ⟨.empty, .start shared thread⟩
  apply op := by
    rintro ⟨l, h⟩
    exact ⟨_, h.transition (op.transition b _)⟩
  wait {s thread} hr := by
    rintro ⟨l, h⟩
    exact ⟨_, h.turn (.wait s.shared hr)⟩
  share _ := by
    rintro ⟨l, h⟩ -
    exact ⟨l, h⟩

namespace History

theorem grows (h : History b shared xs after) : shared.heap.Grows after.heap := by
  induction h with
  | nil => exact .refl _
  | cons hx _ ih =>
    subst hx
    exact (Op.keepsTypes _).grows.trans ih

theorem grows_of_mem (h : History b shared xs after) (hy : y ∈ xs) :
    shared.heap.Grows y.state.shared.heap := by
  obtain ⟨before, rest, rfl⟩ := List.append_of_mem hy
  obtain ⟨between, hbefore, hrest⟩ := h.of_append
  cases hrest with
  | cons hy _ => exact hy ▸ hbefore.grows

theorem grows_later (h : History b shared (xs ++ x :: ys) after) (hy : y ∈ ys) :
    (x.effect b).state.shared.heap.Grows y.state.shared.heap := by
  obtain ⟨between, -, hrest⟩ := h.of_append
  cases hrest with
  | cons _ hys => exact hys.grows_of_mem hy

end History

theorem HeapOp.apply_length {name : String} {v : View} {k : ObjectKind} {o : Object}
    (hv : s.locals.views.get? name = some v) (hk : v.kind? = some k) (harray : k.isArray = true)
    (ho : s.shared.heap.find? v.address = some o) :
    (length name).apply b s = s.done (.length o.length) := by
  simp only [apply, State.withDescription, State.withObject, State.withView, hv, ho, hk,
    Object.describe, Description.length?_build, harray, if_true]

theorem History.apply_length {name source : String} {kind : DescriptorKind} {n : UInt32}
    {size : Nat} {a : UInt64} {v : View} {k : ObjectKind}
    (h : History b shared (xs ++ x :: ys) after)
    (hop : x.op = .heap (.allocArray name kind n size))
    (hdone : (x.effect b).outcome = .done (.address a)) (hy : y ∈ ys)
    (hv : y.state.locals.views.get? source = some v) (hk : v.kind? = some k)
    (harray : k.isArray = true) (ha : v.address = a) :
    (HeapOp.length source).apply b y.state = y.state.done (.length n) := by
  have hgrows := h.grows_later hy
  rw [Taken.effect, hop] at hdone hgrows
  have ho := (HeapOp.Makes.array name kind n size).find?_eq hdone
  obtain ⟨o', ho', -, rfl⟩ := hgrows a _ ho
  exact HeapOp.apply_length hv hk harray (ha ▸ ho')

/-- Typed variables are sound in every schedule: with assertions on, what one holds is null or at an
object within its kind for good, and conversions that succeed keep the reference. -/
theorem typed_views_sound (b : Build) (shared : Shared) (turns : List (Nat × Step)) :
    let xs : List Taken := (Process.fresh shared).operations b turns
    ∀ (before : List Taken) (x : Taken) (later : List Taken), xs = before ++ x :: later →
      (b.asserts = true →
        x.state.Typed ∧ (x.effect b).state.Typed ∧
        ∀ y ∈ later, ∀ name v, (x.effect b).state.locals.views.get? name = some v →
          y.state.shared.heap.Fits v) ∧
      (∀ name kind n size a, x.op = .heap (.allocArray name kind n size) →
        (x.effect b).outcome = .done (.address a) →
        ∀ y ∈ later, ∀ source v k, y.state.locals.views.get? source = some v →
          v.kind? = some k → k.isArray = true → v.address = a →
          (HeapOp.length source).apply b y.state = y.state.done (.length n)) ∧
      ∀ source v, x.state.locals.views.get? source = some v →
        (b.asserts = true → v.kind? = none → v.reference.representation = b.managed →
          ∀ target kind,
            let outcome := ((ReferenceOp.narrow target source kind).apply b x.state).outcome
            (outcome.isDone = true ↔ v.address = 0 ∨
              ∃ o, x.state.shared.heap.find? v.address = some o ∧
                o.header.kind.isWithin kind = true) ∧
            ∀ o, x.state.shared.heap.find? v.address = some o → v.address ≠ 0 →
              o.header.kind.isWithin kind = false →
              outcome = .failed (.fault
                (.wrongKind v.reference.representation v.address o.header.kind kind))) ∧
        (∀ own, v.kind? = some own → ∀ target kind,
          let outcome := ((ReferenceOp.widen target source kind).apply b x.state).outcome
          (outcome.isDone = true ↔ own.isWithin kind = true) ∧
          (own.isWithin kind = false → outcome = .failed (.fault (.notAbove kind own)))) ∧
        (∀ chain : Chain, chain.Succeeds b x.state source →
          chain.result? b x.state source = some ⟨v.reference, chain.kind? v.kind?⟩ ∧
          Keeps v.reference x.state (chain.after b x.state source)) ∧
        ∀ chain chain' : Chain, chain.Succeeds b x.state source → chain'.Succeeds b x.state source →
          chain.kind? v.kind? = chain'.kind? v.kind? →
          chain.result? b x.state source = chain'.result? b x.state source ∧
          (chain.after b x.state source).registration? v.reference =
            (chain'.after b x.state source).registration? v.reference := by
  intro xs before x later hxs
  have hx : x ∈ xs := hxs ▸ List.mem_append_right _ List.mem_cons_self
  have hhistory : History b shared xs _ := ((Process.fresh shared).traces_run b turns).history
  rw [hxs] at hhistory
  refine ⟨fun hb => ?_, fun name kind n size a hop hdone y hy source v k => ?_,
    fun source v hv => ?_⟩
  · have hs := stable_typed hb
    have htyped : x.state.Typed := (Process.All.fresh hs shared).operations hs turns x hx
    have heffect : (x.effect b).state.Typed := hs.apply x.op htyped
    refine ⟨htyped, heffect, fun y hy name v hv => ?_⟩
    exact (heffect name v hv).grows (hhistory.grows_later hy)
  · exact hhistory.apply_length hop hdone hy
  · -- Only a ledger tells that the reference keeps its registration through a chain.
    have hs := stable_agrees b
    obtain ⟨l, hl⟩ := (Process.All.fresh hs shared).operations hs turns x hx
    refine ⟨fun hb hk hr target kind => ⟨?_, fun o ho hn hw => ?_⟩,
      fun own hk target kind => ⟨?_, fun hw => ?_⟩, fun chain => ?_, fun chain chain' => ?_⟩
    · exact (isDone_narrow_iff hb hv hk hr).trans Heap.fits_some_iff
    · rw [apply_narrow_of_not_within hb hv hk hr hn ho hw]
      rfl
    · exact isDone_widen_iff hv hk
    · rw [apply_widen_of_not_within hv hk hw]
      rfl
    · exact Chain.result?_of_succeeds hl hv
    · exact Chain.result?_eq_of_kind?_eq hl hv

/-- One thread allocates the array, another narrows a reference to it, and a third, spawned between,
sets its mark. -/
theorem typed_views_sound_of_shared_array :
    let b : Build := .standard .checked true
    let p : Process := .fresh .initial
    let reference (op : ReferenceOp) : Step := .op (.reference op)
    let heap (op : HeapOp) : Step := .op (.heap op)
    let array : Seed := .address .bits (.object "array")
    let turns : List (Nat × Step) := [
      (0, .op (.thread (.install ⟨true⟩))),
      (0, .op (.thread (.attach "main"))),
      (1, heap (.allocArray "array" .refArray 3 8)),
      (0, reference (.create "x" none array)),
      (0, .spawn [reference (.create "y" none array), reference (.narrow "y" "y" .array),
        heap (.setMark "y" ⟨5⟩)]),
      (0, reference (.narrow "x" "x" .refArray)),
      (0, heap (.length "x"))]
    let xs := p.operations b turns
    let chain : Chain := [(.narrow .refArray, "z"), (.widen .array, "x")]
    let chain' : Chain := [(.move, "z"), (.narrow .array, "z")]
    (∀ x : Taken, xs[7]? = some x →
      ((ReferenceOp.narrow "z" "x" .primArray).apply b x.state).outcome.isDone = false ∧
      chain.result? b x.state "x" = chain'.result? b x.state "x" ∧
      chain.result? b x.state "x" = some ⟨.checked 0x2000000000 (some 0), some .array⟩) ∧
    ∀ y : Taken, xs[8]? = some y → y.state.Typed ∧ y.effect b = y.state.done (.length 3) := by
  intro b p reference heap array turns xs chain chain'
  have h := typed_views_sound b .initial turns
  constructor
  · intro x hx
    obtain rfl := Option.some.inj hx
    obtain ⟨-, -, hviews⟩ := h (xs.take 7) _ (xs.drop 8) rfl
    obtain ⟨hnarrow, -, hkeeps, hsame⟩ := hviews "x" ⟨.checked 0x2000000000 (some 0), none⟩ rfl
    have hfault := (hnarrow rfl rfl rfl "z" .primArray).2
      ⟨⟨⟨5⟩, ⟨0, ⟨"ObjArray", .refArray, 48⟩⟩⟩, 3⟩ (by decide +kernel) (by decide) rfl
    obtain ⟨hresult, -⟩ := hkeeps chain (by decide +kernel)
    obtain ⟨hequal, -⟩ := hsame chain chain' (by decide +kernel) (by decide +kernel) rfl
    exact ⟨congrArg Outcome.isDone hfault, hequal, hresult⟩
  · intro y hy
    have hlater : y ∈ xs.drop 3 := by
      refine List.mem_of_getElem? (i := 5) ?_
      rw [List.getElem?_drop]
      exact hy
    obtain ⟨hlast, hop, hview⟩ : xs = xs.take 8 ++ [y] ∧ y.op = .heap (.length "x") ∧
        y.state.locals.views.get? "x" =
          some ⟨.checked 0x2000000000 (some 0), some .refArray⟩ := by
      obtain rfl := Option.some.inj hy
      exact ⟨rfl, rfl, by decide +kernel⟩
    obtain ⟨htyped, -⟩ := h (xs.take 8) y [] hlast
    obtain ⟨-, hlength, -⟩ := h (xs.take 2) _ (xs.drop 3) rfl
    refine ⟨(htyped rfl).1, ?_⟩
    rw [Taken.effect, hop]
    exact hlength "array" .refArray 3 8 0x2000000000 rfl (by decide +kernel) y hlater "x" _
      .refArray hview rfl rfl rfl

end HeapRefs.Session
