import HeapRefs.Proofs.Codec.Acceptance
import HeapRefs.Proofs.Handle.Resolution
import HeapRefs.Proofs.Session.Attachment
import HeapRefs.Proofs.Session.Conversion
import HeapRefs.Proofs.Session.Registration
import HeapRefs.Proofs.Session.Safepoint

/-! # Faults

A fault stops an operation half way. A conversion has taken its source away by then, and destroys
it; the other operations have not begun to change anything.
-/

namespace HeapRefs

theorem Query.resolve_eq_encodeFast {α β : Type} {g : α → Option β} {q : Query α} {a : β}
    (h : q.resolve g = some (.encodeFast a)) : ∃ x, q = .encodeFast x ∧ g x = some a := by
  cases q with
  | encodeFast x =>
    obtain ⟨a, ha, he⟩ := Option.map_eq_some_iff.mp h
    cases he
    exact ⟨x, rfl, ha⟩
  | encode x | covers x | encodeDecode x =>
    obtain ⟨a, -, he⟩ := Option.map_eq_some_iff.mp h
    cases he
  | decode n | decodeEncode n => cases h

theorem Registry.entries_eraseOf (r : Registry) (x : Reference) :
    (r.eraseOf x).entries = r.entries.filter fun e => x.slot? ≠ some e.slot := by
  refine entries_eq (fun e => ?_) (r.pairwise_lt_entries.sublist List.filter_sublist)
  simp [mem_eraseOf, mem_entries]

namespace Codec

variable {c : Codec} {asserts : Bool} {f : Fault}

theorem encodeOrFault_eq_error {a : UInt64} (h : c.encodeOrFault asserts a = .error f) :
    asserts = true ∧ ∃ cause, c.encode a = .error cause ∧ f = .unencodable a cause := by
  cases asserts with
  | false => cases h
  | true => exact ⟨rfl, encodeOrFault_eq_error_iff.mp h⟩

theorem answer_eq_fault {q : Query UInt64} (h : c.answer asserts q = .error (.fault f)) :
    ∃ a, q = .encodeFast a ∧ c.encodeOrFault asserts a = .error f := by
  cases q with
  | encodeFast a =>
    refine ⟨a, rfl, ?_⟩
    rw [answer] at h
    split at h
    · cases h
    · next he =>
      cases h
      exact he
  | encode a | encodeDecode a | decodeEncode n =>
    rw [answer] at h
    split at h <;> cases h
  | decode n | covers a => cases h

end Codec

namespace Session

inductive Raises (b : Build) (s : State) : Op → Fault → Prop
  | narrow {target source : String} {kind : ObjectKind} {v : View} {o : Object} :
      b.asserts = true → s.locals.views.get? source = some v → v.kind? = none →
      v.reference.representation = b.managed → v.address ≠ 0 →
      s.shared.heap.find? v.address = some o → o.header.kind.isWithin kind = false →
      Raises b s (.reference (.narrow target source kind))
        (.wrongKind v.reference.representation v.address o.header.kind kind)
  | widen {target source : String} {kind own : ObjectKind} {v : View} :
      s.locals.views.get? source = some v → v.kind? = some own → own.isWithin kind = false →
      Raises b s (.reference (.widen target source kind)) (.notAbove kind own)
  | encode {codec source : String} {c : Codec} {v : View} {cause : EncodeError} :
      b.asserts = true → s.locals.codecs.get? codec = some c →
      s.locals.views.get? source = some v → c.encode v.address = .error cause →
      Raises b s (.codec (.encode codec source)) (.unencodable v.address cause)
  | ask {operand : Operand} {c : Codec} {a : UInt64} {cause : EncodeError} :
      b.asserts = true → s.shared.codec? = some c → s.word? operand = some a →
      c.encode a = .error cause →
      Raises b s (.codec (.ask (.encodeFast operand))) (.unencodable a cause)
  | resolve {target handle : String} {origin : Origin} {h : Handle} {c : Context} :
      b.asserts = true → s.locals.handles.get? handle = some h → s.thread.context? = some c →
      c.anchors.address? h = none →
      Raises b s (.handle (.resolve target handle origin)) (.releasedHandle h.index)
  | poll {c : Context} :
      s.thread.context? = some c → c.unhandled ≠ [] →
      Raises b s (.thread .poll) (.unhandled c.name c.unhandled)

variable {b : Build} {s : State} {op : Op} {f : Fault}

/-- The variable that an operation takes away even if it raises a fault. -/
def Op.consumed? : Op → Option String
  | .reference (.narrow _ source _) | .reference (.widen _ source _) => some source
  | _ => none

/-- The state after an operation that stops half way: what it has taken away by then is dropped. -/
def Op.unwind (b : Build) (s : State) (op : Op) : State :=
  match op.consumed? with
  | none => s
  | some source => ((ReferenceOp.drop source).apply b s).state

def Effect.Explained (b : Build) (s : State) (op : Op) (e : Effect) : Prop :=
  ∀ f, e.outcome = .failed (.fault f) → Raises b s op f

namespace Effect.Explained

variable {t : State}

theorem done {a : Answer} : (t.done a).Explained b s op := nofun

theorem refused {why : Refusal} : (t.refused why).Explained b s op := nofun

theorem raised (h : Raises b s op f) : (t.fault f).Explained b s op := by
  rintro _ ⟨⟩
  exact h

theorem idle (hs : s.Sound) : Idle s (Explained b s op) where
  refused _ := refused
  noContext hg hc := by
    obtain ⟨c, hc'⟩ := hs.context?_of_guard hg
    cases hc.symm.trans hc'

end Effect.Explained

open Effect (Explained)

theorem State.narrowFault?_eq_ok_some {r : Reference} {kind : ObjectKind}
    (h : s.narrowFault? b r kind = .ok (some f)) :
    b.asserts = true ∧ r.address ≠ 0 ∧ ∃ o, s.shared.heap.find? r.address = some o ∧
      o.header.kind.isWithin kind = false ∧
      f = .wrongKind r.representation r.address o.header.kind kind := by
  unfold narrowFault? at h
  split at h
  · next hb =>
    rw [Bool.and_eq_true, Bool.not_eq_true', Reference.isNull, beq_eq_false_iff_ne] at hb
    refine ⟨hb.1, hb.2, ?_⟩
    rw [Heap.kindAt?] at h
    cases ho : s.shared.heap.find? r.address with
    | none => simp [ho] at h
    | some o =>
      refine ⟨o, rfl, ?_⟩
      cases hw : o.header.kind.isWithin kind with
      | true => simp [ho, hw] at h
      | false =>
        simp only [ho, Option.map_some, hw, Bool.false_eq_true, if_false, Except.ok.injEq,
          Option.some.injEq] at h
        exact ⟨rfl, h.symm⟩
  · cases h

theorem ReferenceOp.explained (hs : s.Sound) (op : ReferenceOp) :
    (op.apply b s).Explained b s (.reference op) := by
  have idle : Idle s (Explained b s (.reference op)) := Explained.idle hs
  cases op with
  | create target representation? seed origin =>
    cases seed with
    | null => exact .done
    | address form operand => exact idle.withWord fun a => .done
  | clone _ _ _ | move _ _ | drop _ | forget _ | inspect _ | allow _ | foreignSlot _ | address _
  | intoAddress _ => exact idle.withView fun v _ => .done
  | compare left right =>
    refine idle.withView fun v _ => idle.withView fun w _ => ?_
    split
    · exact .done
    · exact .refused
  | typedNull target kind => exact .done
  | narrow target source kind =>
    refine idle.withView fun v hv => ?_
    split
    · next hu =>
      cases hf : s.narrowFault? b v.reference kind with
      | error why => exact .refused
      | ok fault? =>
        cases fault? with
        | none => exact .done
        | some f =>
          obtain ⟨hb, hn, o, ho, hw, rfl⟩ := State.narrowFault?_eq_ok_some hf
          exact .raised (.narrow hb hv hu.1 hu.2 hn ho hw)
    · exact .refused
  | widen target source kind =>
    refine idle.withView fun v hv => ?_
    cases hk : v.kind? with
    | none => exact .refused
    | some own =>
      dsimp only
      split
      · exact .done
      · next hw => exact .raised (.widen hv hk (Bool.eq_false_iff.mpr hw))
  | untype _ _ | cloneUntyped _ _ _ =>
    refine idle.withView fun v _ => ?_
    cases v.kind? with
    | none => exact .refused
    | some own => exact .done

theorem HeapOp.explained (hs : s.Sound) (op : HeapOp) :
    (op.apply b s).Explained b s (.heap op) := by
  have idle : Idle s (Explained b s (.heap op)) := Explained.idle hs
  cases op with
  | alloc _ _ _ _ | allocArray _ _ _ _ => exact idle.alloc fun a heap _ => .done
  | header _ | setMark _ _ => exact idle.withObject fun v o => .done
  | typedHeader _ => exact idle.withDescription fun d => .done
  | length _ => exact idle.length fun n => .done

theorem HandleOp.explained (hs : s.Sound) (op : HandleOp) :
    (op.apply b s).Explained b s (.handle op) := by
  have idle : Idle s (Explained b s (.handle op)) := Explained.idle hs
  cases op with
  | create target source => exact idle.withView fun v _ => idle.withContext fun c _ _ => .done
  | resolve target handle origin =>
    simp only [apply, State.withHandle]
    cases hh : s.locals.handles.get? handle with
    | none => exact .refused
    | some h =>
      refine idle.withContext fun c _ hc => ?_
      cases hb : b.asserts with
      | false => exact .done
      | true =>
        cases ha : c.anchors.address? h with
        | none => exact .raised (.resolve hb hh hc ha)
        | some a => exact .done
  | address name => exact idle.withHandle fun h => idle.withContext fun c _ _ => .done
  | equal left right => exact idle.withHandle fun h => idle.withHandle fun g => .done
  | mark name => exact idle.withContext fun c _ _ => .done
  | release name =>
    simp only [apply]
    cases s.locals.marks.get? name with
    | none => exact .refused
    | some m => exact idle.withContext fun c _ _ => .done
  | relocate source target =>
    exact idle.withWord fun a => idle.withWord fun d => idle.withContext fun c _ _ => .done

theorem CodecOp.explained (hs : s.Sound) (op : CodecOp) :
    (op.apply b s).Explained b s (.codec op) := by
  have idle : Idle s (Explained b s (.codec op)) := Explained.idle hs
  cases op with
  | create target base shift start stop =>
    refine idle.withWord fun base => idle.withWord fun start => idle.withWord fun stop => ?_
    cases Codec.ofLayout base shift start stop with
    | error e => rintro _ ⟨⟩
    | ok c => exact .done
  | equal left right => exact idle.withCodec fun c => idle.withCodec fun d => .done
  | encode codec source =>
    simp only [apply, State.withCodec]
    cases hc : s.locals.codecs.get? codec with
    | none => exact .refused
    | some c =>
      refine idle.withView fun v hv => ?_
      cases he : c.encodeOrFault b.asserts v.address with
      | ok n => exact .done
      | error f =>
        obtain ⟨hb, cause, h, rfl⟩ := Codec.encodeOrFault_eq_error he
        exact .raised (.encode hb hc hv h)
  | decode target codec n origin => exact idle.withCodec fun c => .done
  | install name =>
    obtain ⟨-, he⟩ | ⟨c, -, codec?, he | ⟨content, he⟩⟩ := install_cases b s name
    all_goals
      rw [he]
      rintro _ ⟨⟩
  | installed =>
    simp only [apply]
    cases s.shared.codec? <;> exact .done
  | ask query =>
    simp only [apply]
    cases hc : s.shared.codec? with
    | none => exact .refused
    | some c =>
      cases hq : query.resolve s.word? with
      | none => exact .refused
      | some q =>
        intro f hf
        dsimp only at hf
        cases he : c.answer b.asserts q with
        | ok a =>
          rw [he] at hf
          cases hf
        | error e =>
          rw [he] at hf
          cases hf
          obtain ⟨a, rfl, hfault⟩ := Codec.answer_eq_fault he
          obtain ⟨operand, rfl, ha⟩ := Query.resolve_eq_encodeFast hq
          obtain ⟨hb, cause, h, rfl⟩ := Codec.encodeOrFault_eq_error hfault
          exact .ask hb hc ha h

theorem ThreadOp.explained (hs : s.Sound) (op : ThreadOp) :
    (op.apply s).Explained b s (.thread op) := by
  have idle : Idle s (Explained b s (.thread op)) := Explained.idle hs
  cases op with
  | attach name =>
    simp only [apply, Thread.attach]
    cases hc : s.thread.cell with
    | vacant | present c => rintro _ ⟨⟩
    | borrowed c => exact absurd hc (hs.returned c)
  | detach =>
    refine idle.withContext fun c _ _ => ?_
    rintro _ ⟨⟩
  | status => exact .done
  | poll =>
    cases hc : s.thread.context? with
    | none =>
      rw [apply, hs.withContext_eq_refused hc]
      exact .refused
    | some c =>
      rw [apply_poll hs hc]
      intro f hf
      split at hf
      · cases hf
      · next hu =>
        cases hf
        exact .poll hc hu
  | entries | unhandled => exact idle.withContext fun c _ _ => .done
  | install settings => rintro _ ⟨⟩
  | installVariable value? =>
    simp only [apply]
    cases Settings.ofEnvironment fun _ => value? <;> rintro _ ⟨⟩

theorem Op.explained (hs : s.Sound) (op : Op) : (op.apply b s).Explained b s op := by
  cases op with
  | thread op => exact op.explained hs
  | reference op => exact op.explained hs
  | heap op => exact op.explained hs
  | handle op => exact op.explained hs
  | codec op => exact op.explained hs

theorem apply_drop {name : String} {v : View} (hv : s.locals.views.get? name = some v) :
    (ReferenceOp.drop name).apply b s = ((s.unbind name).destroy v).done (.done .dropped) := by
  simp only [ReferenceOp.apply, State.withView, hv]

theorem Raises.apply (h : Raises b s op f) (hs : s.Sound) :
    (op.apply b s).outcome = .failed (.fault f) ∧ (op.apply b s).state = op.unwind b s := by
  cases h with
  | narrow hb hv hk hr hn ho hw =>
    rw [Op.apply, apply_narrow_of_not_within hb hv hk hr hn ho hw]
    simp only [Op.unwind, Op.consumed?, apply_drop hv]
    exact ⟨rfl, rfl⟩
  | widen hv hk hw =>
    rw [Op.apply, apply_widen_of_not_within hv hk hw]
    simp only [Op.unwind, Op.consumed?, apply_drop hv]
    exact ⟨rfl, rfl⟩
  | encode hb hc hv he =>
    rw [Op.apply, Codec.apply_encode_of_error hb hc hv he]
    exact ⟨rfl, rfl⟩
  | @ask operand c a cause hb hc ha he =>
    have hanswer : c.answer b.asserts (.encodeFast a) =
        .error (.fault (.unencodable a cause)) := by
      simp only [Codec.answer, hb, Codec.encodeOrFault_eq_error_iff.mpr ⟨cause, he, rfl⟩]
    simp only [Op.apply, CodecOp.apply, hc, Query.resolve, ha, Option.map_some, hanswer]
    exact ⟨rfl, rfl⟩
  | resolve hb hh hc ha =>
    rw [Op.apply, apply_resolve_of_none hs hc hh ha, if_pos hb]
    exact ⟨rfl, rfl⟩
  | poll hc hu =>
    rw [Op.apply, apply_poll hs hc, if_neg hu]
    exact ⟨rfl, rfl⟩

theorem fault_iff_raises (hs : s.Sound) :
    (op.apply b s).outcome = .failed (.fault f) ↔ Raises b s op f :=
  ⟨op.explained hs f, fun h => (h.apply hs).1⟩

/-- One state is the other without an instance that was in a variable. The entry of the instance is
removed if it has one in the present attachment, and nothing else is. -/
structure Drops (l : Ledger) (source : String) (x : Instance) (s t : State) : Prop where
  located : l.located (.held source) = [x]
  shared : t.shared = s.shared
  locals : t.locals = { s.locals with views := s.locals.views.erase source }
  nextSlot : t.thread.nextSlot = s.thread.nextSlot
  nextStamp : t.thread.nextStamp = s.thread.nextStamp
  detached : s.thread.context? = none → t.thread.context? = none
  attached : ∀ c, s.thread.context? = some c →
    ∃ registry, t.thread.context? = some { c with registry } ∧
      (l.Registered x → ∃ e ∈ c.registry.entries, Describes e x ∧
        registry.entries = c.registry.entries.erase e) ∧
      (¬ l.Registered x → registry.entries = c.registry.entries)

section Drop

variable {l : Ledger} {c : Context} {x : Instance} {source : String} {v : View}

namespace Ledger.Agrees

theorem eraseOf_registered (h : l.Agrees s) (hc : s.thread.context? = some c)
    (hx : x ∈ l.instances) (hr : l.Registered x) :
    ∃ e ∈ c.registry.entries, Describes e x ∧
      (c.registry.eraseOf x.reference).entries = c.registry.entries.erase e := by
  have hx' : x ∈ l.registered := mem_registered.mpr ⟨hx, hr⟩
  obtain ⟨e, he⟩ := h.exists_describes hx'
  have hmem : e ∈ c.registry.entries :=
    Registry.mem_entries.mpr ((h.entered_context hc e).mpr ⟨x, hx', he⟩)
  have hslots := c.registry.nodup_slots_entries
  refine ⟨e, hmem, he, ?_⟩
  rw [Registry.entries_eraseOf, hslots.of_map.erase_eq_filter]
  refine List.filter_congr fun y hy => ?_
  -- Slots are distinct, so that the slot of the instance picks its entry.
  have hiff : y.slot = e.slot ↔ y = e :=
    ⟨List.inj_on_of_nodup_map hslots hy hmem, congrArg Entry.slot⟩
  rw [he.1, Bool.eq_iff_iff, decide_eq_true_iff, bne_iff_ne, ne_eq, Option.some_inj, eq_comm, hiff]

/-- One that is not registered, also if it was in an earlier attachment, has no entry. -/
theorem eraseOf_not_registered (h : l.Agrees s) (hc : s.thread.context? = some c)
    (hx : x ∈ l.instances) (hr : ¬ l.Registered x) :
    (c.registry.eraseOf x.reference).entries = c.registry.entries := by
  rw [Registry.entries_eraseOf, List.filter_eq_self]
  intro y hy
  rw [decide_eq_true_iff]
  exact h.slot?_ne_of_not_registered hc hx hr y hy

theorem exists_drops (h : l.Agrees s) (hv : s.locals.views.get? source = some v) :
    ∃ x, Drops l source x s ((ReferenceOp.drop source).apply b s).state := by
  have hheld := h.held source
  rw [held?_eq_some hv] at hheld
  obtain ⟨x, hx, href⟩ := List.map_eq_singleton_iff.mp hheld
  have hmem : x ∈ l.instances := (mem_located.mp (hx ▸ List.mem_singleton_self x)).1
  have hstate : ((ReferenceOp.drop source).apply b s).state =
      { s with
        thread := s.thread.mapRegistry (·.eraseOf x.reference)
        locals := { s.locals with views := s.locals.views.erase source } } := by
    rw [apply_drop hv, State.destroy, Thread.destroy_eq, href]
    rfl
  rw [hstate]
  refine ⟨x, hx, rfl, rfl, s.thread.nextSlot_mapRegistry _, s.thread.nextStamp_mapRegistry _,
    fun hc => ?_, fun c hc => ?_⟩
  · rw [Thread.context?_mapRegistry, hc, Option.map_none]
  · refine ⟨c.registry.eraseOf x.reference, ?_, h.eraseOf_registered hc hmem,
      h.eraseOf_not_registered hc hmem⟩
    rw [Thread.context?_mapRegistry, hc, Option.map_some]

end Ledger.Agrees

theorem Raises.exists_consumed (h : Raises b s op f) (hop : op.consumed? = some source) :
    ∃ v, s.locals.views.get? source = some v := by
  cases h with
  | narrow hb hv | widen hv =>
    cases hop
    exact ⟨_, hv⟩
  | encode | ask | resolve | poll => cases hop

def later (b : Build) (s : State) (step : Step) (steps : List Step) : List Reply × State :=
  ((runSteps b s (step :: steps)).1.tail, (runSteps b s (step :: steps)).2)

theorem later_op (b : Build) (s : State) (op : Op) (steps : List Step) :
    later b s (.op op) steps = runSteps b (op.apply b s).state steps := by
  simp only [later, runSteps_cons, state_run_op, List.tail_cons]

/-- A conversion that ends with a fault leaves all as if its source had been dropped, and any other
operation leaves all as if it had not been. -/
theorem fault_drops_source_only (b : Build) (shared : Shared) (thread : Thread)
    (steps : List Step) (op : Op) (f : Fault) :
    let s := (runSteps b (.start shared thread) steps).2
    let l := Ledger.empty.follow b (.start shared thread) steps
    let t := (op.apply b s).state
    ((op.apply b s).outcome = .failed (.fault f) ↔ Raises b s op f) ∧
      (Raises b s op f →
        (op.consumed? = none →
          t = s ∧ ∀ after, later b s (.op op) after = runSteps b s after) ∧
        ∀ source, op.consumed? = some source →
          let drop : Op := .reference (.drop source)
          (∃ x, Drops l source x s t) ∧ t = (drop.apply b s).state ∧
            ∀ after, later b s (.op op) after = later b s (.op drop) after) := by
  intro s l t
  have hs : s.Sound := Reachable.sound ⟨shared, thread, steps, rfl⟩
  have hl : l.Agrees s := (Ledger.Agrees.start shared thread).follow steps
  refine ⟨fault_iff_raises hs, fun h => ?_⟩
  have ht : t = op.unwind b s := (h.apply hs).2
  constructor
  · intro hop
    have hts : t = s := by rw [ht, Op.unwind, hop]
    exact ⟨hts, fun after => (later_op ..).trans (congrArg (runSteps b · after) hts)⟩
  · intro source hop drop
    have htd : t = (drop.apply b s).state := by
      rw [ht, Op.unwind, hop]
      rfl
    obtain ⟨v, hv⟩ := h.exists_consumed hop
    obtain ⟨x, hx⟩ := hl.exists_drops (b := b) hv
    refine ⟨⟨x, htd ▸ hx⟩, htd, fun after => ?_⟩
    rw [later_op, later_op, ← htd]

/-- A registered reference is widened to a kind that is not above its own, and its clone stays. The
poll before finds both. -/
theorem fault_drops_source_only_of_widened :
    let b : Build := .standard .checked true
    let reference (op : ReferenceOp) : Step := .op (.reference op)
    let steps : List Step := [
      .op (.thread (.install ⟨true⟩)), .op (.thread (.attach "main")),
      .op (.heap (.allocArray "array" .refArray 3 8)),
      reference (.create "y" none (.address .bits (.object "array"))),
      reference (.clone "x" "y"), reference (.narrow "x" "x" .refArray)]
    let s := (runSteps b .initial steps).2
    let l := Ledger.empty.follow b .initial steps
    let poll : Op := .thread .poll
    let widen : Op := .reference (.widen "z" "x" .primArray)
    (∃ f, (poll.apply b s).outcome = .failed (.fault f)) ∧ (poll.apply b s).state = s ∧
      (widen.apply b s).outcome = .failed (.fault (.notAbove .primArray .refArray)) ∧
      (∃ x, Drops l "x" x s (widen.apply b s).state ∧ l.Registered x) ∧
      ∀ after, later b s (.op widen) after = later b s (.op (.reference (.drop "x"))) after := by
  intro b reference steps s l poll widen
  have hx : s.locals.views.get? "x" = some ⟨.checked 0x2000000000 (some 1), some .refArray⟩ := by
    decide +kernel
  have hregistered : ∀ x ∈ l.located (.held "x"), l.Registered x := by decide +kernel
  have hcontext : s.thread.context?.map (fun c => c.unhandled.length) = some 2 := by
    decide +kernel
  obtain ⟨c, hc, hu⟩ := Option.map_eq_some_iff.mp hcontext
  have hraise : Raises b s poll (.unhandled c.name c.unhandled) := by
    refine .poll hc fun hn => ?_
    rw [hn] at hu
    cases hu
  have hraise' : Raises b s widen (.notAbove .primArray .refArray) :=
    .widen hx rfl (by decide)
  obtain ⟨hfault, heffect⟩ := fault_drops_source_only b .initial .main steps poll _
  obtain ⟨hfault', heffect'⟩ := fault_drops_source_only b .initial .main steps widen _
  obtain ⟨⟨x, hdrops⟩, -, hlater⟩ := (heffect' hraise').2 "x" rfl
  refine ⟨⟨_, hfault.mpr hraise⟩, ((heffect hraise).1 rfl).1, hfault'.mpr hraise', ⟨x, hdrops, ?_⟩,
    hlater⟩
  exact hregistered x (hdrops.located ▸ List.mem_singleton_self x)

end Drop

end Session

end HeapRefs
