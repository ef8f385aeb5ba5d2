import HeapRefs.Proofs.Handle.Events

/-! # What a handle resolves to

A handle finds the address that it was made for, moved by every relocation since then, until a mark
is dropped that is not longer than its index or the thread is detached. From then on it finds
nothing, whoever takes its place in the table.
-/

namespace HeapRefs

def relocated (a : UInt64) : List AnchorEvent → UInt64
  | [] => a
  | .relocated source target :: events => relocated (if a = source then target else a) events
  | _ :: events => relocated a events

theorem relocated_cons (a : UInt64) (e : AnchorEvent) (events : List AnchorEvent) :
    relocated a (e :: events) = relocated (relocated a [e]) events := by
  cases e <;> rfl

namespace Handle

def Kept (h : Handle) (events : List AnchorEvent) : Prop :=
  .detached ∉ events ∧ ∀ length, .released length ∈ events → h.index < length

/-- The address of a handle after one more event, from the one before it. -/
def follow (h : Handle) : Option UInt64 → AnchorEvent → Option UInt64
  | none, _ | _, .detached => none
  | some a, .released length => if h.index < length then some a else none
  | some a, .relocated source target => some (if a = source then target else a)
  | some a, .attached | some a, .pushed _ => some a

variable {h : Handle}

theorem foldl_follow_none (events : List AnchorEvent) : events.foldl h.follow none = none := by
  induction events with
  | nil => rfl
  | cons e events ih => exact ih

theorem kept_cons {e : AnchorEvent} {events : List AnchorEvent} :
    h.Kept (e :: events) ↔
      e ≠ .detached ∧ (∀ length, e = .released length → h.index < length) ∧ h.Kept events := by
  simp only [Kept, List.mem_cons, not_or, eq_comm (a := e), ne_eq]
  constructor
  · rintro ⟨⟨he, hd⟩, hr⟩
    exact ⟨he, fun n hn => hr n (.inl hn), hd, fun n hn => hr n (.inr hn)⟩
  · rintro ⟨he, hn, hd, hr⟩
    exact ⟨⟨he, hd⟩, fun n h => h.elim (hn n) (hr n)⟩

theorem foldl_follow_eq_some_iff {events : List AnchorEvent} {a a' : UInt64} :
    events.foldl h.follow (some a) = some a' ↔ h.Kept events ∧ relocated a events = a' := by
  induction events generalizing a with
  | nil => simp [Kept, relocated]
  | cons e events ih =>
    rw [List.foldl_cons, kept_cons]
    cases e with
    | attached => simpa [follow, relocated] using ih
    | pushed address => simpa [follow, relocated] using ih
    | relocated source target => simpa [follow, relocated] using ih
    | detached => simp [follow, foldl_follow_none]
    | released length =>
      by_cases hl : h.index < length
      · simpa [follow, relocated, hl] using ih
      · simp [follow, foldl_follow_none, hl]

/-- The handle finds the given address in the anchors, and nothing else has its stamp or will be
given it. -/
structure Finds (h : Handle) (x : Anchorage) (a? : Option UInt64) : Prop where
  issued : h.stamp < x.nextStamp
  held : ∀ a, a? = some a → ∃ t, x.table? = some t ∧ t.toList[h.index]? = some ⟨a, h.stamp⟩
  unique : ∀ t, x.table? = some t → ∀ (i : Nat) (y : Anchor), t.toList[i]? = some y →
    y.stamp = h.stamp → a?.isSome ∧ i = h.index

end Handle

theorem AnchorTable.getElem?_truncate_iff {t : AnchorTable} {length i : Nat} {y : Anchor} :
    (t.truncate length).toList[i]? = some y ↔ i < length ∧ t.toList[i]? = some y := by
  rw [truncate, List.getElem?_take]
  split <;> simp [*]

namespace Anchorage

variable {x : Anchorage} {e : AnchorEvent} {t : AnchorTable} {i : Nat} {y : Anchor}

theorem nextStamp_le_apply (x : Anchorage) (e : AnchorEvent) :
    x.nextStamp ≤ (x.apply e).nextStamp := by
  cases e with
  | pushed address => exact Nat.le_succ _
  | attached | detached | released _ | relocated _ _ => exact Nat.le_refl _

theorem getElem?_apply_cases (ht : (x.apply e).table? = some t) (hy : t.toList[i]? = some y) :
    (∃ t₀ y₀, x.table? = some t₀ ∧ t₀.toList[i]? = some y₀ ∧
      y = ⟨relocated y₀.address [e], y₀.stamp⟩) ∨
    ∃ t₀ a, x.table? = some t₀ ∧ e = .pushed a ∧ i = t₀.size ∧ y = ⟨a, x.nextStamp⟩ := by
  cases e with
  | attached =>
    rcases Option.or_eq_some_iff.mp ht with ht | ⟨-, ht⟩
    · exact .inl ⟨t, y, ht, hy, rfl⟩
    · obtain rfl := Option.some.inj ht
      simp [AnchorTable.empty] at hy
  | detached => exact nomatch ht
  | pushed address =>
    obtain ⟨t₀, ht₀, rfl⟩ := Option.map_eq_some_iff.mp ht
    rcases Nat.lt_or_ge i t₀.toList.length with hi | hi
    · exact .inl ⟨t₀, y, ht₀, (List.getElem?_append_left hi).symm.trans hy, rfl⟩
    · obtain ⟨hlt, hy⟩ :=
        List.getElem?_eq_some_iff.mp ((List.getElem?_append_right hi).symm.trans hy)
      have hi : i = t₀.toList.length := by
        rw [List.length_singleton] at hlt
        omega
      rw [List.getElem_singleton] at hy
      exact .inr ⟨t₀, address, ht₀, rfl, hi, hy.symm⟩
  | released length =>
    obtain ⟨t₀, ht₀, rfl⟩ := Option.map_eq_some_iff.mp ht
    exact .inl ⟨t₀, y, ht₀, (AnchorTable.getElem?_truncate_iff.mp hy).2, rfl⟩
  | relocated source target =>
    obtain ⟨t₀, ht₀, rfl⟩ := Option.map_eq_some_iff.mp ht
    rw [AnchorTable.relocate, List.getElem?_map] at hy
    obtain ⟨y₀, hy₀, rfl⟩ := Option.map_eq_some_iff.mp hy
    refine .inl ⟨t₀, y₀, ht₀, hy₀, ?_⟩
    simp only [HeapRefs.relocated]
    split <;> rfl

theorem getElem?_of_apply (ht : (x.apply e).table? = some t) (hy : t.toList[i]? = some y)
    (hs : y.stamp < x.nextStamp) :
    ∃ t₀ y₀, x.table? = some t₀ ∧ t₀.toList[i]? = some y₀ ∧ y₀.stamp = y.stamp := by
  obtain ⟨t₀, y₀, ht₀, hy₀, rfl⟩ | ⟨t₀, a, -, -, -, rfl⟩ := getElem?_apply_cases ht hy
  · exact ⟨t₀, y₀, ht₀, hy₀, rfl⟩
  · exact absurd hs (Nat.lt_irrefl _)

end Anchorage

namespace Handle.Finds

variable {h : Handle} {x : Anchorage} {a? : Option UInt64} {t : AnchorTable}

theorem address?_eq (f : h.Finds x a?) (ht : x.table? = some t) : t.address? h = a? := by
  cases a? with
  | some a =>
    obtain ⟨t', ht', hy⟩ := f.held a rfl
    obtain rfl := Option.some.inj (ht.symm.trans ht')
    exact AnchorTable.address?_eq_some_iff.mpr hy
  | none =>
    refine Option.eq_none_iff_forall_ne_some.mpr fun a ha => ?_
    have hy := AnchorTable.address?_eq_some_iff.mp ha
    exact absurd (f.unique t ht _ _ hy rfl).1 Bool.false_ne_true

/-- The place of a handle that finds an address moves along with what follows it. -/
theorem held_apply (f : h.Finds x a?) (e : AnchorEvent) {a' : UInt64}
    (ha' : h.follow a? e = some a') :
    ∃ t, (x.apply e).table? = some t ∧ t.toList[h.index]? = some ⟨a', h.stamp⟩ := by
  cases a? with
  | none => cases ha'
  | some a =>
    obtain ⟨t, ht, hy⟩ := f.held a rfl
    cases e with
    | attached =>
      obtain rfl := Option.some.inj ha'
      exact ⟨t, by simp [Anchorage.apply, ht], hy⟩
    | detached => cases ha'
    | pushed address =>
      obtain rfl := Option.some.inj ha'
      refine ⟨(t.push address x.nextStamp).2, by simp [Anchorage.apply, ht], ?_⟩
      exact (List.getElem?_append_left (List.getElem?_eq_some_iff.mp hy).1).trans hy
    | released length =>
      rw [follow] at ha'
      split at ha'
      · next hl =>
        obtain rfl := Option.some.inj ha'
        refine ⟨t.truncate length, by simp [Anchorage.apply, ht], ?_⟩
        exact AnchorTable.getElem?_truncate_iff.mpr ⟨hl, hy⟩
      · cases ha'
    | relocated source target =>
      obtain rfl := Option.some.inj ha'
      refine ⟨t.relocate source target, by simp [Anchorage.apply, ht], ?_⟩
      rw [AnchorTable.relocate, List.getElem?_map, hy]
      simp only [Option.map_some]
      split <;> rfl

/-- No event gives the stamp of a handle to anything else. -/
theorem unique_apply (f : h.Finds x a?) (e : AnchorEvent) (ht : (x.apply e).table? = some t)
    {i : Nat} {y : Anchor} (hy : t.toList[i]? = some y) (hs : y.stamp = h.stamp) :
    (h.follow a? e).isSome ∧ i = h.index := by
  obtain ⟨t₀, y₀, ht₀, hy₀, hs₀⟩ := Anchorage.getElem?_of_apply ht hy (hs ▸ f.issued)
  obtain ⟨ha, rfl⟩ := f.unique t₀ ht₀ i y₀ hy₀ (hs₀.trans hs)
  obtain ⟨a, rfl⟩ := Option.isSome_iff_exists.mp ha
  refine ⟨?_, rfl⟩
  cases e with
  | attached | pushed _ | relocated _ _ => rfl
  | detached => cases ht
  | released length =>
    obtain ⟨t₁, -, rfl⟩ := Option.map_eq_some_iff.mp ht
    have hl := (AnchorTable.getElem?_truncate_iff.mp hy).1
    rw [follow, if_pos hl]
    rfl

theorem apply (f : h.Finds x a?) (e : AnchorEvent) : h.Finds (x.apply e) (h.follow a? e) where
  issued := Nat.lt_of_lt_of_le f.issued (x.nextStamp_le_apply e)
  held _ ha := f.held_apply e ha
  unique _ ht _ _ hy hs := f.unique_apply e ht hy hs

theorem foldl_apply (f : h.Finds x a?) (events : List AnchorEvent) :
    h.Finds (events.foldl Anchorage.apply x) (events.foldl h.follow a?) := by
  induction events generalizing x a? with
  | nil => exact f
  | cons e events ih => exact ih (f.apply e)

theorem of_push {nextStamp : Nat} (ht : t.Stamped nextStamp) (a : UInt64) :
    (t.push a nextStamp).1.Finds ⟨some (t.push a nextStamp).2, nextStamp + 1⟩ (some a) where
  issued := Nat.lt_succ_self _
  held := by
    intro a' ha
    obtain rfl := Option.some.inj ha
    exact ⟨_, rfl, by simp [AnchorTable.push, AnchorTable.size]⟩
  unique := by
    rintro _ ⟨⟩ i y hy hs
    refine ⟨rfl, ?_⟩
    rcases Nat.lt_or_ge i t.toList.length with hi | hi
    · have hy := (List.getElem?_append_left hi).symm.trans hy
      exact absurd hs (Nat.ne_of_lt (ht.issued y (List.mem_of_getElem? hy)))
    · have hl := (List.getElem?_eq_some_iff.mp hy).1
      simp only [AnchorTable.push, List.length_append, List.length_singleton] at hl
      exact Nat.le_antisymm (Nat.le_of_lt_succ hl) hi

end Handle.Finds

namespace Session

variable {b : Build} {s : State} {source name target : String} {v : View} {h : Handle} {c : Context}

theorem exists_push_of_create
    (hh : ((HandleOp.create target source).apply b s).outcome = .done (.handle h)) :
    ∃ v c, s.locals.views.get? source = some v ∧ s.thread.context? = some c ∧
      h = (c.anchors.push v.address s.thread.nextStamp).1 ∧
      ((HandleOp.create target source).apply b s).state.thread.anchorage =
        ⟨some (c.anchors.push v.address s.thread.nextStamp).2, s.thread.nextStamp + 1⟩ := by
  simp only [HandleOp.apply, State.withView, State.withContext] at hh ⊢
  cases hv : s.locals.views.get? source with
  | none => simp [hv, State.refused] at hh
  | some v =>
    cases hg : s.locals.guard? with
    | none => simp [hv, hg, State.refused] at hh
    | some guard =>
      cases hc : s.thread.context? with
      | none => simp [hv, hg, hc, State.fault, State.failed] at hh
      | some c =>
        simp only [hv, hg, hc, State.done, Outcome.done.injEq, Answer.handle.injEq] at hh
        refine ⟨v, c, rfl, rfl, hh.symm, ?_⟩
        simp [State.done, Thread.anchorage, Thread.anchors?]

theorem finds_of_create (hs : s.Sound) (hv : s.locals.views.get? source = some v)
    (hh : ((HandleOp.create target source).apply b s).outcome = .done (.handle h)) :
    h.Finds ((HandleOp.create target source).apply b s).state.thread.anchorage
      (some v.address) := by
  obtain ⟨v', c, hv', hc, rfl, ha⟩ := exists_push_of_create hh
  obtain rfl := Option.some.inj (hv'.symm.trans hv)
  rw [ha]
  exact .of_push (hs.context c hc).stamped v'.address

theorem apply_address (hs : s.Sound) (hc : s.thread.context? = some c)
    (hh : s.locals.handles.get? name = some h) :
    (HandleOp.address name).apply b s = s.done (.heldAddress (c.anchors.address? h)) := by
  simp only [HandleOp.apply, State.withHandle, hh, withContext_eq hs hc]

theorem apply_resolve_of_some (hs : s.Sound) (hc : s.thread.context? = some c)
    (hh : s.locals.handles.get? name = some h) {a : UInt64} (ha : c.anchors.address? h = some a)
    (origin : Origin) :
    (HandleOp.resolve target name origin).apply b s =
      (s.create b.managed a origin).2.bindDone target
        ⟨(s.create b.managed a origin).1, none⟩ := by
  simp only [HandleOp.apply, State.withHandle, hh, withContext_eq hs hc, ha]
  cases b.asserts <;> rfl

theorem create_null (s : State) (representation : Representation) (origin : Origin) :
    s.create representation 0 origin = (.null representation, s) := by
  cases representation <;> rfl

theorem apply_resolve_of_none (hs : s.Sound) (hc : s.thread.context? = some c)
    (hh : s.locals.handles.get? name = some h) (ha : c.anchors.address? h = none)
    (origin : Origin) :
    (HandleOp.resolve target name origin).apply b s =
      if b.asserts then s.fault (.releasedHandle h.index)
      else s.bindDone target ⟨.null b.managed, none⟩ := by
  simp only [HandleOp.apply, State.withHandle, hh, withContext_eq hs hc, ha]
  cases b.asserts with
  | true => rfl
  | false => simp only [Option.getD_none, create_null, Bool.false_eq_true, if_false]

theorem bind_null_registers_nothing (hc : s.thread.context? = some c) (target : String)
    (representation : Representation) :
    (s.bind target ⟨.null representation, none⟩).thread.nextSlot = s.thread.nextSlot ∧
      ∀ d, (s.bind target ⟨.null representation, none⟩).thread.context? = some d →
        ∀ e ∈ d.registry.stored, e ∈ c.registry.stored := by
  rw [State.bind_eq]
  refine ⟨s.thread.nextSlot_mapRegistry _, fun d hd e he => ?_⟩
  simp only [State.displace, Thread.context?_mapRegistry, hc, Option.map_some,
    Option.some.injEq] at hd
  subst hd
  exact (Registry.mem_eraseHeld.mp he).1

/-- Along any run a handle finds the address that it was made for, moved by all relocations since,
until an event releases it. From then on it is released for good. -/
theorem address?_eq_history (hr : Reachable b s) (hv : s.locals.views.get? source = some v)
    (hh : ((HandleOp.create target source).apply b s).outcome = .done (.handle h))
    (after : List Step)
    (hc : (runSteps b ((HandleOp.create target source).apply b s).state after).2.thread.context? =
      some c) :
    let made := ((HandleOp.create target source).apply b s).state
    let now := (runSteps b made after).2
    let events := anchorHistory b made after
    ((c.anchors.address? h).isSome ↔
        .detached ∉ events ∧ ∀ length, .released length ∈ events → h.index < length) ∧
      (∀ a, c.anchors.address? h = some a → a = relocated v.address events) ∧
      (∀ later d, (runSteps b now later).2.thread.context? = some d →
        c.anchors.address? h = none → d.anchors.address? h = none) ∧
      ∀ name, now.locals.handles.get? name = some h →
        (HandleOp.address name).apply b now = now.done (.heldAddress (c.anchors.address? h)) ∧
        ∀ target origin,
          let e := (HandleOp.resolve target name origin).apply b now
          (∀ a, c.anchors.address? h = some a → ∃ r, e.outcome = .done (.view ⟨r, none⟩) ∧
            r.address = a ∧ r.representation = b.managed) ∧
          (c.anchors.address? h = none → b.asserts = true →
            e = now.fault (.releasedHandle h.index)) ∧
          (c.anchors.address? h = none → b.asserts = false →
            e = now.bindDone target ⟨.null b.managed, none⟩ ∧
            e.state.thread.nextSlot = now.thread.nextSlot ∧
            ∀ d, e.state.thread.context? = some d →
              ∀ x ∈ d.registry.stored, x ∈ c.registry.stored) := by
  intro made now events
  have hs : now.Sound := by
    have hn := (hr.run (.op (.handle (.create target source)) :: after)).sound
    rwa [state_runSteps_cons, state_run_op] at hn
  -- At any later moment the events alone say what the handle finds.
  have hfind (steps : List Step) {d : Context}
      (hd : (runSteps b made steps).2.thread.context? = some d) :
      d.anchors.address? h = (anchorHistory b made steps).foldl h.follow (some v.address) := by
    have hf := (finds_of_create hr.sound hv hh).foldl_apply (anchorHistory b made steps)
    rw [← anchorage_runSteps] at hf
    exact hf.address?_eq (Thread.table?_anchorage hd)
  have hnow := hfind after hc
  refine ⟨?_, ?_, ?_, ?_⟩
  · rw [hnow, Option.isSome_iff_exists]
    simp only [Handle.foldl_follow_eq_some_iff, exists_and_left, exists_eq', and_true]
    exact Iff.rfl
  · intro a ha
    exact (Handle.foldl_follow_eq_some_iff.mp (hnow ▸ ha)).2.symm
  · intro later d hd ha
    rw [← state_runSteps_append] at hd
    rw [hfind _ hd, anchorHistory_append, List.foldl_append, ← hnow, ha,
      Handle.foldl_follow_none]
  · intro name hn
    refine ⟨apply_address hs hc hn, fun target origin => ⟨?_, ?_, ?_⟩⟩
    · intro a ha
      rw [apply_resolve_of_some hs hc hn ha]
      exact ⟨_, rfl, Thread.address_create .., Thread.representation_create ..⟩
    · intro ha hb
      rw [apply_resolve_of_none hs hc hn ha, if_pos hb]
    · intro ha hb
      rw [apply_resolve_of_none hs hc hn ha, if_neg (by simp [hb])]
      exact ⟨rfl, bind_null_registers_nothing hc ..⟩

theorem address?_eq_history_of_relocated :
    let b : Build := .standard .checked true
    let before : List Step := [
      .op (.thread (.attach "main")),
      .op (.reference (.create "x" none (.address .bits (.word 0x1000))))]
    let after : List Step := [
      .op (.handle (.mark "m")), .op (.handle (.create "g" "x")),
      .op (.handle (.relocate (.word 0x1000) (.word 0x8000))), .op (.handle (.release "m"))]
    let s := (runSteps b .initial before).2
    ∃ c, (runSteps b ((HandleOp.create "h" "x").apply b s).state after).2.thread.context? =
        some c ∧
      c.anchors.address? ⟨0, 0⟩ = some 0x8000 ∧
      relocated 0x1000 (anchorHistory b ((HandleOp.create "h" "x").apply b s).state after) =
        0x8000 := by
  intro b before after s
  have hr : Reachable b s := ⟨.initial, .main, before, rfl⟩
  have hv : s.locals.views.get? "x" = some ⟨.checked 0x1000 none, none⟩ := by decide +kernel
  have hh : ((HandleOp.create "h" "x").apply b s).outcome = .done (.handle ⟨0, 0⟩) := by
    decide +kernel
  obtain ⟨c, hc, ha⟩ : ∃ c,
      (runSteps b ((HandleOp.create "h" "x").apply b s).state after).2.thread.context? = some c ∧
      c.anchors.address? ⟨0, 0⟩ = some 0x8000 :=
    Option.bind_eq_some_iff.mp (by decide +kernel)
  obtain ⟨-, heq, -⟩ := address?_eq_history hr hv hh after hc
  exact ⟨c, hc, ha, (heq _ ha).symm⟩

end Session

end HeapRefs
