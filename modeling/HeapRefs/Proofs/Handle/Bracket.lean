import HeapRefs.Proofs.Handle.Addresses
import HeapRefs.Proofs.Handle.Scope
import HeapRefs.Proofs.Session.Attachment

/-! # Scopes in brackets

While a mark is there and no older mark is dropped, the anchors that were there when it was made
stay, whatever happens to the newer marks: these were all made over a table at least as long. So
dropping the mark brings the table back to what it was, but for the addresses that have been
relocated since.
-/

namespace HeapRefs

namespace AnchorTable

variable {t t₀ : AnchorTable}

def StartsWith (t t₀ : AnchorTable) : Prop := t₀.toList <+: t.toList

theorem StartsWith.push (h : t.StartsWith t₀) (address : UInt64) (stamp : Nat) :
    (t.push address stamp).2.StartsWith t₀ :=
  h.trans (List.prefix_append ..)

theorem StartsWith.truncate (h : t.StartsWith t₀) {length : Nat} (hl : t₀.size ≤ length) :
    (t.truncate length).StartsWith t₀ :=
  List.prefix_take_iff.mpr ⟨h, hl⟩

theorem StartsWith.mapAddresses (h : t.StartsWith t₀) (f : UInt64 → UInt64) :
    (t.mapAddresses f).StartsWith (t₀.mapAddresses f) :=
  List.IsPrefix.map _ h

theorem StartsWith.truncate_eq (h : t.StartsWith t₀) : t.truncate t₀.size = t₀ := by
  obtain ⟨rest, hrest⟩ := h
  rw [AnchorTable.truncate, ← hrest, size, List.take_left]

theorem Stamped.address?_eq_none {nextStamp : Nat} (ht : t.Stamped nextStamp) {h : Handle}
    (hn : nextStamp ≤ h.stamp) : t.address? h = none := by
  refine Option.eq_none_iff_forall_ne_some.mpr fun a ha => ?_
  have hlt := ht.issued _ (List.mem_of_getElem? (address?_eq_some_iff.mp ha))
  exact absurd hlt (Nat.not_lt.mpr hn)

end AnchorTable

namespace Anchorage

variable {x : Anchorage} {t t₀ : AnchorTable} {e : AnchorEvent}

theorem nextStamp_le_foldl (x : Anchorage) (events : List AnchorEvent) :
    x.nextStamp ≤ (events.foldl apply x).nextStamp := by
  induction events generalizing x with
  | nil => exact Nat.le_refl _
  | cons e events ih => exact Nat.le_trans (x.nextStamp_le_apply e) (ih _)

theorem startsWith_apply (ht : x.table? = some t) (hs : t.StartsWith t₀) (hd : e ≠ .detached)
    (hr : ∀ n, e = .released n → t₀.size ≤ n) :
    ∃ u, (x.apply e).table? = some u ∧ u.StartsWith (t₀.mapAddresses (relocated · [e])) := by
  cases e with
  | attached => exact ⟨t, by simp [apply, ht], by simpa [relocated] using hs⟩
  | detached => exact absurd rfl hd
  | pushed a =>
    refine ⟨(t.push a x.nextStamp).2, by simp [apply, ht], ?_⟩
    simpa [relocated] using hs.push a x.nextStamp
  | released n =>
    refine ⟨t.truncate n, by simp [apply, ht], ?_⟩
    simpa [relocated] using hs.truncate (hr n rfl)
  | relocated source target =>
    refine ⟨t.relocate source target, by simp [apply, ht], ?_⟩
    rw [AnchorTable.relocate_eq]
    exact hs.mapAddresses _

theorem startsWith_foldl (ht : x.table? = some t) (hs : t.StartsWith t₀)
    {events : List AnchorEvent} (hd : .detached ∉ events)
    (hr : ∀ n, .released n ∈ events → t₀.size ≤ n) :
    ∃ u, (events.foldl apply x).table? = some u ∧
      u.StartsWith (t₀.mapAddresses (relocated · events)) := by
  induction events generalizing x t t₀ with
  | nil => exact ⟨t, ht, by simpa [relocated] using hs⟩
  | cons e events ih =>
    rw [List.mem_cons, not_or] at hd
    obtain ⟨u, hu, hsu⟩ := startsWith_apply ht hs (Ne.symm hd.1) fun n he =>
      hr n (List.mem_cons.mpr (.inl he.symm))
    have hsize : (t₀.mapAddresses (relocated · [e])).size = t₀.size := by
      simp [AnchorTable.size, AnchorTable.mapAddresses]
    obtain ⟨w, hw, hsw⟩ := ih hu hsu hd.2 fun n hn =>
      hsize ▸ hr n (List.mem_cons_of_mem e hn)
    rw [AnchorTable.mapAddresses_mapAddresses] at hsw
    simp only [← relocated_cons] at hsw
    exact ⟨w, hw, hsw⟩

end Anchorage

namespace Session

variable {b : Build} {s t : State} {act : Act} {name : String} {c : Context} {length : Nat}
  {old : Bindings Mark}

theorem Turn.mark_cases (ht : Turn s act t) {m : Mark}
    (hm : t.locals.marks.get? name = some m) :
    s.locals.marks.get? name = some m ∨
      ∃ c, s.thread.context? = some c ∧ m = c.anchors.mark := by
  cases hd : act.drops name with
  | false => exact .inl ((ht.get?_marks hd).symm.trans hm)
  | true =>
    obtain ht | ⟨shared, hr⟩ := ht
    case wait => cases hd
    cases ht with
    | mark target hc =>
      rw [Bindings.get?_set] at hm
      split at hm
      · exact .inr ⟨_, hc, (Option.some.inj hm).symm⟩
      · exact .inl hm
    | release hm' hc =>
      rw [Bindings.get?_erase] at hm
      split at hm
      · cases hm
      · exact .inl hm
    | detach hc => cases hm
    | _ => exact absurd hd Bool.false_ne_true

/-- Since some marks were there, the table has not been shorter than the given length, and neither
are the marks in other variables, which are newer. -/
structure State.Nests (s : State) (length : Nat) (old : Bindings Mark) : Prop where
  reaches : s.thread.anchorage.Reaches length
  newer : ∀ name m, old.get? name = none → s.locals.marks.get? name = some m → length ≤ m.length

def Act.Spares (act : Act) (marks : Bindings Mark) : Prop :=
  ∀ name, (marks.get? name).isSome = true → act.drops name = false

namespace State.Nests

theorem le_released (h : s.Nests length old) (hk : act.Spares old)
    (ho : (old.get? name).isSome = true) {n : Nat} (hn : .released n ∈ s.anchorEvents act) :
    length ≤ n := by
  cases act with
  | mark target | release target =>
    simp only [anchorEvents, List.mem_map, Option.mem_toList, AnchorEvent.released.injEq] at hn
    obtain ⟨m, hm, rfl⟩ := hn
    refine h.newer target m ?_ hm
    rw [← Option.not_isSome_iff_eq_none]
    intro hs
    simpa [Act.drops] using hk target hs
  | detach => cases hk name ho
  | _ => simp [anchorEvents] at hn

theorem turn (h : s.Nests length old) (ht : Turn s act t) (hk : act.Spares old)
    (ho : (old.get? name).isSome = true) : t.Nests length old where
  reaches := by
    rw [ht.anchorage]
    exact h.reaches.foldl_apply (detached_not_mem_anchorEvents (hk name ho)) fun n hn =>
      h.le_released hk ho hn
  newer := by
    intro other m hnew hm
    rcases ht.mark_cases hm with hm | ⟨c, hc, rfl⟩
    · exact h.newer other m hnew hm
    · obtain ⟨u, hu, hl⟩ := h.reaches
      obtain rfl := Option.some.inj ((Thread.table?_anchorage hc).symm.trans hu)
      exact hl

/-- A run that drops none of the old marks releases nothing below the length. -/
theorem le_released_of_run (h : s.Nests length old) (ho : (old.get? name).isSome = true)
    {steps : List Step} (hk : ∀ act ∈ acts b s steps, act.Spares old) {n : Nat}
    (hn : .released n ∈ anchorHistory b s steps) : length ≤ n := by
  induction steps generalizing s with
  | nil => cases hn
  | cons step steps ih =>
    rw [acts, List.forall_mem_cons] at hk
    rw [anchorHistory, List.mem_append] at hn
    rcases hn with hn | hn
    · exact h.le_released hk.1 ho hn
    · exact ih (h.turn (step.turn b s) hk.1 ho) hk.2 hn

end State.Nests

section Scope

variable {op : HandleOp}

/-- From the making of a mark until it is dropped, the table of the thread begins with the anchors
that it had then, relocated as the thread has relocated since. -/
theorem startsWith_of_scope (hs : s.Sound) (hc : s.thread.context? = some c)
    (hfree : s.locals.marks.get? name = none) {steps : List Step}
    (hk : ∀ act ∈ acts b ((HandleOp.mark name).apply b s).state steps,
      act.Spares ((HandleOp.mark name).apply b s).state.locals.marks) :
    let marked := ((HandleOp.mark name).apply b s).state
    ∃ d, (runSteps b marked steps).2.thread.context? = some d ∧
      d.anchors.StartsWith (c.anchors.mapAddresses (relocated · (anchorHistory b marked steps))) ∧
      (runSteps b marked steps).2.locals.marks.get? name = some c.anchors.mark := by
  intro marked
  obtain ⟨hmark, hsame⟩ := apply_mark b name hs hc
  have ho : (marked.locals.marks.get? name).isSome = true := Option.isSome_of_eq_some hmark
  -- No mark was replaced, so that the table is the one of before.
  have htable : marked.thread.anchorage.table? = some c.anchors := by
    rw [hsame, State.anchorEvents, hfree]
    exact Thread.table?_anchorage hc
  have hnests : marked.Nests c.anchors.size marked.locals.marks := by
    refine ⟨⟨c.anchors, htable, Nat.le_refl _⟩, fun other m hnone hm => ?_⟩
    rw [hnone] at hm
    cases hm
  obtain ⟨hkept, hd⟩ := get?_marks_runSteps fun act hact => hk act hact name ho
  obtain ⟨u, hu, hsu⟩ := Anchorage.startsWith_foldl htable (List.prefix_refl _) hd
    fun n hn => hnests.le_released_of_run ho hk hn
  rw [← anchorage_runSteps] at hu
  obtain ⟨d, hd, rfl⟩ := Option.map_eq_some_iff.mp hu
  exact ⟨d, hd, hsu, hkept.trans hmark⟩

theorem nextStamp_le_of_create {before : List Step} {target source : String} {h : Handle}
    (hh : ((HandleOp.create target source).apply b (runSteps b s before).2).outcome =
      .done (.handle h)) : s.thread.nextStamp ≤ h.stamp := by
  obtain ⟨v, d, -, -, rfl, -⟩ := exists_push_of_create hh
  have hle := s.thread.anchorage.nextStamp_le_foldl (anchorHistory b s before)
  rwa [← anchorage_runSteps] at hle

/-- Unless an older mark is dropped in between, dropping a mark gives back the anchors from when it
was made, relocated as all were since, and the handles made since find nothing. -/
theorem scope_restores_anchors (hr : Reachable b s) (hc : s.thread.context? = some c)
    (hfree : s.locals.marks.get? name = none) (segment : List Step)
    (hk : ∀ act ∈ acts b ((HandleOp.mark name).apply b s).state segment,
      act.Spares ((HandleOp.mark name).apply b s).state.locals.marks)
    (hop : op = .release name ∨ op = .mark name) :
    let marked := ((HandleOp.mark name).apply b s).state
    let moved (a : UInt64) : UInt64 := relocated a (anchorHistory b marked segment)
    let dropped := (op.apply b (runSteps b marked segment).2).state
    ∃ d, dropped.thread.context? = some d ∧
      d.anchors.addresses = c.anchors.addresses.map moved ∧
      d.anchors.stamps = c.anchors.stamps ∧
      (∀ h, d.anchors.address? h = (c.anchors.address? h).map moved) ∧
      (∀ holder h, dropped.locals.handles.get? holder = some h →
        (HandleOp.address holder).apply b dropped =
          dropped.done (.heldAddress ((c.anchors.address? h).map moved))) ∧
      ∀ before after target source h,
        segment = before ++ .op (.handle (.create target source)) :: after →
        ((HandleOp.create target source).apply b (runSteps b marked before).2).outcome =
          .done (.handle h) →
        d.anchors.address? h = none := by
  intro marked moved dropped
  have hmarked : marked.Sound := hr.sound.apply (b := b) (.handle (.mark name))
  have hnow : (runSteps b marked segment).2.Sound := hmarked.runSteps segment
  have hdropped : dropped.Sound := hnow.apply (b := b) (.handle op)
  obtain ⟨d, hd, hstart, hm⟩ := startsWith_of_scope hr.sound hc hfree hk
  obtain ⟨d', hd', htruncate⟩ := exists_truncate_of_drop b hnow hd hm hop
  have htable : d'.anchors = c.anchors.mapAddresses moved := by
    have hsize : c.anchors.mark.length = (c.anchors.mapAddresses moved).size := by
      simp [AnchorTable.mark, AnchorTable.size, AnchorTable.mapAddresses]
    rw [htruncate, hsize]
    exact hstart.truncate_eq
  have hfind (h : Handle) : d'.anchors.address? h = (c.anchors.address? h).map moved := by
    rw [htable, AnchorTable.address?_mapAddresses]
  refine ⟨d', hd', ?_, ?_, hfind, fun holder h hh => ?_, ?_⟩
  · rw [htable, AnchorTable.addresses_mapAddresses]
  · rw [htable, AnchorTable.stamps_mapAddresses]
  · rw [apply_address hdropped hd' hh, hfind]
  · rintro before after target source h - hh
    -- A handle of the scope has a later stamp than any that the old table holds.
    have hle : s.thread.nextStamp ≤ h.stamp := by
      refine Nat.le_trans ?_ (nextStamp_le_of_create hh)
      exact Nat.le_trans (s.thread.anchorage.nextStamp_le_foldl _)
        (Nat.le_of_eq (congrArg Anchorage.nextStamp (apply_mark b name hr.sound hc).2.symm))
    rw [hfind, (hr.sound.context c hc).stamped.address?_eq_none hle, Option.map_none]

/-- Two marks are made in the scope. The first is dropped before the second, which outlives the
scope; the handle from before is relocated. -/
theorem scope_restores_anchors_around_crossing_marks :
    let b : Build := .standard .checked true
    let s := (runSteps b .initial [
      .op (.thread (.attach "main")), .op (.handle (.mark "outer")),
      .op (.reference (.create "x" none (.address .bits (.word 0x1000)))),
      .op (.handle (.create "h" "x"))]).2
    let segment : List Step := [
      .op (.handle (.mark "a")), .op (.handle (.create "g" "x")),
      .op (.handle (.mark "b")), .op (.handle (.create "k" "x")),
      .op (.handle (.release "a")), .op (.handle (.relocate (.word 0x1000) (.word 0x8000))),
      .op (.handle (.create "g" "x")), .op (.handle (.create "k" "x"))]
    let dropped := ((HandleOp.release "m").apply b
      (runSteps b ((HandleOp.mark "m").apply b s).state segment).2).state
    ∃ d, dropped.thread.context? = some d ∧ d.anchors.addresses = [0x8000] ∧
      d.anchors.stamps = [0] ∧
      d.anchors.address? ⟨0, 0⟩ = some 0x8000 ∧ d.anchors.address? ⟨1, 3⟩ = none := by
  intro b s segment dropped
  have hr : Reachable b s := ⟨.initial, .main, _, rfl⟩
  obtain ⟨c, hc, hanchors⟩ : ∃ c, s.thread.context? = some c ∧ c.anchors = ⟨[⟨0x1000, 0⟩]⟩ :=
    Option.map_eq_some_iff.mp (by decide +kernel)
  have hfree : s.locals.marks.get? "m" = none := by decide +kernel
  have hk : ∀ act ∈ acts b ((HandleOp.mark "m").apply b s).state segment,
      act.Spares ((HandleOp.mark "m").apply b s).state.locals.marks := by
    have hdrops : ∀ act ∈ acts b ((HandleOp.mark "m").apply b s).state segment,
        act.drops "m" = false ∧ act.drops "outer" = false := by decide +kernel
    have hmarks : ((HandleOp.mark "m").apply b s).state.locals.marks =
      ((∅ : Bindings Mark).set "outer" ⟨0⟩).set "m" ⟨1⟩ := by decide +kernel
    intro act hact other ho
    rw [hmarks, Bindings.get?_set, Bindings.get?_set] at ho
    split at ho
    · next h => exact h ▸ (hdrops act hact).1
    · split at ho
      · next h => exact h ▸ (hdrops act hact).2
      · cases ho
  have hevents : anchorHistory b ((HandleOp.mark "m").apply b s).state segment =
    [.pushed 0x1000, .pushed 0x1000, .released 1, .relocated 0x1000 0x8000, .pushed 0x1000,
      .pushed 0x1000] := by decide +kernel
  obtain ⟨d, hd, ha, hs, hfind, -⟩ := scope_restores_anchors hr hc hfree segment hk (.inl rfl)
  rw [hevents, hanchors] at ha
  rw [hanchors] at hs
  simp only [hevents, hanchors] at hfind
  exact ⟨d, by simpa only [dropped] using hd, ha.trans (by decide), hs,
    (hfind _).trans (by decide), (hfind _).trans (by decide)⟩

end Scope

end Session

end HeapRefs
