import HeapRefs.Proofs.Handle.Resolution

/-! # Scopes of marks

A mark is the length that the anchor table had when it was made, and dropping it releases the
anchors from this length on. The handles made since are among them as long as no shorter mark has
been dropped in between. Otherwise a newer handle may be in a place below the mark, and stays.
-/

namespace HeapRefs

theorem AnchorTable.address?_truncate (t : AnchorTable) (length : Nat) (h : Handle) :
    (t.truncate length).address? h = if h.index < length then t.address? h else none := by
  rw [address?, truncate, List.getElem?_take]
  by_cases hl : h.index < length
  · rw [if_pos hl, if_pos hl]
    rfl
  · rw [if_neg hl, if_neg hl]

namespace Anchorage

variable {x : Anchorage} {e : AnchorEvent} {length : Nat}

/-- There is a table of at least the given size. -/
def Reaches (x : Anchorage) (length : Nat) : Prop := ∃ t, x.table? = some t ∧ length ≤ t.size

theorem Reaches.apply (h : x.Reaches length) (hd : e ≠ .detached)
    (hr : ∀ n, e = .released n → length ≤ n) : (x.apply e).Reaches length := by
  obtain ⟨t, ht, hl⟩ := h
  cases e with
  | attached => exact ⟨t, by simp [Anchorage.apply, ht], hl⟩
  | detached => exact absurd rfl hd
  | pushed a =>
    refine ⟨(t.push a x.nextStamp).2, by simp [Anchorage.apply, ht], ?_⟩
    rw [AnchorTable.size_push]
    exact Nat.le_succ_of_le hl
  | released n =>
    refine ⟨t.truncate n, by simp [Anchorage.apply, ht], ?_⟩
    rw [AnchorTable.size_truncate]
    exact Nat.le_min.mpr ⟨hr n rfl, hl⟩
  | relocated source target =>
    refine ⟨t.relocate source target, by simp [Anchorage.apply, ht], ?_⟩
    rwa [AnchorTable.size_relocate]

theorem Reaches.foldl_apply (h : x.Reaches length) {events : List AnchorEvent}
    (hd : .detached ∉ events) (hr : ∀ n, .released n ∈ events → length ≤ n) :
    (events.foldl Anchorage.apply x).Reaches length := by
  induction events generalizing x with
  | nil => exact h
  | cons e events ih =>
    rw [List.mem_cons, not_or] at hd
    refine ih (h.apply (Ne.symm hd.1) fun n he => hr n ?_) hd.2 fun n hn => hr n ?_
    · exact List.mem_cons.mpr (.inl he.symm)
    · exact List.mem_cons.mpr (.inr hn)

end Anchorage

namespace Session

variable {b : Build} {s t : State} {act : Act} {name : String} {c : Context}

def Act.drops (name : String) : Act → Bool
  | .mark target | .release target => target == name
  | .detach => true
  | _ => false

def acts (b : Build) : State → List Step → List Act
  | _, [] => []
  | s, step :: steps => step.act b s :: acts b (step.run b s).2 steps

theorem detached_not_mem_anchorEvents (h : act.drops name = false) :
    .detached ∉ s.anchorEvents act := by
  cases act <;> simp_all [State.anchorEvents, Act.drops]

theorem Turn.get?_marks (ht : Turn s act t) (h : act.drops name = false) :
    t.locals.marks.get? name = s.locals.marks.get? name := by
  have hb (s : State) (target : String) (v : View) :
      (s.bind target v).locals.marks = s.locals.marks := by rw [State.bind_eq]
  obtain ht | ⟨shared, hr⟩ := ht
  case wait => rfl
  cases ht with
  | null target representation kind? => rw [hb]
  | create target representation address origin kind? =>
    rw [State.creates, hb]
    rfl
  | transfer target kind? hv =>
    rw [hb]
    rfl
  | mark target hc =>
    rw [Act.drops, beq_eq_false_iff_ne] at h
    rw [Bindings.get?_set, if_neg (Ne.symm h)]
  | release hm hc =>
    rw [Act.drops, beq_eq_false_iff_ne] at h
    rw [Bindings.get?_erase, if_neg (Ne.symm h)]
  | detach hc => cases h
  | discard hv | forget hv | allow hv | attach name hc | resume hc | anchor target hv hc
  | relocate source target hc | other shared codecs => rfl

theorem get?_marks_runSteps {steps : List Step}
    (h : ∀ act ∈ acts b s steps, act.drops name = false) :
    (runSteps b s steps).2.locals.marks.get? name = s.locals.marks.get? name ∧
      .detached ∉ anchorHistory b s steps := by
  induction steps generalizing s with
  | nil => simp [anchorHistory]
  | cons step steps ih =>
    rw [acts, List.forall_mem_cons] at h
    obtain ⟨hm, hd⟩ := ih h.2
    rw [state_runSteps_cons, hm, (step.turn b s).get?_marks h.1, anchorHistory,
      List.mem_append, not_or]
    exact ⟨rfl, detached_not_mem_anchorEvents h.1, hd⟩

section Drop

variable {h : Handle} {m : Mark} {op : HandleOp} {target source : String}

theorem context?_of_drop (b : Build) (hs : s.Sound) (hc : s.thread.context? = some c)
    (hm : s.locals.marks.get? name = some m) (hop : op = .release name ∨ op = .mark name) :
    (op.apply b s).state.thread.context? = some (c.release m) := by
  rcases hop with rfl | rfl
  · simp only [HandleOp.apply, hm, withContext_eq hs hc]
    exact s.thread.context?_setContext _
  · simp only [HandleOp.apply, hm, withContext_eq hs hc]
    exact s.thread.context?_setContext _

theorem exists_truncate_of_drop (b : Build) (hs : s.Sound) (hc : s.thread.context? = some c)
    (hm : s.locals.marks.get? name = some m) (hop : op = .release name ∨ op = .mark name) :
    ∃ d, (op.apply b s).state.thread.context? = some d ∧
      d.anchors = c.anchors.truncate m.length :=
  ⟨_, context?_of_drop b hs hc hm hop, rfl⟩

theorem apply_mark (b : Build) (name : String) (hs : s.Sound) (hc : s.thread.context? = some c) :
    let marked := ((HandleOp.mark name).apply b s).state
    marked.locals.marks.get? name = some c.anchors.mark ∧
      marked.thread.anchorage =
        (s.anchorEvents (.mark name)).foldl Anchorage.apply s.thread.anchorage := by
  have ht := Transition.handleOp (b := b) (s := s) (.mark name)
  have ha : (HandleOp.mark name).act b s = .mark name := by
    simp only [HandleOp.act, State.actAttached, hs.guard_eq_some hc, hc]
  refine ⟨?_, ?_⟩
  · simp only [HandleOp.apply, withContext_eq hs hc]
    exact (Bindings.get?_set ..).trans (if_pos rfl)
  · rw [← ha]
    exact ht.anchorage

/-- While nothing below a length is released, from the making of a mark on, a table that was that
long stays so. -/
theorem reaches_of_mark (hs : s.Sound) (hc : s.thread.context? = some c) {steps : List Step}
    {length : Nat} (hl : length ≤ c.anchors.size)
    (hd : .detached ∉ anchorHistory b ((HandleOp.mark name).apply b s).state steps)
    (hn : ∀ n, .released n ∈ s.anchorEvents (.mark name) ++
      anchorHistory b ((HandleOp.mark name).apply b s).state steps → length ≤ n) :
    (runSteps b ((HandleOp.mark name).apply b s).state steps).2.thread.anchorage.Reaches
      length := by
  rw [anchorage_runSteps, (apply_mark b name hs hc).2, ← List.foldl_append]
  have h : s.thread.anchorage.Reaches length := ⟨c.anchors, Thread.table?_anchorage hc, hl⟩
  refine h.foldl_apply ?_ hn
  rw [List.mem_append, not_or]
  exact ⟨by simp [State.anchorEvents], hd⟩

/-- A handle made since a mark is released when the mark is dropped, unless its place is below the
mark. It is not if no shorter mark has been dropped or replaced between the two. -/
theorem address?_of_mark_dropped (hr : Reachable b s) (hc : s.thread.context? = some c)
    (before after : List Step)
    (hh : ((HandleOp.create target source).apply b
      (runSteps b ((HandleOp.mark name).apply b s).state before).2).outcome = .done (.handle h))
    (hk : ∀ act ∈ acts b ((HandleOp.mark name).apply b s).state
      (before ++ .op (.handle (.create target source)) :: after), act.drops name = false)
    (hop : op = .release name ∨ op = .mark name) :
    let marked := ((HandleOp.mark name).apply b s).state
    let now := (runSteps b marked (before ++ .op (.handle (.create target source)) :: after)).2
    ∃ d d', now.thread.context? = some d ∧ (op.apply b now).state.thread.context? = some d' ∧
      d'.anchors.address? h =
        (if h.index < c.anchors.size then d.anchors.address? h else none) ∧
      ((∀ length, .released length ∈ s.anchorEvents (.mark name) ++ anchorHistory b marked before →
          c.anchors.size ≤ length) →
        d'.anchors.address? h = none) := by
  intro marked now
  obtain ⟨hkept, hd⟩ := get?_marks_runSteps hk
  have hsound : now.Sound := by
    have hn := (hr.run (.op (.handle (.mark name)) :: before ++
      .op (.handle (.create target source)) :: after)).sound
    rwa [List.cons_append, state_runSteps_cons, state_run_op] at hn
  -- The thread is attached all along, since the mark would have been dropped with it.
  obtain ⟨d, hnow⟩ : ∃ d, now.thread.context? = some d := by
    obtain ⟨t, ht, -⟩ := reaches_of_mark hr.sound hc (Nat.zero_le _) hd fun _ _ => Nat.zero_le _
    obtain ⟨d, hd, -⟩ := Option.map_eq_some_iff.mp ht
    exact ⟨d, hd⟩
  have hmark : now.locals.marks.get? name = some c.anchors.mark :=
    hkept.trans (apply_mark b name hr.sound hc).1
  obtain ⟨d', hdrop, htable⟩ := exists_truncate_of_drop b hsound hnow hmark hop
  have haddress : d'.anchors.address? h =
      if h.index < c.anchors.size then d.anchors.address? h else none := by
    rw [htable, AnchorTable.address?_truncate]
    rfl
  refine ⟨d, d', hnow, hdrop, haddress, fun hlong => ?_⟩
  obtain ⟨v, c', -, hc', rfl, -⟩ := exists_push_of_create hh
  rw [anchorHistory_append, List.mem_append, not_or] at hd
  obtain ⟨t, ht, hle⟩ := reaches_of_mark hr.sound hc (Nat.le_refl _) hd.1 hlong
  obtain rfl := Option.some.inj ((Thread.table?_anchorage hc').symm.trans ht)
  rw [haddress]
  exact if_neg (Nat.not_lt.mpr hle)

theorem address?_of_mark_dropped_nested :
    let b : Build := .standard .checked true
    let s := (runSteps b .initial [
      .op (.thread (.attach "main")),
      .op (.reference (.create "x" none (.address .bits (.word 0x1000)))),
      .op (.handle (.create "k" "x"))]).2
    let before : List Step := [
      .op (.handle (.mark "inner")), .op (.handle (.create "g" "x")),
      .op (.handle (.release "inner"))]
    let now := (runSteps b ((HandleOp.mark "m").apply b s).state
      (before ++ [.op (.handle (.create "h" "x"))])).2
    ∃ d, ((HandleOp.release "m").apply b now).state.thread.context? = some d ∧
      d.anchors.address? ⟨1, 2⟩ = none := by
  intro b s before now
  have hr : Reachable b s := ⟨.initial, .main, _, rfl⟩
  obtain ⟨c, hc, hsize⟩ : ∃ c, s.thread.context? = some c ∧ c.anchors.size = 1 :=
    Option.map_eq_some_iff.mp (by decide +kernel)
  have hh : ((HandleOp.create "h" "x").apply b
      (runSteps b ((HandleOp.mark "m").apply b s).state before).2).outcome =
    .done (.handle ⟨1, 2⟩) := by decide +kernel
  have hk : ∀ act ∈ acts b ((HandleOp.mark "m").apply b s).state
      (before ++ [.op (.handle (.create "h" "x"))]),
    act.drops "m" = false := by decide +kernel
  have hevents : s.anchorEvents (.mark "m") ++
      anchorHistory b ((HandleOp.mark "m").apply b s).state before =
    [.pushed 0x1000, .released 1] := by decide +kernel
  obtain ⟨-, d, -, hd, -, hnone⟩ := address?_of_mark_dropped hr hc before [] hh hk (.inl rfl)
  refine ⟨d, by simpa only [now] using hd, hnone fun length hl => ?_⟩
  rw [hevents] at hl
  have hlength : length = 1 := by simpa using hl
  exact Nat.le_of_eq (hsize.trans hlength.symm)

/-- A mark is replaced while a handle older than its successor is there. The handle made next is in
the place of that one, below the new mark, and is there after the new mark has been dropped. -/
theorem handle_kept_by_dropped_mark :
    let b : Build := .standard .checked true
    let marked := (runSteps b .initial [
      .op (.thread (.attach "main")),
      .op (.reference (.create "x" none (.address .bits (.word 0x1000)))),
      .op (.handle (.mark "m")), .op (.handle (.create "h" "x")), .op (.handle (.mark "m"))]).2
    let made := (HandleOp.create "g" "x").apply b marked
    let dropped := (HandleOp.release "m").apply b made.state
    made.outcome = .done (.handle ⟨0, 1⟩) ∧
      dropped.outcome = .done (.done .released) ∧
      ((HandleOp.address "g").apply b dropped.state).outcome =
        .done (.heldAddress (some 0x1000)) := by
  decide +kernel

end Drop

end Session

end HeapRefs
