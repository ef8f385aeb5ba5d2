import Mathlib.Logic.ExistsUnique
import HeapRefs.Proofs.Handle.Resolution

/-! # The handles of a thread

A thread stamps the handles that it makes 0, 1, 2 and so on, and goes on where it was when it is
attached again. So a handle is known by its stamp, however often its place in the table has been
given up and used again, and a place belongs to one handle only.
-/

namespace HeapRefs

/-- A handle as it was made, in a variable. The address is that of its making, moved by the
relocations since. -/
structure Creation where
  target : String
  handle : Handle
  address : UInt64
  deriving DecidableEq, Repr

def Creation.relocate (events : List AnchorEvent) (x : Creation) : Creation :=
  { x with address := relocated x.address events }

def latest? (made : List Creation) (name : String) : Option Creation :=
  made.reverse.find? (·.target = name)

namespace Creation

variable {made : List Creation}

theorem relocate_nil : relocate [] = id := rfl

theorem relocate_cons (e : AnchorEvent) (events : List AnchorEvent) :
    relocate (e :: events) = relocate events ∘ relocate [e] := by
  funext x
  simp only [Function.comp, relocate, ← relocated_cons]

theorem map_stamp_relocate (events : List AnchorEvent) (made : List Creation) :
    (made.map (relocate events)).map (·.handle.stamp) = made.map (·.handle.stamp) := by
  rw [List.map_map]
  rfl

theorem handle_latest?_relocate (events : List AnchorEvent) (name : String) :
    (latest? (made.map (relocate events)) name).map (·.handle) =
      (latest? made name).map (·.handle) := by
  rw [latest?, ← List.map_reverse, List.find?_map, Option.map_map]
  rfl

theorem latest?_concat (x : Creation) (name : String) :
    latest? (made ++ [x]) name = if name = x.target then some x else latest? made name := by
  rw [latest?, List.reverse_concat, List.find?_cons]
  by_cases h : x.target = name
  · simp [h]
  · simp [h, Ne.symm h, latest?]

theorem mem_of_latest? {name : String} {x : Creation} (h : latest? made name = some x) :
    x ∈ made :=
  List.mem_reverse.mp (List.mem_of_find?_eq_some h)

end Creation

/-- The stamps of the handles made so far are those that have been issued, in order, and every place
of the table is that of a handle which holds its address. -/
structure Anchorage.Owned (x : Anchorage) (made : List Creation) : Prop where
  stamps : made.map (·.handle.stamp) = List.range x.nextStamp
  owner : ∀ t, x.table? = some t → ∀ (i : Nat) (y : Anchor), t.toList[i]? = some y →
    ∃ m ∈ made, m.handle = ⟨i, y.stamp⟩ ∧ m.address = y.address

namespace Anchorage.Owned

variable {x : Anchorage} {made : List Creation} {e : AnchorEvent} {t : AnchorTable}

theorem owner_apply (h : x.Owned made) (ht : x.table? = some t) {i : Nat} {y : Anchor}
    (hy : t.toList[i]? = some y) (events : List AnchorEvent) :
    ∃ m ∈ made.map (Creation.relocate events),
      m.handle = ⟨i, y.stamp⟩ ∧ m.address = relocated y.address events := by
  obtain ⟨m, hm, hh, ha⟩ := h.owner t ht i y hy
  exact ⟨_, List.mem_map_of_mem hm, hh, congrArg (relocated · events) ha⟩

theorem apply (h : x.Owned made) (he : ∀ a, e ≠ .pushed a) :
    (x.apply e).Owned (made.map (Creation.relocate [e])) where
  stamps := by
    rw [Creation.map_stamp_relocate, h.stamps]
    cases e with
    | pushed a => exact absurd rfl (he a)
    | attached | detached | released _ | relocated _ _ => rfl
  owner := by
    intro t ht i y hy
    obtain ⟨t₀, y₀, ht₀, hy₀, rfl⟩ | ⟨t₀, a, -, ha, -⟩ := getElem?_apply_cases ht hy
    · exact h.owner_apply ht₀ hy₀ [e]
    · exact absurd ha (he a)

theorem foldl_apply (h : x.Owned made) {events : List AnchorEvent}
    (he : ∀ a, .pushed a ∉ events) :
    (events.foldl Anchorage.apply x).Owned (made.map (Creation.relocate events)) := by
  induction events generalizing x made with
  | nil => rwa [Creation.relocate_nil, List.map_id, List.foldl_nil]
  | cons e events ih =>
    rw [Creation.relocate_cons, ← List.map_map, List.foldl_cons]
    exact ih (h.apply fun a ha => he a (ha ▸ List.mem_cons_self)) fun a ha =>
      he a (List.mem_cons_of_mem e ha)

theorem push (h : x.Owned made) (ht : x.table? = some t) (target : String) (a : UInt64) :
    (x.apply (.pushed a)).Owned
      (made.map (Creation.relocate [.pushed a]) ++ [⟨target, (t.push a x.nextStamp).1, a⟩]) where
  stamps := by
    rw [List.map_append, Creation.map_stamp_relocate, h.stamps]
    exact List.range_succ.symm
  owner := by
    intro u hu i y hy
    obtain ⟨t₀, y₀, ht₀, hy₀, rfl⟩ | ⟨t₀, a', ht₀, ha, rfl, rfl⟩ := getElem?_apply_cases hu hy
    · obtain ⟨m, hm, hmake⟩ := h.owner_apply ht₀ hy₀ [.pushed a]
      exact ⟨m, List.mem_append_left _ hm, hmake⟩
    · obtain rfl := Option.some.inj (ht₀.symm.trans ht)
      obtain rfl := AnchorEvent.pushed.inj ha
      exact ⟨_, List.mem_append_right _ List.mem_cons_self, rfl, rfl⟩

theorem stamp_eq (h : x.Owned made) {k : Nat} {m : Creation} (hm : made[k]? = some m) :
    m.handle.stamp = k := by
  have hk : (made.map (·.handle.stamp))[k]? = some m.handle.stamp := by
    rw [List.getElem?_map, hm, Option.map_some]
  rw [h.stamps] at hk
  obtain ⟨hlt, hk⟩ := List.getElem?_eq_some_iff.mp hk
  rw [← hk, List.getElem_range]

theorem handle_eq_iff (h : x.Owned made) {i j : Nat} {m m' : Creation} (hm : made[i]? = some m)
    (hm' : made[j]? = some m') : m.handle = m'.handle ↔ i = j := by
  constructor
  · intro he
    rw [← h.stamp_eq hm, ← h.stamp_eq hm', he]
  · rintro rfl
    rw [Option.some.inj (hm.symm.trans hm')]

theorem handle_inj (h : x.Owned made) {m m' : Creation} (hm : m ∈ made) (hm' : m' ∈ made) :
    m.handle = m'.handle ↔ m = m' := by
  refine ⟨fun he => ?_, congrArg Creation.handle⟩
  obtain ⟨i, hi⟩ := List.getElem?_of_mem hm
  obtain ⟨j, hj⟩ := List.getElem?_of_mem hm'
  obtain rfl := (h.handle_eq_iff hi hj).mp he
  exact Option.some.inj (hi.symm.trans hj)

theorem existsUnique_owner (h : x.Owned made) (ht : x.table? = some t) {i : Nat} {y : Anchor}
    (hy : t.toList[i]? = some y) :
    ∃! k : Nat, (made[k]?).map (·.handle) = some ⟨i, y.stamp⟩ := by
  obtain ⟨m, hm, hh, -⟩ := h.owner t ht i y hy
  obtain ⟨k, hk⟩ := List.getElem?_of_mem hm
  refine ⟨k, Option.map_eq_some_iff.mpr ⟨m, hk, hh⟩, fun l hl => ?_⟩
  obtain ⟨m', hl, hh'⟩ := Option.map_eq_some_iff.mp hl
  exact (h.handle_eq_iff hl hk).mp (hh'.trans hh.symm)

/-- A handle finds its own address while its place has its stamp, and no other address ever. -/
theorem address?_eq_some_iff (h : x.Owned made) (ht : x.table? = some t) {m : Creation}
    (hm : m ∈ made) {a : UInt64} : t.address? m.handle = some a ↔
      a = m.address ∧ t.toList[m.handle.index]? = some ⟨a, m.handle.stamp⟩ := by
  rw [AnchorTable.address?_eq_some_iff]
  refine ⟨fun hy => ⟨?_, hy⟩, And.right⟩
  obtain ⟨m', hm', hh, rfl⟩ := h.owner t ht _ _ hy
  rw [(h.handle_inj hm' hm).mp hh]

end Anchorage.Owned

namespace Session

/-- The handle that a step makes, if it answers with one, for the address of the reference that is
anchored. -/
def Step.creation? (b : Build) (s : State) : Step → Option Creation
  | .op (.handle (.create target source)) =>
    match s.locals.views.get? source, ((HandleOp.create target source).apply b s).outcome with
    | some v, .done (.handle h) => some ⟨target, h, v.address⟩
    | _, _ => none
  | _ => none

/-- The handles that a run makes after some others, in the order of their making. -/
def creations (b : Build) : List Creation → State → List Step → List Creation
  | made, _, [] => made
  | made, s, step :: steps =>
    creations b
      (made.map (Creation.relocate (s.anchorEvents (step.act b s))) ++ (step.creation? b s).toList)
      (step.run b s).2 steps

variable {b : Build} {s t : State} {act : Act} {made : List Creation}

/-! Only the making of a handle adds an anchor. -/

theorem State.actOn_ne {name : String} {k : View → Act} (ho : Act.other ≠ act)
    (hk : ∀ v, k v ≠ act) : s.actOn name k ≠ act := by
  unfold State.actOn
  split
  · exact ho
  · exact hk _

theorem ThreadOp.act_ne_anchor (op : ThreadOp) (target source : String) :
    op.act s ≠ .anchor target source := by
  cases op with
  | attach name =>
    simp only [act]
    split <;> simp
  | detach | poll =>
    simp only [act, State.actAttached]
    split <;> simp
  | status | entries | unhandled | install _ | installVariable _ => simp [act]

theorem ReferenceOp.act_ne_anchor (op : ReferenceOp) (target source : String) :
    op.act b s ≠ .anchor target source := by
  cases op with
  | create target representation? seed =>
    cases seed with
    | null => simp [act]
    | address form operand =>
      simp only [act]
      split <;> simp [State.creation]
  | typedNull | inspect | foreignSlot | compare | address => simp [act]
  | clone | move | drop | intoAddress | forget | allow =>
    exact State.actOn_ne (by simp) fun v => by simp [State.creation]
  | narrow | widen | untype | cloneUntyped =>
    refine State.actOn_ne (by simp) fun v => ?_
    repeat' split
    all_goals simp [State.creation]

theorem CodecOp.act_ne_anchor (op : CodecOp) (target source : String) :
    op.act b s ≠ .anchor target source := by
  cases op with
  | decode target codec n =>
    simp only [act]
    split <;> simp [State.creation]
  | create | equal | encode | install | installed | ask => simp [act]

theorem Step.eq_create_of_act {step : Step} {target source : String}
    (h : step.act b s = .anchor target source) :
    step = .op (.handle (.create target source)) := by
  cases step with
  | spawn steps => cases h
  | op operation =>
    cases operation with
    | thread op => exact absurd h (op.act_ne_anchor target source)
    | reference op => exact absurd h (op.act_ne_anchor target source)
    | heap op => cases h
    | codec op => exact absurd h (op.act_ne_anchor target source)
    | handle op =>
      simp only [act, Op.act] at h
      cases op with
      | create target' source' =>
        simp only [HandleOp.act, State.actOn, State.actAttached] at h
        repeat' split at h
        all_goals cases h
        rfl
      | resolve | mark | release | relocate =>
        simp only [HandleOp.act, State.actAttached] at h
        repeat' split at h
        all_goals cases h
      | address | equal => cases h

theorem Step.creation_cases (b : Build) (s : State) (step : Step) :
    (∃ target source v c, step.act b s = .anchor target source ∧
      s.locals.views.get? source = some v ∧ s.thread.context? = some c ∧
      step.creation? b s = some ⟨target, (s.thread.anchor c v.address).1, v.address⟩) ∨
    step.creation? b s = none ∧ ∀ target source, step.act b s ≠ .anchor target source := by
  by_cases hcreate : ∃ target source, step = .op (.handle (.create target source))
  · obtain ⟨target, source, rfl⟩ := hcreate
    simp only [act, Op.act, HandleOp.act, State.actOn, State.actAttached, creation?,
      HandleOp.apply, State.withView, State.withContext]
    cases hv : s.locals.views.get? source with
    | none => exact .inr ⟨rfl, by simp⟩
    | some v =>
      cases s.locals.guard? with
      | none => exact .inr ⟨rfl, by simp⟩
      | some guard =>
        cases s.thread.context? with
        | none => exact .inr ⟨rfl, by simp⟩
        | some c => exact .inl ⟨target, source, v, c, rfl, hv, rfl, rfl⟩
  · refine .inr ⟨?_, fun target source ha => hcreate ⟨target, source, eq_create_of_act ha⟩⟩
    unfold creation?
    split
    · next target source => exact absurd ⟨target, source, rfl⟩ hcreate
    · rfl

theorem pushed_not_mem_anchorEvents (ha : ∀ target source, act ≠ .anchor target source)
    (a : UInt64) : .pushed a ∉ s.anchorEvents act := by
  cases act with
  | anchor target source => exact absurd rfl (ha target source)
  | _ => simp [State.anchorEvents]

theorem Turn.handles_eq (ht : Turn s act t)
    (ha : ∀ target source, act ≠ .anchor target source) :
    t.locals.handles = s.locals.handles := by
  obtain ht | ⟨shared, hr⟩ := ht
  case wait => rfl
  cases ht with
  | null => rw [State.bind_eq]
  | create => rw [State.creates, State.bind_eq]; rfl
  | transfer => rw [State.bind_eq]; rfl
  | anchor target hv hc => exact absurd rfl (ha _ _)
  | discard | forget | allow | attach | detach | resume | mark | release | relocate | other => rfl

/-- The handles account for the anchors of the thread and for what its variables hold. -/
structure Accounts (made : List Creation) (s : State) : Prop where
  owned : s.thread.anchorage.Owned made
  held : ∀ name, s.locals.handles.get? name = (latest? made name).map (·.handle)

namespace Accounts

theorem start (shared : Shared) (thread : Thread) : Accounts [] (.start shared thread) where
  owned := by
    have hx : thread.start.anchorage = ⟨none, 0⟩ := by
      simp [Thread.anchorage, Thread.anchors?]
    rw [State.start, hx]
    refine ⟨rfl, fun t ht => ?_⟩
    cases ht
  held _ := rfl

theorem turn (h : Accounts made s) (ht : Turn s act t)
    (ha : ∀ target source, act ≠ .anchor target source) :
    Accounts (made.map (Creation.relocate (s.anchorEvents act))) t where
  owned := by
    rw [ht.anchorage]
    exact h.owned.foldl_apply (pushed_not_mem_anchorEvents ha)
  held name := by
    rw [ht.handles_eq ha, h.held, Creation.handle_latest?_relocate]

theorem anchor (h : Accounts made s) {target source : String} {v : View} {c : Context}
    (hv : s.locals.views.get? source = some v) (hc : s.thread.context? = some c)
    (ht : Turn s (.anchor target source) t) :
    Accounts (made.map (Creation.relocate (s.anchorEvents (.anchor target source))) ++
      [⟨target, (s.thread.anchor c v.address).1, v.address⟩]) t where
  owned := by
    rw [ht.anchorage, State.anchorEvents, hv]
    exact h.owned.push (Thread.table?_anchorage hc) target v.address
  held name := by
    cases ht with
    | take ht =>
      cases ht with
      | anchor _ hv' hc' =>
        obtain rfl := Option.some.inj (hv.symm.trans hv')
        obtain rfl := Option.some.inj (hc.symm.trans hc')
        rw [Creation.latest?_concat, Bindings.get?_set]
        split
        · rfl
        · rw [h.held, Creation.handle_latest?_relocate]

theorem step (h : Accounts made s) (b : Build) (step : Step) :
    Accounts (made.map (Creation.relocate (s.anchorEvents (step.act b s))) ++
      (step.creation? b s).toList) (step.run b s).2 := by
  have ht := step.turn b s
  obtain ⟨target, source, v, c, ha, hv, hc, hmade⟩ | ⟨hmade, ha⟩ := step.creation_cases b s
  · rw [ha] at ht
    rw [hmade, ha, Option.toList_some]
    exact h.anchor hv hc ht
  · rw [hmade, Option.toList_none, List.append_nil]
    exact h.turn ht ha

theorem follow (h : Accounts made s) (steps : List Step) :
    Accounts (creations b made s steps) (runSteps b s steps).2 := by
  induction steps generalizing made s with
  | nil => exact h
  | cons step steps ih =>
    rw [state_runSteps_cons, creations]
    exact ih (h.step b step)

end Accounts

/-- What handles that were made and a state say of each other: stamps were issued one by one, and a
place of the table belongs to the one handle with its stamp, which alone finds what is there. -/
structure Identifies (made : List Creation) (s : State) : Prop where
  issued : made.map (·.handle.stamp) = List.range s.thread.nextStamp
  equal_iff : ∀ (i j : Nat) (x y : Creation), made[i]? = some x → made[j]? = some y →
    (x.handle = y.handle ↔ i = j)
  held : ∀ name, s.locals.handles.get? name = (latest? made name).map (·.handle)
  compared : ∀ (b : Build) (left right : String) (x y : Creation), latest? made left = some x →
    latest? made right = some y →
    (HandleOp.equal left right).apply b s = s.done (.truth (decide (x = y)))
  increasing : ∀ c, s.thread.context? = some c →
    c.anchors.toList.Pairwise fun x y => x.stamp < y.stamp
  below : ∀ c, s.thread.context? = some c →
    ∀ x ∈ c.anchors.toList, x.stamp < s.thread.nextStamp
  owner : ∀ c, s.thread.context? = some c →
    ∀ (i : Nat) (y : Anchor), c.anchors.toList[i]? = some y →
      ∃! k : Nat, (made[k]?).map (·.handle) = some ⟨i, y.stamp⟩
  found_iff : ∀ c, s.thread.context? = some c → ∀ x ∈ made, ∀ a,
    c.anchors.address? x.handle = some a ↔
      a = x.address ∧ c.anchors.toList[x.handle.index]? = some ⟨a, x.handle.stamp⟩

theorem Accounts.apply_equal (h : Accounts made s) {left right : String} {x y : Creation}
    (hx : latest? made left = some x) (hy : latest? made right = some y) :
    (HandleOp.equal left right).apply b s = s.done (.truth (decide (x = y))) := by
  have hl : s.locals.handles.get? left = some x.handle := by rw [h.held, hx, Option.map_some]
  have hr : s.locals.handles.get? right = some y.handle := by rw [h.held, hy, Option.map_some]
  have hxy : (x.handle == y.handle) = decide (x = y) := by
    rw [Bool.eq_iff_iff, beq_iff_eq, decide_eq_true_iff]
    exact h.owned.handle_inj (Creation.mem_of_latest? hx) (Creation.mem_of_latest? hy)
  simp only [HandleOp.apply, State.withHandle, hl, hr, hxy]

/-- Along any run the stamps tell the handles of a thread apart. -/
theorem stamps_identify_handles (b : Build) (shared : Shared) (thread : Thread)
    (steps : List Step) :
    Identifies (creations b [] (.start shared thread) steps)
      (runSteps b (.start shared thread) steps).2 := by
  have h := (Accounts.start shared thread).follow (b := b) steps
  have hs : (runSteps b (.start shared thread) steps).2.Sound :=
    Reachable.sound ⟨shared, thread, steps, rfl⟩
  constructor
  case issued => exact h.owned.stamps
  case equal_iff => exact fun i j x y hx hy => h.owned.handle_eq_iff hx hy
  case held => exact h.held
  case compared => exact fun b left right x y hx hy => h.apply_equal hx hy
  case increasing => exact fun c hc => (hs.context c hc).stamped.increasing
  case below => exact fun c hc => (hs.context c hc).stamped.issued
  case owner => exact fun c hc i y hy => h.owned.existsUnique_owner (Thread.table?_anchorage hc) hy
  case found_iff =>
    exact fun c hc x hx a => h.owned.address?_eq_some_iff (Thread.table?_anchorage hc) hx

/-- The outer mark is dropped before the inner one, which is then longer than the table. A place is
used again after that, and another after the thread was attached again. -/
theorem stamps_identify_handles_of_reused_places :
    let b : Build := .standard .checked true
    let thread (op : ThreadOp) : Step := .op (.thread op)
    let handle (op : HandleOp) : Step := .op (.handle op)
    let make (x : String) (a : UInt64) : Step :=
      .op (.reference (.create x none (.address .bits (.word a))))
    let before : List Step := [
      thread (.attach "main"), make "x" 0x1000, make "y" 0x2000, handle (.create "h" "x"),
      handle (.mark "outer"), handle (.create "g" "y"), handle (.mark "inner"),
      handle (.create "k" "x"), handle (.release "outer"), handle (.release "inner"),
      handle (.create "m" "y"), handle (.relocate (.word 0x2000) (.word 0x3000))]
    let after : List Step := before ++ [
      thread .detach, thread (.attach "again"), handle (.create "h" "x")]
    let s := (runSteps b .initial before).2
    let t := (runSteps b .initial after).2
    let made := creations b [] .initial before
    let all := creations b [] .initial after
    let g : Creation := ⟨"g", ⟨1, 1⟩, 0x3000⟩
    let m : Creation := ⟨"m", ⟨1, 3⟩, 0x3000⟩
    Identifies made s ∧ Identifies all t ∧
      made = [⟨"h", ⟨0, 0⟩, 0x1000⟩, g, ⟨"k", ⟨2, 2⟩, 0x1000⟩, m] ∧
      all = made ++ [⟨"h", ⟨0, 4⟩, 0x1000⟩] ∧
      s.thread.context?.map (·.anchors) = some ⟨[⟨0x1000, 0⟩, ⟨0x3000, 3⟩]⟩ ∧
      t.thread.context?.map (·.anchors) = some ⟨[⟨0x1000, 4⟩]⟩ ∧
      (HandleOp.equal "g" "m").apply b t = t.done (.truth false) := by
  intro b thread handle make before after s t made all g m
  have hs : Identifies made s := stamps_identify_handles b .initial .main before
  have ht : Identifies all t := stamps_identify_handles b .initial .main after
  have hg : latest? all "g" = some g := by decide +kernel
  have hm : latest? all "m" = some m := by decide +kernel
  have hne : decide (g = m) = false := by decide +kernel
  have hequal := ht.compared b "g" "m" g m hg hm
  rw [hne] at hequal
  exact ⟨hs, ht, by decide +kernel, by decide +kernel, by decide +kernel, by decide +kernel, hequal⟩

end Session

end HeapRefs
