import HeapRefs.Proofs.Session.Registration
import HeapRefs.Proofs.Session.Replies
import HeapRefs.Proofs.Session.Safepoint

/-! # Collections

A moving collection relocates the anchors from each address that it has moved an object away from,
one address after the other. A reference that still holds such an address is stale. It is reported,
unless the collection has moved another anchored object to that address: only addresses are
compared.
-/

namespace HeapRefs

structure Move where
  source : UInt64
  target : UInt64
  deriving DecidableEq, Repr

namespace AnchorTable

variable {t : AnchorTable} {a : UInt64}

def collect (t : AnchorTable) (moves : List Move) : AnchorTable :=
  moves.foldl (fun t m => t.relocate m.source m.target) t

def counts (t : AnchorTable) : List Move → List Nat
  | [] => []
  | m :: moves => t.count m.source :: (t.relocate m.source m.target).counts moves

theorem collect_append (t : AnchorTable) (before after : List Move) :
    t.collect (before ++ after) = (t.collect before).collect after :=
  List.foldl_append

theorem mem_addresses_relocate {source target : UInt64} :
    a ∈ (t.relocate source target).addresses ↔
      a ∈ t.addresses ∧ a ≠ source ∨ source ∈ t.addresses ∧ a = target := by
  rw [addresses_relocate, List.mem_map]
  constructor
  · rintro ⟨x, hx, rfl⟩
    split
    · next he => exact .inr ⟨he ▸ hx, rfl⟩
    · next hne => exact .inl ⟨hx, hne⟩
  · rintro (⟨ha, hne⟩ | ⟨hs, rfl⟩)
    · exact ⟨a, ha, if_neg hne⟩
    · exact ⟨source, hs, if_pos rfl⟩

/-- Some move of an anchored object ends at the address. -/
def Refills (t : AnchorTable) (moves : List Move) (a : UInt64) : Prop :=
  ∃ before m after, moves = before ++ m :: after ∧ m.target = a ∧
    m.source ∈ (t.collect before).addresses

theorem refills_cons {m : Move} {moves : List Move} :
    t.Refills (m :: moves) a ↔
      m.target = a ∧ m.source ∈ t.addresses ∨ (t.relocate m.source m.target).Refills moves a := by
  constructor
  · rintro ⟨before, m', after, he, ht, hs⟩
    cases before with
    | nil =>
      obtain ⟨rfl, rfl⟩ := List.cons.inj he
      exact .inl ⟨ht, hs⟩
    | cons m₀ before =>
      obtain ⟨rfl, rfl⟩ := List.cons.inj he
      exact .inr ⟨before, m', after, rfl, ht, hs⟩
  · rintro (⟨ht, hs⟩ | ⟨before, m', after, rfl, ht, hs⟩)
    · exact ⟨[], m, moves, rfl, ht, hs⟩
    · exact ⟨m :: before, m', after, rfl, ht, hs⟩

/-- An address from which nothing is moved is held after a collection if it was held before or a
move has refilled it. -/
theorem mem_addresses_collect {moves : List Move} (ha : a ∉ moves.map Move.source) :
    a ∈ (t.collect moves).addresses ↔ a ∈ t.addresses ∨ t.Refills moves a := by
  induction moves generalizing t with
  | nil => simp [collect, Refills]
  | cons m moves ih =>
    rw [List.map_cons, List.mem_cons, not_or] at ha
    have hc : t.collect (m :: moves) = (t.relocate m.source m.target).collect moves := rfl
    rw [hc, ih ha.2, mem_addresses_relocate, refills_cons, and_iff_left ha.1, or_assoc, and_comm,
      eq_comm (a := a) (b := m.target)]

theorem mem_addresses_collect_source {before after : List Move} {m : Move}
    (hn : ((before ++ m :: after).map Move.source).Nodup) (hne : m.target ≠ m.source) :
    m.source ∈ (t.collect (before ++ m :: after)).addresses ↔
      (t.collect (before ++ [m])).Refills after m.source := by
  have hs : m.source ∉ after.map Move.source := by
    rw [List.map_append, List.map_cons] at hn
    exact (List.nodup_cons.mp (List.nodup_append.mp hn).2.1).1
  have hm : m.source ∉ (t.collect (before ++ [m])).addresses := by
    rw [collect_append]
    intro h
    rcases mem_addresses_relocate.mp h with ⟨-, h⟩ | ⟨-, h⟩
    · exact h rfl
    · exact hne h.symm
  rw [List.append_cons, collect_append, mem_addresses_collect hs, or_iff_right hm]

end AnchorTable

namespace Session

variable {b : Build} {s : State} {c : Context} {name : String}

def collection (moves : List Move) : List Step :=
  moves.map fun m => .op (.handle (.relocate (.word m.source) (.word m.target)))

/-- Relocating for the move updates a handle. -/
def Updates (b : Build) (s : State) (m : Move) : Prop :=
  ∃ n, ((HandleOp.relocate (.word m.source) (.word m.target)).apply b s).outcome =
    .done (.count n) ∧ 0 < n

theorem apply_relocate {source target : Operand} {a d : UInt64} (hg : s.locals.guard? = some name)
    (hc : s.thread.context? = some c) (ha : s.word? source = some a)
    (hd : s.word? target = some d) :
    (HandleOp.relocate source target).apply b s =
      State.done { s with thread := s.thread.setContext (c.relocate a d) }
        (.count (c.anchors.count a)) := by
  simp only [HandleOp.apply, State.withWord, ha, hd, State.withContext, hg, hc]

theorem apply_entries (hs : s.Sound) (hc : s.thread.context? = some c) :
    ThreadOp.entries.apply s = s.done (.entries c.registry.entries) :=
  withContext_eq hs hc _

theorem apply_unhandled (hs : s.Sound) (hc : s.thread.context? = some c) :
    ThreadOp.unhandled.apply s = s.done (.entries c.unhandled) :=
  withContext_eq hs hc _

theorem updates_iff (hs : s.Sound) (hc : s.thread.context? = some c) {m : Move} :
    Updates b s m ↔ m.source ∈ c.anchors.addresses := by
  rw [Updates, apply_relocate (hs.guard_eq_some hc) hc rfl rfl, ← List.count_pos_iff]
  constructor
  · rintro ⟨n, hn, hp⟩
    cases hn
    exact hp
  · exact fun hp => ⟨_, rfl, hp⟩

/-- A collection changes the addresses of anchors and nothing else, and its replies are the numbers
of anchors that its relocations move. -/
theorem runSteps_collection (hg : s.locals.guard? = some name) (hc : s.thread.context? = some c)
    (moves : List Move) :
    runSteps b s (collection moves) =
      ((c.anchors.counts moves).map fun n => .step (.done (.count n)) [] s.counts?,
        { s with
          thread := s.thread.setContext { c with anchors := c.anchors.collect moves } }) := by
  induction moves generalizing s c with
  | nil =>
    have hback : s.thread.setContext c = s.thread := Thread.setContext_self hc
    simp only [collection, List.map_nil, runSteps]
    exact congrArg (Prod.mk _ <| State.mk _ · _) hback.symm
  | cons m moves ih =>
    let t : State := { s with thread := s.thread.setContext (c.relocate m.source m.target) }
    have hcounts : t.counts? = s.counts? := by
      simp [State.counts?, t, hg, hc, Context.relocate]
    have happly : (HandleOp.relocate (.word m.source) (.word m.target)).apply b s =
        t.done (.count (c.anchors.count m.source)) := apply_relocate hg hc rfl rfl
    have hstep : (Step.op (.handle (.relocate (.word m.source) (.word m.target)))).run b s =
        (.step (.done (.count (c.anchors.count m.source))) [] s.counts?, t) := by
      simp only [Step.run, Op.apply, happly, ← hcounts]
      rfl
    have ht : t.thread.context? = some (c.relocate m.source m.target) :=
      s.thread.context?_setContext _
    rw [collection, List.map_cons, runSteps_cons, ← collection, hstep, ih (s := t) hg ht, hcounts]
    simp only [t, Thread.setContext, Thread.setCell_setCell]
    rfl

theorem context?_runSteps_collection (hs : s.Sound) (hc : s.thread.context? = some c)
    (moves : List Move) :
    (runSteps b s (collection moves)).2.thread.context? =
      some { c with anchors := c.anchors.collect moves } := by
  rw [runSteps_collection (hs.guard_eq_some hc) hc]
  exact s.thread.context?_setContext _

theorem updates_after_collection_iff (hs : s.Sound) (hc : s.thread.context? = some c)
    (before : List Move) {m : Move} :
    Updates b (runSteps b s (collection before)).2 m ↔
      m.source ∈ (c.anchors.collect before).addresses :=
  updates_iff (hs.runSteps _) (context?_runSteps_collection hs hc before)

theorem Ledger.Agrees.exists_unhandled_iff {l : Ledger} (h : l.Agrees s) (hs : s.Sound)
    (hc : s.thread.context? = some c) {x : Instance} (hx : x ∈ l.registered)
    (ha : x.allowed = false) :
    (∃ e ∈ c.unhandled, Describes e x) ↔ x.reference.address ∉ c.anchors.addresses := by
  have hm (e : Entry) := Context.mem_unhandled_iff (x := e) (hs.context c hc)
  constructor
  · rintro ⟨e, he, hd⟩
    rw [hd.2.1]
    exact ((hm e).mp he).2.2
  · intro hn
    obtain ⟨e, hd⟩ := h.exists_describes hx
    have hal : e.allowed = false := by
      rw [Bool.eq_false_iff, ne_eq, hd.2.2.2, ha]
      exact Bool.false_ne_true
    exact ⟨e, (hm e).mpr ⟨(h.entered_context hc e).mpr ⟨x, hx, hd⟩, hal, hd.2.1 ▸ hn⟩, hd⟩

/-- After a collection a registered reference to where something was moved away from, unless it is
allowed, is reported just if no later move to that address has updated a handle. -/
theorem stale_reported_iff (b : Build) (shared : Shared) (thread : Thread) (steps : List Step)
    {c : Context}
    (hc : (runSteps b (.start shared thread) steps).2.thread.context? = some c)
    {before after : List Move} {m : Move}
    (hn : ((before ++ m :: after).map Move.source).Nodup) (hne : m.target ≠ m.source) :
    let session := steps ++ collection (before ++ m :: after)
    let done := (runSteps b (.start shared thread) session).2
    let l := Ledger.empty.follow b (.start shared thread) session
    ∃ found, ThreadOp.unhandled.apply done = done.done (.entries found) ∧
      ∀ x ∈ l.registered, x.allowed = false → x.reference.address = m.source →
        ((∃ e ∈ found, Describes e x) ↔
          ∀ between m' later, after = between ++ m' :: later → m'.target = m.source →
            ¬ Updates b (runSteps b (.start shared thread)
              (steps ++ collection (before ++ m :: between))).2 m') := by
  intro session done l
  have hs : (runSteps b (.start shared thread) steps).2.Sound :=
    Reachable.sound ⟨shared, thread, steps, rfl⟩
  have hd : done.thread.context? =
      some { c with anchors := c.anchors.collect (before ++ m :: after) } := by
    simp only [done, session, state_runSteps_append]
    exact context?_runSteps_collection hs hc _
  have hsd : done.Sound := Reachable.sound ⟨shared, thread, session, rfl⟩
  have hl : l.Agrees done := (Ledger.Agrees.start shared thread).follow session
  refine ⟨_, apply_unhandled hsd hd, fun x hx ha hxa => ?_⟩
  rw [hl.exists_unhandled_iff hsd hd hx ha, hxa,
    AnchorTable.mem_addresses_collect_source hn hne]
  simp only [AnchorTable.Refills, state_runSteps_append, updates_after_collection_iff hs hc,
    not_exists, not_and, ← AnchorTable.collect_append, List.append_assoc, List.singleton_append]

def twoHandled : List Step := [
  .op (.thread (.install ⟨true⟩)), .op (.thread (.attach "main")),
  .op (.reference (.create "x" (some .checked) (.address .bits (.word 0x1000)))),
  .op (.reference (.create "y" (some .checked) (.address .bits (.word 0x2000)))),
  .op (.handle (.create "h" "x")), .op (.handle (.create "g" "y"))]

theorem stale_reported_iff_of_fresh_targets :
    let session := twoHandled ++ collection [⟨0x1000, 0x3000⟩, ⟨0x2000, 0x4000⟩]
    let done := (runSteps (.standard .checked true) .initial session).2
    let l := Ledger.empty.follow (.standard .checked true) .initial session
    ∃ found, ThreadOp.unhandled.apply done = done.done (.entries found) ∧
      ∃ x ∈ l.registered, x.reference.address = 0x1000 ∧ ∃ e ∈ found, Describes e x := by
  intro session done l
  let s := (runSteps (.standard .checked true) .initial twoHandled).2
  let m : Move := ⟨0x1000, 0x3000⟩
  obtain ⟨c, hc⟩ : ∃ c, s.thread.context? = some c :=
    Option.isSome_iff_exists.mp (by decide +kernel)
  have hn : (([] ++ m :: [⟨0x2000, 0x4000⟩]).map Move.source).Nodup := by decide
  obtain ⟨found, hf, hiff⟩ :=
    stale_reported_iff (.standard .checked true) .initial .main twoHandled hc hn (by decide)
  obtain ⟨x, hx, ha, hxa⟩ : ∃ x ∈ l.registered,
      x.allowed = false ∧ x.reference.address = 0x1000 := by
    decide +kernel
  refine ⟨found, hf, x, hx, hxa, (hiff x hx ha hxa).mpr fun between m' later he ht => ?_⟩
  have hm : m' ∈ [(⟨0x2000, 0x4000⟩ : Move)] := he ▸ List.mem_append_right _ List.mem_cons_self
  rw [List.mem_singleton.mp hm] at ht
  exact absurd ht (by decide)

/-- The second object is moved to where the first one was. The reference to the first one still
holds that address and is not reported. -/
theorem stale_unreported_after_refill :
    let b : Build := .standard .checked true
    let moves : List Move := [⟨0x1000, 0x3000⟩, ⟨0x2000, 0x1000⟩]
    let s := (runSteps b .initial twoHandled).2
    let done := (runSteps b s (collection moves)).2
    (moves.map Move.source).Nodup ∧ Updates b s ⟨0x1000, 0x3000⟩ ∧
      ThreadOp.entries.apply done = done.done (.entries
        [⟨0, 0x1000, .checked .bits, false⟩, ⟨1, 0x2000, .checked .bits, false⟩]) ∧
      ThreadOp.unhandled.apply done =
        done.done (.entries [⟨1, 0x2000, .checked .bits, false⟩]) := by
  intro b moves s done
  have hs : done.Sound := Reachable.sound ⟨.initial, .main, twoHandled ++ collection moves,
    state_runSteps_append ..⟩
  obtain ⟨c, hc⟩ : ∃ c, done.thread.context? = some c :=
    Option.isSome_iff_exists.mp (by decide +kernel)
  have hlisted : ∀ c, done.thread.context? = some c →
      c.registry.entries =
        [⟨0, 0x1000, .checked .bits, false⟩, ⟨1, 0x2000, .checked .bits, false⟩] ∧
      c.unhandled = [⟨1, 0x2000, .checked .bits, false⟩] := by
    decide +kernel
  obtain ⟨hentries, hunhandled⟩ := hlisted c hc
  refine ⟨by decide, ⟨1, by decide +kernel, Nat.one_pos⟩, ?_, ?_⟩
  · rw [apply_entries hs hc, hentries]
  · rw [apply_unhandled hs hc, hunhandled]

end Session

end HeapRefs
