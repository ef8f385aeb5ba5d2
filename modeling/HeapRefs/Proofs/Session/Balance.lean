import HeapRefs.Proofs.Session.Entries
import HeapRefs.Proofs.Session.Slots

/-! # The balance of an attachment

Every slot that is issued during an attachment goes to an instance that is destroyed during it or is
reported as it ends. Instances that outlive their attachment have no entry in any later one, and
what is done with them then touches no entry of others.
-/

namespace HeapRefs

/-- What a thread logs as it is detached with entries left: how many they are, each with its slot,
address, origin and allowance, and that it is detached. -/
def departure (name : String) (left : List Entry) : List (Level × String) :=
  let line (e : Entry) : String :=
    "  [" ++ toString e.slot ++ "] 0x" ++ String.ofList (Nat.toDigits 16 e.address.toNat) ++
      " created at " ++ e.origin.label ++ (if e.allowed then " (allowed)" else "") ++ "\n"
  (if left = [] then [] else
    [(.warn, "thread '" ++ name ++ "' detached with " ++ toString left.length ++
        " live registered oop(s)"),
      (.trace, toString left.length ++ " unhandled oop(s)\n" ++ String.join (left.map line))]) ++
    [(.debug, "detached thread '" ++ name ++ "'")]

theorem Context.foldl_release (marks : List Mark) (c : Context) :
    marks.foldl release c = { c with anchors := marks.foldl AnchorTable.release c.anchors } := by
  induction marks generalizing c with
  | nil => rfl
  | cons m marks ih => exact ih (c.release m)

theorem Thread.remains_eq_departure (c : Context) :
    (remains c ++ [Event.detached c.name]).map (fun e => (e.level, e.message)) =
      departure c.name c.registry.entries := by
  have hempty : c.registry.isEmpty = true ↔ c.registry.entries = [] := by
    rw [Registry.isEmpty, List.isEmpty_iff, ← List.length_eq_zero_iff, ← List.length_eq_zero_iff,
      c.registry.length_entries, Registry.size]
  -- The lines of the dump, with the texts of the entries.
  have hline : (fun e : Entry => "  [" ++ toString e.slot ++ "] 0x" ++
      String.ofList (Nat.toDigits 16 e.address.toNat) ++ " created at " ++ e.origin.label ++
      (if e.allowed then " (allowed)" else "") ++ "\n") =
      fun e => "  [" ++ toString e.slot ++ "] " ++ e.text ++ "\n" := by
    funext e
    have h0x : "] 0x" = "] " ++ "0x" := by decide +kernel
    simp only [Entry.text, Hex.render, String.append_assoc, h0x]
  unfold remains departure
  simp only [hline]
  by_cases h : c.registry.entries = []
  · rw [if_pos (hempty.mpr h), if_pos h]
    rfl
  · rw [if_neg (mt hempty.mp h), if_neg h, c.registry.length_entries]
    rfl

namespace Session

variable {b : Build} {s : State} {l : Ledger} {c : Context} {x : Instance} {n : Nat}

theorem departure_of_detach (hs : s.Sound) (hc : s.thread.context? = some c) :
    (ThreadOp.detach.apply s).outcome = .done (.done .detached) ∧
      (ThreadOp.detach.apply s).log.map (fun r => (r.event.level, r.event.message)) =
        departure c.name c.registry.entries := by
  rw [ThreadOp.apply, withContext_eq hs hc]
  refine ⟨rfl, ?_⟩
  rw [Context.foldl_release, ← Thread.remains_eq_departure]
  simp only [Thread.detach, List.map_map]
  rfl

theorem departure_of_finish (hs : s.Sound) (hc : s.thread.context? = some c) :
    s.finish.1.map (fun r => (r.event.level, r.event.message)) =
      departure c.name c.registry.entries :=
  (departure_of_detach hs hc).2

namespace Ledger

def issuedIn (l : Ledger) (n : Nat) : List Instance :=
  l.instances.filter fun x => x.Registrable ∧ x.attachment? = some n

theorem Agrees.slots_issuedIn (h : l.Agrees s) (n : Nat) :
    (l.issuedIn n).map (·.reference.slot?) = (l.slotsIn n).map some := by
  have hslot : ∀ x ∈ l.instances, x.reference.slot?.isSome = true ↔ x.Registrable :=
    fun x hx => h.made.slot_iff _ (mem_makings hx)
  unfold issuedIn slotsIn makings
  generalize l.instances = xs at hslot
  induction xs with
  | nil => rfl
  | cons x xs ih =>
    obtain ⟨hx, hxs⟩ := List.forall_mem_cons.mp hslot
    by_cases hn : x.attachment? = some n
    · cases hs : x.reference.slot? with
      | none =>
        have hr : ¬ x.Registrable := by simp [← hx, hs]
        simpa [hn, hr, hs] using ih hxs
      | some slot =>
        have hr : x.Registrable := by simp [← hx, hs]
        simpa [hn, hr, hs] using ih hxs
    · simpa [hn] using ih hxs

theorem registered_eq (hl : l.current? = some n) :
    l.registered = (l.issuedIn n).filter (·.place ≠ .ended) := by
  rw [registered, issuedIn, List.filter_filter]
  refine List.filter_congr fun x _ => ?_
  simp only [Registered, hl]
  rw [← Bool.decide_and]
  exact decide_eq_decide.mpr (and_assoc.symm.trans and_comm)

theorem Agrees.forall₂_describes (h : l.Agrees s) (hc : s.thread.context? = some c) :
    List.Forall₂ Describes c.registry.entries l.registered := by
  rw [h.entries_eq hc]
  exact Session.forall₂_describes fun x hx => h.exists_describes hx

theorem Issues.balance {name : String} {first : Nat} (hi : l.Issues s name n first)
    (h : l.Agrees s) (hc : s.thread.context? = some c) :
    s.thread.nextSlot - first = (l.issuedIn n).countP (·.place = .ended) + c.registry.size := by
  have hlength : (l.issuedIn n).length = s.thread.nextSlot - first := by
    have hslots := congrArg List.length (h.slots_issuedIn n)
    rwa [List.length_map, List.length_map, hi.slots, List.length_range'] at hslots
  have hleft : c.registry.size = (l.issuedIn n).countP fun x => !decide (x.place = .ended) := by
    rw [← c.registry.length_entries, (h.forall₂_describes hc).length_eq, registered_eq hi.current,
      List.countP_eq_length_filter]
    simp only [ne_eq, decide_not]
  rw [← hlength, hleft]
  simpa using (l.issuedIn n).length_eq_countP_add_countP (fun x => decide (x.place = .ended))

def Past (l : Ledger) (n : Nat) : Prop := n < l.attachments ∧ l.current? ≠ some n

namespace Past

theorem note (h : l.Past n) (checking : Bool) (act : Act) : (l.note checking act).Past n := by
  obtain ⟨hlt, hne⟩ := h
  cases act with
  | attach name =>
    refine ⟨Nat.lt_succ_of_lt hlt, fun hn => ?_⟩
    exact Nat.ne_of_gt hlt (Option.some.inj hn)
  | detach => exact ⟨hlt, by simp [Ledger.note]⟩
  | transfer target source =>
    rw [Ledger.note]
    split <;> exact ⟨hlt, hne⟩
  | create | discard | forget | allow | resume | anchor | mark | release | relocate
  | other => exact ⟨hlt, hne⟩

theorem follow (h : l.Past n) (b : Build) (s : State) (steps : List Step) :
    (l.follow b s steps).Past n := by
  induction steps generalizing l s with
  | nil => exact h
  | cons step steps ih => exact ih (h.note ..) _

theorem not_registered (h : l.Past n) (hx : x.attachment? = some n) : ¬ l.Registered x :=
  fun hr => h.2 (hr.2.1.symm.trans hx)

end Past

end Ledger

/-- The instance has no entry, and operations that name its variable spare all entries but those of
references in the other variables that they name. -/
structure Stray (b : Build) (s : State) (name : String) (x : Instance) : Prop where
  unattached : s.thread.context? = none → ∀ op : Op, name ∈ op.names →
    (op.apply b s).state.thread.context? = none
  attached : ∀ c, s.thread.context? = some c → ∀ op : Op, name ∈ op.names →
    ∃ d, (op.apply b s).state.thread.context? = some d ∧
      (∀ e ∈ c.registry.entries, x.reference.slot? ≠ some e.slot ∧
        ((∀ other ∈ op.names, other ≠ name →
          ∀ y, s.held? other = some y → y.slot? ≠ some e.slot) → e ∈ d.registry.entries)) ∧
      ∀ e ∈ d.registry.entries, x.reference.slot? ≠ some e.slot

theorem Ledger.Agrees.stray (h : l.Agrees s) (hs : s.Sound) (hx : x ∈ l.instances)
    (hr : ¬ l.Registered x) {name : String} (hp : x.place = .held name) : Stray b s name x where
  unattached := by
    intro hc op hop
    obtain ⟨f, hf, -⟩ := op.spares (b := b) (s := s) hop
    simpa [Thread.registrations?, hc] using hf
  attached := by
    intro c hc op hop
    obtain ⟨f, hf, hspares⟩ := op.spares (b := b) (s := s) hop
    rw [Thread.registrations?, Thread.registrations?, hc, Option.map_some, Option.map_some] at hf
    obtain ⟨d, hd, hreg⟩ := Option.map_eq_some_iff.mp hf
    have hslot := h.slot?_ne_of_not_registered hc hx hr
    refine ⟨d, hd, fun e he => ⟨hslot e he, fun hothers => ?_⟩, fun e he => ?_⟩
    · have hstored := Registry.mem_entries.mp he
      have hissued := ((hs.context c hc).issued e hstored).2
      rw [Registry.mem_entries, hreg]
      refine (hspares c.registry).kept e hstored (Nat.ne_of_lt hissued) fun other ho y hy => ?_
      by_cases hother : other = name
      · subst hother
        obtain rfl := Option.some.inj ((h.held?_eq hx hp).symm.trans hy)
        exact hslot e he
      · exact hothers other ho hother y hy
    · rw [Registry.mem_entries, hreg] at he
      obtain ⟨y, hy, hye⟩ | hnext := (hspares c.registry).slots e he
      · rw [← hye]
        exact hslot y (Registry.mem_entries.mpr hy)
      · -- The next slot has not been given to any instance yet.
        rw [hnext]
        exact fun hs => Nat.lt_irrefl _ (h.made.issued _ (mem_makings hx) _ hs)

/-- A thread with a context is detached in the second state, or ends there. The slots issued since
the first are those of the instances; the entries that are left of these are logged. -/
structure Departs (issued : List Instance) (name : String) (s₀ s : State) (c : Context) : Prop where
  context : s.thread.context? = some c
  slots : issued.map (·.reference.slot?) =
    (List.range' s₀.thread.nextSlot (s.thread.nextSlot - s₀.thread.nextSlot)).map some
  balance : s.thread.nextSlot - s₀.thread.nextSlot =
    issued.countP (·.place = .ended) + c.registry.size
  entries : List.Forall₂ Describes c.registry.entries (issued.filter (·.place ≠ .ended))
  outcome : (ThreadOp.detach.apply s).outcome = .done (.done .detached)
  log : (ThreadOp.detach.apply s).log.map (fun r => (r.event.level, r.event.message)) =
    departure name c.registry.entries
  ending : s.finish.1.map (fun r => (r.event.level, r.event.message)) =
    departure name c.registry.entries

theorem Ledger.Issues.departs {name : String} {s₀ : State}
    (hi : l.Issues s name n s₀.thread.nextSlot) (h : l.Agrees s) :
    ∃ c, Departs (l.issuedIn n) name s₀ s c := by
  have hs := hi.attached.sound
  obtain ⟨c, hc⟩ := hs.context?_of_guard (Option.isSome_of_eq_some hi.attached.guard)
  have hname : c.name = name :=
    Option.some.inj ((hs.guard_eq_some hc).symm.trans hi.attached.guard)
  obtain ⟨houtcome, hlog⟩ := departure_of_detach hs hc
  refine ⟨c, hc, ?_, hi.balance h hc, ?_, houtcome, hname ▸ hlog,
    hname ▸ departure_of_finish hs hc⟩
  · rw [← hi.slots]
    exact h.slots_issuedIn n
  · rw [← registered_eq hi.current]
    exact h.forall₂_describes hc

/-- Every slot that is issued during an attachment is of an instance that is destroyed in it or is
reported at its end; and what is later done with an instance that outlives it touches no entries. -/
theorem detach_accounts_for_registrations (b : Build) (shared : Shared) (thread : Thread)
    (before : List Step) (name : String) (during : List Step) :
    let attach : Step := .op (.thread (.attach name))
    let detach : Step := .op (.thread .detach)
    let s₀ := (runSteps b (.start shared thread) before).2
    let l₀ := Ledger.empty.follow b (.start shared thread) before
    let s := (runSteps b s₀ (attach :: during)).2
    let l := l₀.follow b s₀ (attach :: during)
    s₀.thread.context? = none → detach ∉ during →
      (∃ c, Departs (l.issuedIn l₀.attachments) name s₀ s c) ∧
      ∀ after,
        let t := (runSteps b s (detach :: after)).2
        let m := l.follow b s (detach :: after)
        ∀ x ∈ m.instances, x.attachment? = some l₀.attachments →
          ∀ source, x.place = .held source → Stray b t source x := by
  intro attach detach s₀ l₀ s l hc₀ hduring
  have hl₀ : l₀.Agrees s₀ := (Ledger.Agrees.start shared thread).follow before
  have hl : l.Agrees s := hl₀.follow (attach :: during)
  have hattached : s₀.Attached none := by
    have h : s₀.Attached (attachment before) := (State.Attached.start shared thread).runSteps before
    exact h.guard.symm.trans (h.sound.guard?_eq_none_iff.mpr hc₀) ▸ h
  have hissues : l.Issues s name l₀.attachments s₀.thread.nextSlot := by
    have h := (Ledger.Issues.attach hl₀ hattached b name).runSteps (b := b) hduring
    rwa [← state_runSteps_cons] at h
  obtain ⟨c, hc⟩ := hissues.departs hl
  refine ⟨⟨c, hc⟩, ?_⟩
  intro after t m x hx hn source hp
  have hs : s.Sound := hissues.attached.sound
  have hpast : (l.note s.shared.checking (detach.act b s)).Past l₀.attachments := by
    have hact : detach.act b s = .detach := by
      simp only [detach, Step.act, Op.act, ThreadOp.act, State.actAttached,
        hs.guard_eq_some hc.context, hc.context]
    rw [hact]
    exact ⟨hl.current _ hissues.current, by simp [Ledger.note]⟩
  have hm : m.Agrees t := hl.follow (detach :: after)
  have ht : t.Sound := hs.runSteps (detach :: after)
  exact hm.stray ht hx ((hpast.follow b _ after).not_registered hn) hp

/-- Of three instances one is destroyed and one is left alone; the third is still in its variable
when the thread is attached again, and is dropped then. -/
theorem detach_accounts_for_registrations_of_survivors :
    let b : Build := .standard .checked true
    let reference (op : ReferenceOp) : Step := .op (.reference op)
    let seed (w : UInt64) : Seed := .address .bits (.word w)
    let before : List Step := [.op (.thread (.install ⟨true⟩))]
    let during : List Step := [
      reference (.create "x" none (seed 0x1000)), reference (.clone "y" "x"),
      reference (.create "w" none (seed 0x3000)), reference (.allow "w"),
      reference (.create "z" none .null), reference (.forget "y"),
      reference (.narrow "x" "x" .any), reference (.drop "x")]
    let steps : List Step := .op (.thread (.attach "main")) :: during
    let steps' : List Step := [.op (.thread .detach), .op (.thread (.attach "again")),
      reference (.create "v" none (seed 0x4000))]
    let s₀ := (runSteps b .initial before).2
    let s := (runSteps b s₀ steps).2
    let l := (Ledger.empty.follow b .initial before).follow b s₀ steps
    let t := (runSteps b s steps').2
    (∃ c, Departs (l.issuedIn 0) "main" s₀ s c ∧
      c.registry.entries = [⟨1, 0x1000, .clone, false⟩, ⟨2, 0x3000, .managed .bits, true⟩]) ∧
    ∃ x ∈ (l.follow b s steps').instances, x.attachment? = some 0 ∧ Stray b t "w" x ∧
      ∃ d, ((Op.reference (.drop "w")).apply b t).state.thread.context? = some d ∧
        ⟨3, 0x4000, .managed .bits, false⟩ ∈ d.registry.entries := by
  intro b reference seed before during steps steps' s₀ s l t
  obtain ⟨⟨c, hc⟩, hstray⟩ := detach_accounts_for_registrations b .initial .main before "main"
    during (by decide +kernel) (by simp [during, reference])
  have hc : Departs (l.issuedIn 0) "main" s₀ s c := hc
  obtain ⟨x, hx, hn, hp⟩ : ∃ x ∈ (l.follow b s steps').instances,
      x.attachment? = some 0 ∧ x.place = .held "w" := by
    decide +kernel
  have hx' : Stray b t "w" x := hstray (steps'.drop 1) x hx hn "w" hp
  refine ⟨⟨c, hc, ?_⟩, x, hx, hn, hx', ?_⟩
  · have hentries : s.thread.context?.map (fun c => c.registry.entries) =
        some [⟨1, 0x1000, .clone, false⟩, ⟨2, 0x3000, .managed .bits, true⟩] := by decide +kernel
    rw [hc.context] at hentries
    exact Option.some.inj hentries
  · have hcontext : t.thread.context?.map (fun c => c.registry.entries) =
        some [⟨3, 0x4000, .managed .bits, false⟩] := by decide +kernel
    obtain ⟨c', hc', hentries⟩ := Option.map_eq_some_iff.mp hcontext
    have hnames : (Op.reference (.drop "w")).names = ["w"] := rfl
    obtain ⟨d, hd, hkept, -⟩ := hx'.attached c' hc' _ (hnames ▸ List.mem_singleton_self "w")
    refine ⟨d, hd, (hkept _ (hentries ▸ .head _)).2 fun other ho hne => ?_⟩
    exact absurd (List.mem_singleton.mp (hnames ▸ ho)) hne

end Session

end HeapRefs
