import HeapRefs.Proofs.Session.Registration

/-! # The order of the listing

A registry may store its entries in any order, and in another one whenever it is looked at. What is
shown of it does not depend on this: the listing has the entries of all registrations that the
thread has ever made, in the order in which it made them, less those that are gone.
-/

namespace HeapRefs

def Entry.initial (e : Entry) : Entry := { e with allowed := false }

theorem Thread.poll_of_rearranges {r r' : Registry} (h : r.Rearranges r') (t : Thread)
    (c : Context) :
    (t.poll { c with registry := r' }).1 = (t.poll { c with registry := r }).1 ∧
      (t.poll { c with registry := r' }).2.1 = (t.poll { c with registry := r }).2.1 := by
  have hu : Context.unhandled { c with registry := r' } =
      Context.unhandled { c with registry := r } := h.unhandled_eq c.anchors
  simp only [poll_eq, hu, true_and]

namespace Session

def Making.given? (m : Making) : Option Entry := do
  let slot ← m.reference.slot?
  let origin ← m.origin?
  return ⟨slot, m.reference.address, origin, false⟩

def Ledger.registrations (l : Ledger) : List Entry := l.makings.filterMap Making.given?

/-- What a thread comes to, with its ledger, if its registry may be rearranged before any step. -/
inductive Arrives (b : Build) (shared : Shared) (thread : Thread) : Ledger → State → Prop

  | start : Arrives b shared thread .empty (.start shared thread)

  | step {l : Ledger} {s : State} (step : Step) : Arrives b shared thread l s →
      Arrives b shared thread (l.note s.shared.checking (step.act b s)) (step.run b s).2

  | rearrange {l : Ledger} {s : State} {c : Context} {r : Registry} :
      Arrives b shared thread l s → s.thread.context? = some c → c.registry.Rearranges r →
      Arrives b shared thread l { s with thread := s.thread.setContext { c with registry := r } }

variable {b : Build} {shared : Shared} {thread : Thread} {l : Ledger} {s : State} {c : Context}
  {x : Instance}

theorem map_initial_registration? (x : Instance) :
    x.registration?.map Entry.initial = x.toMaking.given? := by
  unfold Instance.registration? Making.given?
  cases x.reference.slot? with
  | none => rfl
  | some slot => cases x.origin? <;> rfl

theorem slot?_of_given? {m : Making} {e : Entry} (h : m.given? = some e) :
    m.reference.slot? = some e.slot := by
  simp only [Making.given?, Option.pure_def, Option.bind_eq_bind, Option.bind_eq_some_iff,
    Option.some.injEq] at h
  obtain ⟨slot, hs, origin, -, rfl⟩ := h
  exact hs

namespace Ledger.Agrees

theorem pairwise_registrations (h : l.Agrees s) :
    l.registrations.Pairwise fun e e' => e.slot < e'.slot := by
  apply List.pairwise_filterMap.mpr
  refine h.made.increasing.imp fun hlt e he e' he' => ?_
  exact hlt _ _ (slot?_of_given? he) (slot?_of_given? he')

theorem isSome_get?_iff (h : l.Agrees s) (hc : s.thread.context? = some c) (hx : x ∈ l.instances)
    {e : Entry} (he : x.toMaking.given? = some e) :
    (c.registry.get? e.slot).isSome = true ↔ l.Registered x := by
  have hs := slot?_of_given? he
  rw [Option.isSome_iff_exists]
  constructor
  · rintro ⟨y, hy⟩
    obtain ⟨hy, hslot⟩ := Registry.get?_eq_some_iff.mp hy
    by_contra hr
    exact h.slot?_ne_of_not_registered hc hx hr y (Registry.mem_entries.mpr hy) (hslot ▸ hs)
  · intro hr
    have hx' : x ∈ l.registered := mem_registered.mpr ⟨hx, hr⟩
    obtain ⟨y, hy⟩ := h.exists_describes hx'
    refine ⟨y, Registry.get?_eq_some_iff.mpr ⟨(h.entered_context hc y).mpr ⟨x, hx', hy⟩, ?_⟩⟩
    exact Option.some.inj (hy.1.symm.trans hs)

/-- The listing is the history of registrations without those that are gone. -/
theorem map_initial_entries (h : l.Agrees s) (hc : s.thread.context? = some c) :
    c.registry.entries.map Entry.initial =
      l.registrations.filter fun e => (c.registry.get? e.slot).isSome := by
  rw [h.entries_eq hc, registered, registrations, makings, List.map_filterMap,
    List.filterMap_filter, List.filterMap_map, List.filter_filterMap]
  apply List.filterMap_congr
  intro x hx
  rw [map_initial_registration?, Function.comp_apply]
  cases he : x.toMaking.given? with
  | none => simp
  | some e =>
    have hlive := h.isSome_get?_iff hc hx he
    by_cases hr : l.Registered x
    · simp [Option.filter_some, hr, hlive.mpr hr]
    · simp [Option.filter_some, hr, mt hlive.mp hr]

theorem rearrange (h : l.Agrees s) (hc : s.thread.context? = some c) {r : Registry}
    (hr : c.registry.Rearranges r) :
    l.Agrees { s with thread := s.thread.setContext { c with registry := r } } where
  made := h.made
  attached := by
    rw [h.attached, Thread.registrations?, Thread.registrations?, hc,
      Thread.context?_setContext]
    rfl
  current := h.current
  held := h.held
  entered := by
    intro r' hr' e
    rw [Thread.registrations?, Thread.context?_setContext] at hr'
    obtain rfl := Option.some.inj hr'
    rw [hr.mem_stored, h.entered_context hc]

end Ledger.Agrees

namespace Arrives

theorem agrees (h : Arrives b shared thread l s) : l.Agrees s := by
  induction h with
  | start => exact .start shared thread
  | step step _ ih => exact ih.turn (step.turn b _)
  | rearrange _ hc hr ih => exact ih.rearrange hc hr

theorem follow (h : Arrives b shared thread l s) (steps : List Step) :
    Arrives b shared thread (l.follow b s steps) (runSteps b s steps).2 := by
  induction steps generalizing l s with
  | nil => rwa [state_runSteps_nil]
  | cons step steps ih =>
    rw [state_runSteps_cons]
    exact ih (h.step step)

end Arrives

/-- However a registry stores its entries, it is listed, dumped and reported in the order in which
they were made. Along any run these are the entries that are still there of all that were made. -/
theorem listing_chronological (b : Build) (shared : Shared) (thread : Thread) :
    (∀ r r' : Registry, r.Rearranges r' →
      r'.entries = r.entries ∧ (∀ anchors, r'.unhandled anchors = r.unhandled anchors) ∧
      r'.dump = r.dump ∧
      ∀ (t : Thread) (c : Context),
        (t.poll { c with registry := r' }).1 = (t.poll { c with registry := r }).1 ∧
        (t.poll { c with registry := r' }).2.1 = (t.poll { c with registry := r }).2.1) ∧
    (∀ steps, Arrives b shared thread (Ledger.empty.follow b (.start shared thread) steps)
      (runSteps b (.start shared thread) steps).2) ∧
    ∀ l s, Arrives b shared thread l s →
      l.registrations.Pairwise (fun e e' => e.slot < e'.slot) ∧
      ∀ c, s.thread.context? = some c →
        c.registry.entries.Perm c.registry.stored ∧ c.registry.entries.Nodup ∧
        c.registry.entries.map Entry.initial =
          l.registrations.filter (fun e => (c.registry.get? e.slot).isSome) ∧
        c.registry.entries.Pairwise fun e e' => e.slot < e'.slot := by
  refine ⟨fun r r' hr => ?_, fun steps => Arrives.start.follow steps, fun l s hs => ?_⟩
  · exact ⟨hr.entries_eq, hr.unhandled_eq, hr.dump_eq, Thread.poll_of_rearranges hr⟩
  · have h := hs.agrees
    refine ⟨h.pairwise_registrations, fun c hc => ?_⟩
    have hsorted := c.registry.pairwise_lt_entries
    refine ⟨c.registry.perm_entries, ?_, h.map_initial_entries hc, hsorted⟩
    exact hsorted.imp fun hlt he => Nat.ne_of_lt hlt (congrArg Entry.slot he)

/-- Of six registrations two went with their attachment and one was dropped. The registry is turned
around before the last. -/
theorem listing_chronological_of_turned :
    let b : Build := .standard .checked true
    let reference (op : ReferenceOp) : Step := .op (.reference op)
    let seed (w : UInt64) : Seed := .address .bits (.word w)
    let before : List Step := [
      .op (.thread (.install ⟨true⟩)), .op (.thread (.attach "main")),
      reference (.create "x" none (seed 0x1000)), reference (.clone "y" "x"),
      .op (.thread .detach), .op (.thread (.attach "again")),
      reference (.create "x" none (seed 0x3000)), reference (.create "z" none (seed 0x2000)),
      reference (.clone "w" "x"), reference (.allow "w"), reference (.drop "z")]
    let after : List Step := [reference (.clone "v" "w")]
    let x : Entry := ⟨2, 0x3000, .managed .bits, false⟩
    let w : Entry := ⟨4, 0x3000, .clone, true⟩
    let v : Entry := ⟨5, 0x3000, .clone, false⟩
    let c : Context := ⟨"again", ⟨[w, x], by decide⟩, .empty, false⟩
    let turned : Registry := ⟨[x, w], by decide⟩
    let d : Context := ⟨"again", ⟨[v, x, w], by decide⟩, .empty, false⟩
    let s := (runSteps b .initial before).2
    let s' := { s with thread := s.thread.setContext { c with registry := turned } }
    let l := Ledger.empty.follow b .initial before
    let m := l.follow b s' after
    s.thread.context? = some c ∧ c.registry.Rearranges turned ∧
      (runSteps b s' after).2.thread.context? = some d ∧
      m.registrations.map Entry.slot = [0, 1, 2, 3, 4, 5] ∧
      d.registry.entries.map Entry.initial = [x, w.initial, v] ∧
      d.registry.entries.map Entry.initial =
        m.registrations.filter fun e => (d.registry.get? e.slot).isSome := by
  intro b reference seed before after x w v c turned d s s' l m
  obtain ⟨-, hruns, harrives⟩ := listing_chronological b .initial .main
  have hc : s.thread.context? = some c := by decide +kernel
  have hd : (runSteps b s' after).2.thread.context? = some d := by decide +kernel
  have hturned : c.registry.Rearranges turned :=
    Registry.Rearranges.iff_perm.mpr (List.Perm.swap ..)
  have hs : Arrives b .initial .main l s := hruns before
  have hs' : Arrives b .initial .main m (runSteps b s' after).2 :=
    (hs.rearrange hc hturned).follow after
  obtain ⟨-, -, hlisted, -⟩ := (harrives _ _ hs').2 d hd
  exact ⟨hc, hturned, hd, by decide +kernel, by decide +kernel, hlisted⟩

end Session

end HeapRefs
