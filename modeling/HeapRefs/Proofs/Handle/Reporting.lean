import HeapRefs.Proofs.Handle.Addresses
import HeapRefs.Proofs.Handle.Collection
import HeapRefs.Proofs.Handle.Scope
import HeapRefs.Proofs.Session.Attachment

/-! # What changes of the anchors report

The registry and the anchors of a thread meet in the addresses only. Making a handle, dropping a
mark and relocating change the anchors alone. So the registry lists the same entries after them, and
an entry begins or ceases to be reported just where its address is no longer held or newly held.
-/

namespace HeapRefs

namespace AnchorTable

variable {t : AnchorTable} {a : UInt64} {length : Nat}

theorem mem_addresses_iff_get? : a ∈ t.addresses ↔ ∃ i, t.get? i = some a := by
  simp only [addresses, get?, ← List.getElem?_map, List.mem_iff_getElem?]

theorem get?_truncate (t : AnchorTable) (length i : Nat) :
    (t.truncate length).get? i = if i < length then t.get? i else none := by
  rw [get?, truncate, List.getElem?_take]
  split <;> rfl

theorem not_mem_addresses_truncate_iff :
    a ∉ (t.truncate length).addresses ↔
      a ∉ t.addresses ∨
        a ∈ t.addresses ∧ ∀ i, t.get? i = some a → (t.truncate length).get? i = none := by
  simp only [mem_addresses_iff_get?, get?_truncate, Option.ite_none_right_eq_some]
  constructor
  · intro hn
    refine Classical.or_iff_not_imp_left.mpr fun ha => ⟨not_not.mp ha, fun i hi => ?_⟩
    exact if_neg fun hl => hn ⟨i, hl, hi⟩
  · rintro (hn | ⟨-, hgone⟩) ⟨i, hl, hi⟩
    · exact hn ⟨i, hi⟩
    · have hnone := hgone i hi
      rw [if_pos hl, hi] at hnone
      cases hnone

theorem relocate_eq_self {source target : UInt64}
    (h : source ∉ t.addresses ∨ source = target) : t.relocate source target = t := by
  rw [relocate_eq]
  refine (mapAddresses_congr fun a ha => ?_).trans t.mapAddresses_id
  rcases h with h | rfl
  · have hne : a ≠ source := fun he => h (he ▸ ha)
    exact if_neg hne
  · split
    · next he => exact he.symm
    · rfl

end AnchorTable

theorem Entry.isUnhandled_iff {x : Entry} {t : AnchorTable} :
    x.isUnhandled t = true ↔ x.allowed = false ∧ x.address ≠ 0 ∧ x.address ∉ t.addresses := by
  simp [isUnhandled, AnchorTable.contains, and_assoc]

namespace Context

variable {c : Context} {nextSlot nextStamp : Nat} {x : Entry}

theorem unhandled_push (c : Context) (address : UInt64) (stamp : Nat) :
    { c with anchors := (c.anchors.push address stamp).2 }.unhandled =
      c.unhandled.filter fun x => x.address ≠ address := by
  rw [unhandled, unhandled, Registry.unhandled, Registry.unhandled, List.filter_filter]
  refine List.filter_congr fun x _ => ?_
  rw [Bool.eq_iff_iff, Bool.and_eq_true, decide_eq_true_iff, Entry.isUnhandled_iff,
    Entry.isUnhandled_iff, AnchorTable.mem_addresses_push, not_or]
  constructor
  · rintro ⟨ha, hn, hheld, hne⟩
    exact ⟨hne, ha, hn, hheld⟩
  · rintro ⟨hne, ha, hn, hheld⟩
    exact ⟨ha, hn, hheld, hne⟩

/-- Releasing brings to light the entries whose addresses were held only by what is released. -/
theorem mem_unhandled_release_iff (h : c.Sound nextSlot nextStamp) {m : Mark} :
    x ∈ (c.release m).unhandled ↔ x ∈ c.unhandled ∨
      x ∈ c.registry.entries ∧ x.allowed = false ∧ x.address ∈ c.anchors.addresses ∧
        ∀ i, c.anchors.get? i = some x.address → (c.release m).anchors.get? i = none := by
  have hm : (c.release m).Sound nextSlot nextStamp := ⟨h.running, h.issued, h.stamped.truncate _⟩
  rw [mem_unhandled_iff hm, mem_unhandled_iff h, Registry.mem_entries]
  simp only [release, AnchorTable.release, AnchorTable.not_mem_addresses_truncate_iff, and_or_left]

theorem mem_unhandled_relocate_iff (h : c.Sound nextSlot nextStamp) {source target : UInt64}
    (hs : source ∈ c.anchors.addresses) :
    x ∈ (c.relocate source target).unhandled ↔ x.address ≠ target ∧
      (x ∈ c.unhandled ∨ x ∈ c.registry.entries ∧ x.address = source ∧ x.allowed = false) := by
  have hm : (c.relocate source target).Sound nextSlot nextStamp :=
    ⟨h.running, h.issued, h.stamped.relocate ..⟩
  rw [mem_unhandled_iff hm, mem_unhandled_iff h, Registry.mem_entries]
  simp only [relocate, AnchorTable.mem_addresses_relocate, hs, true_and]
  constructor
  · rintro ⟨hx, ha, hn⟩
    obtain ⟨hheld, ht⟩ := not_or.mp hn
    refine ⟨ht, ?_⟩
    by_cases he : x.address = source
    · exact .inr ⟨hx, he, ha⟩
    · exact .inl ⟨hx, ha, fun hmem => hheld ⟨hmem, he⟩⟩
  · rintro ⟨ht, ⟨hx, ha, hn⟩ | ⟨hx, he, ha⟩⟩
    · exact ⟨hx, ha, not_or.mpr ⟨fun hmem => hn hmem.1, ht⟩⟩
    · exact ⟨hx, ha, not_or.mpr ⟨fun hmem => hmem.2 he, ht⟩⟩

end Context

namespace Session

variable {b : Build} {s : State} {c : Context}

/-- Asked for its entries and for those that are reported, the thread lists these, both in the order
of the slots. -/
structure State.Lists (s : State) (listing found : List Entry) : Prop where
  entries : ThreadOp.entries.apply s = s.done (.entries listing)
  unhandled : ThreadOp.unhandled.apply s = s.done (.entries found)
  sorted : listing.Pairwise fun x y => x.slot < y.slot
  part : found.Sublist listing

theorem State.Sound.lists (hs : s.Sound) (hc : s.thread.context? = some c) :
    s.Lists c.registry.entries c.unhandled where
  entries := apply_entries hs hc
  unhandled := apply_unhandled hs hc
  sorted := c.registry.pairwise_lt_entries
  part := List.filter_sublist

theorem State.Sound.lists_apply (hs : s.Sound) {op : HandleOp}
    (hc : (op.apply b s).state.thread.context? = some c) :
    (op.apply b s).state.Lists c.registry.entries c.unhandled :=
  (hs.apply (b := b) (.handle op)).lists hc

theorem apply_create (b : Build) (target : String) (hs : s.Sound)
    (hc : s.thread.context? = some c) {source : String} {v : View}
    (hv : s.locals.views.get? source = some v) :
    let (h, thread) := s.thread.anchor c v.address
    (HandleOp.create target source).apply b s =
      State.done
        { s with thread, locals := { s.locals with handles := s.locals.handles.set target h } }
        (.handle h) := by
  simp only [HandleOp.apply, State.withView, hv, withContext_eq hs hc]

/-- Operations on handles keep the listing. A handle takes the entries at its address out of the
report; a dropped mark and a relocation put back those whose addresses no handle holds any more. -/
theorem handles_change_report (hr : Reachable b s) (hc : s.thread.context? = some c) :
    ∃ listing found, s.Lists listing found ∧
      (∀ target source v, s.locals.views.get? source = some v →
        let e := (HandleOp.create target source).apply b s
        (∃ h, e.outcome = .done (.handle h)) ∧
          e.state.Lists listing (found.filter fun x => x.address ≠ v.address)) ∧
      (∀ name m op, s.locals.marks.get? name = some m → (op = .release name ∨ op = .mark name) →
        let t := (HandleOp.apply b s op).state
        ∃ d found', t.thread.context? = some d ∧ t.Lists listing found' ∧
          ∀ x, x ∈ found' ↔ x ∈ found ∨
            x ∈ listing ∧ x.allowed = false ∧ x.address ∈ c.anchors.addresses ∧
              ∀ i, c.anchors.get? i = some x.address → d.anchors.get? i = none) ∧
      ∀ source target a d, s.word? source = some a → s.word? target = some d →
        let e := (HandleOp.relocate source target).apply b s
        ∃ n found', e.outcome = .done (.count n) ∧ e.state.Lists listing found' ∧
          (0 < n → ∀ x, x ∈ found' ↔ x.address ≠ d ∧
            (x ∈ found ∨ x ∈ listing ∧ x.address = a ∧ x.allowed = false)) ∧
          (n = 0 ∨ a = d → found' = found) := by
  have hs := hr.sound
  have hsound := hs.context c hc
  -- Each operation leaves a context with other anchors and the same registry.
  refine ⟨_, _, hs.lists hc, fun target source v hv => ?_, fun name m op hm hop => ?_,
    fun source target a d ha hd => ?_⟩
  · have happly := apply_create b target hs hc hv
    have hcontext : ((HandleOp.create target source).apply b s).state.thread.context? =
        some { c with anchors := (c.anchors.push v.address s.thread.nextStamp).2 } := by
      rw [happly]
      exact s.thread.context?_anchor ..
    rw [← Context.unhandled_push c v.address s.thread.nextStamp]
    exact ⟨⟨_, congrArg Effect.outcome happly⟩, hs.lists_apply hcontext⟩
  · have hcontext := context?_of_drop b hs hc hm hop
    have hlists := hs.lists_apply hcontext
    exact ⟨_, _, hcontext, hlists, fun x => Context.mem_unhandled_release_iff hsound⟩
  · have happly := apply_relocate (b := b) (hs.guard_eq_some hc) hc ha hd
    have hcontext : ((HandleOp.relocate source target).apply b s).state.thread.context? =
        some (c.relocate a d) := by
      rw [happly]
      exact s.thread.context?_setContext _
    have hlists := hs.lists_apply hcontext
    refine ⟨_, _, congrArg Effect.outcome happly, hlists, fun hn x => ?_, fun h => ?_⟩
    · exact Context.mem_unhandled_relocate_iff hsound (List.count_pos_iff.mp hn)
    · have hself : a ∉ c.anchors.addresses ∨ a = d := h.imp_left List.count_eq_zero.mp
      rw [Context.relocate, AnchorTable.relocate_eq_self hself]

/-- Two references share an address with two handles, and one of them has been allowed. The mark
releases the second handle of the two, and the only one of another address. -/
theorem handles_change_report_of_shared_address :
    let b : Build := .standard .checked true
    let make (x : String) (a : UInt64) : Step :=
      .op (.reference (.create x none (.address .bits (.word a))))
    let anchor (h x : String) : Step := .op (.handle (.create h x))
    let s := (runSteps b .initial [
      .op (.thread (.install ⟨true⟩)), .op (.thread (.attach "main")),
      make "x" 0x1000, make "y" 0x1000, make "z" 0x2000, make "w" 0x3000,
      .op (.reference (.allow "y")), anchor "h" "x", .op (.handle (.mark "m")),
      anchor "g" "x", anchor "k" "z"]).2
    let x : Entry := ⟨0, 0x1000, .managed .bits, false⟩
    let y : Entry := ⟨1, 0x1000, .managed .bits, true⟩
    let z : Entry := ⟨2, 0x2000, .managed .bits, false⟩
    let w : Entry := ⟨3, 0x3000, .managed .bits, false⟩
    ∃ released relocated,
      s.Lists [x, y, z, w] [w] ∧
      ((HandleOp.create "l" "w").apply b s).state.Lists [x, y, z, w] [] ∧
      ((HandleOp.release "m").apply b s).state.Lists [x, y, z, w] released ∧
      z ∈ released ∧ x ∉ released ∧
      ((HandleOp.relocate (.word 0x1000) (.word 0x3000)).apply b s).state.Lists
        [x, y, z, w] relocated ∧
      x ∈ relocated ∧ y ∉ relocated ∧ w ∉ relocated := by
  intro b make anchor s x y z w
  have hr : Reachable b s := ⟨.initial, .main, _, rfl⟩
  have hanchors : s.thread.context?.map Context.anchors =
    some ⟨[⟨0x1000, 0⟩, ⟨0x1000, 1⟩, ⟨0x2000, 2⟩]⟩ := by decide +kernel
  obtain ⟨c, hc, hanchors⟩ := Option.map_eq_some_iff.mp hanchors
  obtain ⟨listing, found, hlists, hcreate, hdrop, hmove⟩ := handles_change_report hr hc
  have hentries : (ThreadOp.entries.apply s).outcome = .done (.entries [x, y, z, w]) := by
    decide +kernel
  have hunhandled : (ThreadOp.unhandled.apply s).outcome = .done (.entries [w]) := by
    decide +kernel
  rw [hlists.entries] at hentries
  rw [hlists.unhandled] at hunhandled
  obtain rfl : listing = [x, y, z, w] := Answer.entries.inj (Outcome.done.inj hentries)
  obtain rfl : found = [w] := Answer.entries.inj (Outcome.done.inj hunhandled)
  have hw : s.locals.views.get? "w" = some ⟨.checked 0x3000 (some 3), none⟩ := by decide +kernel
  have hm : s.locals.marks.get? "m" = some ⟨1⟩ := by decide +kernel
  have hkept : ((HandleOp.release "m").apply b s).state.thread.context?.map Context.anchors =
    some ⟨[⟨0x1000, 0⟩]⟩ := by decide +kernel
  have hcount : ((HandleOp.relocate (.word 0x1000) (.word 0x3000)).apply b s).outcome =
    .done (.count 2) := by decide +kernel
  obtain ⟨d, released, hd, hreleased, hmem⟩ := hdrop "m" _ _ hm (.inl rfl)
  obtain ⟨n, relocated, hn, hrelocated, hmoved, -⟩ :=
    hmove (.word 0x1000) (.word 0x3000) 0x1000 0x3000 (by rw [State.word?]) (by rw [State.word?])
  rw [hd, Option.map_some, Option.some_inj] at hkept
  rw [hanchors, hkept] at hmem
  obtain rfl : n = 2 := Answer.count.inj (Outcome.done.inj (hn.symm.trans hcount))
  replace hmoved := hmoved (by decide)
  refine ⟨released, relocated, hlists, (hcreate "l" "w" _ hw).2, hreleased, ?_, ?_, hrelocated, ?_⟩
  · refine (hmem z).mpr (.inr ⟨by decide, rfl, by decide, fun i hi => ?_⟩)
    cases i with
    | zero => exact absurd hi (by decide)
    | succ i => rfl
  · intro hx
    rcases (hmem x).mp hx with hx | ⟨-, -, -, hgone⟩
    · exact absurd hx (by decide)
    · exact absurd (hgone 0 rfl) (by decide)
  · rw [hmoved, hmoved, hmoved]
    decide

end Session

end HeapRefs
