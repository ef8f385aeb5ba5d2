import HeapRefs.Proofs.Registry.Listing
import HeapRefs.Proofs.Session.Reachable

/-! # Safepoints

A poll fails exactly if an entry is not allowed and no anchor holds its address. It reports just
these entries, in the order of their slots, and leaves everything as it was.
-/

namespace HeapRefs

namespace Context

variable {c : Context} {nextSlot nextStamp : Nat} {x : Entry}

/-- Entries of a context in use are never null, so that anchors and allowances alone decide. -/
theorem mem_unhandled_iff (h : c.Sound nextSlot nextStamp) :
    x ∈ c.unhandled ↔
      x ∈ c.registry.stored ∧ x.allowed = false ∧ x.address ∉ c.anchors.addresses := by
  rw [unhandled, Registry.mem_unhandled]
  constructor
  · rintro ⟨hx, ha, -, hn⟩
    exact ⟨hx, ha, hn⟩
  · rintro ⟨hx, ha, hn⟩
    exact ⟨hx, ha, (h.issued x hx).1, hn⟩

end Context

namespace Session

variable {b : Build} {s : State} {c : Context}

theorem apply_poll (hs : s.Sound) (hc : s.thread.context? = some c) :
    ThreadOp.poll.apply s =
      ⟨if c.unhandled = [] then .done (.done .passed)
        else .failed (.fault (.unhandled c.name c.unhandled)), s,
        c.unhandled.map fun x => ⟨.unhandled c.name x, ⟨false, false⟩⟩⟩ := by
  have hresume : c.resume = c := by
    rw [Context.resume, ← (hs.context c hc).running]
  have hback : s.thread.setContext c.resume = s.thread := by
    rw [hresume, Thread.setContext_self hc]
  simp only [ThreadOp.apply, withContext_eq hs hc, Thread.poll_eq, List.isEmpty_iff, hback]
  by_cases hu : c.unhandled = []
  · rw [if_pos hu, if_pos hu]
  · rw [if_neg hu, if_neg hu]

/-- A poll fails just if an entry is not allowed and has its address in no anchor. It logs and lists
these entries in the order of their slots. Either way it leaves everything as it was. -/
theorem poll_verdict (hr : Reachable b s) (hc : s.thread.context? = some c) :
    let e := ThreadOp.poll.apply s
    let text (x : Entry) : String :=
      "0x" ++ String.ofList (Nat.toDigits 16 x.address.toNat) ++ " created at " ++ x.origin.label
    ((∃ f, e.outcome = .failed (.fault f)) ↔
        ∃ x ∈ c.registry.stored, x.allowed = false ∧ x.address ∉ c.anchors.addresses) ∧
      (∃ found : List Entry,
        (∀ x, x ∈ found ↔
          x ∈ c.registry.stored ∧ x.allowed = false ∧ x.address ∉ c.anchors.addresses) ∧
        found.Pairwise (fun x y => x.slot < y.slot) ∧
        (e.log.map fun r => (r.event.level, r.event.message)) =
          (found.map fun x =>
            (.error, "unhandled oop in thread '" ++ c.name ++ "': " ++ text x)) ∧
        (found = [] → e.outcome = .done (.done .passed)) ∧
        (found ≠ [] → ∃ f, e.outcome = .failed (.fault f) ∧
          f.message = "fatal: " ++ toString found.length ++
            " unhandled oop(s) live across a safepoint in thread '" ++ c.name ++ "': " ++
            ", ".intercalate (found.map text))) ∧
      e.state = s ∧ e.state.thread.observe = ⟨true, false⟩ ∧
        ThreadOp.poll.apply e.state = e := by
  have hs := hr.sound
  have hm (x : Entry) := Context.mem_unhandled_iff (x := x) (hs.context c hc)
  intro e text
  have he : e = _ := apply_poll hs hc
  rw [he]
  have hsorted := c.registry.pairwise_lt_unhandled c.anchors
  -- None of them is allowed, so their texts end with the origin.
  have htext (x : Entry) (hx : x ∈ c.unhandled) : x.text = text x := by
    simp [Entry.text, ((hm x).mp hx).2.1, Hex.render, text]
  refine ⟨?_, ⟨c.unhandled, hm, hsorted, ?_, ?_, ?_⟩, rfl, ?_, ?_⟩
  · constructor
    · rintro ⟨f, hf⟩
      obtain ⟨x, hx⟩ := List.exists_mem_of_ne_nil c.unhandled fun hu => by simp [hu] at hf
      exact ⟨x, (hm x).mp hx⟩
    · rintro ⟨x, hx⟩
      exact ⟨.unhandled c.name c.unhandled, if_neg (List.ne_nil_of_mem ((hm x).mpr hx))⟩
  · rw [List.map_map]
    refine List.map_congr_left fun x hx => ?_
    rw [← htext x hx]
    rfl
  · exact fun h => if_pos h
  · refine fun h => ⟨_, if_neg h, ?_⟩
    rw [← List.map_congr_left htext]
    rfl
  · simp only [Thread.observe, hc, (hs.context c hc).running]
  · exact apply_poll hs hc

theorem poll_verdict_of_unanchored :
    let steps : List Step := [
      .op (.thread (.install ⟨true⟩)), .op (.thread (.attach "main")),
      .op (.reference (.create "x" none (.address .bits (.word 0x1000)))),
      .op (.reference (.create "y" none (.address .bits (.word 0x2000)))),
      .op (.handle (.create "h" "x"))]
    let s := (runSteps (.standard .checked true) .initial steps).2
    ∃ c, s.thread.context? = some c ∧
      (∃ f, (ThreadOp.poll.apply s).outcome = .failed (.fault f)) ∧
      (ThreadOp.poll.apply s).state = s := by
  intro steps s
  obtain ⟨c, hc⟩ : ∃ c, s.thread.context? = some c :=
    Option.isSome_iff_exists.mp (by decide +kernel)
  obtain ⟨hiff, -, hstate, -⟩ :=
    poll_verdict (b := .standard .checked true) ⟨.initial, .main, steps, rfl⟩ hc
  have hentry : ∀ d, s.thread.context? = some d →
      ⟨1, 0x2000, .managed .bits, false⟩ ∈ d.registry.stored ∧
        0x2000 ∉ d.anchors.addresses := by
    decide +kernel
  obtain ⟨hstored, hfree⟩ := hentry c hc
  exact ⟨c, hc, hiff.mpr ⟨_, hstored, rfl, hfree⟩, hstate⟩

end Session

end HeapRefs
