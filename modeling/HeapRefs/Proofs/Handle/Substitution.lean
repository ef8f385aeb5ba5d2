import Mathlib.Tactic
import HeapRefs.Proofs.Handle.Addresses
import HeapRefs.Proofs.Handle.Collection

/-! # Collections as substitutions

Moves are made one after the other, and a later one also takes along what an earlier one has brought
to its source. Unless this happens, they come to the same as if all were made at once: every anchor
is moved by the one move from its address, if there is one. If no move at all ends where another
begins, their order does not matter either.
-/

namespace HeapRefs

/-- Where moves that are made all at once take an address. -/
def substitution (moves : List Move) (a : UInt64) : UInt64 :=
  (moves.find? fun m => m.source = a).elim a Move.target

section

variable {moves moves' : List Move} {m : Move} {a : UInt64}

theorem substitution_cons (m : Move) (moves : List Move) (a : UInt64) :
    substitution (m :: moves) a = if m.source = a then m.target else substitution moves a := by
  unfold substitution
  rw [List.find?_cons]
  split
  · next h => rw [if_pos (of_decide_eq_true h), Option.elim_some]
  · next h => rw [if_neg (of_decide_eq_false h)]

theorem substitution_of_not_mem (ha : a ∉ moves.map Move.source) : substitution moves a = a := by
  induction moves with
  | nil => rfl
  | cons m moves ih =>
    rw [List.map_cons, List.mem_cons, not_or] at ha
    rw [substitution_cons, if_neg (Ne.symm ha.1), ih ha.2]

theorem substitution_of_mem (hn : (moves.map Move.source).Nodup) (hm : m ∈ moves) :
    substitution moves m.source = m.target := by
  induction moves with
  | nil => exact absurd hm List.not_mem_nil
  | cons m₀ moves ih =>
    obtain ⟨h₀, hn⟩ := List.nodup_cons.mp hn
    rw [substitution_cons]
    rcases List.mem_cons.mp hm with rfl | hm
    · exact if_pos rfl
    · have hne : m₀.source ≠ m.source := by
        intro he
        exact h₀ (he ▸ List.mem_map_of_mem hm)
      rw [if_neg hne, ih hn hm]

theorem substitution_eq_of_perm (hn : (moves.map Move.source).Nodup) (hp : moves'.Perm moves) :
    substitution moves' = substitution moves := by
  funext a
  by_cases ha : a ∈ moves.map Move.source
  · obtain ⟨m, hm, rfl⟩ := List.mem_map.mp ha
    rw [substitution_of_mem hn hm,
      substitution_of_mem ((hp.map _).nodup_iff.mpr hn) (hp.mem_iff.mpr hm)]
  · rw [substitution_of_not_mem ha,
      substitution_of_not_mem (mt (hp.map Move.source).mem_iff.mp ha)]

end

namespace AnchorTable

variable {t : AnchorTable} {moves : List Move} {a : UInt64}

/-- If no move ends where a later one begins, the moves come to the same as all at once. -/
theorem collect_eq (hf : moves.Pairwise fun m m' => m.target ≠ m'.source) :
    t.collect moves = t.mapAddresses (substitution moves) := by
  induction moves generalizing t with
  | nil => exact t.mapAddresses_id.symm
  | cons m moves ih =>
    obtain ⟨hm, hf⟩ := List.pairwise_cons.mp hf
    have hkept : m.target ∉ moves.map Move.source := by
      intro ht
      obtain ⟨m', hm', he⟩ := List.mem_map.mp ht
      exact hm m' hm' he.symm
    calc t.collect (m :: moves)
        = (t.relocate m.source m.target).mapAddresses (substitution moves) := ih hf
      _ = t.mapAddresses (substitution (m :: moves)) := by
        rw [relocate_eq, mapAddresses_mapAddresses]
        refine mapAddresses_congr fun a _ => ?_
        rw [substitution_cons]
        by_cases ha : a = m.source
        · rw [if_pos ha, if_pos ha.symm, substitution_of_not_mem hkept]
        · rw [if_neg ha, if_neg (Ne.symm ha)]

theorem count_relocate_of_ne {source target : UInt64} (hs : a ≠ source) (ht : a ≠ target) :
    (t.relocate source target).count a = t.count a := by
  unfold count
  rw [addresses_relocate]
  induction t.addresses with
  | nil => rfl
  | cons x l ih =>
    rw [List.map_cons, List.count_cons, List.count_cons, ih]
    by_cases hx : x = source
    · subst hx
      simp [Ne.symm hs, Ne.symm ht]
    · rw [if_neg hx]

theorem counts_eq (hn : (moves.map Move.source).Nodup)
    (hf : moves.Pairwise fun m m' => m.target ≠ m'.source) :
    t.counts moves = moves.map fun m => t.count m.source := by
  induction moves generalizing t with
  | nil => rfl
  | cons m moves ih =>
    obtain ⟨hm, hn⟩ := List.nodup_cons.mp hn
    obtain ⟨hmf, hf⟩ := List.pairwise_cons.mp hf
    rw [counts, ih hn hf, List.map_cons]
    congr 1
    refine List.map_congr_left fun m' hm' => count_relocate_of_ne ?_ ?_
    · intro he
      exact hm (he ▸ List.mem_map_of_mem hm')
    · exact (hmf m' hm').symm

theorem countP_mem_cons (t : AnchorTable) {sources : List UInt64} (ha : a ∉ sources) :
    t.addresses.countP (· ∈ a :: sources) = t.count a + t.addresses.countP (· ∈ sources) := by
  unfold count
  induction t.addresses with
  | nil => rfl
  | cons x l ih =>
    rw [List.countP_cons, List.countP_cons, List.count_cons, ih]
    by_cases hx : x = a
    · subst hx
      simp [ha]
      omega
    · simp [hx]
      omega

theorem sum_count (t : AnchorTable) {sources : List UInt64} (hn : sources.Nodup) :
    (sources.map t.count).sum = t.addresses.countP (· ∈ sources) := by
  induction sources with
  | nil => simp
  | cons a sources ih =>
    obtain ⟨ha, hn⟩ := List.nodup_cons.mp hn
    rw [List.map_cons, List.sum_cons, ih hn, t.countP_mem_cons ha]

end AnchorTable

namespace Session

/-- A collection with distinct sources in which no move ends where a later one begins makes its
moves all at once. If no move at all ends where another begins, any order will do. -/
theorem collection_eq_substitution (b : Build) {s : State} {name : String} {c : Context}
    (hg : s.locals.guard? = some name) (hc : s.thread.context? = some c) {moves : List Move}
    (hn : (moves.map Move.source).Nodup)
    (hf : moves.Pairwise fun m m' => m.target ≠ m'.source) :
    let reply (m : Move) : Reply := .step (.done (.count (c.anchors.count m.source))) [] s.counts?
    (∃ anchors : AnchorTable,
        (runSteps b s (collection moves)).2 =
          { s with thread := s.thread.setContext { c with anchors } } ∧
        anchors.addresses = c.anchors.addresses.map (substitution moves) ∧
        anchors.stamps = c.anchors.stamps) ∧
      (runSteps b s (collection moves)).1 = moves.map reply ∧
      (moves.map fun m => c.anchors.count m.source).sum =
        c.anchors.addresses.countP (· ∈ moves.map Move.source) ∧
      ((moves.Pairwise fun m m' => m'.target ≠ m.source) → ∀ moves', moves'.Perm moves →
        (runSteps b s (collection moves')).2 = (runSteps b s (collection moves)).2 ∧
          (runSteps b s (collection moves')).1 = moves'.map reply) := by
  intro reply
  -- For any moves that meet the conditions, as they will be met by a permutation of these.
  have hrun {moves : List Move} (hn : (moves.map Move.source).Nodup)
      (hf : moves.Pairwise fun m m' => m.target ≠ m'.source) :
      runSteps b s (collection moves) =
        (moves.map reply,
          { s with
            thread := s.thread.setContext
              { c with anchors := c.anchors.mapAddresses (substitution moves) } }) := by
    rw [runSteps_collection hg hc, AnchorTable.counts_eq hn hf, AnchorTable.collect_eq hf,
      List.map_map]
    rfl
  refine ⟨⟨_, congrArg Prod.snd (hrun hn hf), ?_, ?_⟩, congrArg Prod.fst (hrun hn hf), ?_, ?_⟩
  · exact AnchorTable.addresses_mapAddresses ..
  · exact AnchorTable.stamps_mapAddresses ..
  · rw [← c.anchors.sum_count hn, List.map_map]
    rfl
  · intro hback moves' hp
    have hn' : (moves'.map Move.source).Nodup := (hp.map Move.source).nodup_iff.mpr hn
    have hf' : moves'.Pairwise fun m m' => m.target ≠ m'.source := by
      have hboth := (hf.and hback).perm hp.symm fun h => ⟨h.2, h.1⟩
      exact hboth.imp And.left
    rw [hrun hn hf, hrun hn' hf', substitution_eq_of_perm hn hp]
    exact ⟨rfl, rfl⟩

/-- Two objects are taken to one address, in either order; one of them has two handles. -/
theorem collection_eq_substitution_of_merged :
    let b : Build := .standard .checked true
    let s := (runSteps b .initial [
      .op (.thread (.attach "main")),
      .op (.reference (.create "x" none (.address .bits (.word 0x1000)))),
      .op (.reference (.create "y" none (.address .bits (.word 0x2000)))),
      .op (.handle (.create "h" "x")), .op (.handle (.create "g" "y")),
      .op (.handle (.create "k" "x"))]).2
    let moves : List Move := [⟨0x1000, 0x3000⟩, ⟨0x2000, 0x3000⟩]
    ∃ c anchors, s.thread.context? = some c ∧
      (runSteps b s (collection moves.reverse)).2.thread.context? = some { c with anchors } ∧
      anchors.addresses = [0x3000, 0x3000, 0x3000] ∧ anchors.stamps = [0, 1, 2] ∧
      (moves.map fun m => c.anchors.count m.source).sum = 3 := by
  intro b s moves
  have hg : s.locals.guard? = some "main" := by decide +kernel
  obtain ⟨c, hc⟩ : ∃ c, s.thread.context? = some c :=
    Option.isSome_iff_exists.mp (by decide +kernel)
  have hbefore : ∀ c, s.thread.context? = some c →
      c.anchors.addresses = [0x1000, 0x2000, 0x1000] ∧ c.anchors.stamps = [0, 1, 2] := by
    decide +kernel
  obtain ⟨haddresses, hstamps⟩ := hbefore c hc
  have hn : (moves.map Move.source).Nodup := by decide
  have hf : moves.Pairwise fun m m' => m.target ≠ m'.source := by decide
  have hback : moves.Pairwise fun m m' => m'.target ≠ m.source := by decide
  obtain ⟨⟨anchors, hs, ha, ht⟩, -, hsum, hperm⟩ := collection_eq_substitution b hg hc hn hf
  obtain ⟨hrev, -⟩ := hperm hback moves.reverse moves.reverse_perm
  refine ⟨c, anchors, hc, ?_, ?_, ht.trans hstamps, ?_⟩
  · rw [hrev, hs, Thread.context?_setContext]
  · rw [ha, haddresses]
    decide
  · rw [hsum, haddresses]
    decide

end Session

end HeapRefs
