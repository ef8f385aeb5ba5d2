import HeapRefs.Proofs.Codec.RoundTrip
import HeapRefs.Proofs.Session.Frame
import HeapRefs.Proofs.Session.Schedule

/-! # The installed codec

The threads of a process offer codecs to be installed. If the cell for the codec keeps its promise,
the first offer is taken, whichever thread makes it, and all later ones fail and change nothing. So
what the installed codec encodes, it decodes to the same address ever after.
-/

namespace HeapRefs

/-- The question has an address encoded with validation, and the answer has its compressed form. -/
inductive Query.Encodes : Query UInt64 → Query.Answer → UInt64 → NarrowRef → Prop
  | encode (a : UInt64) (n : NarrowRef) : Encodes (.encode a) (.narrow n) a n
  | encodeDecode (a a' : UInt64) (n : NarrowRef) :
      Encodes (.encodeDecode a) (.encodedDecoded n a') a n
  | decodeEncode (m : NarrowRef) (a : UInt64) (n : NarrowRef) :
      Encodes (.decodeEncode m) (.decodedEncoded a n) a n

theorem Codec.encode_of_answer {c : Codec} {asserts : Bool} {q : Query UInt64} {r : Query.Answer}
    {a : UInt64} {n : NarrowRef} (h : c.answer asserts q = .ok r) (he : q.Encodes r a n) :
    c.encode a = .ok n := by
  cases he with
  | encode | encodeDecode | decodeEncode =>
    rw [answer] at h
    split at h
    · cases h
      assumption
    · cases h

theorem Event.message_codecInstalled (c : Codec) :
    (codecInstalled c).message =
      "compressed oops: base 0x" ++ String.ofList (Nat.toDigits 16 c.base.toNat) ++
        ", shift " ++ toString c.shift.toNat ++
        ", reserved 0x" ++ String.ofList (Nat.toDigits 16 c.start.toNat) ++
        "..0x" ++ String.ofList (Nat.toDigits 16 c.stop.toNat) := by
  have hbase : "compressed oops: base 0x" = "compressed oops: base " ++ "0x" := by decide +kernel
  have hstart : ", reserved 0x" = ", reserved " ++ "0x" := by decide +kernel
  have hstop : "..0x" = ".." ++ "0x" := by decide +kernel
  have hmessage : (codecInstalled c).message =
      "compressed oops: base " ++ Hex.render c.base.toNat ++ ", shift " ++
        toString c.shift.toNat ++ ", reserved " ++ Hex.render c.start.toNat ++ ".." ++
        Hex.render c.stop.toNat := rfl
  rw [hmessage, hbase, hstart, hstop]
  simp only [Hex.render, String.append_assoc]

namespace Shared

variable {once : OnceCell Codec Bool} {s : Shared}

theorem installCodec_of_none (h : once.Lawful) (hs : s.codec? = none) (c : Codec) :
    s.installCodec once c = (some c, { s with codec? := some c }) := by
  rw [installCodec, hs, h.vacant]
  rfl

theorem installCodec_of_some (h : once.Lawful) {d : Codec} (hs : s.codec? = some d) (c : Codec) :
    s.installCodec once c = (none, s) := by
  rw [installCodec, hs, h.full, ← hs]
  rfl

end Shared

namespace Session

def Op.offered? (s : State) : Op → Option Codec
  | .codec (.install name) => s.locals.codecs.get? name
  | _ => none

def Taken.offered? (x : Taken) : Option Codec := x.op.offered? x.state

/-- The installed codec is asked to encode the address, with validation, and answers so. -/
def Taken.Encodes (b : Build) (x : Taken) (a : UInt64) (n : NarrowRef) : Prop :=
  ∃ query q r, x.op = .codec (.ask query) ∧ query.resolve x.state.word? = some q ∧
    (x.effect b).outcome = .done (.query r) ∧ q.Encodes r a n

variable {b : Build} {s : State} {op : Op} {c : Codec} {x : Taken} {a : UInt64} {n : NarrowRef}

/-! ### Offers -/

theorem State.filterMap_codec?_finish (s : State) : s.finish.1.filterMap Record.codec? = [] := by
  have idle : Idle s fun e => e.log.filterMap Record.codec? = [] := ⟨fun _ => rfl, fun _ _ => rfl⟩
  refine idle.withContext fun c _ _ => ?_
  simp only [Thread.detach, Thread.remains]
  split <;> rfl

theorem Op.publishes_nothing (b : Build) (s : State) (h : op.offered? s = none) :
    (op.apply b s).state.shared.codec? = s.shared.codec? ∧
      (op.apply b s).log.filterMap Record.codec? = [] := by
  obtain hr | ⟨name, rfl⟩ | rfl | ⟨name, rfl⟩ := op.reframes_cases
  · have hf := Op.frames (b := b) (s := s) hr
    exact ⟨hf.codec, hf.log⟩
  · simp only [Op.apply, ThreadOp.apply]
    cases s.thread.attach name <;> exact ⟨rfl, rfl⟩
  · have idle : Idle s fun e => e.state.shared.codec? = s.shared.codec? :=
      ⟨fun _ => rfl, fun _ _ => rfl⟩
    exact ⟨idle.withContext fun c _ _ => rfl, s.filterMap_codec?_finish⟩
  · have hc : s.locals.codecs.get? name = none := h
    simp [Op.apply, CodecOp.apply, State.withCodec, hc, State.refused]

theorem Op.eq_install_of_offered? (h : op.offered? s = some c) :
    ∃ name, op = .codec (.install name) ∧ s.locals.codecs.get? name = some c := by
  unfold offered? at h
  split at h
  · exact ⟨_, rfl, h⟩
  · cases h

theorem Op.apply_of_offered? (h : b.platform.once.Lawful) (ho : op.offered? s = some c) :
    (s.shared.codec? = none →
      let t := { s with shared := { s.shared with codec? := some c } }
      op.apply b s = ⟨.done (.codec c), t, [t.record (.codecInstalled c)]⟩) ∧
    (s.shared.codec?.isSome = true → op.apply b s = s.failed .codecInUse) := by
  obtain ⟨name, rfl, hc⟩ := eq_install_of_offered? ho
  constructor
  · intro hs t
    simp only [Op.apply, CodecOp.apply, State.withCodec, hc, Shared.installCodec_of_none h hs, t]
  · intro hs
    obtain ⟨d, hs⟩ := Option.isSome_iff_exists.mp hs
    simp only [Op.apply, CodecOp.apply, State.withCodec, hc, Shared.installCodec_of_some h hs]

/-- An operation installs what it offers unless a codec is installed, and then records it. -/
theorem Op.publishes (h : b.platform.once.Lawful) (s : State) (op : Op) :
    (op.apply b s).state.shared.codec? = s.shared.codec?.or (op.offered? s) ∧
      (op.apply b s).log.filterMap Record.codec? =
        if s.shared.codec?.isSome then [] else (op.offered? s).toList := by
  cases ho : op.offered? s with
  | some c =>
    obtain ⟨htaken, hfailed⟩ := apply_of_offered? h ho
    cases hs : s.shared.codec? with
    | none =>
      rw [htaken hs]
      exact ⟨rfl, rfl⟩
    | some d =>
      rw [hfailed (by rw [hs, Option.isSome_some])]
      exact ⟨hs, rfl⟩
  | none =>
    obtain ⟨hcodec, hlog⟩ := publishes_nothing b s ho
    simp [hcodec, hlog]

theorem findSome?_offered?_cons (x : Taken) (xs : List Taken) :
    (x :: xs).findSome? Taken.offered? = x.offered?.or (xs.findSome? Taken.offered?) := by
  rw [List.findSome?_cons]
  cases x.offered? <;> rfl

namespace History

variable {shared after : Shared} {xs : List Taken}

theorem codec?_eq (hlaw : b.platform.once.Lawful) (h : History b shared xs after) :
    after.codec? = shared.codec?.or (xs.findSome? Taken.offered?) := by
  induction h with
  | nil => simp
  | @cons shared after x xs hx _ ih =>
    obtain ⟨hcodec, -⟩ := Op.publishes hlaw x.state x.op
    rw [ih, Taken.effect, hcodec, hx, Option.or_assoc, findSome?_offered?_cons]
    rfl

theorem codec?_eq_some (hlaw : b.platform.once.Lawful) (h : History b shared xs after)
    (hc : shared.codec? = some c) : after.codec? = some c := by
  rw [h.codec?_eq hlaw, hc, Option.some_or]

theorem installations_eq (hlaw : b.platform.once.Lawful) (h : History b shared xs after) :
    (xs.flatMap fun x => (x.effect b).log).filterMap Record.codec? =
      if shared.codec?.isSome then [] else (xs.findSome? Taken.offered?).toList := by
  induction h with
  | nil => simp
  | @cons shared after x xs hx _ ih =>
    obtain ⟨hcodec, hlog⟩ := Op.publishes hlaw x.state x.op
    have ho : x.op.offered? x.state = x.offered? := rfl
    rw [List.flatMap_cons, List.filterMap_append, ih, Taken.effect, hlog, hcodec, hx, ho,
      findSome?_offered?_cons]
    cases shared.codec? <;> cases x.offered? <;> simp

theorem codec?_found {before rest : List Taken} (hlaw : b.platform.once.Lawful)
    (h : History b shared (before ++ x :: rest) after) :
    x.state.shared.codec? = shared.codec?.or (before.findSome? Taken.offered?) := by
  obtain ⟨found, hbefore, hrest⟩ := h.of_append
  cases hrest with
  | cons hx _ => rw [hx, hbefore.codec?_eq hlaw]

theorem codec?_found_later {before between rest : List Taken} {y : Taken}
    (hlaw : b.platform.once.Lawful)
    (h : History b shared (before ++ x :: (between ++ y :: rest)) after)
    (hc : x.state.shared.codec? = some c) : y.state.shared.codec? = some c := by
  obtain ⟨found, -, hrest⟩ := h.of_append
  -- The earlier of the two belongs to what comes before the later.
  have hrest : History b found ((x :: between) ++ y :: rest) after := hrest
  obtain ⟨later, hbetween, hlater⟩ := hrest.of_append
  cases hlater with
  | cons hy _ =>
    cases hbetween with
    | cons hx hbetween =>
      rw [hy]
      exact (History.cons hx hbetween).codec?_eq_some hlaw (hx ▸ hc)

end History

theorem map_filter_codec? (rs : List Record) :
    (rs.filter (·.codec?.isSome)).map (fun r => (r.event.level, r.event.message)) =
      (rs.filterMap Record.codec?).map fun c => (.debug, (Event.codecInstalled c).message) := by
  induction rs with
  | nil => rfl
  | cons r rs ih =>
    obtain ⟨event, seen⟩ := r
    cases event with
    | codecInstalled c => exact congrArg (_ :: ·) ih
    | _ => exact ih

/-! ### Encoding and decoding -/

theorem ask_done {query : Query Operand} {q : Query UInt64} {r : Query.Answer}
    (hq : query.resolve s.word? = some q)
    (h : ((CodecOp.ask query).apply b s).outcome = .done (.query r)) :
    ∃ c, s.shared.codec? = some c ∧ c.answer b.asserts q = .ok r := by
  simp only [CodecOp.apply, hq] at h
  cases hc : s.shared.codec? with
  | none => simp [hc, State.refused] at h
  | some c =>
    refine ⟨c, rfl, ?_⟩
    cases ha : c.answer b.asserts q with
    | error e => simp [hc, ha, State.failed] at h
    | ok r' => simpa [hc, ha, State.done] using h

theorem apply_ask {query : Query Operand} {q : Query UInt64} {r : Query.Answer}
    (hc : s.shared.codec? = some c) (hq : query.resolve s.word? = some q)
    (ha : c.answer b.asserts q = .ok r) :
    (CodecOp.ask query).apply b s = s.done (.query r) := by
  simp only [CodecOp.apply, hc, hq, ha]

theorem Taken.Encodes.exists_encode (h : x.Encodes b a n) :
    ∃ c, x.state.shared.codec? = some c ∧ c.encode a = .ok n := by
  obtain ⟨query, q, r, hop, hq, hdone, he⟩ := h
  rw [Taken.effect, hop] at hdone
  obtain ⟨c, hc, ha⟩ := ask_done hq hdone
  exact ⟨c, hc, Codec.encode_of_answer ha he⟩

theorem apply_ask_of_encode (hc : s.shared.codec? = some c) (h : c.encode a = .ok n) :
    (CodecOp.ask (.decode n)).apply b s = s.done (.query (.address a)) ∧
      (CodecOp.ask (.decodeEncode n)).apply b s = s.done (.query (.decodedEncoded a n)) := by
  have hd := Codec.decode_of_encode h
  constructor
  · exact apply_ask hc rfl (by rw [Codec.answer, hd])
  · exact apply_ask hc rfl (by simp only [Codec.answer, hd, h])

/-- With a lawful cell, the first codec that a thread of the process offers is installed and
announced. All later offers fail, and the codec decodes ever after what it has encoded. -/
theorem codec?_eq_first_offer (hlaw : b.platform.once.Lawful) {p : Process}
    (hp : p.shared.codec? = none) (turns : List (Nat × Step)) :
    let xs : List Taken := p.operations b turns
    let text (c : Codec) : String :=
      "compressed oops: base 0x" ++ String.ofList (Nat.toDigits 16 c.base.toNat) ++
        ", shift " ++ toString c.shift.toNat ++
        ", reserved 0x" ++ String.ofList (Nat.toDigits 16 c.start.toNat) ++
        "..0x" ++ String.ofList (Nat.toDigits 16 c.stop.toNat)
    allShown (p.run b turns).1 =
      xs.map (fun x : Taken => ((x.effect b).outcome, (x.effect b).log)) ∧
    (p.run b turns).2.shared.codec? = xs.findSome? Taken.offered? ∧
    ((allRecords (p.run b turns).1).filter (·.codec?.isSome)).map
        (fun r => (r.event.level, r.event.message)) =
      (xs.findSome? Taken.offered?).toList.map (fun c => (.debug, text c)) ∧
    (∀ (before : List Taken) (x : Taken) (after : List Taken), xs = before ++ x :: after →
      let first? : Option Codec := before.findSome? Taken.offered?
      x.state.shared.codec? = first? ∧
      (x.op = .codec .installed →
        x.effect b = x.state.done (first?.elim .nothing .codec)) ∧
      ∀ c, x.offered? = some c →
        (first? = none →
          let t := { x.state with shared := { x.state.shared with codec? := some c } }
          x.effect b = ⟨.done (.codec c), t, [t.record (.codecInstalled c)]⟩) ∧
        (first?.isSome = true → x.effect b = x.state.failed .codecInUse)) ∧
    ∀ (before between after : List Taken) (x y : Taken),
      xs = before ++ x :: (between ++ y :: after) →
      ∀ (a : UInt64) (n : NarrowRef), x.Encodes b a n →
        (y.op = .codec (.ask (.decode n)) → y.effect b = y.state.done (.query (.address a))) ∧
        (y.op = .codec (.ask (.decodeEncode n)) →
          y.effect b = y.state.done (.query (.decodedEncoded a n))) := by
  intro xs text
  have hhistory : History b p.shared xs _ := (p.traces_run b turns).history
  refine ⟨(p.traces_run b turns).shown_eq, ?_, ?_, fun before x after hxs => ?_,
    fun before between after x y hxs a n he => ?_⟩
  · rw [hhistory.codec?_eq hlaw, hp, Option.none_or]
  · -- Threads install nothing as they end.
    rw [map_filter_codec?, p.filterMap_records State.filterMap_codec?_finish,
      hhistory.installations_eq hlaw, hp]
    simp only [Event.message_codecInstalled]
    rfl
  · intro first?
    rw [hxs] at hhistory
    have hfound : x.state.shared.codec? = first? := by
      rw [hhistory.codec?_found hlaw, hp, Option.none_or]
    refine ⟨hfound, fun hop => ?_, fun c ho => hfound ▸ Op.apply_of_offered? hlaw ho⟩
    rw [Taken.effect, hop, Op.apply, CodecOp.apply, hfound]
    cases first? <;> rfl
  · rw [hxs] at hhistory
    obtain ⟨c, hc, hencode⟩ := he.exists_encode
    have hlater := hhistory.codec?_found_later hlaw hc
    obtain ⟨hdecode, hagain⟩ := apply_ask_of_encode (b := b) hlater hencode
    refine ⟨fun hop => ?_, fun hop => ?_⟩
    · rw [Taken.effect, hop, Op.apply, hdecode]
    · rw [Taken.effect, hop, Op.apply, hagain]

/-- A spawned thread installs its codec, the other thread comes too late with its own. -/
theorem codec?_eq_first_offer_of_spawned :
    let b : Build := .standard .checked true
    let p : Process := .fresh .initial
    let codec (op : CodecOp) : Step := .op (.codec op)
    let turns : List (Nat × Step) := [
      (0, codec (.create "c" (.word 0x1000) 3 (.word 0x2000) (.word 0x100000))),
      (1, .spawn [codec (.create "d" (.word 0) 0 (.word 0x10) (.word 0x20)),
        codec (.install "d")]),
      (0, codec (.install "c")),
      (1, codec (.ask (.encode (.word 0x18)))),
      (0, .spawn [codec (.ask (.decode ⟨0x18⟩))])]
    let xs := p.operations b turns
    (p.run b turns).2.shared.codec?.map Codec.base = some 0 ∧
      ((allRecords (p.run b turns).1).filter (·.codec?.isSome)).map
          (fun r => (r.event.level, r.event.message)) =
        [(.debug, "compressed oops: base 0x0, shift 0, reserved 0x10..0x20")] ∧
      (∀ x : Taken, xs[3]? = some x → x.effect b = x.state.failed .codecInUse) ∧
      ∀ y : Taken, xs[5]? = some y → y.effect b = y.state.done (.query (.address 0x18)) := by
  intro b p codec turns xs
  obtain ⟨-, hlast, hlog, hoffer, hdecode⟩ :=
    codec?_eq_first_offer (b := b) OnceCell.lawful_standard (p := p) rfl turns
  refine ⟨?_, ?_, fun x hx => ?_, fun y hy => ?_⟩
  · rw [hlast]
    decide +kernel
  · rw [hlog]
    decide +kernel
  · obtain rfl := Option.some.inj hx
    obtain ⟨-, -, h⟩ := hoffer (xs.take 3) _ (xs.drop 4) rfl
    exact (h _ rfl).2 (by decide +kernel)
  · obtain rfl := Option.some.inj hy
    exact (hdecode (xs.take 4) [] [] _ _ rfl 0x18 ⟨0x18⟩
      ⟨_, _, _, rfl, rfl, rfl, .encode ..⟩).1 rfl

end Session

end HeapRefs
