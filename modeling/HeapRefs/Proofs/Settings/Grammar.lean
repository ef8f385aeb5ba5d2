import Mathlib.Data.List.DropRight
import Mathlib.Data.List.Forall2
import HeapRefs.Session.Run

/-! # The grammar of the setting

A text stands for a truth value if it is a word for it in any mixture of capital and small letters,
with blanks on both sides. Every other text is refused as it is, and so are bytes that are no text.
-/

namespace HeapRefs

namespace Text

variable {before word after : List Char} {c d : Char}

theorem exists_trim (cs : List Char) :
    ∃ before after, cs = before ++ trim cs ++ after ∧
      ∀ c ∈ before ++ after, isBlank c = true := by
  have htrim : trim cs = (cs.dropWhile isBlank).rdropWhile isBlank := rfl
  refine ⟨cs.takeWhile isBlank, (cs.dropWhile isBlank).rtakeWhile isBlank, ?_, ?_⟩
  · rw [htrim, List.append_assoc, List.rdropWhile_append_rtakeWhile,
      List.takeWhile_append_dropWhile]
  · rintro c hc
    rcases List.mem_append.mp hc with hc | hc
    · exact List.mem_takeWhile_imp hc
    · exact List.mem_rtakeWhile_imp hc

theorem dropWhile_isBlank_append (hb : ∀ c ∈ before, isBlank c = true)
    (hw : ∀ c ∈ word, isBlank c = false) (hne : word ≠ []) (rest : List Char) :
    (before ++ (word ++ rest)).dropWhile isBlank = word ++ rest := by
  rw [List.dropWhile_append_of_pos hb]
  cases word with
  | nil => exact absurd rfl hne
  | cons c word => rw [List.cons_append, List.dropWhile_cons_of_neg (by simp [hw c])]

/-- Trimming finds the part without blanks that has blanks on both sides only. -/
theorem trim_append (hb : ∀ c ∈ before ++ after, isBlank c = true)
    (hw : ∀ c ∈ word, isBlank c = false) (hne : word ≠ []) :
    trim (before ++ word ++ after) = word := by
  obtain ⟨hbefore, hafter⟩ := List.forall_mem_append.mp hb
  have hback : (after.reverse ++ (word.reverse ++ [])).dropWhile isBlank = word.reverse ++ [] :=
    dropWhile_isBlank_append (fun c hc => hafter c (List.mem_reverse.mp hc))
      (fun c hc => hw c (List.mem_reverse.mp hc)) (by simpa using hne) []
  rw [List.append_nil] at hback
  rw [trim, List.append_assoc, dropWhile_isBlank_append hbefore hw hne, List.reverse_append, hback,
    List.reverse_reverse]

def IsCapital (c : Char) : Prop := 'A' ≤ c ∧ c ≤ 'Z'

/-- The characters are the same, or the first is the capital of the second. -/
def SameLetter (c d : Char) : Prop := c = d ∨ IsCapital c ∧ d.toNat = c.toNat + 32

theorem isCapital_iff : IsCapital c ↔ 65 ≤ c.toNat ∧ c.toNat ≤ 90 := by
  simp only [IsCapital, Char.le_def, UInt32.le_iff_toNat_le]
  exact Iff.rfl

theorem toNat_toLower (h : IsCapital c) : c.toLower.toNat = c.toNat + 32 := by
  have hv : c.val ≥ 'A'.val ∧ c.val ≤ 'Z'.val := h
  obtain ⟨-, hle⟩ := isCapital_iff.mp h
  have hlower : c.toLower.val = c.val + 32 := congrArg Char.val (dif_pos hv)
  change c.toLower.val.toNat = c.val.toNat + 32
  change c.val.toNat ≤ 90 at hle
  rw [hlower, UInt32.toNat_add]
  exact Nat.mod_eq_of_lt (show c.val.toNat + 32 < 2 ^ 32 by omega)

theorem toLower_of_not_isCapital (h : ¬ IsCapital c) : c.toLower = c := dif_neg h

theorem toLower_of_isBlank (h : isBlank c = true) : c.toLower = c := by
  refine toLower_of_not_isCapital fun hc => ?_
  rw [isCapital_iff] at hc
  simp only [isBlank, Bool.or_eq_true, Bool.and_eq_true, decide_eq_true_eq, beq_iff_eq] at h
  omega

theorem toLower_eq_iff (hd : ¬ IsCapital d) : c.toLower = d ↔ SameLetter c d := by
  unfold SameLetter
  by_cases hc : IsCapital c
  · have hne : c ≠ d := by
      rintro rfl
      exact hd hc
    rw [← Char.toNat_inj, toNat_toLower hc, eq_comm]
    simp [hne, hc]
  · rw [toLower_of_not_isCapital hc]
    simp [hc]

theorem map_toLower_eq_iff {written word : List Char} (hw : ∀ d ∈ word, ¬ IsCapital d) :
    written.map Char.toLower = word ↔ List.Forall₂ SameLetter written word := by
  induction word generalizing written with
  | nil => simp
  | cons d word ih =>
    obtain ⟨hd, hw⟩ := List.forall_mem_cons.mp hw
    cases written with
    | nil => simp
    | cons c written => simp [toLower_eq_iff hd, ih hw]

end Text

namespace Settings

open Text

def words : Bool → List String
  | true => ["1", "true"]
  | false => ["0", "false"]

/-- The text is a word for the truth value, its letters capital or small, with blanks around it. -/
def Spells (b : Bool) (text : List Char) : Prop :=
  ∃ before written after, text = before ++ written ++ after ∧
    (∀ c ∈ before ++ after, isBlank c = true) ∧
    ∃ word ∈ words b, List.Forall₂ SameLetter written word.toList

variable {b : Bool} {text : String}

theorem words_plain : ∀ word ∈ words b, word.toList ≠ [] ∧
    ∀ c ∈ word.toList, isBlank c = false ∧ ¬ IsCapital c := by
  have hplain : ((words b).all fun word => !word.toList.isEmpty && word.toList.all fun c =>
      !isBlank c && !decide (65 ≤ c.toNat ∧ c.toNat ≤ 90)) = true := by
    cases b <;> decide
  intro word hword
  have h := List.all_eq_true.mp hplain word hword
  rw [Bool.and_eq_true, List.all_eq_true] at h
  refine ⟨by simpa using h.1, fun c hc => ?_⟩
  simpa only [isCapital_iff, Bool.and_eq_true, Bool.not_eq_true', decide_eq_false_iff_not] using
    h.2 c hc

theorem truth?_eq_some_iff_mem :
    truth? text = some b ↔ String.ofList ((trim text.toList).map Char.toLower) ∈ words b := by
  unfold truth?
  generalize String.ofList ((trim text.toList).map Char.toLower) = lowered
  dsimp only
  split
  · next h => rcases h with rfl | rfl <;> cases b <;> simp [words]
  · split
    · next h => rcases h with rfl | rfl <;> cases b <;> simp [words]
    · cases b <;> simp_all [words]

theorem truth?_eq_some_iff : truth? text = some b ↔ Spells b text.toList := by
  rw [truth?_eq_some_iff_mem]
  constructor
  · intro h
    obtain ⟨before, after, htext, hblank⟩ := exists_trim text.toList
    refine ⟨before, trim text.toList, after, htext, hblank, _, h, ?_⟩
    exact (map_toLower_eq_iff fun d hd => ((words_plain _ h).2 d hd).2).mp
      String.toList_ofList.symm
  · rintro ⟨before, written, after, htext, hblank, word, hword, hletters⟩
    obtain ⟨hne, hplain⟩ := words_plain word hword
    have hlower : written.map Char.toLower = word.toList :=
      (map_toLower_eq_iff fun d hd => (hplain d hd).2).mpr hletters
    have hwritten : ∀ c ∈ written, isBlank c = false := by
      intro c hc
      have hd := (hplain c.toLower (hlower ▸ List.mem_map_of_mem hc)).1
      cases hb : isBlank c with
      | false => rfl
      | true =>
        rw [toLower_of_isBlank hb, hb] at hd
        cases hd
    have hnil : written ≠ [] := by
      rintro rfl
      exact hne hlower.symm
    rw [htext, trim_append hblank hwritten hnil, hlower, String.ofList_toList]
    exact hword

instance : Decidable (Spells b text.toList) := decidable_of_iff _ truth?_eq_some_iff

theorem truth?_eq_none_iff : truth? text = none ↔ ∀ b, ¬ Spells b text.toList := by
  simp only [← truth?_eq_some_iff]
  cases truth? text <;> simp

/-! ### Looking the variable up -/

section

variable {lookup : String → Lookup} {s : Settings}

theorem ofLookup_eq_ok_iff :
    ofLookup lookup = .ok s ↔ lookup variableName = .unset ∧ s = default ∨
      ∃ text, lookup variableName = .text text ∧ Spells s.checkUnhandled text.toList := by
  unfold ofLookup
  cases lookup variableName with
  | unset => simp [eq_comm]
  | notUnicode => simp
  | text value =>
    obtain ⟨checking⟩ := s
    dsimp only
    cases ht : truth? value with
    | none => simp [truth?_eq_none_iff.mp ht]
    | some b => simp [← truth?_eq_some_iff, ht]

theorem ofLookup_eq_notUnicode_iff :
    ofLookup lookup = .error .notUnicode ↔ lookup variableName = .notUnicode := by
  unfold ofLookup
  cases lookup variableName with
  | unset | notUnicode => simp
  | text value =>
    dsimp only
    cases truth? value <;> simp

theorem ofLookup_eq_invalidValue_iff :
    ofLookup lookup = .error (.invalidValue text) ↔
      lookup variableName = .text text ∧ ∀ b, ¬ Spells b text.toList := by
  rw [← truth?_eq_none_iff]
  unfold ofLookup
  cases lookup variableName with
  | unset | notUnicode => simp
  | text value =>
    dsimp only
    cases ht : truth? value with
    | none =>
      simp only [Except.error.injEq, SettingsError.invalidValue.injEq, Lookup.text.injEq]
      exact ⟨fun h => ⟨h, h ▸ ht⟩, And.left⟩
    | some b =>
      simp only [reduceCtorEq, Lookup.text.injEq, false_iff, not_and]
      rintro rfl
      simp [ht]

end

end Settings

theorem fromUTF8?_eq_some_iff {bytes : ByteArray} {text : String} :
    String.fromUTF8? bytes = some text ↔ bytes = text.toUTF8 := by
  unfold String.fromUTF8?
  constructor
  · intro h
    split at h
    · obtain rfl := Option.some.inj h
      rfl
    · cases h
  · rintro rfl
    exact dif_pos text.isValidUTF8

namespace Lookup

variable {value? : Option ByteArray} {text : String}

theorem ofBytes_eq_unset_iff : ofBytes value? = unset ↔ value? = none := by
  cases value? with
  | none => simp [ofBytes]
  | some bytes =>
    rw [ofBytes]
    cases String.fromUTF8? bytes <;> simp

theorem ofBytes_eq_text_iff : ofBytes value? = .text text ↔ value? = some text.toUTF8 := by
  cases value? with
  | none => simp [ofBytes]
  | some bytes =>
    rw [ofBytes, Option.some.injEq, ← fromUTF8?_eq_some_iff]
    cases String.fromUTF8? bytes <;> simp

theorem ofBytes_eq_notUnicode_iff :
    ofBytes value? = notUnicode ↔ ∃ bytes, value? = some bytes ∧ ¬ bytes.IsValidUTF8 := by
  cases value? with
  | none => simp [ofBytes]
  | some bytes =>
    simp only [ofBytes, String.fromUTF8?, Option.some.injEq, exists_eq_left']
    by_cases h : bytes.IsValidUTF8 <;> simp [h]

end Lookup

namespace Settings

open Session

variable {state : State} {value? : Option ByteArray}

theorem apply_installVariable_of_error {error : SettingsError}
    (h : ofEnvironment (fun _ => value?) = .error error) :
    (ThreadOp.installVariable value?).apply state = state.failed (.settings error) := by
  rw [ThreadOp.apply, h]

theorem apply_installVariable_of_ok {settings : Settings}
    (h : ofEnvironment (fun _ => value?) = .ok settings) :
    (ThreadOp.installVariable value?).apply state = state.install settings := by
  rw [ThreadOp.apply, h]

/-- Bytes are read as the truth value that they spell, and as false if there are none; else the
reading fails with the text as it stands. Only what has been read is published. -/
theorem reading_follows_grammar (environment : String → Option ByteArray) :
    let value? := environment "STRATA_CHECK_UNHANDLED_OOPS"
    let reading := ofEnvironment environment
    (reading = .ok ⟨true⟩ ↔
      ∃ text : String, value? = some text.toUTF8 ∧ Spells true text.toList) ∧
    (reading = .ok ⟨false⟩ ↔ value? = none ∨
      ∃ text : String, value? = some text.toUTF8 ∧ Spells false text.toList) ∧
    (reading = .error .notUnicode ↔ ∃ bytes, value? = some bytes ∧ ¬ bytes.IsValidUTF8) ∧
    (∀ text, reading = .error (.invalidValue text) ↔
      value? = some text.toUTF8 ∧ ¬ Spells true text.toList ∧ ¬ Spells false text.toList) ∧
    (∀ text, (SettingsError.invalidValue text).message =
      "invalid value '" ++ text ++ "' for " ++ "STRATA_CHECK_UNHANDLED_OOPS" ++
        ", expected one of: 1, 0, true, false") ∧
    (∀ lookup, lookup "STRATA_CHECK_UNHANDLED_OOPS" = .ofBytes value? →
      ofLookup lookup = reading) ∧
    ∀ s : State,
      let e := (ThreadOp.installVariable value?).apply s
      (∀ error, reading = .error error →
        e.outcome = .failed (.settings error) ∧ e.state = s ∧ e.log = []) ∧
      ∀ b, reading = .ok ⟨b⟩ →
        e.outcome = .done (.truth b) ∧
        e.state = { s with shared := { s.shared with checking := b } } ∧
        e.log.map Record.event = [.installed ⟨b⟩] := by
  intro value? reading
  have hok (b : Bool) : reading = .ok ⟨b⟩ ↔ value? = none ∧ b = false ∨
      ∃ text : String, value? = some text.toUTF8 ∧ Spells b text.toList := by
    rw [← Lookup.ofBytes_eq_unset_iff]
    simp only [← Lookup.ofBytes_eq_text_iff]
    refine ofLookup_eq_ok_iff.trans (or_congr (and_congr Iff.rfl ?_) Iff.rfl)
    rw [default, mk.injEq]
  refine ⟨by simpa using hok true, by simpa using hok false, ?_, fun text => ?_, fun _ => rfl,
    fun lookup hlookup => ?_, ?_⟩
  · exact ofLookup_eq_notUnicode_iff.trans Lookup.ofBytes_eq_notUnicode_iff
  · refine ofLookup_eq_invalidValue_iff.trans (and_congr Lookup.ofBytes_eq_text_iff ?_)
    rw [Bool.forall_bool, and_comm]
  · exact congrArg (fun found => ofLookup fun _ => found) hlookup
  · refine fun s => ⟨fun error herror => ?_, fun b hb => ?_⟩
    · have he : (ThreadOp.installVariable value?).apply s = s.failed (.settings error) :=
        apply_installVariable_of_error herror
      rw [he]
      exact ⟨rfl, rfl, rfl⟩
    · have he : (ThreadOp.installVariable value?).apply s = s.install ⟨b⟩ :=
        apply_installVariable_of_ok hb
      rw [he]
      exact ⟨rfl, rfl, rfl⟩

/-- A word in mixed letters between blanks of two and three bytes, a word that lacks a letter, and a
byte that no text has. -/
theorem reading_follows_grammar_of_wide_blanks :
    let environment (value : ByteArray) : String → Option ByteArray := fun _ => some value
    ofEnvironment (environment "\u00a0\u3000TrUe\n".toUTF8) = .ok ⟨true⟩ ∧
    ofEnvironment (environment " FALSE\x0c".toUTF8) = .ok ⟨false⟩ ∧
    ofEnvironment (environment " Tru ".toUTF8) = .error (.invalidValue " Tru ") ∧
    ofEnvironment (environment ⟨#[0x31, 0xff]⟩) = .error .notUnicode := by
  intro environment
  refine ⟨(reading_follows_grammar _).1.mpr ⟨_, rfl, ?_⟩,
    (reading_follows_grammar _).2.1.mpr (.inr ⟨_, rfl, ?_⟩),
    ((reading_follows_grammar _).2.2.2.1 _).mpr ⟨rfl, ?_, ?_⟩,
    (reading_follows_grammar _).2.2.1.mpr ⟨_, rfl, ?_⟩⟩
  · decide +kernel
  · decide +kernel
  · decide +kernel
  · decide +kernel
  · decide +kernel

end Settings

end HeapRefs
