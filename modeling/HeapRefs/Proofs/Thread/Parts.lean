import HeapRefs.Thread.Basic

/-! # The parts of a thread's context

Making, ending and allowing references changes nothing of a context but its registry.
-/

namespace HeapRefs

namespace Registry

def eraseOf (r : Registry) (x : Reference) : Registry :=
  match x.slot? with
  | none => r
  | some slot => r.erase slot

def eraseHeld (r : Registry) (x? : Option Reference) : Registry :=
  match x? with
  | none => r
  | some x => r.eraseOf x

def allowOf (r : Registry) (x : Reference) : Registry :=
  match x.slot? with
  | none => r
  | some slot => r.allow slot

variable {r : Registry} {e : Entry}

theorem mem_eraseOf {x : Reference} :
    e ∈ (r.eraseOf x).stored ↔ e ∈ r.stored ∧ x.slot? ≠ some e.slot := by
  unfold eraseOf
  cases x.slot? with
  | none => simp
  | some slot => simp [mem_erase, eq_comm]

theorem mem_eraseHeld {x? : Option Reference} :
    e ∈ (r.eraseHeld x?).stored ↔
      e ∈ r.stored ∧ ∀ x, x? = some x → x.slot? ≠ some e.slot := by
  unfold eraseHeld
  cases x? with
  | none => simp
  | some x => simp [mem_eraseOf]

theorem mem_allowOf {x : Reference} :
    e ∈ (r.allowOf x).stored ↔
      ∃ y ∈ r.stored, (if x.slot? = some y.slot then y.allow else y) = e := by
  unfold allowOf
  cases x.slot? with
  | none => simp
  | some slot => simp only [mem_allow, Option.some.injEq, eq_comm (a := slot)]

theorem eraseHeld_insert {x? : Option Reference} (h : ∀ x, x? = some x → x.slot? ≠ some e.slot) :
    (r.insert e).eraseHeld x? = (r.eraseHeld x?).insert e := by
  unfold eraseHeld eraseOf
  cases x? with
  | none => rfl
  | some x =>
    cases hx : x.slot? with
    | none => simp only [hx]
    | some slot =>
      have hs : (e.slot != slot) = true :=
        bne_iff_ne.mpr fun he => h x rfl (hx.trans (congrArg some he.symm))
      simp only [hx, insert, erase, List.filter_cons, hs, if_true, List.filter_filter,
        Bool.and_comm]

end Registry

namespace Thread

def name? (t : Thread) : Option String := t.context?.map Context.name

def registrations? (t : Thread) : Option Registry := t.context?.map Context.registry

def anchors? (t : Thread) : Option AnchorTable := t.context?.map Context.anchors

def mapRegistry (t : Thread) (f : Registry → Registry) : Thread :=
  t.mapContext fun c => { c with registry := f c.registry }

variable (t : Thread) (f : Registry → Registry)

@[simp] theorem context?_mapRegistry : (t.mapRegistry f).context? =
    t.context?.map fun c => { c with registry := f c.registry } :=
  t.context?_mapContext _

@[simp] theorem name?_mapRegistry : (t.mapRegistry f).name? = t.name? := by
  simp only [name?, context?_mapRegistry, Option.map_map]
  rfl

@[simp] theorem registrations?_mapRegistry :
    (t.mapRegistry f).registrations? = t.registrations?.map f := by
  simp only [registrations?, context?_mapRegistry, Option.map_map]
  rfl

@[simp] theorem anchors?_mapRegistry : (t.mapRegistry f).anchors? = t.anchors? := by
  simp only [anchors?, context?_mapRegistry, Option.map_map]
  rfl

@[simp] theorem nextSlot_mapRegistry : (t.mapRegistry f).nextSlot = t.nextSlot :=
  t.nextSlot_mapContext _

@[simp] theorem nextStamp_mapRegistry : (t.mapRegistry f).nextStamp = t.nextStamp :=
  t.nextStamp_mapContext _

theorem mapRegistry_id : t.mapRegistry (fun r => r) = t := by
  unfold mapRegistry mapContext
  split
  · rfl
  · next hc => exact setContext_self hc

theorem destroy_eq (x : Reference) : t.destroy x = t.mapRegistry (·.eraseOf x) := by
  unfold destroy Registry.eraseOf
  cases x.slot? with
  | none => exact t.mapRegistry_id.symm
  | some slot => rfl

theorem allow_eq (x : Reference) : t.allow x = t.mapRegistry (·.allowOf x) := by
  unfold allow Registry.allowOf
  cases x.slot? with
  | none => exact t.mapRegistry_id.symm
  | some slot => rfl

/-- A new reference is registered if it is checked and not null, checking is on and the thread is
attached. -/
def Registers (t : Thread) (checking : Bool) (representation : Representation)
    (address : UInt64) : Prop :=
  representation = .checked ∧ address ≠ 0 ∧ checking = true ∧ t.context?.isSome = true

/-- The thread with a new entry in the next slot. -/
def enter (t : Thread) (address : UInt64) (origin : Origin) : Thread :=
  t.advanceSlot.mapRegistry (·.insert ⟨t.nextSlot, address, origin, false⟩)

section

variable (address : UInt64) (origin : Origin)

@[simp] theorem context?_enter : (t.enter address origin).context? = t.context?.map fun c =>
    { c with registry := c.registry.insert ⟨t.nextSlot, address, origin, false⟩ } :=
  t.advanceSlot.context?_mapRegistry _

@[simp] theorem name?_enter : (t.enter address origin).name? = t.name? :=
  t.advanceSlot.name?_mapRegistry _

@[simp] theorem registrations?_enter : (t.enter address origin).registrations? =
    t.registrations?.map (·.insert ⟨t.nextSlot, address, origin, false⟩) :=
  t.advanceSlot.registrations?_mapRegistry _

@[simp] theorem anchors?_enter : (t.enter address origin).anchors? = t.anchors? :=
  t.advanceSlot.anchors?_mapRegistry _

@[simp] theorem nextSlot_enter : (t.enter address origin).nextSlot = t.nextSlot + 1 := by
  simp [enter]

@[simp] theorem nextStamp_enter : (t.enter address origin).nextStamp = t.nextStamp :=
  t.advanceSlot.nextStamp_mapRegistry _

end

variable {t} {checking : Bool} {representation : Representation} {address : UInt64}

theorem create_of_registers (h : t.Registers checking representation address) (origin : Origin) :
    t.create checking representation address origin =
      (.checked address (some t.nextSlot), t.enter address origin) := by
  obtain ⟨rfl, ha, rfl, hc⟩ := h
  obtain ⟨c, hc⟩ := Option.isSome_iff_exists.mp hc
  simp [create, register, ha, hc, enter, mapRegistry, mapContext, Context.insert]

theorem create_of_not_registers (h : ¬ t.Registers checking representation address)
    (origin : Origin) :
    (t.create checking representation address origin).1.slot? = none ∧
      (t.create checking representation address origin).2 = t := by
  unfold Registers at h
  cases representation with
  | direct => exact ⟨rfl, rfl⟩
  | checked =>
    by_cases ha : address = 0
    · simp [create, ha, Reference.slot?]
    · cases checking <;> cases hc : t.context? <;> simp_all [create, register, Reference.slot?]

end Thread

end HeapRefs
