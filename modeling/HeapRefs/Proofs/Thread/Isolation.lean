import HeapRefs.Thread.Basic

/-! # Threads apart

Whatever a thread does to its thread-local variables, it leaves those of all other threads as they
are.
-/

namespace HeapRefs

structure Row where
  cell : ContextCell
  nextSlot : Nat
  nextStamp : Nat

def Storage.row (s : Storage) (i : ThreadId) : Row :=
  ⟨s.current.get i, s.nextSlot.get i, s.nextStamp.get i⟩

theorem Storage.start_empty (i : ThreadId) : Storage.empty.start i = .empty := by
  have h {α : Type} (a : α) : (ThreadLocal.const a).set i a = .const a :=
    (ThreadLocal.const a).set_get i
  simp only [start, empty, h]

namespace Thread

def row (t : Thread) : Row := t.storage.row t.id

/-- The thread becomes another state of itself, and no other thread changes. -/
structure Spares (t t' : Thread) : Prop where
  id : t'.id = t.id
  others : ∀ k, k ≠ t.id → t'.storage.row k = t.storage.row k

variable {t t' t'' : Thread} {c : Context}

theorem Spares.refl (t : Thread) : t.Spares t := ⟨rfl, fun _ _ => rfl⟩

theorem Spares.trans (h : t.Spares t') (h' : t'.Spares t'') : t.Spares t'' where
  id := h'.id.trans h.id
  others k hk := (h'.others k (h.id ▸ hk)).trans (h.others k hk)

theorem spares_setCell (t : Thread) (cell : ContextCell) : t.Spares (t.setCell cell) where
  id := rfl
  others k hk := by
    rw [Storage.row, Storage.row, setCell, t.storage.current.get_set_of_ne hk]

theorem spares_setContext (t : Thread) (c : Context) : t.Spares (t.setContext c) :=
  t.spares_setCell _

theorem spares_advanceSlot (t : Thread) : t.Spares t.advanceSlot where
  id := rfl
  others k hk := by
    rw [Storage.row, Storage.row, advanceSlot, t.storage.nextSlot.get_set_of_ne hk]

theorem spares_advanceStamp (t : Thread) : t.Spares t.advanceStamp where
  id := rfl
  others k hk := by
    rw [Storage.row, Storage.row, advanceStamp, t.storage.nextStamp.get_set_of_ne hk]

theorem spares_mapContext (t : Thread) (f : Context → Context) : t.Spares (t.mapContext f) := by
  unfold mapContext
  split
  · exact .refl t
  · exact t.spares_setContext _

theorem spares_register (t : Thread) (checking : Bool) (address : UInt64) (origin : Origin) :
    t.Spares (t.register checking address origin).2 := by
  unfold register
  split
  · exact t.spares_advanceSlot.trans (t.advanceSlot.spares_setContext _)
  · exact .refl t

theorem spares_create (t : Thread) (checking : Bool) (representation : Representation)
    (address : UInt64) (origin : Origin) :
    t.Spares (t.create checking representation address origin).2 := by
  unfold create
  cases representation with
  | direct => exact .refl t
  | checked =>
    dsimp only
    split
    · exact .refl t
    · exact t.spares_register checking address origin

theorem spares_destroy (t : Thread) (r : Reference) : t.Spares (t.destroy r) := by
  unfold destroy
  cases r.slot? with
  | none => exact .refl t
  | some slot => exact t.spares_mapContext _

theorem spares_allow (t : Thread) (r : Reference) : t.Spares (t.allow r) := by
  unfold allow
  cases r.slot? with
  | none => exact .refl t
  | some slot => exact t.spares_mapContext _

theorem spares_attach {name : String} (h : t.attach name = .ok t') : t.Spares t' := by
  unfold attach at h
  split at h <;> cases h
  exact t.spares_setContext _

theorem spares_detach (t : Thread) (c : Context) : t.Spares (t.detach c).2 := t.spares_setCell _

theorem spares_anchor (t : Thread) (c : Context) (address : UInt64) :
    t.Spares (t.anchor c address).2 :=
  t.spares_advanceStamp.trans (t.advanceStamp.spares_setContext _)

theorem spares_poll (t : Thread) (c : Context) : t.Spares (t.poll c).2.2 := by
  rw [t.poll_eq]
  exact t.spares_setContext _

/-! A thread that starts or ends leaves the others alone too. -/

theorem row_start (t : Thread) : t.start.row = ⟨.vacant, 0, 0⟩ := by
  simp [row, Storage.row, start, Storage.start]

theorem spares_start (t : Thread) : t.Spares t.start where
  id := rfl
  others k hk := by
    simp only [Storage.row, start, Storage.start, ThreadLocal.get_set_of_ne _ hk]

/-- The thread has done nothing, whatever others have done. -/
structure Rests (t t' : Thread) : Prop where
  id : t'.id = t.id
  row : t'.row = t.row

namespace Rests

theorem cell_eq (h : t.Rests t') : t'.cell = t.cell := congrArg Row.cell h.row

theorem context?_eq (h : t.Rests t') : t'.context? = t.context? :=
  congrArg ContextCell.content? h.cell_eq

theorem nextSlot_eq (h : t.Rests t') : t'.nextSlot = t.nextSlot := congrArg Row.nextSlot h.row

theorem nextStamp_eq (h : t.Rests t') : t'.nextStamp = t.nextStamp := congrArg Row.nextStamp h.row

theorem refl (t : Thread) : t.Rests t := ⟨rfl, rfl⟩

theorem trans (h : t.Rests t') (h' : t'.Rests t'') : t.Rests t'' :=
  ⟨h'.id.trans h.id, h'.row.trans h.row⟩

end Rests

end Thread

end HeapRefs
