/-! # Bindings

Finite maps from names to values. A name is bound at most once, and the binding made last comes
first.
-/

namespace HeapRefs

universe u v

structure Bindings (α : Type u) where
  toList : List (String × α)
  distinct : (toList.map Prod.fst).Nodup
  deriving DecidableEq, Repr

namespace Bindings

variable {α : Type u} {β : Type v}

def empty : Bindings α := ⟨[], by simp⟩

instance : EmptyCollection (Bindings α) := ⟨empty⟩

instance : Inhabited (Bindings α) := ⟨empty⟩

def get? (b : Bindings α) (name : String) : Option α := b.toList.lookup name

def erase (b : Bindings α) (name : String) : Bindings α where
  toList := b.toList.filter (·.1 != name)
  distinct := b.distinct.sublist (List.filter_sublist.map _)

def set (b : Bindings α) (name : String) (value : α) : Bindings α where
  toList := (name, value) :: (b.erase name).toList
  distinct := by
    refine List.nodup_cons.mpr ⟨?_, (b.erase name).distinct⟩
    simp [erase]

def values (b : Bindings α) : List α := b.toList.map Prod.snd

def map (f : α → β) (b : Bindings α) : Bindings β where
  toList := b.toList.map fun p => (p.1, f p.2)
  distinct := by
    rw [List.map_map]
    exact b.distinct

@[ext] theorem ext {b c : Bindings α} (h : b.toList = c.toList) : b = c := by
  cases b; cases c; cases h; rfl

private theorem lookup_filter_ne (l : List (String × α)) (name other : String) :
    (l.filter (·.1 != name)).lookup other = if other = name then none else l.lookup other := by
  induction l with
  | nil => simp
  | cons p l ih =>
    obtain ⟨key, value⟩ := p
    have hc : ∀ l : List (String × α), List.lookup other ((key, value) :: l) =
        if other = key then some value else l.lookup other := by
      intro l
      by_cases ho : other = key
      · subst ho; simp
      · simp [List.lookup_cons, beq_false_of_ne ho, ho]
    by_cases hk : key = name
    · subst hk
      rw [List.filter_cons_of_neg (by simp), ih, hc]
      by_cases ho : other = key <;> simp [ho]
    · rw [List.filter_cons_of_pos (by simpa using hk), hc, hc, ih]
      by_cases ho : other = key
      · subst ho; simp [hk]
      · simp [ho]

@[simp] theorem get?_empty (name : String) : (∅ : Bindings α).get? name = none := rfl

theorem get?_erase (b : Bindings α) (name other : String) :
    (b.erase name).get? other = if other = name then none else b.get? other :=
  lookup_filter_ne b.toList name other

theorem get?_set (b : Bindings α) (name other : String) (value : α) :
    (b.set name value).get? other = if other = name then some value else b.get? other := by
  by_cases h : other = name
  · subst h; simp [get?, set]
  · have := get?_erase b name other
    simp only [get?, set, List.lookup_cons, beq_false_of_ne h] at *
    simpa [h] using this

@[simp] theorem get?_map (f : α → β) (b : Bindings α) (name : String) :
    (b.map f).get? name = (b.get? name).map f := by
  simp only [get?, map]
  induction b.toList with
  | nil => rfl
  | cons p l ih =>
    rw [List.map_cons, List.lookup_cons, List.lookup_cons, ih]
    split <;> rfl

theorem map_erase (f : α → β) (b : Bindings α) (name : String) :
    (b.erase name).map f = (b.map f).erase name := by
  ext1
  simp only [map, erase, List.filter_map]
  rfl

theorem map_set (f : α → β) (b : Bindings α) (name : String) (value : α) :
    (b.set name value).map f = (b.map f).set name (f value) := by
  ext1
  exact congrArg (List.cons (name, f value)) (congrArg toList (map_erase f b name))

end Bindings

end HeapRefs
