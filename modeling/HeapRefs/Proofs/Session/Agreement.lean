import HeapRefs.Proofs.Session.Ledger

/-! # Ledgers that agree with their threads

A ledger agrees with the registry of its thread and with the variables that hold references, and
every transition keeps them in agreement.
-/

namespace HeapRefs.Session

/-- What holds of the makings of a thread: exactly the registrable ones were given slots, which grow
in the order of the makings, and only null has no origin. -/
structure WellMade (makings : List Making) (nextSlot attachments : Nat) : Prop where
  slot_iff : ∀ m ∈ makings, m.reference.slot?.isSome = true ↔ m.Registrable
  origin : ∀ m ∈ makings, m.Registrable → m.origin?.isSome = true
  increasing : makings.Pairwise fun m n =>
    ∀ i j, m.reference.slot? = some i → n.reference.slot? = some j → i < j
  issued : ∀ m ∈ makings, ∀ i, m.reference.slot? = some i → i < nextSlot
  attachment : ∀ m ∈ makings, ∀ n, m.attachment? = some n → n < attachments

/-- The ledger agrees with the registry of the thread, if it has one, and with its variables. -/
structure Ledger.Tracks (l : Ledger) (registrations? : Option Registry) (nextSlot : Nat)
    (held? : String → Option Reference) : Prop where
  made : WellMade l.makings nextSlot l.attachments
  attached : l.current?.isSome = registrations?.isSome
  current : ∀ n, l.current? = some n → n < l.attachments
  held : ∀ name, (l.located (.held name)).map (·.reference) = (held? name).toList
  entered : ∀ r, registrations? = some r → ∀ e, e ∈ r.stored ↔ ∃ x ∈ l.registered, Describes e x

namespace WellMade

variable {makings : List Making} {m : Making} {nextSlot nextSlot' attachments : Nat}

theorem append (h : WellMade makings nextSlot attachments)
    (hs : m.reference.slot?.isSome = true ↔ m.Registrable)
    (ho : m.Registrable → m.origin?.isSome = true) (hle : nextSlot ≤ nextSlot')
    (hi : ∀ i, m.reference.slot? = some i → nextSlot ≤ i ∧ i < nextSlot')
    (ha : ∀ n, m.attachment? = some n → n < attachments) :
    WellMade (makings ++ [m]) nextSlot' attachments where
  slot_iff := List.forall_mem_append.mpr ⟨h.slot_iff, List.forall_mem_singleton.mpr hs⟩
  origin := List.forall_mem_append.mpr ⟨h.origin, List.forall_mem_singleton.mpr ho⟩
  increasing := by
    refine List.pairwise_append.mpr ⟨h.increasing, List.pairwise_singleton _ _, ?_⟩
    intro n hn m' hm i j hni hmj
    obtain rfl := List.mem_singleton.mp hm
    exact Nat.lt_of_lt_of_le (h.issued n hn i hni) (hi j hmj).1
  issued := by
    refine List.forall_mem_append.mpr ⟨fun n hn i hni => ?_, ?_⟩
    · exact Nat.lt_of_lt_of_le (h.issued n hn i hni) hle
    · exact List.forall_mem_singleton.mpr fun i hm => (hi i hm).2
  attachment := List.forall_mem_append.mpr ⟨h.attachment, List.forall_mem_singleton.mpr ha⟩

end WellMade

namespace Ledger

variable {l : Ledger} {registrations? : Option Registry} {nextSlot : Nat}
  {held? : String → Option Reference} {x y : Instance} {f : Instance → Instance}

namespace Tracks

theorem eq_of_slot (h : l.Tracks registrations? nextSlot held?) (hx : x ∈ l.instances)
    (hy : y ∈ l.instances) {i : Slot} (hi : x.reference.slot? = some i)
    (hj : y.reference.slot? = some i) : x = y := by
  have hp := List.pairwise_map.mp h.made.increasing
  refine List.Pairwise.forall_of_forall_of_flip
    (R := fun x y => x.reference.slot? = some i → y.reference.slot? = some i → x = y)
    (fun _ _ _ _ => rfl) ?_ ?_ hx hy hi hj
  · exact hp.imp fun hlt hx hy => absurd (hlt i i hx hy) (Nat.lt_irrefl i)
  · exact hp.imp fun hlt hy hx => absurd (hlt i i hx hy) (Nat.lt_irrefl i)

theorem held?_eq (h : l.Tracks registrations? nextSlot held?) (hx : x ∈ l.instances) {name : String}
    (hp : x.place = .held name) : held? name = some x.reference := by
  have hm : x.reference ∈ (held? name).toList :=
    h.held name ▸ List.mem_map_of_mem (mem_located.mpr ⟨hx, hp⟩)
  exact Option.mem_toList.mp hm

theorem exists_held (h : l.Tracks registrations? nextSlot held?) {name : String} {r : Reference}
    (hr : held? name = some r) : ∃ x ∈ l.instances, x.place = .held name ∧ x.reference = r := by
  have hm : r ∈ (l.located (.held name)).map (·.reference) := by rw [h.held, hr]; simp
  obtain ⟨x, hx, rfl⟩ := List.mem_map.mp hm
  obtain ⟨hx, hp⟩ := mem_located.mp hx
  exact ⟨x, hx, hp, rfl⟩

/-- The instance that an entry describes is in a variable exactly if the variable holds a reference
with the slot of the entry. -/
theorem place_eq_held_iff (h : l.Tracks registrations? nextSlot held?) (hx : x ∈ l.instances)
    {e : Entry} (he : Describes e x) {name : String} :
    x.place = .held name ↔ ∃ r, held? name = some r ∧ r.slot? = some e.slot := by
  constructor
  · intro hp
    exact ⟨x.reference, h.held?_eq hx hp, he.1⟩
  · rintro ⟨r, hr, hs⟩
    obtain ⟨y, hy, hp, rfl⟩ := h.exists_held hr
    rwa [h.eq_of_slot hx hy he.1 hs]

/-- Changing instances but not how they were made keeps the ledger in agreement, if the variables
and the entries change with them. -/
theorem mapInstances (h : l.Tracks registrations? nextSlot held?)
    {registrations?' : Option Registry} {held?' : String → Option Reference}
    (hf : ∀ x, (f x).toMaking = x.toMaking)
    (hr : registrations?'.isSome = registrations?.isSome)
    (hheld : ∀ name,
      ((l.mapInstances f).located (.held name)).map (·.reference) = (held?' name).toList)
    (hentered : ∀ r, registrations?' = some r → ∀ e,
      e ∈ r.stored ↔ ∃ x ∈ (l.mapInstances f).registered, Describes e x) :
    (l.mapInstances f).Tracks registrations?' nextSlot held?' where
  made := (makings_mapInstances hf).symm ▸ h.made
  attached := h.attached.trans hr.symm
  current := h.current
  held := hheld
  entered := hentered

theorem held_vacate (h : l.Tracks registrations? nextSlot held?) (name : String) {place : Place}
    {other : String} (hp : place ≠ .held other) :
    ((l.vacate name place).located (.held other)).map (·.reference) =
      (if other = name then none else held? other).toList := by
  rw [vacate, map_reference_located_mapInstances (Instance.toMaking_vacate name place)]
  by_cases ho : other = name
  · subst ho
    rw [if_pos rfl, List.filter_eq_nil_iff.mpr]
    · rfl
    · intro x _
      rw [Instance.place_vacate]
      split <;> simp [*]
  · rw [if_neg ho, ← h.held other]
    refine congrArg _ (List.filter_congr fun x _ => decide_eq_decide.mpr ?_)
    rw [Instance.place_vacate]
    split
    · next hx => simp [hx, hp, Ne.symm ho]
    · exact Iff.rfl

theorem held_move (h : l.Tracks registrations? nextSlot held?) (source : String) {target : String}
    (ht : held? target = none) (other : String) :
    ((l.vacate source (.held target)).located (.held other)).map (·.reference) =
      (if other = target then held? source else if other = source then none
        else held? other).toList := by
  by_cases ho : other = target
  · subst ho
    have hfree : ∀ x ∈ l.instances, x.place ≠ .held other := by
      intro x hx hp
      simp [h.held?_eq hx hp] at ht
    rw [if_pos rfl, ← h.held source, vacate,
      map_reference_located_mapInstances (Instance.toMaking_vacate source _)]
    refine congrArg _ (List.filter_congr fun x hx => decide_eq_decide.mpr ?_)
    rw [Instance.place_vacate]
    split <;> simp [*]
  · rw [if_neg ho]
    exact h.held_vacate source (by simp [Ne.symm ho])

theorem entered_vacate (h : l.Tracks registrations? nextSlot held?) {r : Registry}
    (hr : registrations? = some r) (name : String) {place : Place} (hp : place ≠ .ended)
    (e : Entry) : e ∈ r.stored ↔ ∃ x ∈ (l.vacate name place).registered, Describes e x := by
  rw [h.entered r hr, vacate, exists_registered_mapInstances]
  refine exists_congr fun x => ?_
  rw [mem_registered, and_assoc]
  by_cases hx : x.place = .held name
  · rw [Instance.vacate_of_held hx]
    simp [Registered, hx, hp, Describes]
  · rw [Instance.vacate_of_not_held hx]

theorem discard (h : l.Tracks registrations? nextSlot held?) (name : String) :
    (l.vacate name .ended).Tracks (registrations?.map (·.eraseHeld (held? name))) nextSlot
      fun other => if other = name then none else held? other := by
  refine h.mapInstances (Instance.toMaking_vacate name _) (by simp)
    (fun _ => h.held_vacate name (by simp)) ?_
  rintro _ hr e
  obtain ⟨r, rfl, rfl⟩ := Option.map_eq_some_iff.mp hr
  rw [Registry.mem_eraseHeld, h.entered r rfl, exists_registered_mapInstances]
  constructor
  · rintro ⟨⟨x, hx, he⟩, hs⟩
    obtain ⟨hx, hx'⟩ := mem_registered.mp hx
    have hp : x.place ≠ .held name := fun hp => hs _ (h.held?_eq hx hp) he.1
    rw [← Instance.vacate_of_not_held hp] at hx' he
    exact ⟨x, hx, hx', he⟩
  · rintro ⟨x, hx, hx', he⟩
    have hp : x.place ≠ .held name := by
      intro hp
      rw [Instance.vacate_of_held hp] at hx'
      exact hx'.2.2 rfl
    rw [Instance.vacate_of_not_held hp] at hx' he
    refine ⟨⟨x, mem_registered.mpr ⟨hx, hx'⟩, he⟩, fun r hr hs => hp ?_⟩
    exact (h.place_eq_held_iff hx he).mpr ⟨r, hr, hs⟩

theorem forget (h : l.Tracks registrations? nextSlot held?) (name : String) :
    (l.vacate name .forgotten).Tracks registrations? nextSlot
      fun other => if other = name then none else held? other :=
  h.mapInstances (Instance.toMaking_vacate name _) rfl (fun _ => h.held_vacate name (by simp))
    fun _ hr => h.entered_vacate hr name (by simp)

theorem move (h : l.Tracks registrations? nextSlot held?) (source : String) {target : String}
    (ht : held? target = none) :
    (l.vacate source (.held target)).Tracks registrations? nextSlot
      fun other => if other = target then held? source else if other = source then none
        else held? other :=
  h.mapInstances (Instance.toMaking_vacate source _) rfl (h.held_move source ht)
    fun _ hr => h.entered_vacate hr source (by simp)

theorem registration?_allow (h : l.Tracks registrations? nextSlot held?) {name : String}
    {r : Reference} (hr : held? name = some r) (hx : x ∈ l.instances) :
    (x.allow name).registration? =
      x.registration?.map fun e => if r.slot? = some e.slot then e.allow else e := by
  have hiff {e : Entry} (he : x.registration? = some e) :
      x.place = .held name ↔ r.slot? = some e.slot := by
    rw [h.place_eq_held_iff hx (registration?_eq_some_iff.mp he), hr]
    simp
  by_cases hp : x.place = .held name
  · rw [Instance.registration?_allow_of_held hp]
    cases he : x.registration? with
    | none => rfl
    | some e => rw [Option.map_some, Option.map_some, if_pos ((hiff he).mp hp)]
  · rw [Instance.allow, if_neg hp]
    cases he : x.registration? with
    | none => rfl
    | some e => rw [Option.map_some, if_neg (mt (hiff he).mpr hp)]

theorem allow (h : l.Tracks registrations? nextSlot held?) {name : String} {x : Reference}
    (hx : held? name = some x) :
    (l.mapInstances (·.allow name)).Tracks (registrations?.map (·.allowOf x)) nextSlot held? := by
  refine h.mapInstances (Instance.toMaking_allow name) (by simp) (fun other => ?_) ?_
  · rw [map_reference_located_mapInstances (Instance.toMaking_allow name), ← h.held other]
    simp only [Instance.place_allow, located]
  · rintro _ hr e
    obtain ⟨r, rfl, rfl⟩ := Option.map_eq_some_iff.mp hr
    rw [Registry.mem_allowOf, exists_registered_mapInstances]
    simp only [← registration?_eq_some_iff]
    constructor
    · rintro ⟨y, hy, rfl⟩
      obtain ⟨z, hz, he⟩ := (h.entered r rfl y).mp hy
      obtain ⟨hz, hz'⟩ := mem_registered.mp hz
      refine ⟨z, hz, (registered_allow name z).mpr hz', ?_⟩
      rw [h.registration?_allow hx hz, registration?_eq_some_iff.mpr he]
      rfl
    · rintro ⟨z, hz, hz', he⟩
      rw [h.registration?_allow hx hz] at he
      obtain ⟨y, hy, rfl⟩ := Option.map_eq_some_iff.mp he
      refine ⟨y, (h.entered r rfl y).mpr ⟨z, mem_registered.mpr ⟨hz, ?_⟩, ?_⟩, rfl⟩
      · exact (registered_allow name z).mp hz'
      · exact registration?_eq_some_iff.mp hy

theorem held_make (h : l.Tracks registrations? nextSlot held?) (checking : Bool) {target : String}
    (ht : held? target = none) (reference : Reference) (origin? : Option Origin) (other : String) :
    ((l.make checking target reference origin?).located (.held other)).map (·.reference) =
      (if other = target then some reference else held? other).toList := by
  have hm := h.held other
  simp only [located, make, List.filter_append, List.map_append] at hm ⊢
  rw [hm]
  by_cases ho : other = target
  · subst ho
    simp [ht]
  · simp [ho, Ne.symm ho]

theorem make (h : l.Tracks registrations? nextSlot held?) {checking : Bool} {target : String}
    {reference : Reference} {origin? : Option Origin} (ht : held? target = none)
    (hm : ¬ Making.Registrable ⟨reference, origin?, checking, l.current?⟩)
    (hs : reference.slot? = none) :
    (l.make checking target reference origin?).Tracks registrations? nextSlot
      fun other => if other = target then some reference else held? other where
  made := by
    rw [makings_make]
    exact h.made.append (by simp [hs, hm]) (fun hr => absurd hr hm) (Nat.le_refl _)
      (fun i hi => by simp [hs] at hi) h.current
  attached := h.attached
  current := h.current
  held := h.held_make checking ht reference origin?
  entered := by
    intro r hr e
    rw [h.entered r hr, exists_registered_make]
    exact (or_iff_left fun he => hm he.1).symm

theorem enter (h : l.Tracks registrations? nextSlot held?) {checking : Bool} {target : String}
    {address : UInt64} {origin : Origin} (ht : held? target = none)
    (hm : Making.Registrable
      ⟨.checked address (some nextSlot), some origin, checking, l.current?⟩) :
    (l.make checking target (.checked address (some nextSlot)) (some origin)).Tracks
      (registrations?.map (·.insert ⟨nextSlot, address, origin, false⟩)) (nextSlot + 1)
      fun other => if other = target then some (.checked address (some nextSlot))
        else held? other where
  made := by
    rw [makings_make]
    refine h.made.append (iff_of_true rfl hm) (fun _ => rfl) (Nat.le_succ _) ?_ h.current
    rintro i ⟨⟩
    exact ⟨Nat.le_refl _, Nat.lt_succ_self _⟩
  attached := by
    rw [Option.isSome_map]
    exact h.attached
  current := h.current
  held := h.held_make checking ht _ _
  entered := by
    rintro _ hr e
    obtain ⟨r, rfl, rfl⟩ := Option.map_eq_some_iff.mp hr
    rw [Registry.mem_insert, h.entered r rfl, exists_registered_make, or_comm]
    refine or_congr ?_ ?_
    · constructor
      · exact And.left
      · rintro ⟨x, hx, he⟩
        have hlt := h.made.issued _ (mem_makings (mem_registered.mp hx).1) _ he.1
        exact ⟨⟨x, hx, he⟩, Nat.ne_of_lt hlt⟩
    · rw [and_iff_right hm, ← registration?_eq_some_iff, eq_comm]
      exact Option.some_inj.symm

theorem attach (h : l.Tracks registrations? nextSlot held?) (name : String) (checking : Bool) :
    (l.note checking (.attach name)).Tracks (some .empty) nextSlot held? where
  made := by
    obtain ⟨slot_iff, origin, increasing, issued, attachment⟩ := h.made
    exact ⟨slot_iff, origin, increasing, issued,
      fun m hm n hn => Nat.lt_succ_of_lt (attachment m hm n hn)⟩
  attached := rfl
  current := by
    rintro n ⟨⟩
    exact Nat.lt_succ_self _
  held := h.held
  entered := by
    rintro r ⟨⟩ e
    refine iff_of_false List.not_mem_nil ?_
    rintro ⟨x, hx, -⟩
    obtain ⟨hx, -, hcur, -⟩ := mem_registered.mp hx
    exact Nat.lt_irrefl _ (h.made.attachment _ (mem_makings hx) _ hcur)

theorem detach (h : l.Tracks registrations? nextSlot held?) (checking : Bool) :
    (l.note checking .detach).Tracks none nextSlot held? where
  made := h.made
  attached := rfl
  current := fun _ hn => nomatch hn
  held := h.held
  entered := fun _ hr => nomatch hr

end Tracks

def Agrees (l : Ledger) (s : State) : Prop :=
  l.Tracks s.thread.registrations? s.thread.nextSlot s.held?

namespace Agrees

variable {s t : State} {act : Act} {target : String} {reference : Reference}
  {origin? : Option Origin}

theorem start (shared : Shared) (thread : Thread) : empty.Agrees (.start shared thread) := by
  have hr : thread.start.registrations? = none := by
    rw [Thread.registrations?, Thread.context?_start, Option.map_none]
  rw [Agrees, State.start, hr]
  exact {
    made := ⟨by simp [empty, makings], by simp [empty, makings], .nil, by simp [empty, makings],
      by simp [empty, makings]⟩
    attached := rfl
    current := by
      intro n hn
      cases hn
    held := fun _ => rfl
    entered := by
      intro r hr
      cases hr }

theorem of_tracks (h : l.Tracks registrations? nextSlot held?)
    (hr : s.thread.registrations? = registrations?) (hn : s.thread.nextSlot = nextSlot)
    (hheld : ∀ name, s.held? name = held? name) : l.Agrees s := by
  subst hr hn
  obtain rfl := funext hheld
  exact h

theorem registrations?_bind (s : State) (name : String) (v : View) :
    (s.bind name v).thread.registrations? =
      s.thread.registrations?.map (·.eraseHeld (s.held? name)) := by
  rw [State.bind_eq]
  exact Thread.registrations?_mapRegistry ..

theorem nextSlot_bind (s : State) (name : String) (v : View) :
    (s.bind name v).thread.nextSlot = s.thread.nextSlot := by
  rw [State.bind_eq]
  exact s.thread.nextSlot_mapRegistry _

theorem held?_eq_some {name : String} {v : View} (hv : s.locals.views.get? name = some v) :
    s.held? name = some v.reference := by
  rw [State.held?, hv]
  rfl

theorem bind (h : l.Agrees s) {checking : Bool}
    (hm : ¬ Making.Registrable ⟨reference, origin?, checking, l.current?⟩)
    (hs : reference.slot? = none) (kind? : Option ObjectKind) :
    (l.note checking (.create target reference origin?)).Agrees
      (s.bind target ⟨reference, kind?⟩) := by
  have hd := (h.discard target).make (if_pos rfl) hm hs
  refine of_tracks hd (registrations?_bind ..) (nextSlot_bind ..) fun other => ?_
  rw [State.held?_bind]
  split <;> rfl

theorem registrable_create_iff (h : l.Agrees s) (representation : Representation) (address : UInt64)
    (origin : Origin) :
    Making.Registrable ⟨(s.create representation address origin).1, some origin, s.shared.checking,
      l.current?⟩ ↔ s.thread.Registers s.shared.checking representation address := by
  have ha : l.current?.isSome = s.thread.context?.isSome := h.attached.trans Option.isSome_map
  simp only [Making.Registrable, Thread.Registers, ha, State.create, Thread.address_create,
    Thread.representation_create]

theorem slot_ne_nextSlot (h : l.Agrees s) (name : String) (r : Reference)
    (hr : s.held? name = some r) : r.slot? ≠ some s.thread.nextSlot := by
  obtain ⟨x, hx, -, rfl⟩ := h.exists_held hr
  intro hs
  exact Nat.lt_irrefl _ (h.made.issued _ (mem_makings hx) _ hs)

theorem creates (h : l.Agrees s) (representation : Representation) (address : UInt64)
    (origin : Origin) (kind? : Option ObjectKind) :
    (l.note s.shared.checking (s.creation target representation address origin)).Agrees
      (s.creates target representation address origin kind?) := by
  have hiff := h.registrable_create_iff representation address origin
  by_cases hr : s.thread.Registers s.shared.checking representation address
  · have hc : s.create representation address origin =
        (.checked address (some s.thread.nextSlot),
          { s with thread := s.thread.enter address origin }) := by
      rw [State.create, Thread.create_of_registers hr]
    have hd := (h.discard target).enter (if_pos rfl) (hc ▸ hiff.mpr hr)
    have hfresh := h.slot_ne_nextSlot target
    rw [State.creation, State.creates, hc]
    refine of_tracks hd ?_ ?_ fun other => ?_
    · rw [registrations?_bind, Thread.registrations?_enter, Option.map_map, Option.map_map]
      exact congrArg (Option.map · _) (funext fun r => Registry.eraseHeld_insert hfresh)
    · rw [nextSlot_bind, Thread.nextSlot_enter]
    · rw [State.held?_bind]
      split <;> rfl
  · obtain ⟨hs, ht⟩ := Thread.create_of_not_registers hr origin
    have hc : (s.create representation address origin).2 = s := congrArg (State.mk _ · _) ht
    rw [State.creates, hc]
    exact h.bind (mt hiff.mp hr) hs kind?

theorem transfer (h : l.Agrees s) {source : String} {v : View}
    (hv : s.locals.views.get? source = some v) (checking : Bool) (kind? : Option ObjectKind) :
    (l.note checking (.transfer target source)).Agrees
      ((s.unbind source).bind target ⟨v.reference, kind?⟩) := by
  have hs := held?_eq_some hv
  rw [note]
  by_cases he : target = source
  · subst he
    rw [if_pos rfl]
    refine of_tracks h ?_ (nextSlot_bind ..) fun other => ?_
    · rw [registrations?_bind, State.held?_unbind, if_pos rfl]
      exact Option.map_id'
    · rw [State.held?_bind, State.held?_unbind]
      split
      · next ho => rw [ho, hs]
      · rfl
  · rw [if_neg he]
    have hd := (h.discard target).move source (if_pos rfl)
    refine of_tracks hd ?_ (nextSlot_bind ..) fun other => ?_
    · rw [registrations?_bind, State.held?_unbind, if_neg he]
      rfl
    · rw [State.held?_bind, State.held?_unbind, if_neg (Ne.symm he), hs]
      by_cases ho : other = target <;> simp [ho]

theorem of_registry_eq (h : l.Agrees s) {c c' : Context} (hc : s.thread.context? = some c)
    (hc' : t.thread.context? = some c') (hr : c'.registry = c.registry)
    (hn : t.thread.nextSlot = s.thread.nextSlot) (hv : t.locals.views = s.locals.views) :
    l.Agrees t := by
  refine of_tracks h ?_ hn fun name => ?_
  · simp only [Thread.registrations?, hc, hc', Option.map_some, hr]
  · rw [State.held?, State.held?, hv]

theorem transition (h : l.Agrees s) (ht : Transition s act t) :
    (l.note s.shared.checking act).Agrees t := by
  cases ht with
  | null target representation kind? =>
    refine h.bind ?_ ?_ kind?
    · cases representation <;> simp [Making.Registrable, Reference.null, Reference.address]
    · cases representation <;> rfl
  | create target representation address origin kind? => exact h.creates ..
  | transfer target kind? hv => exact h.transfer hv _ kind?
  | @discard name v hv =>
    refine of_tracks (h.discard name) ?_ ?_ (s.held?_unbind name)
    · rw [State.destroy, Thread.destroy_eq, Thread.registrations?_mapRegistry, held?_eq_some hv]
      rfl
    · rw [State.destroy, Thread.destroy_eq]
      exact s.thread.nextSlot_mapRegistry _
  | @forget name v hv => exact of_tracks (h.forget name) rfl rfl (s.held?_unbind name)
  | allow hv =>
    refine of_tracks (h.allow (held?_eq_some hv)) ?_ ?_ fun _ => rfl
    · rw [Thread.allow_eq, Thread.registrations?_mapRegistry]
    · rw [Thread.allow_eq]
      exact s.thread.nextSlot_mapRegistry _
  | attach name hc =>
    refine of_tracks (h.attach name _) ?_ rfl fun _ => rfl
    rw [Thread.registrations?, Thread.context?_setContext]
    rfl
  | detach hc =>
    refine of_tracks (h.detach _) ?_ rfl fun _ => rfl
    rw [Thread.registrations?, Thread.context?_setCell]
    rfl
  | resume hc => exact h.of_registry_eq hc (s.thread.context?_setContext _) rfl rfl rfl
  | anchor target hv hc =>
    exact h.of_registry_eq hc (s.thread.context?_anchor _ _) rfl rfl rfl
  | mark name hc =>
    refine h.of_registry_eq hc (s.thread.context?_setContext _) ?_ rfl rfl
    cases s.locals.marks.get? name <;> rfl
  | release hm hc => exact h.of_registry_eq hc (s.thread.context?_setContext _) rfl rfl rfl
  | relocate source target hc =>
    exact h.of_registry_eq hc (s.thread.context?_setContext _) rfl rfl rfl
  | other shared codecs => exact h

theorem turn (h : l.Agrees s) (ht : Turn s act t) : (l.note s.shared.checking act).Agrees t := by
  cases ht with
  | take ht => exact h.transition ht
  | wait shared hr =>
    refine of_tracks h ?_ hr.nextSlot_eq fun _ => rfl
    rw [Thread.registrations?, hr.context?_eq]
    rfl

end Agrees

end Ledger

end HeapRefs.Session
