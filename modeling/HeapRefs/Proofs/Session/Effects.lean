import HeapRefs.Session.Run

/-! # Steps that come to nothing

An operation looks up what it needs and is refused if that is missing. So what holds of the steps
that do nothing, and of whatever an operation does with what it finds, holds of the operation.
-/

namespace HeapRefs.Session

/-- The property holds of a refused step, and of one that misses the context of its thread. -/
structure Idle (s : State) (P : Effect → Prop) : Prop where
  refused : ∀ why, P (s.refused why)
  noContext : s.locals.guard?.isSome = true → s.thread.context? = none → P (s.fault .noContext)

namespace Idle

variable {b : Build} {s : State} {P : Effect → Prop} {name : String}

theorem withWord (h : Idle s P) {operand : Operand} {k : UInt64 → Effect} (hk : ∀ a, P (k a)) :
    P (s.withWord operand k) := by
  unfold State.withWord
  cases s.word? operand with
  | none => exact h.refused _
  | some a => exact hk a

theorem withView (h : Idle s P) {k : View → Effect}
    (hk : ∀ v, s.locals.views.get? name = some v → P (k v)) : P (s.withView name k) := by
  unfold State.withView
  cases hv : s.locals.views.get? name with
  | none => exact h.refused _
  | some v => exact hk v hv

theorem withContext (h : Idle s P) {k : Context → Effect}
    (hk : ∀ c, s.locals.guard?.isSome = true → s.thread.context? = some c → P (k c)) :
    P (s.withContext k) := by
  unfold State.withContext
  cases hg : s.locals.guard? with
  | none => exact h.refused _
  | some guard =>
    have hg : s.locals.guard?.isSome = true := by rw [hg, Option.isSome_some]
    cases hc : s.thread.context? with
    | none => exact h.noContext hg hc
    | some c => exact hk c hg hc

theorem withHandle (h : Idle s P) {k : Handle → Effect} (hk : ∀ g, P (k g)) :
    P (s.withHandle name k) := by
  unfold State.withHandle
  cases s.locals.handles.get? name with
  | none => exact h.refused _
  | some g => exact hk g

theorem withCodec (h : Idle s P) {k : Codec → Effect} (hk : ∀ c, P (k c)) :
    P (s.withCodec name k) := by
  unfold State.withCodec
  cases s.locals.codecs.get? name with
  | none => exact h.refused _
  | some c => exact hk c

theorem withObject (h : Idle s P) {k : View → Object → Effect} (hk : ∀ v o, P (k v o)) :
    P (s.withObject name k) := by
  refine h.withView fun v _ => ?_
  cases s.shared.heap.find? v.address with
  | none => exact h.refused _
  | some o => exact hk v o

theorem withDescription (h : Idle s P) {k : Description → Effect} (hk : ∀ d, P (k d)) :
    P (s.withDescription name k) := by
  refine h.withObject fun v o => ?_
  cases v.kind? with
  | none => exact h.refused _
  | some kind => exact hk _

theorem length (h : Idle s P) (hk : ∀ n, P (s.done (.length n))) :
    P ((HeapOp.length name).apply b s) := by
  rw [HeapOp.apply]
  refine h.withDescription fun d => ?_
  cases d.length? with
  | none => exact h.refused _
  | some n => exact hk n

theorem alloc (h : Idle s P) {allocator : Allocator} {size : Nat} {o : Object}
    (hk : ∀ a heap, s.shared.heap.alloc? allocator size o = some (a, heap) → P (State.done
      { s with shared := { s.shared with heap, objects := s.shared.objects.set name a } }
      (.address a))) :
    P (s.alloc allocator name size o) := by
  unfold State.alloc
  cases ha : s.shared.heap.alloc? allocator size o with
  | none => exact h.refused _
  | some placed => exact hk placed.1 placed.2 ha

end Idle

end HeapRefs.Session
