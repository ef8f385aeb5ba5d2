import HeapRefs.Codec.Query
import HeapRefs.Object.Header
import HeapRefs.Thread.Basic

/-! # Outcomes of steps -/

namespace HeapRefs.Session

inductive Done
  | detached
  | passed
  | dropped
  | forgotten
  | allowed
  | marked
  | released
  deriving DecidableEq, Repr

inductive Answer
  | done (what : Done)
  | nothing
  | attached (name : String)
  | status (seen : Observation) (checking : Bool) (name? : Option String)
  | entries (es : List Entry)
  | count (n : Nat)
  | truth (b : Bool)
  | address (a : UInt64)
  | heldAddress (a? : Option UInt64)
  | view (v : View)
  | comparison (c : Comparison)
  | header (h : Header)
  | typedHeader (h : Header)
  | length (n : UInt32)
  | handle (h : Handle)
  | codec (c : Codec)
  | narrow (n : NarrowRef)
  | query (a : Query.Answer)
  deriving DecidableEq, Repr

/-- Why a step makes no sense in the state that it meets. -/
inductive Refusal
  | unbound (name : String)
  | noAddress
  | notAttached
  | notTyped (name : String)
  | notUntyped (name : String)
  | notArray (name : String)
  | notComparable
  | noObject (address : UInt64)
  | outOfMemory
  | noCodec
  deriving DecidableEq, Repr

inductive Outcome
  | done (a : Answer)
  | failed (e : Failure)
  | refused (why : Refusal)
  deriving DecidableEq, Repr

structure Counts where
  registered : Nat
  anchored : Nat
  deriving DecidableEq, Repr

/-- A session that another thread runs ends with what the thread logs at its end. -/
inductive Reply
  | step (outcome : Outcome) (log : List Record) (counts? : Option Counts)
  | spawned (replies : List Reply) (ending : List Record) (counts? : Option Counts)

end HeapRefs.Session
