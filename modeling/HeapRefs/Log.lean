import HeapRefs.Codec.Basic
import HeapRefs.Registry
import HeapRefs.Settings

/-! # The log

An event is recorded together with what an observer on the thread sees at that moment.
-/

namespace HeapRefs

inductive Level
  | error
  | warn
  | debug
  | trace
  deriving DecidableEq, Repr

namespace Level

def label : Level → String
  | error => "ERROR"
  | warn => "WARN"
  | debug => "DEBUG"
  | trace => "TRACE"

end Level

inductive Event
  | installed (settings : Settings)
  | attached (name : String)
  | detached (name : String)
  | leftRegistered (name : String) (count : Nat)
  | leftEntries (registry : Registry)
  | unhandled (name : String) (entry : Entry)
  | codecInstalled (codec : Codec)
  deriving DecidableEq, Repr

namespace Event

def level : Event → Level
  | unhandled .. => .error
  | leftRegistered .. => .warn
  | leftEntries .. => .trace
  | installed _ | attached _ | detached _ | codecInstalled _ => .debug

def message : Event → String
  | installed settings => "installed " ++ settings.detail
  | attached name => "attached thread '" ++ name ++ "'"
  | detached name => "detached thread '" ++ name ++ "'"
  | leftRegistered name count =>
    "thread '" ++ name ++ "' detached with " ++ toString count ++ " live registered oop(s)"
  | leftEntries registry => registry.dump
  | unhandled name entry => "unhandled oop in thread '" ++ name ++ "': " ++ entry.text
  | codecInstalled c =>
    "compressed oops: base " ++ Hex.render c.base.toNat ++ ", shift " ++ toString c.shift.toNat ++
      ", reserved " ++ Hex.render c.start.toNat ++ ".." ++ Hex.render c.stop.toNat

end Event

/-- The answers to "is this thread attached?" and "is it at a safepoint?". -/
structure Observation where
  attached : Bool
  atSafepoint : Bool
  deriving DecidableEq, Repr

structure Record where
  event : Event
  seen : Observation
  deriving DecidableEq, Repr

end HeapRefs
