import HeapRefs.Codec.Basic
import HeapRefs.Registry
import HeapRefs.Settings

/-! # Failures

A failure is either reported to the caller, who may go on, or is a fault: a broken promise that
stops the operation.
-/

namespace HeapRefs

inductive Fault
  | unhandled (thread : String) (entries : List Entry)
  | unencodable (address : UInt64) (cause : EncodeError)
  | wrongKind (representation : Representation) (address : UInt64) (actual expected : ObjectKind)
  | notAbove (target source : ObjectKind)
  | releasedHandle (index : Nat)
  | noContext
  | contextBorrowed
  deriving DecidableEq, Repr

namespace Fault

def message : Fault → String
  | unhandled thread entries =>
    "fatal: " ++ toString entries.length ++
      " unhandled oop(s) live across a safepoint in thread '" ++ thread ++ "': " ++
      ", ".intercalate (entries.map Entry.text)
  | unencodable address cause =>
    "cannot encode " ++ Hex.render address.toNat ++ ": Err(" ++ cause.detail ++ ")"
  | wrongKind representation address actual expected =>
    representation.label ++ "(" ++ Hex.render address.toNat ++ ") refers to a " ++ actual.refName ++
      ", not a " ++ expected.refName
  | notAbove target source => target.refName ++ " is not a super kind of " ++ source.refName
  | releasedHandle index => "handle " ++ toString index ++ " was released"
  | noContext => "the context of an attached thread is always present"
  | contextBorrowed => "already borrowed: BorrowMutError"

end Fault

inductive Failure
  | layout (cause : LayoutError)
  | encode (cause : EncodeError)
  | codecInUse
  | settings (cause : SettingsError)
  | alreadyAttached (name : String)
  | fault (cause : Fault)
  deriving DecidableEq, Repr

namespace Failure

def message : Failure → String
  | layout cause => cause.message
  | encode cause => cause.message
  | codecInUse => "the process-wide compressed oops codec is already initialized"
  | settings cause => cause.message
  | alreadyAttached name => "thread is already attached as '" ++ name ++ "'"
  | fault cause => cause.message

end Failure

end HeapRefs
