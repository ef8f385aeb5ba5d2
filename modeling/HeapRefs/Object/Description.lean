import HeapRefs.Object.Header

/-! # Descriptions by kind

An object is described by the part of it that all objects of its kind have: the header alone, or for
arrays the header and the length. The description of a kind starts with that of the kind above it,
so that one pointer serves for both.
-/

namespace HeapRefs

structure ArrayDescription where
  header : Header
  length : UInt32
  deriving DecidableEq, Repr

inductive Description
  | headerOnly (kind : ObjectKind) (header : Header)
  | array (array : ArrayDescription)
  | refArray (array : ArrayDescription)
  | primArray (array : ArrayDescription)
  deriving DecidableEq, Repr

namespace Description

/-- The description of the given kind; only arrays take the length. -/
def build (kind : ObjectKind) (header : Header) (length : UInt32) : Description :=
  match kind with
  | .array => array ⟨header, length⟩
  | .refArray => refArray ⟨header, length⟩
  | .primArray => primArray ⟨header, length⟩
  | kind => headerOnly kind header

def kind : Description → ObjectKind
  | headerOnly kind _ => kind
  | array _ => .array
  | refArray _ => .refArray
  | primArray _ => .primArray

/-- The description that a description starts with, which is that of the kind above. -/
def super? : Description → Option Description
  | headerOnly .any _ => none
  | headerOnly _ h => some (headerOnly .any h)
  | array a => some (headerOnly .any a.header)
  | refArray a | primArray a => some (array a)

def header : Description → Header
  | headerOnly _ h => h
  | array a | refArray a | primArray a => a.header

def length? : Description → Option UInt32
  | headerOnly _ _ => none
  | array a | refArray a | primArray a => some a.length

/-- The size in bytes: two words of header, and one more for a length. -/
def byteSize : Description → Nat
  | headerOnly _ _ => 16
  | array _ | refArray _ | primArray _ => 24

theorem super?_build (kind : ObjectKind) (header : Header) (length : UInt32) :
    (build kind header length).super? = kind.parent.map (build · header length) := by
  cases kind <;> rfl

@[simp] theorem header_build (kind : ObjectKind) (header : Header) (length : UInt32) :
    (build kind header length).header = header := by
  cases kind <;> rfl

theorem length?_build (kind : ObjectKind) (header : Header) (length : UInt32) :
    (build kind header length).length? = if kind.isArray then some length else none := by
  cases kind <;> rfl

end Description

end HeapRefs
