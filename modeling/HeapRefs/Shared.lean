import HeapRefs.Bindings
import HeapRefs.Codec.Basic
import HeapRefs.Object.Heap
import HeapRefs.OnceCell

/-! # What all threads share

The heap with the names of its objects, the setting, and a codec that is installed at most once.
-/

namespace HeapRefs

structure Shared where
  heap : Heap
  objects : Bindings UInt64
  checking : Bool
  codec? : Option Codec
  deriving DecidableEq, Repr

namespace Shared

def initial : Shared := ⟨.empty, ∅, false, none⟩

/-- Installs a codec if its cell is empty, and gives what is installed then. Whether this call has
installed it is told by a flag that only the initializer sets. -/
def installCodec (s : Shared) (once : OnceCell Codec Bool) (c : Codec) : Option Codec × Shared :=
  let (content, installed, codec?) := once.getOrInit s.codec? (fun _ => (c, true)) false
  (if installed then some content else none, { s with codec? })

end Shared

end HeapRefs
