/-! # Hexadecimal numerals

Numbers are written as `0x` and lower-case digits without padding.
-/

namespace HeapRefs.Hex

def render (n : Nat) : String := "0x" ++ String.ofList (Nat.toDigits 16 n)

def digit? (c : Char) : Option Nat :=
  if c.isDigit then some (c.toNat - '0'.toNat)
  else if 'a' ≤ c ∧ c ≤ 'f' then some (c.toNat - 'a'.toNat + 10)
  else if 'A' ≤ c ∧ c ≤ 'F' then some (c.toNat - 'A'.toNat + 10)
  else none

/-- The number that a nonempty list of digits denotes. -/
def value? : List Char → Option Nat
  | [] => none
  | cs => cs.foldlM (fun n c => (digit? c).map (16 * n + ·)) 0

def read? (s : String) : Option Nat :=
  match s.toList with
  | '0' :: 'x' :: digits => value? digits
  | _ => none

def word? (s : String) : Option UInt64 :=
  match read? s with
  | some n => if n < UInt64.size then some (UInt64.ofNat n) else none
  | none => none

end HeapRefs.Hex
