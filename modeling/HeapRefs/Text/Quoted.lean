import HeapRefs.Text.Glyph

/-! # Quoted text

Text between double quotes, in which a character that ends the quotation or has no glyph of its own
is written as an escape.
-/

namespace HeapRefs.Text

/-- The escapes of one letter. -/
def shortEscape? : Char → Option Char
  | '\x00' => some '0'
  | '\t' => some 't'
  | '\r' => some 'r'
  | '\n' => some 'n'
  | '"' => some '"'
  | '\\' => some '\\'
  | _ => none

def escape (c : Char) : List Char :=
  match shortEscape? c with
  | some letter => ['\\', letter]
  | none => if hasGlyph c then [c] else ['\\', 'u', '\x7b'] ++ Nat.toDigits 16 c.toNat ++ ['\x7d']

def quote (s : String) : String :=
  String.ofList (['"'] ++ s.toList.flatMap escape ++ ['"'])

end HeapRefs.Text
