import HeapRefs.Text.Blank

/-! # Settings

The one setting says whether references are checked. It is read from a variable of the environment:
blanks around the value do not count, nor does the case of its ASCII letters.
-/

namespace HeapRefs

structure Settings where
  checkUnhandled : Bool
  deriving DecidableEq, Repr

inductive SettingsError
  | invalidValue (value : String)
  | notUnicode
  deriving DecidableEq, Repr

inductive Lookup
  | unset
  | text (value : String)
  | notUnicode
  deriving DecidableEq, Repr

namespace Lookup

def ofBytes : Option ByteArray → Lookup
  | none => unset
  | some bytes =>
    match String.fromUTF8? bytes with
    | none => notUnicode
    | some value => text value

end Lookup

namespace Settings

def variableName : String := "STRATA_CHECK_UNHANDLED_OOPS"

def default : Settings := ⟨false⟩

instance : Inhabited Settings := ⟨default⟩

/-- The defaults, changed by each choice in turn. -/
def ofChoices (choices : List Bool) : Settings :=
  choices.foldl (fun s b => { s with checkUnhandled := b }) default

/-- The truth value that a text stands for. -/
def truth? (value : String) : Option Bool :=
  let word := String.ofList ((Text.trim value.toList).map Char.toLower)
  if word = "1" ∨ word = "true" then some true
  else if word = "0" ∨ word = "false" then some false
  else none

def ofLookup (lookup : String → Lookup) : Except SettingsError Settings :=
  match lookup variableName with
  | .unset => .ok default
  | .notUnicode => .error .notUnicode
  | .text value =>
    match truth? value with
    | some b => .ok ⟨b⟩
    | none => .error (.invalidValue value)

/-- Reads the settings from an environment, which gives the bytes of each variable that is set. -/
def ofEnvironment (environment : String → Option ByteArray) : Except SettingsError Settings :=
  ofLookup fun name => .ofBytes (environment name)

def detail (s : Settings) : String :=
  "VmFlags \x7b check_unhandled_oops: " ++ toString s.checkUnhandled ++ " \x7d"

end Settings

namespace SettingsError

def message : SettingsError → String
  | invalidValue value =>
    "invalid value '" ++ value ++ "' for " ++ Settings.variableName ++
      ", expected one of: 1, 0, true, false"
  | notUnicode => Settings.variableName ++ " is not valid unicode"

end SettingsError

end HeapRefs
