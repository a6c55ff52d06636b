import Renewal.Text.Blank
import Renewal.Text.Integer

/-! # Values of settings

A setting is a flag, an integer or a text. A variable of the environment gives a value as text,
which is read as a value of the kind that the setting has.
-/

namespace Renewal

/-- The value of a setting. -/
inductive SettingValue where
  | flag (b : Bool)
  | integer (n : Int)
  | text (t : Text)
deriving DecidableEq

/-- The kind of a setting. -/
inductive SettingKind where
  | flag
  | integer
  | text
deriving DecidableEq

/-- The kind of a value. -/
def SettingValue.kind : SettingValue → SettingKind
  | .flag _ => .flag
  | .integer _ => .integer
  | .text _ => .text

/-- How a value is shown. -/
def SettingValue.show : SettingValue → Text
  | .flag b => if b then "True" else "False"
  | .integer n => .ofInt n
  | .text t => t

/-- Why a text is no value of a kind. -/
inductive SettingError where
  | notFlag
  | notInteger (e : IntegerError)
deriving DecidableEq

/-- The words for a flag that is set. -/
def SettingKind.trueWords : List Text := ["1", "true", "yes", "on"]

/-- The words for a flag that is not set. -/
def SettingKind.falseWords : List Text := ["0", "false", "no", "off"]

/-- What is said of a text that is no value of a kind. -/
def SettingError.message : SettingError → Text
  | .notFlag => .concat ["expected one of ",
      Text.quotedList (Text.sortedSet (SettingKind.trueWords ++ SettingKind.falseWords))]
  | .notInteger e => e.message

/-- The value of a kind that a text writes. -/
def SettingKind.read (kind : SettingKind) (t : Text) : Except SettingError SettingValue :=
  match kind with
  | .flag =>
    let word := t.strip.asciiLower
    if trueWords.contains word then .ok (.flag true)
    else if falseWords.contains word then .ok (.flag false)
    else .error .notFlag
  | .integer =>
    match Integer.read t with
    | .ok n => .ok (.integer n)
    | .error e => .error (.notInteger e)
  | .text => .ok (.text t)

end Renewal
