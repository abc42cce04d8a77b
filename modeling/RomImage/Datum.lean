import RomImage.Bytes
import RomImage.Container.Kind
import RomImage.Decimal
import RomImage.Failure
import RomImage.Text.Lenient

/-!
# Data records

Records come from outside as data whose shape nobody has checked.  A reader takes a datum to a value
or to the list of all its issues; `Checked.both` joins two readers so that the issues of both are
reported.
-/

namespace RomImage

inductive Datum where
  | null
  | boolean (value : Bool)
  | integer (value : Int)
  | decimal (value : Decimal)
  | text (value : String)
  | bytes (value : Bytes)
  | sequence (items : List Datum)
  | fields (entries : List (String × Datum))
  deriving Inhabited

/-- A value, or everything that is wrong with the datum it was read from. -/
abbrev Checked (α : Type) := Except (List Issue) α

namespace Checked

variable {α β : Type}

def issues : Checked α → List Issue
  | .ok _ => []
  | .error issues => issues

def both (first : Checked α) (second : Checked β) : Checked (α × β) :=
  match first, second with
  | .ok a, .ok b => .ok (a, b)
  | first, second => .error (first.issues ++ second.issues)

def refuse (defect : Defect) : Checked α :=
  .error [⟨[], defect⟩]

def within (field : String) (reading : Checked α) : Checked α :=
  reading.mapError fun issues => issues.map (·.within field)

end Checked

namespace Datum

def field? (entries : List (String × Datum)) (name : String) : Option Datum :=
  (entries.find? (·.1 = name)).map (·.2)

def required {α : Type} (entries : List (String × Datum)) (name : String)
    (read : Datum → Checked α) : Checked α :=
  Checked.within name <|
    match field? entries name with
    | none => .refuse .missing
    | some datum => read datum

def optional {α : Type} (entries : List (String × Datum)) (name : String) (fallback : α)
    (read : Datum → Checked α) : Checked α :=
  match field? entries name with
  | none => .ok fallback
  | some datum => Checked.within name (read datum)

def nullable {α : Type} (read : Datum → Checked α) : Datum → Checked (Option α)
  | null => .ok none
  | datum => (read datum).map some

def readIntegerText (text : String) : Checked Int :=
  if Text.isOverlong text.toList then .refuse .overlongInteger
  else
    match Text.readInteger? text.toList with
    | some value => .ok value
    | none => .refuse .unreadableInteger

/-- The bound of the integers that a number with a fraction or an exponent can stand for. -/
def decimalBound : Int := Nat.pow 2 63

def readDecimal (decimal : Decimal) : Checked Int :=
  let number := decimal.toBinary
  if !number.isFinite then .refuse .notFinite
  else
    match number.toInt? with
    | none => .refuse .fraction
    | some value =>
      if -decimalBound < value ∧ value < decimalBound then .ok value
      else .refuse .overlongInteger

/-- Reads an integer: a number without a fraction, a truth value, or the text of an integer. -/
def readInteger : Datum → Checked Int
  | boolean value => .ok (if value then 1 else 0)
  | integer value => .ok value
  | decimal value => readDecimal value
  | text value => readIntegerText value
  | _ => .refuse .notAnInteger

def readSize (datum : Datum) : Checked Nat :=
  datum.readInteger.bind fun value =>
    if value < 0 then Checked.refuse (.tooSmall 0) else .ok value.toNat

def readByte (datum : Datum) : Checked UInt8 :=
  datum.readInteger.bind fun value =>
    if value < 0 then Checked.refuse (.tooSmall 0)
    else if 255 < value then Checked.refuse (.tooLarge 255)
    else .ok (UInt8.ofNat value.toNat)

def readText : Datum → Checked String
  | text value => .ok value
  | _ => .refuse .notText

/-- Reads at least one byte; a text stands for its bytes in UTF-8. -/
def readBytes (datum : Datum) : Checked Bytes :=
  let atLeastOne (bytes : Bytes) : Checked Bytes :=
    if bytes.isEmpty then .refuse .noBytes else .ok bytes
  match datum with
  | text value => atLeastOne (Bytes.ofText value)
  | bytes value => atLeastOne value
  | _ => .refuse .notBytes

def readKind : Datum → Checked Kind
  | text name =>
    match Kind.ofName? name with
    | some kind => .ok kind
    | none => .refuse .unknownKind
  | _ => .refuse .unknownKind

end Datum

end RomImage
