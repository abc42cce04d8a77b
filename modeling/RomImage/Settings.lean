import RomImage.Failure
import RomImage.Note
import RomImage.Text.Numeral

/-!
# Settings

Two settings come from the surroundings as text: the size of the scratch buffer and the level from
which notes are shown.
-/

namespace RomImage

structure Settings where
  bufferSize : Option String
  logLevel : Option String
  deriving DecidableEq, Repr

namespace Settings

def defaultBufferSize : Nat := 16 * 1024

/--
Reads the size of the scratch buffer.  An absent or blank setting means the default; any other must
be a literal of a positive integer.
-/
def readBufferSize (setting : Option String) : Except Misuse Nat :=
  let text := String.ofList (Text.trim Text.isBlank (setting.getD "").toList)
  if text.isEmpty then .ok defaultBufferSize
  else
    match Text.readLiteral? text with
    | none => .error (.unreadableSetting text)
    | some size => if size ≤ 0 then .error (.nonPositiveSetting size) else .ok size.toNat

def defaultThreshold : Nat := Level.rank .warning

/--
The upper case of a character, as far as the names of levels can tell: besides the ASCII letters,
the dotless i and the long s have an ASCII letter as their upper case.
-/
def upperCase (c : Char) : Char :=
  if c = 'ı' then 'I' else if c = 'ſ' then 'S' else c.toUpper

def rankOfName? (name : String) : Option Nat :=
  match name with
  | "NOTSET" => some 0
  | "DEBUG" => some 10
  | "INFO" => some 20
  | "WARN" | "WARNING" => some 30
  | "ERROR" => some 40
  | "FATAL" | "CRITICAL" => some 50
  | _ => none

def threshold (setting : Option String) : Nat :=
  match setting with
  | none => defaultThreshold
  | some text => (rankOfName? (text.map upperCase)).getD defaultThreshold

end Settings

end RomImage
