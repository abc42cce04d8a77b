import RomImage.Failure
import RomImage.Text.Blank

/-!
# Sizes

A size argument is a decimal number with an optional suffix for binary multiples: `256k`, `4M`,
`1G`.  Blanks and a plus sign may stand in front, and nothing may follow the suffix.
-/

namespace RomImage

def kib : Nat := 1024

def mib : Nat := 1024 * kib

def gib : Nat := 1024 * mib

def multipleOf? (suffix : Char) : Option Nat :=
  match suffix with
  | 'k' | 'K' => some kib
  | 'm' | 'M' => some mib
  | 'g' | 'G' => some gib
  | _ => none

def dropPlus : List Char → List Char
  | '+' :: rest => rest
  | text => text

def readDigits (digits : List Char) : Except Failure Nat :=
  if digits.length ≤ Text.digitLimit then
    .ok (Text.valueOf 10 (digits.map fun c => c.toNat - '0'.toNat))
  else .error (.misuse (.longNumeral digits.length))

/--
Reads a size.  A number with more digits than the limit is refused for its length, whatever letter
follows it; everything else that does not fit the form is an invalid size.
-/
def readSize (text : String) : Except Failure Nat :=
  let body := dropPlus (text.toList.dropWhile Text.isBlank)
  let digits := body.takeWhile Char.isDigit
  let invalid : Except Failure Nat := .error (.build (.invalidSize text))
  if digits.isEmpty then invalid
  else
    match body.dropWhile Char.isDigit with
    | [] => readDigits digits
    | [suffix] =>
      if suffix.isAlpha then
        (readDigits digits).bind fun number =>
          match multipleOf? suffix with
          | some multiple => .ok (number * multiple)
          | none => invalid
      else invalid
    | _ => invalid

end RomImage
