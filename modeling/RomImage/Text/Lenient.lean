import RomImage.Text.Numeral

/-!
# Integers in loose spelling

An integer has one plain spelling: a minus sign if it is negative, and decimal digits without
needless zeros.  Looser spellings are made plain before they are read: spaces around the number, a
plus sign, zeros in front, a fraction of zeros, and single underscores between digits are dropped.
Between zeros in front, and behind them, underscores are free, and a minus sign may follow them.

A plain spelling has a limited number of digits.  `isOverlong` tells the texts that begin with more
digits than that; a text that becomes too long only when it is made plain is no integer at all.
-/

namespace RomImage.Text

def plainNatural? (digits : List Char) : Option Nat :=
  if digits.isEmpty || !digits.all Char.isDigit then none
  else if digits.head? = some '0' && digits.length ≠ 1 then none
  else if digitLimit < digits.length then none
  else some (valueOf 10 (digits.map fun c => c.toNat - '0'.toNat))

def plainInteger? : List Char → Option Int
  | '-' :: digits => (plainNatural? digits).map fun value => -(value : Int)
  | digits => (plainNatural? digits).map Int.ofNat

def dropMinus : List Char → List Char
  | '-' :: rest => rest
  | text => text

/-- Whether a text begins, after its sign, with more significant digits than are read. -/
def isOverlong (text : List Char) : Bool :=
  let digits := (dropMinus text).takeWhile Char.isDigit
  digits.head? ≠ some '0' && digitLimit < digits.length

def afterZeros? (last : Char) : List Char → Option (List Char)
  | [] => some [last]
  | c :: rest =>
    if c = '0' || c = '_' then afterZeros? c rest
    else if c.isDigit || c = '-' then some (c :: rest)
    else if c = '.' then some (last :: c :: rest)
    else none

def dropZeros? : List Char → Option (List Char)
  | [] => none
  | c :: rest =>
    if c = '0' then afterZeros? c rest else if c.isDigit then some (c :: rest) else none

/-- Drops a fraction that has zeros only, and at least one of them. -/
def dropZeroFraction (text : List Char) : List Char :=
  match text.dropWhile (· ≠ '.') with
  | '.' :: zeros =>
    if !zeros.isEmpty && zeros.all (· = '0') then text.takeWhile (· ≠ '.') else text
  | _ => text

def isGrouped : List Char → Bool
  | [] => true
  | ['_'] => false
  | '_' :: '_' :: _ => false
  | _ :: rest => isGrouped rest

def dropUnderscores? (text : List Char) : Option (List Char) :=
  if text.head? ≠ some '_' && isGrouped text then some (text.filter (· ≠ '_')) else none

def simplifyMagnitude? (text : List Char) : Option (List Char) :=
  (dropZeros? text).bind fun text => dropUnderscores? (dropZeroFraction text)

def simplify? (text : List Char) : Option (List Char) :=
  match trim isSpace text with
  | '+' :: rest => simplifyMagnitude? rest
  | '-' :: rest => (simplifyMagnitude? rest).map ('-' :: ·)
  | rest => simplifyMagnitude? rest

/-- Reads an integer in plain or in loose spelling. -/
def readInteger? (text : List Char) : Option Int :=
  (plainInteger? text).or ((simplify? text).bind plainInteger?)

end RomImage.Text
