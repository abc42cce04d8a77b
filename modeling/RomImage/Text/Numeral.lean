import RomImage.Text.Blank
import RomImage.Text.DecimalDigit

/-!
# Numerals

Numbers are read from text and written into messages in decimal, up to a limit on the number of
digits: past it neither direction is done.  Hexadecimal has no limit.

`valueOf` gives the value of a row of digits, and `valueByHalves` finds it for long rows.
`readLiteral?` reads a literal: an optional sign, an optional base mark, and digits of any script
with single underscores between them.
-/

namespace RomImage.Text

/-- How many decimal digits are read or written at most. -/
def digitLimit : Nat := 4300

def decimal? (number : Int) : Option String :=
  if number.natAbs < Nat.pow 10 digitLimit then some (toString number) else none

theorem isSome_decimal? (number : Int) :
    (decimal? number).isSome = true ↔ number.natAbs < Nat.pow 10 digitLimit := by
  rw [decimal?]
  split
  · rename_i less
    exact iff_of_true rfl less
  · rename_i more
    exact iff_of_false Bool.false_ne_true more

theorem decimal?_eq_none {number : Int} (long : Nat.pow 10 digitLimit ≤ number.natAbs) :
    decimal? number = none := by
  rw [← Option.not_isSome_iff_eq_none, isSome_decimal?]
  exact Nat.not_lt.mpr long

def hexadecimal (number : Nat) : String :=
  "0x" ++ String.ofList (Nat.toDigits 16 number)

def valueOf (base : Nat) (digits : List Nat) : Nat :=
  digits.foldl (fun value digit => value * base + digit) 0

theorem foldl_digits (base start : Nat) (digits : List Nat) :
    digits.foldl (fun value digit => value * base + digit) start =
      start * Nat.pow base digits.length + valueOf base digits := by
  rw [valueOf]
  induction digits generalizing start with
  | nil => simp
  | cons digit rest ih =>
    have power : Nat.pow base (rest.length + 1) = Nat.pow base rest.length * base := rfl
    rw [List.foldl_cons, ih, List.foldl_cons, ih (0 * base + digit), List.length_cons, power]
    simp [Nat.add_mul, Nat.mul_assoc, Nat.mul_comm base, Nat.add_assoc]

/-- The value of two rows of digits, one behind the other. -/
theorem valueOf_append (base : Nat) (front back : List Nat) :
    valueOf base (front ++ back) =
      valueOf base front * Nat.pow base back.length + valueOf base back := by
  rw [valueOf, List.foldl_append, foldl_digits]
  rfl

def halvings : Nat := 64

def valueByHalves (base : Nat) (digits : List Nat) : Nat :=
  go halvings digits
where
  go : Nat → List Nat → Nat
    | 0, digits => valueOf base digits
    | depth + 1, digits =>
      let size := digits.length
      if size ≤ halvings then valueOf base digits
      else
        let front := digits.take (size / 2)
        let back := digits.drop (size / 2)
        go depth front * Nat.pow base back.length + go depth back

theorem valueByHalves_eq (base : Nat) (digits : List Nat) :
    valueByHalves base digits = valueOf base digits := by
  rw [valueByHalves]
  generalize halvings = depth
  induction depth generalizing digits with
  | zero => rfl
  | succ depth ih =>
    rw [valueByHalves.go]
    split
    · rfl
    · simp only [ih]
      rw [← valueOf_append, List.take_append_drop]

def asciiDigit? (c : Char) : Option Nat :=
  if '0' ≤ c ∧ c ≤ '9' then some (c.toNat - '0'.toNat)
  else if 'a' ≤ c ∧ c ≤ 'z' then some (c.toNat - 'a'.toNat + 10)
  else if 'A' ≤ c ∧ c ≤ 'Z' then some (c.toNat - 'A'.toNat + 10)
  else none

def groupedDigits? (base : Nat) : List Char → Option (List Nat)
  | [] => none
  | c :: rest =>
    match (asciiDigit? c).filter (· < base), rest with
    | none, _ => none
    | some digit, [] => some [digit]
    | some digit, '_' :: rest => (groupedDigits? base rest).map (digit :: ·)
    | some digit, rest => (groupedDigits? base rest).map (digit :: ·)

def plainDigits (text : List Char) : List Char :=
  text.map fun c => ((decimalDigit? c).map Nat.digitChar).getD c

/-- A number without a sign in the base of its mark; decimal digits are limited in number. -/
def readUnsigned? (text : List Char) : Option Nat :=
  let marked (base : Nat) (digits : List Char) : Option Nat :=
    (groupedDigits? base (if digits.head? = some '_' then digits.tail else digits)).map
      (valueByHalves base)
  match text with
  | '0' :: 'x' :: digits | '0' :: 'X' :: digits => marked 16 digits
  | '0' :: 'o' :: digits | '0' :: 'O' :: digits => marked 8 digits
  | '0' :: 'b' :: digits | '0' :: 'B' :: digits => marked 2 digits
  | digits => do
    let row ← groupedDigits? 10 digits
    guard (row.length ≤ digitLimit)
    guard (row.head? ≠ some 0 ∨ row.all (· = 0))
    return valueOf 10 row

/-- A literal: blanks around it, a sign, a base mark, digits of any script, single underscores. -/
def readLiteral? (text : String) : Option Int :=
  match plainDigits (trim isBlank text.toList) with
  | '-' :: digits => (readUnsigned? digits).map fun value => -(value : Int)
  | '+' :: digits => (readUnsigned? digits).map Int.ofNat
  | digits => (readUnsigned? digits).map Int.ofNat

end RomImage.Text
