import RomImage.Json

/-!
# A reader of JSON

`Json.read?` reads a text by the grammar of JSON, whoever wrote it. Blanks may stand around every
mark, and a string may write each of its characters by an escape, or by two where they are a pair of
surrogates.

The reader is strict. It takes no control inside a string, no zero in front of a number, no comma
behind the last item and nothing but blanks behind the value. The numbers among the values are
integers, so a number with a fraction or an exponent is not read.
-/

namespace RomImage.Json

def isBlank (c : Char) : Bool :=
  c = ' ' || c = '\t' || c = '\n' || c = '\r'

def skipBlanks (input : List Char) : List Char :=
  input.dropWhile isBlank

theorem skipBlanks_append {blanks : List Char} (hblanks : ∀ c ∈ blanks, isBlank c = true)
    (rest : List Char) : skipBlanks (blanks ++ rest) = skipBlanks rest :=
  List.dropWhile_append_of_pos hblanks

theorem skipBlanks_cons {c : Char} (hc : isBlank c = false) (rest : List Char) :
    skipBlanks (c :: rest) = c :: rest :=
  List.dropWhile_cons_of_neg (by simp [hc])

def expect? (mark : Char) (input : List Char) : Option (List Char) :=
  match skipBlanks input with
  | [] => none
  | c :: rest => if c = mark then some rest else none

theorem expect?_of_blanks {blanks : List Char} {c : Char}
    (hblanks : ∀ c ∈ blanks, isBlank c = true) (hc : isBlank c = false) (mark : Char)
    (rest : List Char) :
    expect? mark (blanks ++ c :: rest) = if c = mark then some rest else none := by
  rw [expect?, skipBlanks_append hblanks, skipBlanks_cons hc]

theorem expect?_cons {c : Char} (hc : isBlank c = false) (mark : Char) (rest : List Char) :
    expect? mark (c :: rest) = if c = mark then some rest else none := by
  rw [expect?, skipBlanks_cons hc]

/-! ### Strings -/

def escaped? (letter : Char) : Option Char :=
  [('"', '"'), ('\\', '\\'), ('/', '/'), ('b', '\x08'), ('f', '\x0c'), ('n', '\n'), ('r', '\r'),
    ('t', '\t')].lookup letter

def hexDigit? (c : Char) : Option Nat :=
  if '0' ≤ c ∧ c ≤ '9' then some (c.toNat - '0'.toNat)
  else if 'a' ≤ c ∧ c ≤ 'f' then some (10 + (c.toNat - 'a'.toNat))
  else if 'A' ≤ c ∧ c ≤ 'F' then some (10 + (c.toNat - 'A'.toNat))
  else none

def hexadecimal? (digits : List Char) : Option Nat :=
  digits.foldlM (fun value digit => (hexDigit? digit).map (16 * value + ·)) 0

def readCodes : List Char → Option (List Nat × List Char)
  | [] => none
  | '"' :: rest => some ([], rest)
  | '\\' :: 'u' :: first :: second :: third :: fourth :: rest => do
    let code ← hexadecimal? [first, second, third, fourth]
    let (codes, rest) ← readCodes rest
    return (code :: codes, rest)
  | '\\' :: letter :: rest => do
    let c ← escaped? letter
    let (codes, rest) ← readCodes rest
    return (c.toNat :: codes, rest)
  | c :: rest =>
    if c.toNat < 0x20 then none
    else do
      let (codes, rest) ← readCodes rest
      return (c.toNat :: codes, rest)

def character? (code : Nat) : Option Char :=
  if code.isValidChar then some (Char.ofNat code) else none

def characters? : List Nat → Option (List Char)
  | [] => some []
  | [code] => (character? code).map ([·])
  | code :: low :: codes =>
    if 0xd800 ≤ code ∧ code < 0xdc00 ∧ 0xdc00 ≤ low ∧ low < 0xe000 then
      (characters? codes).map
        (Char.ofNat (0x10000 + (code - 0xd800) * 0x400 + (low - 0xdc00)) :: ·)
    else do
      let c ← character? code
      let chars ← characters? (low :: codes)
      return c :: chars

def readText (input : List Char) : Option (String × List Char) := do
  let (codes, rest) ← readCodes input
  let chars ← characters? codes
  return (String.ofList chars, rest)

/-! ### Numbers and words -/

def readNatural (input : List Char) : Option (Nat × List Char) :=
  let digits := input.takeWhile Char.isDigit
  if digits = [] ∨ digits.head? = some '0' ∧ digits ≠ ['0'] then none
  else some (Nat.ofDigitChars 10 digits 0, input.dropWhile Char.isDigit)

def readNumber (input : List Char) : Option (Json × List Char) :=
  match input with
  | '-' :: rest => (readNatural rest).map fun (value, rest) => (number (-value), rest)
  | input => (readNatural input).map fun (value, rest) => (number value, rest)

def OpensNumber (c : Char) : Prop :=
  c = '-' ∨ c.isDigit = true

namespace OpensNumber

variable {c : Char}

theorem ne (hc : OpensNumber c) {mark : Char} (hmark : mark ≠ '-' ∧ mark.isDigit = false) :
    c ≠ mark := by
  rintro rfl
  simp [OpensNumber, hmark] at hc

theorem isBlank (hc : OpensNumber c) : isBlank c = false := by
  simp [Json.isBlank, hc.ne]

end OpensNumber

def readWord : List Char → Option (Json × List Char)
  | 'n' :: 'u' :: 'l' :: 'l' :: rest => some (null, rest)
  | 't' :: 'r' :: 'u' :: 'e' :: rest => some (boolean true, rest)
  | 'f' :: 'a' :: 'l' :: 's' :: 'e' :: rest => some (boolean false, rest)
  | _ => none

/-! ### Rows and values -/

section Rows

variable {α : Type} (close : Char) (readOne : List Char → Option (α × List Char))

def readMore : Nat → List Char → Option (List α × List Char)
  | 0, input => (expect? close input).map ([], ·)
  | count + 1, input =>
    match expect? ',' input with
    | none => (expect? close input).map ([], ·)
    | some rest => do
      let (item, rest) ← readOne rest
      let (items, rest) ← readMore count rest
      return (item :: items, rest)

def readRow (input : List Char) : Option (List α × List Char) :=
  match expect? close input with
  | some rest => some ([], rest)
  | none => do
    let (item, rest) ← readOne input
    let (items, rest) ← readMore close readOne input.length rest
    return (item :: items, rest)

end Rows

def readMember (readOne : List Char → Option (Json × List Char)) (input : List Char) :
    Option ((String × Json) × List Char) := do
  let rest ← expect? '"' input
  let (name, rest) ← readText rest
  let rest ← expect? ':' rest
  let (value, rest) ← readOne rest
  return ((name, value), rest)

/-- The value at the front of a text and the text behind it, with a bound on how deep values are
nested. -/
def readValue : Nat → List Char → Option (Json × List Char)
  | 0, _ => none
  | depth + 1, input =>
    match skipBlanks input with
    | '"' :: rest => (readText rest).map fun (value, rest) => (.text value, rest)
    | '[' :: rest =>
      (readRow ']' (readValue depth) rest).map fun (items, rest) => (array items, rest)
    | '\x7b' :: rest =>
      (readRow '\x7d' (readMember (readValue depth)) rest).map
        fun (members, rest) => (object members, rest)
    | input => readWord input <|> readNumber input

theorem readValue_blanks (depth : Nat) {blanks : List Char}
    (hblanks : ∀ c ∈ blanks, isBlank c = true) (rest : List Char) :
    readValue depth (blanks ++ rest) = readValue depth rest := by
  cases depth with
  | zero => rfl
  | succ depth => rw [readValue, readValue, skipBlanks_append hblanks]

theorem readValue_quote (depth : Nat) (rest : List Char) :
    readValue (depth + 1) ('"' :: rest) =
      (readText rest).map fun (value, rest) => (.text value, rest) := rfl

theorem readValue_bracket (depth : Nat) (rest : List Char) :
    readValue (depth + 1) ('[' :: rest) =
      (readRow ']' (readValue depth) rest).map fun (items, rest) => (array items, rest) := rfl

theorem readValue_brace (depth : Nat) (rest : List Char) :
    readValue (depth + 1) ('\x7b' :: rest) =
      (readRow '\x7d' (readMember (readValue depth)) rest).map
        fun (members, rest) => (object members, rest) := rfl

theorem readValue_number (depth : Nat) {c : Char} (hc : OpensNumber c) (rest : List Char) :
    readValue (depth + 1) (c :: rest) = readNumber (c :: rest) := by
  rw [readValue, skipBlanks_cons hc.isBlank]
  split
  case h_4 =>
    rw [readWord]
    · rfl
    all_goals simp [hc.ne]
  all_goals
    rename_i heq
    simp only [List.cons.injEq] at heq
    exact absurd heq.1 (hc.ne (by decide))

/-- The value that a whole text stands for; it is nested no deeper than the text is long. -/
def read? (text : String) : Option Json :=
  match readValue text.length text.toList with
  | none => none
  | some (value, rest) => if skipBlanks rest = [] then some value else none

example : read? " [\"\\u00e9\\/\\uD83D\\ude00\" , -7]\n" =
    some (array [text "é/😀", number (-7)]) := by cbv

example : read? "[7, 07]" = none := by cbv

end RomImage.Json
