import Mathlib.Data.List.TakeWhile
import RomImage.Size

/-!
# Which texts are sizes

A size is written as blanks, a plus sign or none, decimal digits, and a letter for a multiple or
none (`SizeText`). Such a text is read as its number times its multiple, and no other text is read
(`readSize_eq_ok`).

A text is refused as no size unless it has a row of more digits than are ever read
(`readSize_error`). So where all rows of digits are short, the form of a text decides alone
(`readSize_accepts`).
-/

namespace RomImage

def sizeUnits : List (Char × Nat) :=
  [('k', 1024), ('K', 1024), ('m', 1024 * 1024), ('M', 1024 * 1024),
   ('g', 1024 * 1024 * 1024), ('G', 1024 * 1024 * 1024)]

/-- A size as it is written. -/
structure SizeText where
  blanks : List Char
  plus : Bool
  digits : List Char
  unit : Option (Char × Nat)
  isBlank : ∀ c ∈ blanks, Text.isBlank c = true
  isDigit : ∀ c ∈ digits, c.isDigit = true
  digits_ne_nil : digits ≠ []
  isUnit : ∀ entry ∈ unit, entry ∈ sizeUnits

namespace SizeText

def letters (form : SizeText) : List Char :=
  (form.unit.map (·.1)).toList

def chars (form : SizeText) : List Char :=
  form.blanks ++ ((if form.plus then ['+'] else []) ++ (form.digits ++ form.letters))

def value (form : SizeText) : Nat :=
  Nat.ofDigitChars 10 form.digits 0 * (form.unit.map (·.2)).getD 1

end SizeText

def HasShortNumerals (text : String) : Prop :=
  ∀ run, run <:+: text.toList → (∀ c ∈ run, c.isDigit = true) → run.length ≤ Text.digitLimit

theorem Text.valueOf_digits (digits : List Char) :
    valueOf 10 (digits.map fun c => c.toNat - '0'.toNat) = Nat.ofDigitChars 10 digits 0 := by
  rw [valueOf, List.foldl_map, Nat.ofDigitChars_eq_foldl]
  simp only [Nat.mul_comm]

theorem multipleOf?_eq_some {c : Char} {multiple : Nat} :
    multipleOf? c = some multiple ↔ (c, multiple) ∈ sizeUnits := by
  have htable : ∀ entry ∈ sizeUnits, multipleOf? entry.1 = some entry.2 := by decide
  refine ⟨fun hmultiple => ?_, fun hentry => htable _ hentry⟩
  rw [multipleOf?.eq_def] at hmultiple
  split at hmultiple
  case h_7 => exact absurd hmultiple (by simp)
  all_goals
    obtain rfl := Option.some.inj hmultiple
    decide

/-- The letters of the units are letters, and neither digits nor anything else. -/
theorem isAlpha_of_unit {entry : Char × Nat} (hentry : entry ∈ sizeUnits) :
    entry.1.isAlpha = true ∧ entry.1.isDigit = false := by
  have htable : ∀ entry ∈ sizeUnits, entry.1.isAlpha = true ∧ entry.1.isDigit = false := by decide
  exact htable entry hentry

theorem Text.isBlank_of_isDigit {c : Char} (hdigit : c.isDigit = true) : isBlank c = false := by
  rw [Char.isDigit_iff_toNat] at hdigit
  have hzero : '0'.toNat = 48 := rfl
  have hnine : '9'.toNat = 57 := rfl
  simp only [isBlank, blankRanges, List.any_cons, List.any_nil, Bool.or_false, Bool.or_eq_false_iff,
    Bool.and_eq_false_iff, decide_eq_false_iff_not]
  omega

theorem dropPlus_of_ne {text : List Char} (hhead : text.head? ≠ some '+') :
    dropPlus text = text := by
  rw [dropPlus.eq_def]
  split
  · exact absurd rfl hhead
  · rfl

theorem eq_append_dropPlus (text : List Char) :
    ∃ plus : Bool, text = (if plus then ['+'] else []) ++ dropPlus text := by
  by_cases hhead : text.head? = some '+'
  · obtain ⟨rest, rfl⟩ := List.head?_eq_some_iff.mp hhead
    exact ⟨true, rfl⟩
  · exact ⟨false, (dropPlus_of_ne hhead).symm⟩

/-- The digits at the front of a text are those before the first other character. -/
theorem takeWhile_digits {digits rest : List Char} (hdigits : ∀ c ∈ digits, c.isDigit = true)
    (hrest : ∀ c ∈ rest.head?, c.isDigit = false) :
    (digits ++ rest).takeWhile Char.isDigit = digits ∧
      (digits ++ rest).dropWhile Char.isDigit = rest := by
  rw [List.takeWhile_append_of_pos hdigits, List.dropWhile_append_of_pos hdigits]
  cases rest with
  | nil => simp
  | cons c rest => simp [hrest c rfl]

theorem readDigits_eq_ok {digits : List Char} {number : Nat} :
    readDigits digits = .ok number ↔
      digits.length ≤ Text.digitLimit ∧ Nat.ofDigitChars 10 digits 0 = number := by
  rw [readDigits, Text.valueOf_digits]
  split
  · rename_i hshort
    simp [hshort]
  · rename_i hlong
    simp [hlong]

theorem readDigits_eq_error {digits : List Char} {failure : Failure} :
    readDigits digits = .error failure ↔
      Text.digitLimit < digits.length ∧ failure = .misuse (.longNumeral digits.length) := by
  rw [readDigits]
  split
  · rename_i hshort
    simp [Nat.not_lt.mpr hshort]
  · rename_i hlong
    simp [Nat.lt_of_not_le hlong, eq_comm]

namespace SizeText

variable {text : String}

/-- Behind the blanks and the sign stand the digits, and behind these the letter. -/
theorem body_eq (form : SizeText) :
    dropPlus (form.chars.dropWhile Text.isBlank) = form.digits ++ form.letters := by
  obtain ⟨first, rest, hdigits⟩ := List.exists_cons_of_ne_nil form.digits_ne_nil
  have hfirst : first.isDigit = true := form.isDigit first (hdigits ▸ List.mem_cons_self)
  rw [chars, List.dropWhile_append_of_pos form.isBlank]
  cases form.plus with
  | true => rfl
  | false =>
      have hnotBlank := Text.isBlank_of_isDigit hfirst
      have hnotPlus : first ≠ '+' := by
        rintro rfl
        exact absurd hfirst (by decide)
      rw [hdigits]
      simp only [Bool.false_eq_true, if_false, List.nil_append, List.cons_append]
      rw [List.dropWhile_cons_of_neg (by simp [hnotBlank]),
        dropPlus_of_ne (by simpa using hnotPlus)]

theorem head?_letters (form : SizeText) : ∀ c ∈ form.letters.head?, c.isDigit = false := by
  rw [letters]
  cases hunit : form.unit with
  | none => simp
  | some entry => simpa using (isAlpha_of_unit (form.isUnit entry hunit)).2

/-- A text of the form is read as its value. -/
theorem readSize_eq (form : SizeText) (htext : form.chars = text.toList)
    (hshort : form.digits.length ≤ Text.digitLimit) : readSize text = .ok form.value := by
  obtain ⟨htake, hdrop⟩ := takeWhile_digits form.isDigit form.head?_letters
  have hread : readDigits form.digits = .ok (Nat.ofDigitChars 10 form.digits 0) :=
    readDigits_eq_ok.mpr ⟨hshort, rfl⟩
  have hsome : form.digits.isEmpty = false := by simpa using form.digits_ne_nil
  simp only [readSize, ← htext, form.body_eq, htake, hdrop, hsome, hread]
  rw [value, letters]
  cases hunit : form.unit with
  | none => simp
  | some entry =>
      have hentry := form.isUnit entry hunit
      simp [(isAlpha_of_unit hentry).1, multipleOf?_eq_some.mpr hentry, Except.bind]

/-- A text whose blanks and sign are followed by digits and a letter is of the form. -/
theorem exists_of_body {text digits : List Char} (unit : Option (Char × Nat))
    (hbody : dropPlus (text.dropWhile Text.isBlank) = digits ++ (unit.map (·.1)).toList)
    (hdigits : ∀ c ∈ digits, c.isDigit = true) (hsome : digits ≠ [])
    (hunit : ∀ entry ∈ unit, entry ∈ sizeUnits) :
    ∃ form : SizeText, form.chars = text ∧ form.digits = digits ∧ form.unit = unit := by
  obtain ⟨plus, hsign⟩ := eq_append_dropPlus (text.dropWhile Text.isBlank)
  refine ⟨⟨text.takeWhile Text.isBlank, plus, digits, unit, fun c => List.mem_takeWhile_imp,
    hdigits, hsome, hunit⟩, ?_, rfl, rfl⟩
  calc text.takeWhile Text.isBlank
        ++ ((if plus then ['+'] else []) ++ (digits ++ (unit.map (·.1)).toList))
      = text.takeWhile Text.isBlank ++ text.dropWhile Text.isBlank := by rw [← hbody, ← hsign]
    _ = text := List.takeWhile_append_dropWhile

end SizeText

variable {text : String} {digits rest : List Char} {value : Nat} {failure : Failure}

/-- Every text has digits behind its blanks and its sign, or none there. -/
theorem exists_body (text : String) : ∃ digits rest,
    dropPlus (text.toList.dropWhile Text.isBlank) = digits ++ rest ∧
      (∀ c ∈ digits, c.isDigit = true) ∧ (∀ c ∈ rest.head?, c.isDigit = false) ∧
      digits <:+: text.toList := by
  obtain ⟨plus, hsign⟩ := eq_append_dropPlus (text.toList.dropWhile Text.isBlank)
  generalize dropPlus (text.toList.dropWhile Text.isBlank) = body at hsign ⊢
  have hparts : body.takeWhile Char.isDigit ++ body.dropWhile Char.isDigit = body :=
    List.takeWhile_append_dropWhile
  refine ⟨_, _, hparts.symm, fun c => List.mem_takeWhile_imp, fun c hc => ?_,
    text.toList.takeWhile Text.isBlank ++ (if plus then ['+'] else []),
    body.dropWhile Char.isDigit, ?_⟩
  · have hhead := List.head?_dropWhile_not Char.isDigit body
    rw [Option.mem_def.mp hc] at hhead
    simpa using hhead
  · rw [List.append_assoc, List.append_assoc, hparts, ← hsign, List.takeWhile_append_dropWhile]

section Body

variable (hbody : dropPlus (text.toList.dropWhile Text.isBlank) = digits ++ rest)
  (hdigits : ∀ c ∈ digits, c.isDigit = true) (hrest : ∀ c ∈ rest.head?, c.isDigit = false)

include hbody hdigits hrest

/-- A text with few digits is read by its form, or it is no size. -/
theorem readSize_of_short (hshort : digits.length ≤ Text.digitLimit) :
    (∃ form : SizeText, form.chars = text.toList ∧ form.digits = digits ∧
        readSize text = .ok form.value) ∨
      readSize text = .error (.build (.invalidSize text)) := by
  obtain ⟨htake, hdrop⟩ := takeWhile_digits hdigits hrest
  by_cases hnone : digits = []
  · have hempty : digits.isEmpty = true := by simpa using hnone
    refine .inr ?_
    simp only [readSize, hbody, htake, if_pos hempty]
  have hsome : ¬ digits.isEmpty = true := by simpa using hnone
  have hread := readDigits_eq_ok.mpr ⟨hshort, rfl⟩
  match rest with
  | [] =>
      obtain ⟨form, hchars, rfl, -⟩ := SizeText.exists_of_body none hbody hdigits hnone (by simp)
      exact .inl ⟨form, hchars, rfl, form.readSize_eq hchars hshort⟩
  | [suffix] =>
      cases hmultiple : multipleOf? suffix with
      | none =>
          refine .inr ?_
          simp only [readSize, hbody, htake, hdrop, if_neg hsome, hread, Except.bind, hmultiple,
            ite_self]
      | some multiple =>
          have hentry := multipleOf?_eq_some.mp hmultiple
          obtain ⟨form, hchars, rfl, -⟩ := SizeText.exists_of_body (some (suffix, multiple)) hbody
            hdigits hnone (by simpa using hentry)
          exact .inl ⟨form, hchars, rfl, form.readSize_eq hchars hshort⟩
  | _ :: _ :: _ =>
      refine .inr ?_
      simp only [readSize, hbody, htake, hdrop, if_neg hsome]

/-- A text with more digits than are read is refused for them, if nothing else is wrong. -/
theorem readSize_of_long (hlong : Text.digitLimit < digits.length) :
    readSize text = .error (.build (.invalidSize text)) ∨
      readSize text = .error (.misuse (.longNumeral digits.length)) := by
  obtain ⟨htake, hdrop⟩ := takeWhile_digits hdigits hrest
  have hsome : ¬ digits.isEmpty = true := by
    rw [List.isEmpty_iff_length_eq_zero]
    omega
  simp only [readSize, hbody, htake, hdrop]
  rw [if_neg hsome, readDigits_eq_error.mpr ⟨hlong, rfl⟩]
  match rest with
  | [] => exact .inr rfl
  | [suffix] =>
      dsimp only
      split
      · exact .inr rfl
      · exact .inl rfl
  | _ :: _ :: _ => exact .inl rfl

end Body

/-- What is read is what has the form of a size, with no more digits than are read. -/
theorem readSize_eq_ok : readSize text = .ok value ↔
    ∃ form : SizeText, form.chars = text.toList ∧ form.digits.length ≤ Text.digitLimit ∧
      form.value = value := by
  constructor
  · intro hread
    obtain ⟨digits, rest, hbody, hdigits, hrest, -⟩ := exists_body text
    by_cases hshort : digits.length ≤ Text.digitLimit
    · obtain ⟨form, hchars, rfl, hform⟩ | hinvalid := readSize_of_short hbody hdigits hrest hshort
      · exact ⟨form, hchars, hshort, Except.ok.inj (hform.symm.trans hread)⟩
      · exact absurd (hinvalid.symm.trans hread) (by simp)
    · obtain hinvalid | hrefused := readSize_of_long hbody hdigits hrest (Nat.lt_of_not_le hshort)
      · exact absurd (hinvalid.symm.trans hread) (by simp)
      · exact absurd (hrefused.symm.trans hread) (by simp)
  · rintro ⟨form, hchars, hshort, rfl⟩
    exact form.readSize_eq hchars hshort

/-- What is not read is no size, or holds a row of more digits than are read. -/
theorem readSize_error (hread : readSize text = .error failure) :
    failure = .build (.invalidSize text) ∨
      ∃ run, run <:+: text.toList ∧ (∀ c ∈ run, c.isDigit = true) ∧
        Text.digitLimit < run.length ∧ failure = .misuse (.longNumeral run.length) := by
  obtain ⟨digits, rest, hbody, hdigits, hrest, hinside⟩ := exists_body text
  by_cases hshort : digits.length ≤ Text.digitLimit
  · obtain ⟨form, -, -, hform⟩ | hinvalid := readSize_of_short hbody hdigits hrest hshort
    · exact absurd (hform.symm.trans hread) (by simp)
    · exact .inl (Except.error.inj (hread.symm.trans hinvalid))
  · have hlong := Nat.lt_of_not_le hshort
    obtain hinvalid | hrefused := readSize_of_long hbody hdigits hrest hlong
    · exact .inl (Except.error.inj (hread.symm.trans hinvalid))
    · exact .inr ⟨digits, hinside, hdigits, hlong, Except.error.inj (hread.symm.trans hrefused)⟩

/-- The decimal text of a number is read as the number, and with a letter behind it as so many
multiples. -/
theorem readSize_decimal {number : Nat} (hshort : (toString number).length ≤ Text.digitLimit)
    {unit : Option (Char × Nat)} (hunit : ∀ entry ∈ unit, entry ∈ sizeUnits) :
    readSize (toString number ++ String.ofList (unit.map (·.1)).toList)
      = .ok (number * (unit.map (·.2)).getD 1) := by
  have hdigits : (toString number).toList = Nat.toDigits 10 number := Nat.toList_repr
  rw [← String.length_toList, hdigits] at hshort
  refine readSize_eq_ok.mpr ⟨⟨[], false, Nat.toDigits 10 number, unit, by simp,
    fun c => Nat.isDigit_of_mem_toDigits (by decide) (by decide), Nat.toDigits_ne_nil, hunit⟩,
    ?_, hshort, ?_⟩
  · rw [String.toList_append, hdigits, String.toList_ofList]
    rfl
  · rw [SizeText.value, Nat.ofDigitChars_ten_toDigits]

/-- **Which texts are sizes.** Where no row of digits is longer than what is read, a text is read as
a value if and only if it has the form of a size with this value: blanks, a plus sign or none, at
least one digit, and at most one letter for a multiple, with nothing else before, between or behind.
Every other text is refused as no size, with the text as it was given. So the decimal text of a
number, with any of the letters or none behind it, is read as the number times the multiple. -/
theorem readSize_accepts :
    (∀ text, HasShortNumerals text →
      (∀ value, readSize text = .ok value ↔
        ∃ form : SizeText, form.chars = text.toList ∧ form.value = value) ∧
      ((¬ ∃ form : SizeText, form.chars = text.toList) →
        ∃ error, readSize text = .error (.build error) ∧ error = .invalidSize text ∧
          error.context = text ∧ error.detail = "invalid size.")) ∧
    ∀ number : Nat, (toString number).length ≤ Text.digitLimit →
      ∀ unit : Option (Char × Nat), (∀ entry ∈ unit, entry ∈ sizeUnits) →
        readSize (toString number ++ String.ofList (unit.map (·.1)).toList)
          = .ok (number * (unit.map (·.2)).getD 1) := by
  refine ⟨fun text hnumerals => ?_, fun number hshort unit hunit => readSize_decimal hshort hunit⟩
  have hread (value : Nat) : readSize text = .ok value ↔
      ∃ form : SizeText, form.chars = text.toList ∧ form.value = value := by
    rw [readSize_eq_ok]
    constructor
    · rintro ⟨form, hchars, -, hvalue⟩
      exact ⟨form, hchars, hvalue⟩
    rintro ⟨form, hchars, hvalue⟩
    refine ⟨form, hchars, hnumerals form.digits ?_ form.isDigit, hvalue⟩
    rw [← hchars, SizeText.chars]
    exact ⟨form.blanks ++ (if form.plus then ['+'] else []), form.letters, by simp⟩
  refine ⟨hread, fun hnone => ?_⟩
  cases houtcome : readSize text with
  | ok value =>
      obtain ⟨form, hchars, -⟩ := (hread value).mp houtcome
      exact absurd ⟨form, hchars⟩ hnone
  | error failure =>
      obtain rfl | ⟨run, hinside, hdigits, hlong, -⟩ := readSize_error houtcome
      · exact ⟨.invalidSize text, rfl, rfl, rfl, rfl⟩
      · exact absurd (hnumerals run hinside hdigits) (Nat.not_le_of_lt hlong)

/-- Blanks, a plus sign and zeros in front do not matter; a blank between the number and its letter
does. -/
theorem readSize_accepts_spelled :
    readSize "\t +007k" = .ok 7168 ∧
      readSize "12 k" = .error (.build (.invalidSize "12 k")) ∧
      readSize "20G" = .ok (20 * 1024 * 1024 * 1024) := by
  have hshort {text : String} (hlength : text.toList.length ≤ Text.digitLimit) :
      HasShortNumerals text := fun run hinside _ => Nat.le_trans hinside.length_le hlength
  obtain ⟨hread, -⟩ := readSize_accepts.1 "\t +007k" (hshort (by decide))
  obtain ⟨hread', hrefused⟩ := readSize_accepts.1 "12 k" (hshort (by decide))
  refine ⟨(hread 7168).mpr ?_, ?_,
    readSize_accepts.2 20 (by decide) (some ('G', 1024 * 1024 * 1024)) (by decide)⟩
  · exact ⟨⟨['\t', ' '], true, ['0', '0', '7'], some ('k', 1024),
      by simp [Text.isBlank, Text.blankRanges], by simp [Char.isDigit], by simp, by decide⟩,
      by decide, by decide⟩
  · obtain ⟨error, hinvalid, rfl, -⟩ := hrefused fun ⟨form, hchars⟩ => by
      have hvalue := congrArg Except.isOk ((hread' form.value).mpr ⟨form, hchars, rfl⟩)
      have hunread : (readSize "12 k").isOk = false := by decide
      exact absurd (hunread.symm.trans hvalue) Bool.false_ne_true
    exact hinvalid

end RomImage
