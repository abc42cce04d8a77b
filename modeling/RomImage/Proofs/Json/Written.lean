import RomImage.Proofs.Json.Reader
import RomImage.Proofs.Size

/-!
# Written JSON is read back

What `Json.render` writes, in either style and with any indent, is read as the value that was
written (`read?_render`). So no two values have a text in common (`render_injective`).
-/

namespace RomImage.Json

/-! ### Blanks and marks -/

/-- A text that does not begin with a digit: a number in front of it ends there. -/
def EndsNumber (rest : List Char) : Prop :=
  ∀ c ∈ rest.head?, c.isDigit = false

def BeginsApart (close : Char) (written : List Char) : Prop :=
  ∃ c rest, written = c :: rest ∧ isBlank c = false ∧ c ≠ close

/-- Between the items of a row there are blanks and nothing else. -/
theorem isBlank_of_mem_lineBreak {style : Style} {depth : Nat} :
    ∀ c ∈ lineBreak style depth, isBlank c = true := by
  cases style with
  | compact => simp [lineBreak]
  | indented width =>
    rintro c (_ | ⟨_, hc⟩)
    · rfl
    · rw [List.eq_of_mem_replicate hc]
      rfl

theorem expect?_lineBreak (style : Style) (depth : Nat) {c : Char} (hc : isBlank c = false)
    (mark : Char) (rest : List Char) :
    expect? mark (lineBreak style depth ++ c :: rest) = if c = mark then some rest else none :=
  expect?_of_blanks isBlank_of_mem_lineBreak hc mark rest

theorem endsNumber_lineBreak (style : Style) (depth : Nat) {rest : List Char}
    (hrest : EndsNumber rest) : EndsNumber (lineBreak style depth ++ rest) := by
  cases style with
  | compact => exact hrest
  | indented width => simp [EndsNumber, lineBreak]

/-! ### Strings -/

theorem hexadecimal?_paddedHex {code : Nat} (hcode : code < 0x20) :
    ∃ first second third fourth, Text.paddedHex 4 code = [first, second, third, fourth] ∧
      hexadecimal? [first, second, third, fourth] = some code := by
  have hall : ∀ code < 0x20,
      Text.paddedHex 4 code = ['0', '0', (code / 16).digitChar, (code % 16).digitChar] ∧
        hexadecimal? ['0', '0', (code / 16).digitChar, (code % 16).digitChar] = some code := by
    decide
  exact ⟨_, _, _, _, hall code hcode⟩

/-- A character is escaped by a letter or by its code, or it stands for itself. -/
theorem escapeChar_cases (c : Char) :
    (∃ letter, escapeChar c = ['\\', letter] ∧ escaped? letter = some c) ∨
      (c.toNat < 0x20 ∧ escapeChar c = '\\' :: 'u' :: Text.paddedHex 4 c.toNat) ∨
      (c ≠ '"' ∧ c ≠ '\\' ∧ 0x20 ≤ c.toNat ∧ escapeChar c = [c]) := by
  unfold escapeChar
  split_ifs with hquote hbackslash hbackspace htab hnewline hfeed hreturn hcontrol
  iterate 7
    · subst c
      exact .inl ⟨_, rfl, rfl⟩
  · exact .inr (.inl ⟨hcontrol, rfl⟩)
  · exact .inr (.inr ⟨hquote, hbackslash, Nat.le_of_not_lt hcontrol, rfl⟩)

/-- An escaped character is read as its code. -/
theorem readCodes_escapeChar (c : Char) (rest : List Char) :
    readCodes (escapeChar c ++ rest) =
      (readCodes rest).map fun (codes, rest) => (c.toNat :: codes, rest) := by
  obtain ⟨letter, hescape, hletter⟩ | ⟨hcontrol, hescape⟩ | ⟨hquote, hbackslash, hspace, hescape⟩ :=
    escapeChar_cases c
  · have hu : letter ≠ 'u' := by
      have hcode : escaped? 'u' = none := rfl
      rintro rfl
      simp [hcode] at hletter
    rw [hescape, List.cons_append, List.cons_append, List.nil_append, readCodes, hletter]
    · cases readCodes rest <;> rfl
    · simp [hu]
  · obtain ⟨first, second, third, fourth, hdigits, hcode⟩ := hexadecimal?_paddedHex hcontrol
    rw [hescape, hdigits]
    simp only [List.cons_append, List.nil_append, readCodes, hcode]
    cases readCodes rest <;> rfl
  · rw [hescape, List.cons_append, List.nil_append, readCodes, if_neg (Nat.not_lt.mpr hspace)]
    · cases readCodes rest <;> rfl
    · exact hquote
    · simp [hbackslash]
    · simp [hbackslash]

theorem readCodes_escaped (chars rest : List Char) :
    readCodes (chars.flatMap escapeChar ++ '"' :: rest) = some (chars.map Char.toNat, rest) := by
  induction chars with
  | nil => simp [readCodes]
  | cons c chars ih =>
    rw [List.flatMap_cons, List.append_assoc, readCodes_escapeChar, ih]
    rfl

theorem character?_toNat (c : Char) : character? c.toNat = some c := by
  have hvalid : c.toNat.isValidChar := c.valid
  rw [character?, if_pos hvalid, Char.ofNat_toNat]

/-- No character is one half of a pair of surrogates, so each code gives its own character. -/
theorem characters?_toNat (chars : List Char) :
    characters? (chars.map Char.toNat) = some chars := by
  induction chars with
  | nil => rfl
  | cons c chars ih =>
    have hvalid : c.toNat.isValidChar := c.valid
    cases chars with
    | nil => simp [characters?, character?_toNat]
    | cons next chars =>
      have halone : ¬(0xd800 ≤ c.toNat ∧ c.toNat < 0xdc00 ∧ 0xdc00 ≤ next.toNat ∧
          next.toNat < 0xe000) := by
        unfold Nat.isValidChar at hvalid
        omega
      simp only [List.map_cons, characters?, if_neg halone, character?_toNat]
      rw [← List.map_cons, ih]
      rfl

/-- A string is read back behind its opening quote. -/
theorem readText_writeString (value : String) (rest : List Char) :
    ∃ opened, writeString value ++ rest = '"' :: opened ∧ readText opened = some (value, rest) := by
  refine ⟨value.toList.flatMap escapeChar ++ '"' :: rest, by simp [writeString], ?_⟩
  simp [readText, readCodes_escaped, characters?_toNat]

/-! ### Numbers -/

theorem isDigit_of_mem_toDigits {value : Nat} : ∀ c ∈ Nat.toDigits 10 value, c.isDigit = true :=
  fun _ hc => Nat.isDigit_of_mem_toDigits (by decide) (by decide) hc

/-- Only the number zero has a zero in front. -/
theorem head?_toDigits_ne_zero {value : Nat} (hvalue : 0 < value) :
    (Nat.toDigits 10 value).head? ≠ some '0' := by
  induction value using Nat.strongRecOn with
  | ind value ih =>
    rw [Nat.toDigits_eq_if (by decide)]
    split
    · simpa using hvalue.ne'
    · rw [List.head?_append, Option.or_of_isSome (by simp [Nat.toDigits_ne_nil])]
      exact ih _ (by omega) (by omega)

/-- A number is read back where no digit follows it. -/
theorem readNatural_toDigits (value : Nat) {rest : List Char} (hrest : EndsNumber rest) :
    readNatural (Nat.toDigits 10 value ++ rest) = some (value, rest) := by
  have hzero : ¬(Nat.toDigits 10 value = [] ∨
      (Nat.toDigits 10 value).head? = some '0' ∧ Nat.toDigits 10 value ≠ ['0']) := by
    rintro (hnil | ⟨hhead, hne⟩)
    · exact Nat.toDigits_ne_nil hnil
    · obtain rfl | hpos := Nat.eq_zero_or_pos value
      · exact hne rfl
      · exact head?_toDigits_ne_zero hpos hhead
  obtain ⟨htake, hdrop⟩ := takeWhile_digits isDigit_of_mem_toDigits hrest
  rw [readNatural, htake, hdrop, if_neg hzero, Nat.ofDigitChars_ten_toDigits]

theorem toList_toString (value : Int) :
    (toString value).toList =
      if 0 ≤ value then Nat.toDigits 10 value.toNat else '-' :: Nat.toDigits 10 (-value).toNat := by
  rw [Int.toString_eq_repr, Int.repr_eq_if]
  split
  · rw [Nat.toList_repr]
  · rw [String.toList_append, Nat.toList_repr]
    rfl

theorem exists_digits_cons (value : Nat) :
    ∃ c rest, Nat.toDigits 10 value = c :: rest ∧ c.isDigit = true := by
  have hne : Nat.toDigits 10 value ≠ [] := Nat.toDigits_ne_nil
  obtain ⟨c, rest, hdigits⟩ := List.exists_cons_of_ne_nil hne
  exact ⟨c, rest, hdigits, isDigit_of_mem_toDigits c (hdigits ▸ List.mem_cons_self)⟩

/-- A number begins with a minus sign or with a digit. -/
theorem exists_number_cons (value : Int) :
    ∃ c rest, (toString value).toList = c :: rest ∧ OpensNumber c := by
  rw [toList_toString]
  split
  · obtain ⟨c, rest, hdigits, hc⟩ := exists_digits_cons value.toNat
    exact ⟨c, rest, hdigits, .inr hc⟩
  · exact ⟨_, _, rfl, .inl rfl⟩

theorem readNumber_toString (value : Int) {rest : List Char} (hrest : EndsNumber rest) :
    readNumber ((toString value).toList ++ rest) = some (number value, rest) := by
  rw [toList_toString]
  split
  · rename_i hsign
    obtain ⟨c, tail, hdigits, hc⟩ := exists_digits_cons value.toNat
    have hminus : c ≠ '-' := by
      rintro rfl
      exact absurd hc (by decide)
    have hread := readNatural_toDigits value.toNat hrest
    rw [hdigits, List.cons_append] at hread ⊢
    rw [readNumber, hread]
    · simp [Int.toNat_of_nonneg hsign]
    · simp [hminus]
  · rename_i hsign
    have hnonneg : 0 ≤ -value := by omega
    rw [List.cons_append, readNumber, readNatural_toDigits _ hrest]
    simp [Int.toNat_of_nonneg hnonneg]

/-! ### Rows -/

/-- An item is read back from what is written for it, behind any blanks and in front of anything
that does not go on with a digit. -/
def ReadsBack {α : Type} (readOne : List Char → Option (α × List Char)) (writeOne : α → List Char)
    (item : α) : Prop :=
  ∀ blanks rest, (∀ c ∈ blanks, isBlank c = true) → EndsNumber rest →
    readOne (blanks ++ (writeOne item ++ rest)) = some (item, rest)

structure ClosesRow (close : Char) : Prop where
  isBlank : isBlank close = false
  isDigit : close.isDigit = false
  ne_comma : close ≠ ','

theorem closesRow_bracket : ClosesRow ']' := ⟨by decide, by decide, by decide⟩

theorem closesRow_brace : ClosesRow '\x7d' := ⟨by decide, by decide, by decide⟩

def furtherItems {α : Type} (style : Style) (depth : Nat) (writeOne : α → List Char)
    (items : List α) : List Char :=
  items.flatMap fun item => ',' :: (lineBreak style depth ++ writeOne item)

def rowItems {α : Type} (style : Style) (depth : Nat) (writeOne : α → List Char) :
    List α → List Char
  | [] => []
  | item :: items =>
    lineBreak style (depth + 1) ++ (writeOne item ++
      (furtherItems style (depth + 1) writeOne items ++ lineBreak style depth))

section Rows

variable {α : Type} {close : Char} {item : α} {items : List α} {writeOne : α → List Char}
  {readOne : List Char → Option (α × List Char)} (style : Style) (depth outer : Nat)

theorem length_le_furtherItems (writeOne : α → List Char) (items : List α) :
    items.length ≤ (furtherItems style depth writeOne items).length := by
  induction items with
  | nil => exact Nat.zero_le _
  | cons item items ih =>
    rw [furtherItems, List.flatMap_cons, List.length_append, List.length_cons, List.length_cons,
      ← furtherItems]
    omega

theorem length_le_of_mem_further (writeOne : α → List Char) (hitem : item ∈ items) :
    (writeOne item).length ≤ (furtherItems style depth writeOne items).length := by
  induction items with
  | nil => exact absurd hitem List.not_mem_nil
  | cons first items ih =>
    rw [furtherItems, List.flatMap_cons, List.length_append, List.length_cons, List.length_append,
      ← furtherItems]
    obtain rfl | hitem := List.mem_cons.mp hitem
    · omega
    · have hlength := ih hitem
      omega

/-- An item takes no more room than its row. -/
theorem length_le_rowItems (writeOne : α → List Char) (hitem : item ∈ items) :
    (writeOne item).length ≤ (rowItems style depth writeOne items).length := by
  cases items with
  | nil => exact absurd hitem List.not_mem_nil
  | cons first items =>
    simp only [rowItems, List.length_append]
    obtain rfl | hitem := List.mem_cons.mp hitem
    · omega
    · have hlength := length_le_of_mem_further style (depth + 1) writeOne hitem
      omega

/-- Behind an item of a row come the items after it, the closing mark and what follows the row. -/
theorem ReadsBack.in_row (hitem : ReadsBack readOne writeOne item) (hclose : ClosesRow close)
    (items : List α) (rest : List Char) :
    readOne (lineBreak style depth ++ (writeOne item ++
        (furtherItems style depth writeOne items ++ (lineBreak style outer ++ close :: rest)))) =
      some (item,
        furtherItems style depth writeOne items ++ (lineBreak style outer ++ close :: rest)) := by
  refine hitem _ _ isBlank_of_mem_lineBreak ?_
  cases items with
  | nil => exact endsNumber_lineBreak style outer (by simp [EndsNumber, hclose.isDigit])
  | cons next items => simp [EndsNumber, furtherItems]

theorem readMore_furtherItems (hclose : ClosesRow close)
    (hitems : ∀ item ∈ items, ReadsBack readOne writeOne item) (rest : List Char) {count : Nat}
    (hcount : items.length ≤ count) :
    readMore close readOne count
        (furtherItems style depth writeOne items ++ (lineBreak style outer ++ close :: rest)) =
      some (items, rest) := by
  induction items generalizing count with
  | nil =>
    have hexpect := expect?_lineBreak style outer hclose.isBlank
    cases count <;> simp [readMore, furtherItems, hexpect, hclose.ne_comma]
  | cons item items ih =>
    obtain ⟨hitem, hitems⟩ := List.forall_mem_cons.mp hitems
    cases count with
    | zero => exact absurd hcount (by simp)
    | succ count =>
      have hread := hitem.in_row style depth outer hclose items rest
      have hmore := ih hitems (Nat.le_of_succ_le_succ hcount)
      rw [furtherItems, List.flatMap_cons, ← furtherItems, List.cons_append, List.cons_append,
        readMore, expect?_cons (by decide), if_pos rfl]
      simp [hread, hmore]

/-- A row is read back where its items are. -/
theorem readRow_rowItems (hclose : ClosesRow close)
    (hitems : ∀ item ∈ items, ReadsBack readOne writeOne item)
    (hbegins : ∀ item ∈ items, BeginsApart close (writeOne item)) (rest : List Char) :
    readRow close readOne (rowItems style depth writeOne items ++ close :: rest) =
      some (items, rest) := by
  cases items with
  | nil => simp [readRow, rowItems, expect?_cons hclose.isBlank]
  | cons item items =>
    obtain ⟨hitem, hitems⟩ := List.forall_mem_cons.mp hitems
    obtain ⟨c, opened, hopened, hc, hne⟩ := hbegins item List.mem_cons_self
    have hopen : expect? close (rowItems style depth writeOne (item :: items) ++ close :: rest) =
        none := by
      simp only [rowItems, hopened, List.append_assoc, List.cons_append]
      rw [expect?_lineBreak _ _ hc, if_neg hne]
    have hcount : items.length ≤
        (rowItems style depth writeOne (item :: items) ++ close :: rest).length := by
      have hlength := length_le_furtherItems style (depth + 1) writeOne items
      simp only [rowItems, List.length_append]
      omega
    have hread := hitem.in_row style (depth + 1) depth hclose items rest
    have hmore := readMore_furtherItems style (depth + 1) depth hclose hitems rest hcount
    rw [readRow, hopen]
    -- The bound on the count names the row itself, which is now opened at its first item.
    generalize (rowItems style depth writeOne (item :: items) ++ close :: rest).length = count
      at hmore
    simp [rowItems, hread, hmore]

end Rows

theorem writeItems_eq (style : Style) (depth : Nat) (items : List Json) :
    writeItems style depth items = furtherItems style depth (write style depth) items := by
  induction items with
  | nil => rfl
  | cons item items ih => simp [writeItems, furtherItems, ih]

theorem writeMembers_eq (style : Style) (depth : Nat) (members : List (String × Json)) :
    writeMembers style depth members =
      furtherItems style depth (writeMember style depth) members := by
  induction members with
  | nil => rfl
  | cons member members ih => simp [writeMembers, furtherItems, ih]

theorem write_array (style : Style) (depth : Nat) (items : List Json) :
    write style depth (array items) =
      '[' :: (rowItems style depth (write style (depth + 1)) items ++ [']']) := by
  cases items with
  | nil => rfl
  | cons item items => simp [write, rowItems, writeItems_eq]

theorem write_object (style : Style) (depth : Nat) (members : List (String × Json)) :
    write style depth (object members) =
      '\x7b' :: (rowItems style depth (writeMember style (depth + 1)) members ++ ['\x7d']) := by
  cases members with
  | nil => rfl
  | cons member members => simp [write, rowItems, writeMembers_eq]

/-! ### Values -/

theorem beginsApart_write (style : Style) (depth : Nat) (value : Json) :
    BeginsApart ']' (write style depth value) := by
  cases value with
  | null => exact ⟨_, _, rfl, by decide, by decide⟩
  | boolean value => cases value <;> exact ⟨_, _, rfl, by decide, by decide⟩
  | number value =>
    obtain ⟨c, rest, hnumber, hc⟩ := exists_number_cons value
    exact ⟨c, rest, hnumber, hc.isBlank, hc.ne (by decide)⟩
  | text value => exact ⟨_, _, rfl, by decide, by decide⟩
  | array items => exact write_array .. ▸ ⟨_, _, rfl, by decide, by decide⟩
  | object members => exact write_object .. ▸ ⟨_, _, rfl, by decide, by decide⟩

theorem beginsApart_writeMember (style : Style) (depth : Nat) (member : String × Json) :
    BeginsApart '\x7d' (writeMember style depth member) := by
  obtain ⟨opened, hopened, -⟩ := readText_writeString member.1 (colon style ++
    write style depth member.2)
  exact ⟨'"', opened, by rw [writeMember, List.append_assoc, hopened], by decide, by decide⟩

theorem expect?_colon (style : Style) (rest : List Char) :
    ∃ blanks, (∀ c ∈ blanks, isBlank c = true) ∧
      expect? ':' (colon style ++ rest) = some (blanks ++ rest) := by
  cases style with
  | compact => exact ⟨[], by simp, rfl⟩
  | indented width => exact ⟨[' '], by simp [isBlank], rfl⟩

/-- A member is read back where its value is. -/
theorem readsBack_writeMember {readOne : List Char → Option (Json × List Char)} {style : Style}
    {depth : Nat} {member : String × Json}
    (hvalue : ReadsBack readOne (write style depth) member.2) :
    ReadsBack (readMember readOne) (writeMember style depth) member := by
  intro blanks rest hblanks hrest
  obtain ⟨name, value⟩ := member
  obtain ⟨opened, hopened, hname⟩ :=
    readText_writeString name (colon style ++ (write style depth value ++ rest))
  obtain ⟨spaces, hspaces, hcolon⟩ := expect?_colon style (write style depth value ++ rest)
  rw [writeMember, List.append_assoc, List.append_assoc, hopened, readMember,
    expect?_of_blanks hblanks (by decide), if_pos rfl]
  simp [hname, hcolon, hvalue spaces rest hspaces hrest]

/-- An item takes less room than its array. -/
theorem length_item_lt (style : Style) (depth : Nat) {item : Json} {items : List Json}
    (hitem : item ∈ items) :
    (write style (depth + 1) item).length < (write style depth (array items)).length := by
  have hlength := length_le_rowItems style depth (write style (depth + 1)) hitem
  rw [write_array, List.length_cons, List.length_append]
  omega

/-- The value of a member takes less room than the object. -/
theorem length_member_lt (style : Style) (depth : Nat) {member : String × Json}
    {members : List (String × Json)} (hmember : member ∈ members) :
    (write style (depth + 1) member.2).length < (write style depth (object members)).length := by
  have hlength := length_le_rowItems style depth (writeMember style (depth + 1)) hmember
  rw [writeMember, List.length_append] at hlength
  rw [write_object, List.length_cons, List.length_append]
  omega

/-- **A value is read back from what is written for it.** -/
theorem readsBack_write (style : Style) {bound depth : Nat} {value : Json}
    (hbound : (write style depth value).length ≤ bound) :
    ReadsBack (readValue bound) (write style depth) value := by
  -- The reader goes down one level for the items of a row, and each is shorter than its row.
  induction bound generalizing depth value with
  | zero =>
    obtain ⟨c, rest, hwritten, -⟩ := beginsApart_write style depth value
    simp [hwritten] at hbound
  | succ bound ih =>
    intro blanks rest hblanks hrest
    rw [readValue_blanks _ hblanks]
    cases value with
    | null => rfl
    | boolean value => cases value <;> rfl
    | number value =>
      obtain ⟨c, tail, hnumber, hc⟩ := exists_number_cons value
      have hread := readNumber_toString value hrest
      rw [hnumber] at hread
      rw [write, hnumber, List.cons_append, readValue_number bound hc]
      exact hread
    | text value =>
      obtain ⟨opened, hopened, hread⟩ := readText_writeString value rest
      rw [write, hopened, readValue_quote, hread]
      rfl
    | array items =>
      have hitems : ∀ item ∈ items, ReadsBack (readValue bound) (write style (depth + 1)) item :=
        fun item hitem =>
          ih (Nat.le_of_lt_succ ((length_item_lt style depth hitem).trans_le hbound))
      rw [write_array, List.cons_append, List.append_assoc, List.singleton_append,
        readValue_bracket, readRow_rowItems style depth closesRow_bracket hitems
          fun item _ => beginsApart_write style (depth + 1) item]
      rfl
    | object members =>
      have hmembers : ∀ member ∈ members,
          ReadsBack (readMember (readValue bound)) (writeMember style (depth + 1)) member :=
        fun member hmember => readsBack_writeMember
          (ih (Nat.le_of_lt_succ ((length_member_lt style depth hmember).trans_le hbound)))
      rw [write_object, List.cons_append, List.append_assoc, List.singleton_append,
        readValue_brace, readRow_rowItems style depth closesRow_brace hmembers
          fun member _ => beginsApart_writeMember style (depth + 1) member]
      rfl

/-- **What is written in any style is read as what was written.** -/
theorem read?_render (style : Style) (value : Json) : read? (value.render style) = some value := by
  have hback : ReadsBack (readValue (write style 0 value).length) (write style 0) value :=
    readsBack_write style (Nat.le_refl _)
  have hread := hback [] [] (by simp) (by simp [EndsNumber])
  rw [List.nil_append, List.append_nil] at hread
  rw [read?, render, String.toList_ofList, String.length_ofList, hread]
  rfl

/-- Two values have no text in common, even in two styles. -/
theorem render_injective {style otherStyle : Style} {value other : Json}
    (hsame : value.render style = other.render otherStyle) : value = other := by
  have hread := read?_render style value
  rw [hsame, read?_render otherStyle other] at hread
  exact (Option.some.inj hread).symm

end RomImage.Json
