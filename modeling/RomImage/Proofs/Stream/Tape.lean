import RomImage.Stream.Tape

/-!
# Tapes as lists of bytes

Contents are packed, and the packing carries no information: `Contents.bytes_injective`. So a tape
is its list of bytes and its position. Reading is taking from what lies ahead, and writes in
sequence are one write of the concatenation (`Tape.write_append`), which is what makes a transfer
independent of how it is cut into chunks.
-/

namespace RomImage

namespace Contents

theorem bytes_injective : Function.Injective bytes := by
  rintro ⟨left⟩ ⟨right⟩ hbytes
  have hdata : left = right := Array.toList_inj.mp hbytes
  rw [hdata]

@[simp] theorem bytes_empty : bytes .empty = [] := rfl

def ofBytes (data : Bytes) : Contents := append .empty data

@[simp] theorem store_nil (contents : Contents) (position : Nat) :
    contents.store position [] = contents := rfl

theorem size_store (contents : Contents) (position : Nat) (data : Bytes) (hdata : data ≠ []) :
    (contents.store position data).size = max contents.size (position + data.length) := by
  have hlength := congrArg List.length (bytes_store contents position data hdata)
  simp only [length_bytes, List.length_append, List.length_take, List.length_replicate,
    List.length_drop] at hlength
  omega

theorem store_append (contents : Contents) (position : Nat) (first second : Bytes) :
    (contents.store position first).store (position + first.length) second
      = contents.store position (first ++ second) := by
  by_cases hfirst : first = []
  · rw [hfirst, store_nil, List.length_nil, Nat.add_zero, List.nil_append]
  by_cases hsecond : second = []
  · rw [hsecond, store_nil, List.append_nil]
  have hboth : first ++ second ≠ [] := List.append_ne_nil_of_left_ne_nil hfirst second
  have hnogap : position + first.length - (contents.store position first).size = 0 := by
    rw [size_store contents position first hfirst]
    omega
  have hfront : (contents.bytes.take position
      ++ List.replicate (position - contents.size) 0 ++ first).length
        = position + first.length := by
    simp only [List.length_append, List.length_take, List.length_replicate, length_bytes]
    omega
  apply bytes_injective
  rw [bytes_store _ _ second hsecond, bytes_store _ _ _ hboth, hnogap,
    bytes_store contents position first hfirst, List.replicate_zero, List.append_nil,
    List.take_left' hfront, ← List.drop_drop, List.drop_left' hfront, List.drop_drop,
    List.length_append]
  simp only [List.append_assoc, Nat.add_assoc]

end Contents

namespace Tape

def ahead (tape : Tape) : Bytes := tape.contents.bytes.drop tape.position

def advance (tape : Tape) (count : Nat) : Tape :=
  { tape with position := tape.position + count }

def moved (tape : Tape) (position : Nat) : Tape :=
  { tape with position }

@[simp] theorem advance_zero (tape : Tape) : tape.advance 0 = tape := rfl

@[simp] theorem advance_advance (tape : Tape) (first second : Nat) :
    (tape.advance first).advance second = tape.advance (first + second) := by
  simp only [advance, Nat.add_assoc]

@[simp] theorem ahead_advance (tape : Tape) (count : Nat) :
    (tape.advance count).ahead = tape.ahead.drop count := by
  simp only [ahead, advance, List.drop_drop]

/-- A tape that has as many bytes ahead as there are is at its start, unless there are none. -/
theorem whole_ahead {tape : Tape} (hwhole : tape.contents.size ≤ tape.ahead.length) :
    tape.ahead = tape.contents.bytes ∧ (tape.contents.bytes ≠ [] → tape.position = 0) := by
  rw [ahead, List.length_drop, Contents.length_bytes] at hwhole
  by_cases hempty : tape.contents.bytes = []
  · rw [ahead, hempty, List.drop_nil]
    exact ⟨rfl, fun hsome => absurd rfl hsome⟩
  · have hlength := List.length_pos_iff.mpr hempty
    rw [Contents.length_bytes] at hlength
    have hstart : tape.position = 0 := by omega
    rw [ahead, hstart, List.drop_zero]
    exact ⟨rfl, fun _ => rfl⟩

theorem read_ne_nil {count : Nat} (tape : Tape) (hcount : 0 < count) (hahead : tape.ahead ≠ []) :
    (tape.read count).1 ≠ [] := by
  have hslice : (tape.read count).1 = tape.ahead.take count :=
    Contents.slice_eq tape.contents tape.position count
  have hlength := List.length_pos_iff.mpr hahead
  rw [hslice, ← List.length_pos_iff, List.length_take]
  omega

/-- A read takes so many bytes as there are, and moves on by as many. -/
theorem read_eq (tape : Tape) (count : Nat) :
    ∃ got ≤ count, got ≤ tape.ahead.length ∧
      tape.read count = (tape.ahead.take got, tape.advance got) := by
  have hslice : tape.contents.slice tape.position count = tape.ahead.take count :=
    Contents.slice_eq tape.contents tape.position count
  refine ⟨min count tape.ahead.length, Nat.min_le_left _ _, Nat.min_le_right _ _, ?_⟩
  rw [List.take_eq_take_min] at hslice
  simp only [read, hslice, List.length_take, Nat.min_assoc, Nat.min_self, advance]

/-- And at least one byte, if any is wanted and ahead. -/
theorem read_some (tape : Tape) (count : Nat) :
    ∃ got ≤ count, got ≤ tape.ahead.length ∧ (0 < count → tape.ahead ≠ [] → 0 < got) ∧
      tape.read count = (tape.ahead.take got, tape.advance got) := by
  obtain ⟨got, hgot, hthere, hread⟩ := tape.read_eq count
  refine ⟨got, hgot, hthere, fun hcount hahead => ?_, hread⟩
  have hsome := List.length_pos_iff.mpr (tape.read_ne_nil hcount hahead)
  rwa [hread, List.length_take_of_le hthere] at hsome

theorem length_read_le (tape : Tape) (count : Nat) : (tape.read count).1.length ≤ count := by
  obtain ⟨got, hgot, hthere, hread⟩ := tape.read_eq count
  rw [hread, List.length_take_of_le hthere]
  exact hgot

@[simp] theorem write_nil (tape : Tape) : tape.write [] = tape := rfl

theorem write_append (tape : Tape) (first second : Bytes) :
    (tape.write first).write second = tape.write (first ++ second) := by
  obtain ⟨contents, position⟩ := tape
  simp only [write, Contents.store_append, List.length_append, Nat.add_assoc]

@[simp] theorem position_write (tape : Tape) (data : Bytes) :
    (tape.write data).position = tape.position + data.length := rfl

/-- A write inside the contents or at their end puts its bytes over what was there. -/
theorem bytes_write (tape : Tape) (data : Bytes) (hinside : tape.position ≤ tape.contents.size) :
    (tape.write data).contents.bytes = tape.contents.bytes.take tape.position ++ data
      ++ tape.contents.bytes.drop (tape.position + data.length) := by
  obtain ⟨contents, position⟩ := tape
  by_cases hdata : data = []
  · rw [hdata, write_nil, List.append_nil, List.length_nil, Nat.add_zero, List.take_append_drop]
  · rw [write, Contents.bytes_store _ _ _ hdata, Nat.sub_eq_zero_of_le hinside,
      List.replicate_zero, List.append_nil]

theorem bytes_write_empty (data : Bytes) : (empty.write data).contents.bytes = data := by
  rw [bytes_write empty data (Nat.zero_le _)]
  simp [empty]

/-- A move from the start to an offset leads there. -/
theorem destination_start (position size offset : Nat) :
    destination position size offset 0 = .ok offset := by
  simp [destination]

/-- A move to the end leads there. -/
theorem destination_end (position size : Nat) : destination position size 0 2 = .ok size := by
  simp [destination]

end Tape

end RomImage
