import RomImage.Bytes

/-!
# Buffers

A buffer has a fixed number of bytes, all zero at first, and transfers store at its front.  Only the
front is kept as bytes; the zeros behind it that nobody has stored over are counted.
`Buffer.bytes` is the view as a list, and the other operations are those of lists in that view.
-/

namespace RomImage

/-- Bytes with so many zeros behind them. -/
structure Buffer where
  front : Bytes
  blank : Nat
  deriving DecidableEq, Repr

namespace Buffer

def ofBytes (bytes : Bytes) : Buffer := ⟨bytes, 0⟩

def zeros (size : Nat) : Buffer := ⟨[], size⟩

def bytes (buffer : Buffer) : Bytes :=
  buffer.front ++ List.replicate buffer.blank 0

def length (buffer : Buffer) : Nat :=
  buffer.front.length + buffer.blank

/-- Stores bytes at the front; the bytes past their end stay. -/
def overwrite (buffer : Buffer) (data : Bytes) : Buffer :=
  match buffer.front.drop data.length with
  | [] => ⟨data, buffer.blank - (data.length - buffer.front.length)⟩
  | byte :: rest => ⟨data ++ byte :: rest, buffer.blank⟩

def take (buffer : Buffer) (count : Nat) : Bytes :=
  let stored := Bytes.first buffer.front count
  let missing := count - stored.length
  if missing = 0 then stored else stored ++ List.replicate (min missing buffer.blank) 0

/--
The part of the buffer before a signed mark: a mark past the end takes everything, a negative mark
counts back from the end.
-/
def upTo (buffer : Buffer) (mark : Int) : Bytes :=
  if mark < 0 then buffer.take (buffer.length - mark.natAbs) else buffer.take mark.toNat

@[simp] theorem length_bytes (buffer : Buffer) : buffer.bytes.length = buffer.length := by
  simp [bytes, length]

@[simp] theorem bytes_ofBytes (bytes : Bytes) : (ofBytes bytes).bytes = bytes := by
  simp [ofBytes, Buffer.bytes]

@[simp] theorem bytes_zeros (size : Nat) : (zeros size).bytes = List.replicate size 0 := rfl

/-- A store shows at the front and nowhere else. -/
theorem bytes_overwrite (buffer : Buffer) (data : Bytes) :
    (buffer.overwrite data).bytes = buffer.bytes.overwrite data := by
  obtain ⟨front, blank⟩ := buffer
  simp only [overwrite, Bytes.overwrite, bytes, List.drop_append]
  split
  · rename_i spent
    simp [spent]
  · rename_i byte rest left
    have longer : data.length < front.length := by
      have := congrArg List.length left
      simp at this
      omega
    simp [left, Nat.sub_eq_zero_of_le (Nat.le_of_lt longer)]

theorem length_overwrite (buffer : Buffer) (data : Bytes) :
    (buffer.overwrite data).length = max buffer.length data.length := by
  rw [← length_bytes, bytes_overwrite, Bytes.overwrite, List.length_append, List.length_drop,
    length_bytes]
  omega

theorem take_eq (buffer : Buffer) (count : Nat) : buffer.take count = buffer.bytes.take count := by
  obtain ⟨front, blank⟩ := buffer
  simp only [take, bytes, Bytes.first_eq, List.take_append, List.length_take]
  rcases Nat.le_total count front.length with inside | outside
  · simp [Nat.min_eq_left inside, Nat.sub_eq_zero_of_le inside]
  · rw [Nat.min_eq_right outside, List.take_replicate]
    split
    · rename_i spent
      simp [spent]
    · rfl

theorem overwrite_nil (buffer : Buffer) : buffer.overwrite [] = buffer := by
  obtain ⟨front, blank⟩ := buffer
  cases front with
  | nil => rfl
  | cons byte rest => rfl

theorem take_overwrite_replicate (buffer : Buffer) (byte : UInt8) {span count : Nat}
    (hcount : count ≤ span) :
    (buffer.overwrite (List.replicate span byte)).take count = List.replicate count byte := by
  rw [take_eq, bytes_overwrite, Bytes.overwrite,
    List.take_append_of_le_length (by rwa [List.length_replicate]), List.take_replicate,
    Nat.min_eq_left hcount]

theorem upTo_eq (buffer : Buffer) (mark : Int) : buffer.upTo mark = buffer.bytes.upTo mark := by
  simp [upTo, Bytes.upTo, take_eq]

end Buffer

end RomImage
