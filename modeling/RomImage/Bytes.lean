/-!
# Bytes and stored contents

A chunk that travels between streams is a list of bytes; the contents of a stream or a file are
packed, because chunk after chunk is stored into them at a moving position.  `Contents.bytes` is
their view as a list, and `Contents.bytes_store` describes a store in that view.
-/

namespace RomImage

abbrev Bytes := List UInt8

def hexOfByte (byte : UInt8) : String :=
  String.ofList [Nat.digitChar (byte.toNat / 16), Nat.digitChar (byte.toNat % 16)]

namespace Bytes

def ofText (text : String) : Bytes :=
  text.toUTF8.toList

def hex (bytes : Bytes) : String :=
  String.join (bytes.map hexOfByte)

/-- The first bytes, at most `count`; a chunk that is short enough is not copied. -/
def first (bytes : Bytes) (count : Nat) : Bytes :=
  if bytes.length ≤ count then bytes else bytes.take count

@[simp] theorem first_eq (bytes : Bytes) (count : Nat) : first bytes count = bytes.take count := by
  rw [first]
  split
  · rename_i short
    rw [List.take_of_length_le short]
  · rfl

def overwrite (bytes data : Bytes) : Bytes :=
  data ++ bytes.drop data.length

/--
The part of `bytes` before a signed mark: a mark past the end takes everything, a negative mark
counts back from the end.
-/
def upTo (bytes : Bytes) (mark : Int) : Bytes :=
  if mark < 0 then bytes.take (bytes.length - mark.natAbs) else bytes.take mark.toNat

end Bytes

abbrev Contents := ByteArray

namespace Contents

instance : DecidableEq Contents := ByteArray.instDecidableEq

def bytes (contents : Contents) : Bytes := contents.data.toList

def appendZeros (contents : Contents) : Nat → Contents
  | 0 => contents
  | count + 1 => appendZeros (contents.push 0) count

def append (contents : Contents) (data : Bytes) : Contents :=
  data.foldl ByteArray.push contents

def storeFrom (contents : Contents) (position : Nat) : Bytes → Contents
  | [] => contents
  | byte :: rest =>
    if h : position < contents.size then
      storeFrom (contents.set position byte h) (position + 1) rest
    else append contents (byte :: rest)

/--
Stores a chunk at `position`.  A gap between the old end and `position` is filled with zeros, unless
there is nothing to store.
-/
def store (contents : Contents) (position : Nat) (data : Bytes) : Contents :=
  if data.isEmpty then contents
  else storeFrom (appendZeros contents (position - contents.size)) position data

def collect (contents : Contents) (position : Nat) :
    (count : Nat) → position + count ≤ contents.size → Bytes → Bytes
  | 0, _, chunk => chunk
  | count + 1, within, chunk =>
    collect contents position count (by omega) (contents.get (position + count) within :: chunk)

def slice (contents : Contents) (position count : Nat) : Bytes :=
  if inside : position ≤ contents.size then
    collect contents position (min count (contents.size - position)) (by omega) []
  else []

@[simp] theorem length_bytes (contents : Contents) :
    (bytes contents).length = contents.size := rfl

@[simp] theorem bytes_push (contents : Contents) (byte : UInt8) :
    bytes (contents.push byte) = bytes contents ++ [byte] := by
  simp [bytes, ByteArray.data_push]

@[simp] theorem bytes_set (contents : Contents) (position : Nat) (byte : UInt8)
    (within : position < contents.size) :
    bytes (contents.set position byte within) = (bytes contents).set position byte := by
  simp [bytes, ByteArray.data_set]

@[simp] theorem bytes_appendZeros (contents : Contents) (count : Nat) :
    bytes (contents.appendZeros count) = bytes contents ++ List.replicate count 0 := by
  induction count generalizing contents with
  | zero => simp [appendZeros]
  | succ count ih => simp [appendZeros, ih, List.replicate_succ]

@[simp] theorem bytes_append (contents : Contents) (data : Bytes) :
    bytes (append contents data) = bytes contents ++ data := by
  induction data generalizing contents with
  | nil => simp [append]
  | cons byte rest ih =>
    rw [append, List.foldl_cons, ← append, ih]
    simp

theorem bytes_storeFrom (contents : Contents) (position : Nat) (data : Bytes)
    (within : position ≤ contents.size) :
    bytes (contents.storeFrom position data) =
      (bytes contents).take position ++ data ++ (bytes contents).drop (position + data.length) := by
  induction data generalizing contents position with
  | nil => simp [storeFrom]
  | cons byte rest ih =>
    rw [storeFrom]
    split
    · rename_i inside
      have short : position < (bytes contents).length := by simpa using inside
      have size : (contents.set position byte inside).size = contents.size := by
        rw [← length_bytes, ← length_bytes, bytes_set, List.length_set]
      rw [ih _ _ (by omega), bytes_set]
      have front : ((bytes contents).set position byte).take (position + 1) =
          (bytes contents).take position ++ [byte] := by
        rw [List.set_eq_take_append_cons_drop, if_pos short, List.take_append]
        have gap : position + 1 - min position contents.size = 1 := by omega
        simp [List.take_take, gap]
      rw [front, List.drop_set_of_lt (by omega)]
      simp [Nat.add_assoc, Nat.add_comm 1]
    · have ends : (bytes contents).length ≤ position := by
        rw [length_bytes]
        omega
      rw [bytes_append, List.take_of_length_le ends, List.drop_of_length_le (by omega),
        List.append_nil]

/-- A store of bytes at a position leaves what stands before and behind it. -/
theorem bytes_store (contents : Contents) (position : Nat) (data : Bytes) (nonempty : data ≠ []) :
    bytes (contents.store position data) =
      (bytes contents).take position ++ List.replicate (position - contents.size) 0 ++ data ++
        (bytes contents).drop (position + data.length) := by
  have filled : (contents.appendZeros (position - contents.size)).size =
      contents.size + (position - contents.size) := by
    rw [← length_bytes, bytes_appendZeros]
    simp
  rw [store, if_neg (by simpa using nonempty), bytes_storeFrom _ _ _ (by omega),
    bytes_appendZeros]
  rcases Nat.le_total position contents.size with inside | outside
  · simp [Nat.sub_eq_zero_of_le inside]
  · rw [List.take_of_length_le (by simp; omega), List.take_of_length_le (by simpa using outside),
      List.drop_of_length_le (by simp; omega), List.drop_of_length_le (by simp; omega)]

theorem collect_eq (contents : Contents) (position count : Nat)
    (within : position + count ≤ contents.size) (chunk : Bytes) :
    collect contents position count within chunk =
      ((bytes contents).drop position).take count ++ chunk := by
  induction count generalizing chunk with
  | zero => rfl
  | succ count ih =>
    have short : count < ((bytes contents).drop position).length := by
      rw [List.length_drop, length_bytes]
      omega
    have step : collect contents position (count + 1) within chunk =
        collect contents position count (by omega)
          (contents.data[position + count] :: chunk) := rfl
    rw [step, ih, List.take_succ_eq_append_getElem short, List.getElem_drop]
    simp [bytes]

/-- A slice is a stretch of the stored bytes. -/
theorem slice_eq (contents : Contents) (position count : Nat) :
    contents.slice position count = ((bytes contents).drop position).take count := by
  have size : ((bytes contents).drop position).length = contents.size - position := by
    rw [List.length_drop, length_bytes]
  rw [slice]
  split
  · rw [collect_eq, List.append_nil, ← size]
    rcases Nat.le_total count ((bytes contents).drop position).length with few | all
    · rw [Nat.min_eq_left few]
    · rw [Nat.min_eq_right all, List.take_length, List.take_of_length_le all]
  · rw [List.drop_of_length_le (by rw [length_bytes]; omega), List.take_nil]

end Contents

end RomImage
