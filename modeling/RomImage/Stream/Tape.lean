import RomImage.Bytes
import RomImage.Fault

/-!
# Tapes

A tape is stored contents with a position.  Reads and writes go on from the position; the position
may be moved behind the end, and a write there fills the gap with zeros.
-/

namespace RomImage

/-- Contents with a position. -/
structure Tape where
  contents : Contents
  position : Nat
  deriving DecidableEq

namespace Tape

def empty : Tape := ⟨.empty, 0⟩

def gap (tape : Tape) : Nat := tape.position - tape.contents.size

def read (tape : Tape) (count : Nat) : Bytes × Tape :=
  let data := tape.contents.slice tape.position count
  (data, { tape with position := tape.position + data.length })

def write (tape : Tape) (data : Bytes) : Tape :=
  match tape with
  | ⟨contents, position⟩ => ⟨contents.store position data, position + data.length⟩

/--
Where a move leads: from the start the offset must not be negative; from the position or the end a
move to before the start leads to the start.
-/
def destination (position size : Nat) (offset whence : Int) : Except Fault Nat :=
  if whence = 0 then
    if offset < 0 then .error (.wrongValue s!"negative seek value {offset}") else .ok offset.toNat
  else if whence = 1 then .ok (position + offset).toNat
  else if whence = 2 then .ok (size + offset).toNat
  else .error (.wrongValue s!"invalid whence ({whence}, should be 0, 1 or 2)")

end Tape

end RomImage
