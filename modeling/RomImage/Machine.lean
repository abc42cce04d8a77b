import RomImage.Fault

/-!
# Machines

How many bytes there is memory for is a matter of the machine that a build runs on. A machine has
room for a mebibyte at least, which is more than any container of the table takes, and for no more
bytes than a size can count. Whatever is shown of a build is shown on every machine.
-/

namespace RomImage

/-- The machine that a build runs on. -/
class Machine where
  /-- There is memory for fewer bytes than this at once. -/
  memory : Nat
  mebibyte_le : Nat.pow 2 20 ≤ memory
  memory_le : memory ≤ Fault.sizeBound

/-- The machine that is meant where none is given: runs of the program, and runs on fixed inputs. -/
instance Machine.usual : Machine := ⟨Nat.pow 2 35, by decide, by decide⟩

theorem Machine.memory_pos [Machine] : 0 < Machine.memory :=
  Nat.lt_of_lt_of_le (by decide) Machine.mebibyte_le

namespace Fault

variable [Machine]

def ofAllocation? (size : Nat) : Option Fault :=
  if sizeBound ≤ size then some (tooLarge "cannot fit 'int' into an index-sized integer")
  else if Machine.memory ≤ size then some outOfMemory
  else none

def ofGrowth? (size : Nat) : Option Fault :=
  if sizeBound ≤ size then some (tooLarge "new buffer size too large")
  else if Machine.memory ≤ size then some outOfMemory
  else none

end Fault

end RomImage
