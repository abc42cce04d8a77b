import RomImage.Buffer
import RomImage.Machine
import RomImage.Settings

/-!
# The scratch buffer

All transfers go through one buffer of fixed size.  It is handed in, or it is allocated from the
settings when the first transfer needs it.  Transfers store at the front of the buffer only, and
whatever an earlier transfer left there stays until it is overwritten.
-/

namespace RomImage

variable [Machine]

inductive Scratch where
  | ready (buffer : Buffer)
  /-- No buffer yet; the setting says how large it will be. -/
  | pending (setting : Option String)
  deriving DecidableEq, Repr

namespace Scratch

/-- A fresh buffer, which must not be empty and must fit into memory. -/
def allocate (size : Int) : Except Failure Buffer :=
  if size ≤ 0 then .error (.misuse (.emptyScratch size))
  else
    match Fault.ofAllocation? size.toNat with
    | some fault => .error (.fault fault)
    | none => .ok (.zeros size.toNat)

def allocateOr (size : Option Int) (setting : Option String) : Except Failure Buffer :=
  match size with
  | some size => allocate size
  | none =>
    match Settings.readBufferSize setting with
    | .ok size => allocate size
    | .error cause => .error (.misuse cause)

/-- The buffer, allocated if there is none yet. -/
def buffer : Scratch → Except Failure Buffer
  | ready buffer => .ok buffer
  | pending setting => allocateOr none setting

end Scratch

end RomImage
