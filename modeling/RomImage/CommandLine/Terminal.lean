import RomImage.CommandLine.Run
import RomImage.Disk

/-!
# Terminals

A terminal is a disk with what was printed on the two outputs.  `Terminal.run` runs a command line
on it.
-/

namespace RomImage

variable [Machine]

/-- A disk with the texts that were printed. -/
structure Terminal where
  disk : Disk
  output : String
  complaints : String

namespace Terminal

def ofDisk (disk : Disk) : Terminal := ⟨disk, "", ""⟩

def answer : (request : Console.Request Side) → Terminal → request.Answer × Terminal
  | .files request, ⟨disk, output, complaints⟩ =>
    let (given, disk) := disk.answer request
    (given, ⟨disk, output, complaints⟩)
  | .print text, ⟨disk, output, complaints⟩ => ((), ⟨disk, output ++ text, complaints⟩)
  | .complain text, ⟨disk, output, complaints⟩ => ((), ⟨disk, output, complaints ++ text⟩)

def run (terminal : Terminal) (settings : Settings) (arguments : List String) :
    Except Failure CommandLine.Exit × Terminal :=
  (CommandLine.dialogue settings arguments).run answer terminal

end Terminal

end RomImage
