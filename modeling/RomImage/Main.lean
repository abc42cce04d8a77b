import RomImage.CommandLine.Run
import RomImage.Stream.Schedule
import RomImage.Stream.Tape

/-!
# The program

Runs the command line against the operating system: files are real, the two outputs are those of the
process, and the settings come from its environment.

A file handle goes forward only, or back to the start.  A move therefore starts at the beginning of
the file and passes over what stands before the new position; in a file that is written, the same
bytes are written again.
-/

namespace RomImage

namespace Program

structure OpenFile where
  side : Side
  handle : IO.FS.Handle
  position : IO.Ref Nat

def faultOf : IO.Error → Fault
  | .noFileOrDirectory _ _ _ => .missing
  | .inappropriateType _ 20 _ => .notADirectory
  | .inappropriateType _ 21 _ => .isADirectory
  | .permissionDenied _ code details | .resourceExhausted _ code details
  | .illegalOperation code details | .hardwareFault code details | .otherError code details =>
    .system (some code.toNat) details
  | error => .system none error.toString

def guarded {α : Type} (action : IO α) : IO (Except Fault α) := do
  match ← action.toBaseIO with
  | .ok value => return .ok value
  | .error error => return .error (faultOf error)

/-- Opens a file for one side of a build; what cannot be read is no source. -/
def openFile (side : Side) (path : String) : IO OpenFile := do
  let position ← IO.mkRef 0
  match side with
  | .source =>
    let handle ← IO.FS.Handle.mk path .read
    let _ ← handle.read 1
    handle.rewind
    return ⟨side, handle, position⟩
  | .dest =>
    let _ ← IO.FS.Handle.mk path .write
    return ⟨side, ← IO.FS.Handle.mk path .readWrite, position⟩

def readFrom (file : OpenFile) (size : Nat) : IO Bytes := do
  let data ← file.handle.read size.toUSize
  file.position.modify (· + data.size)
  return data.toList

def writeTo (file : OpenFile) (data : Bytes) : IO Int := do
  file.handle.write ⟨data.toArray⟩
  file.position.modify (· + data.length)
  return data.length

def stride : Nat := 65536

/-- Passes over at most `limit` bytes from the start of a file and hands each chunk to `visit`. -/
def pass (file : OpenFile) (limit : Option Nat) (visit : ByteArray → IO Unit) : IO Nat := do
  file.handle.rewind
  let mut passed := 0
  let mut want := Stream.atMost limit stride
  while want ≠ 0 do
    let data ← file.handle.read want.toUSize
    visit data
    passed := passed + data.size
    want := if data.isEmpty then 0 else Stream.atMost (limit.map (· - passed)) stride
  return passed

def seek (file : OpenFile) (offset whence : Int) : IO (Except Fault Unit) := do
  let size ← pass file none fun _ => return ()
  match Tape.destination (← file.position.get) size offset whence with
  | .error fault => return .error fault
  | .ok position =>
    match file.side with
    | .source =>
      let _ ← pass file (some position) fun _ => return ()
    | .dest =>
      let front ← IO.mkRef ByteArray.empty
      let _ ← pass file (some position) fun data => front.modify (· ++ data)
      file.handle.rewind
      file.handle.write (← front.get)
    file.position.set position
    return .ok ()

def answerStream : (request : Stream.Request OpenFile) → IO request.Answer
  | .readInto file size => do
    match ← guarded (readFrom file size) with
    | .ok data => return .ok ⟨data, some data.length⟩
    | .error fault => return .error fault
  | .read file size => do
    match ← guarded (readFrom file size) with
    | .ok data => return .ok (some data)
    | .error fault => return .error fault
  | .write file data => do
    match ← guarded (writeTo file data) with
    | .ok count => return .ok (some count)
    | .error fault => return .error fault
  | .seek file offset whence => do
    match ← guarded (seek file offset whence) with
    | .ok moved => return moved
    | .error fault => return .error fault
  | .seekUnknown _ => return .error .missingOffset
  | .tell file => return .ok (some (← file.position.get))
  | .seekable _ => return .ok true
  | .note _ => return .ok ()

def answerFiles : (request : Files.Request OpenFile) → IO request.Answer
  | .stream request => answerStream request
  | .openFile side path => guarded (openFile side path)
  | .openUnnamed _ => return .noPath
  | .close file => guarded file.handle.flush
  | .remove path => guarded (IO.FS.removeFile path)

def answer : (request : Console.Request OpenFile) → IO request.Answer
  | .files request => answerFiles request
  | .print text => do
    let output ← IO.getStdout
    output.putStr text
    output.flush
  | .complain text => do
    let output ← IO.getStderr
    output.putStr text
    output.flush

def run [Machine] (arguments : List String) : IO UInt32 := do
  let settings : Settings :=
    ⟨← IO.getEnv "MKROM_BUFFER_SIZE", ← IO.getEnv "MKROM_LOG_LEVEL"⟩
  let dialogue : Dialogue (Console.interface OpenFile) (Except Failure CommandLine.Exit) :=
    CommandLine.dialogue settings arguments
  match ← dialogue.interpret answer with
  | .ok (.status code) => return code.toUInt32
  | .ok .shown => return 0
  | .error failure =>
    IO.eprintln failure.message
    return 1

end Program

end RomImage

def main (arguments : List String) : IO UInt32 :=
  RomImage.Program.run arguments
