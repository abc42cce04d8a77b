import RomImage.Stream.Basic

/-!
# Files

What a build may ask of the file system: open a file at one of its two sides, use an open file as a
stream, close it, and remove a file by its path.
-/

namespace RomImage

inductive Side where
  | source
  /-- The file that is written; opening it empties it or brings it into being. -/
  | dest
  deriving DecidableEq, Repr

namespace Files

inductive Request (ι : Type) where
  | stream (request : Stream.Request ι)
  | openFile (side : Side) (path : String)
  /-- Opens a file without a path, which is always refused. -/
  | openUnnamed (side : Side)
  | close (file : ι)
  | remove (path : String)

def Request.Answer {ι : Type} : Request ι → Type
  | stream request => request.Answer
  | openFile _ _ => Except Fault ι
  | openUnnamed _ => Fault
  | close _ => Except Fault Unit
  | remove _ => Except Fault Unit

def interface (ι : Type) : Interface :=
  ⟨Request ι, Request.Answer⟩

abbrev Work (ι : Type) := Task (interface ι)

variable {ι α : Type}

def onStreams (work : Stream.Work ι α) : Work ι α :=
  Task.rephrase (I := Stream.interface ι) (J := interface ι) .stream (fun _ answer => answer) work

def openFile (side : Side) (path : String) : Work ι (Except Fault ι) :=
  Task.request (I := interface ι) (.openFile side path)

def openUnnamed (side : Side) : Work ι Fault :=
  Task.request (I := interface ι) (.openUnnamed side)

def close (file : ι) : Work ι (Except Fault Unit) :=
  Task.request (I := interface ι) (.close file)

def remove (path : String) : Work ι (Except Fault Unit) :=
  Task.request (I := interface ι) (.remove path)

def note (fact : Note) : Work ι Unit :=
  onStreams (Stream.note fact)

/-- An open file as a stream; its name is the path that it was opened by. -/
def channel (file : ι) (path : String) : Stream.Channel ι :=
  ⟨file, path, true, true⟩

end Files

end RomImage
