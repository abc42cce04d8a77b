import RomImage.Note
import RomImage.Task

/-!
# Streams

What a transfer may ask of a stream, and what comes back: a fault, or an answer.  Nothing is
promised about answers.  A read may report another number of bytes than it delivers, a write may
report any number or none, and a question about the position any number or none.

A `Channel` is a stream as a transfer knows it: the handle that names it in requests, its name for
messages, and which calls it has at all.
-/

namespace RomImage

namespace Stream

/-- What a read into a chunk does: the bytes stored in the chunk and the count that is reported. -/
structure Delivery where
  stored : Bytes
  reported : Option Int
  deriving DecidableEq, Repr

inductive Request (ι : Type) where
  | readInto (stream : ι) (size : Nat)
  | read (stream : ι) (size : Nat)
  | write (stream : ι) (data : Bytes)
  | seek (stream : ι) (offset whence : Int)
  /-- Moves to a position from the start that is not known. -/
  | seekUnknown (stream : ι)
  | tell (stream : ι)
  | seekable (stream : ι)
  | note (fact : Note)

def Request.Answer {ι : Type} : Request ι → Type
  | readInto _ _ => Except Fault Delivery
  | read _ _ => Except Fault (Option Bytes)
  | write _ _ => Except Fault (Option Int)
  | seek _ _ _ => Except Fault Unit
  | seekUnknown _ => Except Fault Unit
  | tell _ => Except Fault (Option Int)
  | seekable _ => Except Fault Bool
  | note _ => Except Fault Unit

def interface (ι : Type) : Interface :=
  ⟨Request ι, Request.Answer⟩

/-- A stream as a transfer knows it. -/
structure Channel (ι : Type) where
  handle : ι
  name : String
  /-- Whether the stream can read into a chunk; otherwise it hands over bytes. -/
  readsInto : Bool
  answersSeekable : Bool
  deriving DecidableEq, Repr

def unnamed : String := "<stream>"

def Channel.mapHandle {ι κ : Type} (f : ι → κ) (channel : Channel ι) : Channel κ :=
  { channel with handle := f channel.handle }

def fromStart : Int := 0

def fromEnd : Int := 2

abbrev Work (ι : Type) := Task (interface ι)

section Requests

variable {ι : Type}

def readInto (stream : ι) (size : Nat) : Work ι (Except Fault Delivery) :=
  Task.request (I := interface ι) (.readInto stream size)

def read (stream : ι) (size : Nat) : Work ι (Except Fault (Option Bytes)) :=
  Task.request (I := interface ι) (.read stream size)

def write (stream : ι) (data : Bytes) : Work ι (Except Fault (Option Int)) :=
  Task.request (I := interface ι) (.write stream data)

def seek (stream : ι) (offset whence : Int) : Work ι (Except Fault Unit) :=
  Task.request (I := interface ι) (.seek stream offset whence)

def seekUnknown (stream : ι) : Work ι (Except Fault Unit) :=
  Task.request (I := interface ι) (.seekUnknown stream)

def tell (stream : ι) : Work ι (Except Fault (Option Int)) :=
  Task.request (I := interface ι) (.tell stream)

def seekable (stream : ι) : Work ι (Except Fault Bool) :=
  Task.request (I := interface ι) (.seekable stream)

/-- Notes a fact; a fault of the one who keeps the notes comes through. -/
def note (fact : Note) : Work ι Unit := do
  Task.ofExcept ((← Task.request (I := interface ι) (.note fact)).mapError .fault)

end Requests

end Stream

end RomImage
