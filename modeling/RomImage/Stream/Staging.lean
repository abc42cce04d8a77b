import RomImage.Stream.Transfer
import RomImage.Stream.Tape

/-!
# Staging

A destination that cannot be moved takes bytes in order only.  Work that has to go back is done on a
tape in memory first: handles are optional, the absent handle means the tape, and `staged` answers
the requests to the tape itself and passes all others on.  The tape takes every byte that there is
memory for.
-/

namespace RomImage

namespace Stream

variable [Machine]

variable {ι : Type}

def stagingChannel : Channel (Option ι) := ⟨none, unnamed, true, true⟩

/-- The fault of storing bytes on the tape, if there is no memory for it as it would be then. -/
def growthFault? (tape : Tape) (data : Bytes) : Option Fault :=
  let stop := tape.position + data.length
  if data.isEmpty || stop ≤ tape.contents.size then none else Fault.ofGrowth? stop

def stagingDestination (position size : Nat) (offset whence : Int) : Except Fault Nat :=
  if offset < -Fault.sizeBound ∨ Fault.sizeBound ≤ offset then .error .positionTooLarge
  else Tape.destination position size offset whence

def steer : (request : Request (Option ι)) → Tape →
    Dialogue.Route (interface (Option ι)) (interface ι) Tape request
  | .readInto none size, tape =>
    let (data, tape) := tape.read size
    .kept (Except.ok ⟨data, some data.length⟩ : Except Fault Delivery) tape
  | .read none size, tape =>
    let (data, tape) := tape.read size
    .kept (Except.ok (some data) : Except Fault (Option Bytes)) tape
  | .write none data, tape =>
    match growthFault? tape data with
    | some fault => .kept (Except.error fault : Except Fault (Option Int)) tape
    | none => .kept (Except.ok (some data.length) : Except Fault (Option Int)) (tape.write data)
  | .seek none offset whence, ⟨contents, position⟩ =>
    match stagingDestination position contents.size offset whence with
    | .ok position => .kept (Except.ok () : Except Fault Unit) ⟨contents, position⟩
    | .error fault => .kept (Except.error fault : Except Fault Unit) ⟨contents, position⟩
  | .seekUnknown none, tape =>
    .kept (Except.error Fault.missingOffset : Except Fault Unit) tape
  | .tell none, tape =>
    .kept (Except.ok (some (tape.position : Int)) : Except Fault (Option Int)) tape
  | .seekable none, tape => .kept (Except.ok true : Except Fault Bool) tape
  | .readInto (some stream) size, tape => .passed (.readInto stream size) id tape
  | .read (some stream) size, tape => .passed (.read stream size) id tape
  | .write (some stream) data, tape => .passed (.write stream data) id tape
  | .seek (some stream) offset whence, tape => .passed (.seek stream offset whence) id tape
  | .seekUnknown (some stream), tape => .passed (.seekUnknown stream) id tape
  | .tell (some stream), tape => .passed (.tell stream) id tape
  | .seekable (some stream), tape => .passed (.seekable stream) id tape
  | .note fact, tape => .passed (.note fact) id tape

/-- Does work with an empty tape beside the streams. -/
def staged {α : Type} (work : Work (Option ι) α) : Work ι α :=
  Task.route steer Tape.empty work

end Stream

end RomImage
