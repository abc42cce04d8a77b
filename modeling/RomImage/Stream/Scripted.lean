import RomImage.Stream.Basic
import RomImage.Stream.Schedule
import RomImage.Stream.Tape

/-!
# Scripted streams

A scripted stream is a tape behind a guard: it behaves as stored contents do, except for what its
schedule says and for limits on reads and on what it can hold.  A `Bench` is a set of scripted
streams with the notes that were taken; `Bench.answer` answers the requests of transfers.
-/

namespace RomImage

namespace Stream

variable [Machine]

structure Scripted where
  tape : Tape
  seekable : Bool
  readMax : Option Nat
  /-- Bytes are taken before this position only. -/
  capacity : Option Nat
  guard : Guard

namespace Scripted

def access {α : Type} (stream : Scripted) (call : Call) (preset : Option Int → α)
    (act : Option Nat → Option Nat → Scripted → Except Fault α × Scripted) :
    Except Fault α × Scripted :=
  let gate := stream.guard.gate call
  let stream := { stream with guard := stream.guard.record call }
  match gate with
  | .refused fault => (.error fault, stream)
  | .preset value => (.ok (preset value), stream)
  | .admitted limit surplus => act limit surplus stream

def take (stream : Scripted) (count : Nat) : Bytes × Scripted :=
  match stream with
  | ⟨tape, seekable, readMax, capacity, guard⟩ =>
    let (data, tape) := tape.read count
    (data, ⟨tape, seekable, readMax, capacity, guard⟩)

def readInto (stream : Scripted) (size : Nat) : Except Fault Delivery × Scripted :=
  stream.access (.read size) (fun value => ⟨[], value⟩) fun limit _ stream =>
    let (data, stream) := stream.take (atMost limit (atMost stream.readMax size))
    (.ok ⟨data, some data.length⟩, stream)

/-- Hands over bytes; a surplus goes beyond all limits. -/
def read (stream : Scripted) (size : Nat) : Except Fault (Option Bytes) × Scripted :=
  stream.access (.read size) (fun value => value.map fun _ => []) fun limit surplus stream =>
    let count :=
      match surplus with
      | some surplus => size + surplus
      | none => atMost limit (atMost stream.readMax size)
    let (data, stream) := stream.take count
    (.ok (some data), stream)

def write (stream : Scripted) (data : Bytes) : Except Fault (Option Int) × Scripted :=
  stream.access (.write data.length) id fun limit _ stream =>
    match stream with
    | ⟨tape, seekable, readMax, capacity, guard⟩ =>
      let room := capacity.map (· - tape.position)
      let count := atMost limit (atMost room data.length)
      match if count = 0 then none else Fault.ofAllocation? tape.gap with
      | some fault => (.error fault, ⟨tape, seekable, readMax, capacity, guard⟩)
      | none =>
        let tape := tape.write (Bytes.first data count)
        (.ok (some count), ⟨tape, seekable, readMax, capacity, guard⟩)

def seek (stream : Scripted) (offset whence : Int) : Except Fault Unit × Scripted :=
  stream.access (.seek offset whence) (fun _ => ()) fun _ _ stream =>
    if stream.seekable then
      match stream with
      | ⟨⟨contents, position⟩, seekable, readMax, capacity, guard⟩ =>
        match Tape.destination position contents.size offset whence with
        | .ok position => (.ok (), ⟨⟨contents, position⟩, seekable, readMax, capacity, guard⟩)
        | .error fault => (.error fault, ⟨⟨contents, position⟩, seekable, readMax, capacity, guard⟩)
    else (.error (.unsupported "seek"), stream)

def seekUnknown (stream : Scripted) : Except Fault Unit × Scripted :=
  stream.access .seekUnknown (fun _ => ()) fun _ _ stream =>
    (.error (if stream.seekable then .unorderedOffset else .unsupported "seek"), stream)

def tell (stream : Scripted) : Except Fault (Option Int) × Scripted :=
  stream.access .tell id fun _ _ stream =>
    if stream.seekable then (.ok (some stream.tape.position), stream)
    else (.error (.unsupported "tell"), stream)

def answerSeekable (stream : Scripted) : Except Fault Bool × Scripted :=
  stream.access .seekable (fun value => value.getD 0 ≠ 0) fun _ _ stream =>
    (.ok stream.seekable, stream)

def close (stream : Scripted) : Except Fault Unit × Scripted :=
  let mishap := stream.guard.mishap .close
  let stream := { stream with guard := stream.guard.record .close }
  match mishap with
  | some (.raise fault) => (.error fault, stream)
  | some (.answer _) => (.ok (), stream)
  | _ => (.ok (), { stream with guard := { stream.guard with closed := true } })

end Scripted

structure Bench (ι : Type) where
  streams : List (ι × Scripted)
  notes : List Note

namespace Bench

variable {ι α : Type} [DecidableEq ι]

def act (handle : ι) (step : Scripted → Except Fault α × Scripted) :
    List (ι × Scripted) → Except Fault α × List (ι × Scripted)
  | [] => (.error .closedStream, [])
  | (key, stream) :: rest =>
    if key = handle then
      let (answer, stream) := step stream
      (answer, (key, stream) :: rest)
    else
      let (answer, rest) := act handle step rest
      (answer, (key, stream) :: rest)

def step (bench : Bench ι) (handle : ι) (move : Scripted → Except Fault α × Scripted) :
    Except Fault α × Bench ι :=
  match bench with
  | ⟨streams, notes⟩ =>
    let (answer, streams) := act handle move streams
    (answer, ⟨streams, notes⟩)

def answer : (request : Request ι) → Bench ι → request.Answer × Bench ι
  | .readInto handle size, bench => bench.step handle (·.readInto size)
  | .read handle size, bench => bench.step handle (·.read size)
  | .write handle data, bench => bench.step handle (·.write data)
  | .seek handle offset whence, bench => bench.step handle (·.seek offset whence)
  | .seekUnknown handle, bench => bench.step handle (·.seekUnknown)
  | .tell handle, bench => bench.step handle (·.tell)
  | .seekable handle, bench => bench.step handle (·.answerSeekable)
  | .note fact, ⟨streams, notes⟩ =>
    let (answer, notes) := fact.keep notes
    (answer, ⟨streams, notes⟩)

def run (bench : Bench ι) (scratch : Scratch) (work : Work ι α) :
    (Except Failure α × Scratch) × Bench ι :=
  (work scratch).run answer bench

end Bench

end Stream

end RomImage
