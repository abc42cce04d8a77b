import RomImage.Files
import RomImage.FileTree.Basic
import RomImage.Stream.Schedule
import RomImage.Stream.Tape

/-!
# Disks

A disk is a file tree with the files that are open, the notes that were taken, and a plan of what
goes wrong.  `Disk.answer` answers the requests of a build.  The two sides of a build may name one
and the same file: both then act on the same contents.
-/

namespace RomImage

/-- What goes wrong with the files of a build. -/
structure Disk.Plan where
  /-- The fault of opening the file of a side; nothing is touched then. -/
  opening : Side → Option Fault
  schedule : Side → Stream.Schedule
  destSeekable : Bool
  /-- How many bytes the destination takes in all its writes together. -/
  room : Option Nat
  removal : Option Fault

def Disk.Plan.calm : Disk.Plan := ⟨fun _ => none, fun _ => .calm, true, none, none⟩

structure Disk.Handle where
  location : Location
  position : Nat
  seekable : Bool
  room : Option Nat
  guard : Stream.Guard

structure Disk where
  tree : FileTree
  source : Option Disk.Handle
  dest : Option Disk.Handle
  notes : List Note
  plan : Disk.Plan

namespace Disk

open RomImage.Stream (Call Delivery Gate atMost)

variable {α : Type}

def ofTree (tree : FileTree) (plan : Plan) : Disk := ⟨tree, none, none, [], plan⟩

def handle? (disk : Disk) : Side → Option Handle
  | .source => disk.source
  | .dest => disk.dest

def setHandle (disk : Disk) (side : Side) (handle : Handle) : Disk :=
  match disk, side with
  | ⟨tree, _, dest, notes, plan⟩, .source => ⟨tree, some handle, dest, notes, plan⟩
  | ⟨tree, source, _, notes, plan⟩, .dest => ⟨tree, source, some handle, notes, plan⟩

/-- Lets the contents of a file change; a file that is gone has none and keeps none. -/
def change (disk : Disk) (location : Location) (step : Contents → α × Contents) : α × Disk :=
  match disk with
  | ⟨tree, source, dest, notes, plan⟩ =>
    match tree.change location step with
    | (some answer, tree) => (answer, ⟨tree, source, dest, notes, plan⟩)
    | (none, tree) => ((step .empty).1, ⟨tree, source, dest, notes, plan⟩)

def sizeAt (disk : Disk) (location : Location) : Nat :=
  match disk.tree.lookup location with
  | some (.file contents) => contents.size
  | _ => 0

def access (disk : Disk) (side : Side) (call : Call) (preset : Option Int → α)
    (act : Option Nat → Option Nat → Handle → Disk → Except Fault α × Disk) :
    Except Fault α × Disk :=
  match disk.handle? side with
  | none => (.error .closedStream, disk)
  | some handle =>
    let gate := handle.guard.gate call
    let handle := { handle with guard := handle.guard.record call }
    let disk := disk.setHandle side handle
    match gate with
    | .refused fault => (.error fault, disk)
    | .preset value => (.ok (preset value), disk)
    | .admitted limit surplus => act limit surplus handle disk

def take (disk : Disk) (side : Side) (handle : Handle) (count : Nat) : Bytes × Disk :=
  let (data, disk) := disk.change handle.location fun contents =>
    (contents.slice handle.position count, contents)
  (data, disk.setHandle side { handle with position := handle.position + data.length })

def store (disk : Disk) (side : Side) (handle : Handle) (data : Bytes) : Disk :=
  let ((), disk) := disk.change handle.location fun contents =>
    ((), contents.store handle.position data)
  disk.setHandle side
    { handle with
      position := handle.position + data.length
      room := handle.room.map (· - data.length) }

def offsetBound : Int := Nat.pow 2 63

def lastPosition : Nat := Nat.pow 2 44 - Nat.pow 2 12

/-- Where a move in a file leads; the system refuses a position that a file cannot have. -/
def destination (position size : Nat) (offset whence : Int) : Except Fault Nat :=
  if offset < -offsetBound ∨ offsetBound ≤ offset then .error .offsetTooLarge
  else if whence = 0 ∧ offset < 0 then .error .invalidArgument
  else
    match Tape.destination position size offset whence with
    | .ok position => if lastPosition < position then .error .invalidArgument else .ok position
    | .error fault => .error fault

def answerStream : (request : Stream.Request Side) → Disk → request.Answer × Disk
  | .readInto side size, disk =>
    disk.access side (.read size) (fun value => (⟨[], value⟩ : Delivery))
      fun limit _ handle disk =>
        let (data, disk) := disk.take side handle (atMost limit size)
        (.ok ⟨data, some data.length⟩, disk)
  | .read side size, disk =>
    disk.access side (.read size) (fun value => value.map fun _ => [])
      fun limit surplus handle disk =>
        let count :=
          match surplus with
          | some surplus => size + surplus
          | none => atMost limit size
        let (data, disk) := disk.take side handle count
        (.ok (some data), disk)
  | .write side data, disk =>
    disk.access side (.write data.length) id fun limit _ handle disk =>
      let count := atMost limit (atMost handle.room data.length)
      (.ok (some count), disk.store side handle (Bytes.first data count))
  | .seek side offset whence, disk =>
    disk.access side (.seek offset whence) (fun _ => ()) fun _ _ handle disk =>
      if handle.seekable then
        match destination handle.position (disk.sizeAt handle.location) offset whence with
        | .ok position => (.ok (), disk.setHandle side { handle with position })
        | .error fault => (.error fault, disk)
      else (.error (.unsupported "seek"), disk)
  | .seekUnknown side, disk =>
    disk.access side .seekUnknown (fun _ => ()) fun _ _ handle disk =>
      (.error (if handle.seekable then .missingOffset else .unsupported "seek"), disk)
  | .tell side, disk =>
    disk.access side .tell id fun _ _ handle disk =>
      if handle.seekable then (.ok (some handle.position), disk)
      else (.error (.unsupported "tell"), disk)
  | .seekable side, disk =>
    disk.access side .seekable (fun value => value.getD 0 ≠ 0) fun _ _ handle disk =>
      (.ok handle.seekable, disk)
  | .note fact, ⟨tree, source, dest, notes, plan⟩ =>
    let (answer, notes) := fact.keep notes
    (answer, ⟨tree, source, dest, notes, plan⟩)

def openFile (disk : Disk) (side : Side) (path : String) : Except Fault Side × Disk :=
  match disk.plan.opening side with
  | some fault => (.error fault, disk)
  | none =>
    let guard := Stream.Guard.fresh (disk.plan.schedule side)
    match side with
    | .source =>
      match disk.tree.locateForReading path with
      | .error fault => (.error fault, disk)
      | .ok location => (.ok .source, disk.setHandle .source ⟨location, 0, true, none, guard⟩)
    | .dest =>
      match disk.tree.locateForWriting path with
      | .error fault => (.error fault, disk)
      | .ok location =>
        let disk := { disk with tree := disk.tree.put location (.file .empty) }
        (.ok .dest,
          disk.setHandle .dest ⟨location, 0, disk.plan.destSeekable, disk.plan.room, guard⟩)

def refuseUnnamed (disk : Disk) (side : Side) : Fault :=
  (disk.plan.opening side).getD .noPath

/-- Closes an open file; it is closed even if the call has a fault. -/
def close (disk : Disk) (side : Side) : Except Fault Unit × Disk :=
  match disk.handle? side with
  | none => (.ok (), disk)
  | some handle =>
    let mishap := handle.guard.mishap .close
    let wasClosed := handle.guard.closed
    let guard := { handle.guard.record .close with closed := true }
    let disk := disk.setHandle side { handle with guard }
    match mishap with
    | some (.raise fault) => (if wasClosed then .ok () else .error fault, disk)
    | _ => (.ok (), disk)

def remove (disk : Disk) (path : String) : Except Fault Unit × Disk :=
  match disk.plan.removal with
  | some fault => (.error fault, disk)
  | none =>
    match disk.tree.locateForRemoval path with
    | .error fault => (.error fault, disk)
    | .ok location => (.ok (), { disk with tree := disk.tree.erase location })

def answer : (request : Files.Request Side) → Disk → request.Answer × Disk
  | .stream request, disk => disk.answerStream request
  | .openFile side path, disk => disk.openFile side path
  | .openUnnamed side, disk => (disk.refuseUnnamed side, disk)
  | .close side, disk => disk.close side
  | .remove path, disk => disk.remove path

def run (disk : Disk) (scratch : Scratch) (work : Files.Work Side α) :
    (Except Failure α × Scratch) × Disk :=
  (work scratch).run answer disk

end Disk

end RomImage
