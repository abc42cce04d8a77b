import RomImage.Proofs.Disk.Frame

/-!
# Opening and closing

What a build does to a disk is a sequence of requests, each with its answer and the disk after it
(`Disk.run_bind_ok`). A file that has been opened stays open at its location until it is closed,
whatever work is done on it, and closing it has the fault that the schedule has for a first close.
-/

namespace RomImage

namespace Disk

open RomImage.Stream (Schedule)

variable {α β : Type} {disk after : Disk} {side other : Side} {scratch scratch' : Scratch}
  {location : Location} {schedule : Schedule}

theorem run_bind_ok {task : Files.Work Side α} {f : α → Files.Work Side β} {value : α}
    (htask : disk.run scratch task = ((.ok value, scratch'), after)) :
    disk.run scratch (task >>= f) = after.run scratch' (f value) :=
  Task.run_bind_ok htask

theorem run_bind_error {task : Files.Work Side α} {f : α → Files.Work Side β} {failure : Failure}
    (htask : disk.run scratch task = ((.error failure, scratch'), after)) :
    disk.run scratch (task >>= f) = ((.error failure, scratch'), after) :=
  Task.run_bind_error htask

theorem run_attempt {task : Files.Work Side α} {outcome : Except Failure α}
    (htask : disk.run scratch task = ((outcome, scratch'), after)) :
    disk.run scratch task.attempt = ((.ok outcome, scratch'), after) :=
  Task.run_attempt htask

theorem run_bind_congr {other : Disk} {task : Files.Work Side α} {f : α → Files.Work Side β}
    (htask : disk.run scratch task = other.run scratch task) :
    disk.run scratch (task >>= f) = other.run scratch (task >>= f) :=
  Task.run_bind_congr htask

theorem run_attempt_congr {other : Disk} {task : Files.Work Side α}
    (htask : disk.run scratch task = other.run scratch task) :
    disk.run scratch task.attempt = other.run scratch task.attempt :=
  Task.run_attempt_congr htask

def closeFault? (schedule : Schedule) : Option Fault :=
  match schedule .close 1 with
  | some (.raise fault) => some fault
  | _ => none

theorem closeFault?_eq_some {fault : Fault} :
    closeFault? schedule = some fault ↔ schedule .close 1 = some (.raise fault) := by
  rw [closeFault?]
  split
  · rename_i hraise
    rw [hraise, Option.some.injEq, Option.some.injEq, Stream.Effect.raise.injEq]
  · rename_i hother
    constructor
    · intro hnone
      exact absurd hnone (by simp)
    · intro hraise
      exact absurd hraise (hother fault)

def IsOpen (disk : Disk) (side : Side) (location : Location) (schedule : Schedule) : Prop :=
  (disk.handle? side).map Handle.lasting = some (location, schedule, 0, false)

theorem IsOpen.frame (hopen : disk.IsOpen side location schedule) (hframe : Frame disk after) :
    after.IsOpen side location schedule :=
  (hframe.handle side).trans hopen

theorem openFile_source {path : String} {file : Side}
    (hopened : disk.openFile .source path = (.ok file, after)) :
    file = .source ∧ ∃ location, disk.tree.locateForReading path = .ok location ∧
      after.tree = disk.tree ∧ after.plan = disk.plan ∧
      after.IsOpen .source location (disk.plan.schedule .source) := by
  rw [openFile] at hopened
  split at hopened
  · exact absurd hopened (by simp)
  · dsimp only at hopened
    split at hopened
    · exact absurd hopened (by simp)
    · rename_i place hlocate
      obtain ⟨⟨⟩, rfl⟩ := by simpa only [Prod.mk.injEq] using hopened
      exact ⟨rfl, place, hlocate, tree_setHandle _ _ _, plan_setHandle _ _ _, rfl⟩

theorem openFile_dest {path : String} {file : Side}
    (hopened : disk.openFile .dest path = (.ok file, after)) :
    file = .dest ∧ ∃ location, disk.tree.locateForWriting path = .ok location ∧
      after.tree = disk.tree.put location (.file .empty) ∧ after.plan = disk.plan ∧
      after.IsOpen .dest location (disk.plan.schedule .dest) ∧
      after.handle? .source = disk.handle? .source := by
  rw [openFile] at hopened
  split at hopened
  · exact absurd hopened (by simp)
  · dsimp only at hopened
    split at hopened
    · exact absurd hopened (by simp)
    · rename_i place hlocate
      obtain ⟨⟨⟩, rfl⟩ := by simpa only [Prod.mk.injEq] using hopened
      exact ⟨rfl, place, hlocate, rfl, rfl, rfl, rfl⟩

/-- Opening a file gives the handle of its side, with a fresh position and a fresh guard. -/
theorem openFile_eq_ok {path : String} {file : Side} :
    disk.openFile side path = (.ok file, after) ↔ disk.plan.opening side = none ∧ file = side ∧
      match side with
      | .source => ∃ location, disk.tree.locateForReading path = .ok location ∧
          after = disk.setHandle .source
            ⟨location, 0, true, none, .fresh (disk.plan.schedule .source)⟩
      | .dest => ∃ location, disk.tree.locateForWriting path = .ok location ∧
          after = { disk with tree := disk.tree.put location (.file .empty) }.setHandle .dest
            ⟨location, 0, disk.plan.destSeekable, disk.plan.room,
              .fresh (disk.plan.schedule .dest)⟩ := by
  rw [openFile]
  cases disk.plan.opening side with
  | some fault => simp
  | none =>
      cases side with
      | source =>
          cases disk.tree.locateForReading path with
          | error fault => simp
          | ok location => simp [eq_comm]
      | dest =>
          cases disk.tree.locateForWriting path with
          | error fault => simp
          | ok location => simp [eq_comm]

/-- A file that cannot be opened leaves everything as it was. -/
theorem openFile_error {path : String} {fault : Fault}
    (hrefused : disk.openFile side path = (.error fault, after)) : after = disk := by
  rw [openFile] at hrefused
  split at hrefused
  · exact (congrArg Prod.snd hrefused).symm
  · cases side with
    | source =>
        dsimp only at hrefused
        split at hrefused
        · exact (congrArg Prod.snd hrefused).symm
        · exact absurd (congrArg Prod.fst hrefused) (by simp)
    | dest =>
        dsimp only at hrefused
        split at hrefused
        · exact (congrArg Prod.snd hrefused).symm
        · exact absurd (congrArg Prod.fst hrefused) (by simp)

/-- To open a file gives the side a handle under its schedule, with perhaps another tree, or it does
nothing. -/
theorem after_openFile (disk : Disk) (side : Side) (path : String) :
    (disk.openFile side path).2 = disk ∨
      ∃ tree handle, handle.guard.schedule = disk.plan.schedule side ∧
        (disk.openFile side path).2 = { disk with tree }.setHandle side handle := by
  cases hopened : disk.openFile side path with
  | mk answer after =>
      cases answer with
      | error fault => exact .inl (openFile_error hopened)
      | ok file =>
          obtain ⟨-, -, hplace⟩ := openFile_eq_ok.mp hopened
          cases side with
          | source =>
              obtain ⟨location, -, hafter⟩ := hplace
              exact .inr ⟨disk.tree, _, rfl, hafter⟩
          | dest =>
              obtain ⟨location, -, hafter⟩ := hplace
              exact .inr ⟨_, _, rfl, hafter⟩

structure SameBut (side : Side) (disk after : Disk) : Prop where
  tree : after.tree = disk.tree
  plan : after.plan = disk.plan
  handle : ∀ other ≠ side, after.handle? other = disk.handle? other

theorem run_openFile (disk : Disk) (scratch : Scratch) (side : Side) (path : String) :
    disk.run scratch (Files.openFile side path)
      = ((.ok (disk.openFile side path).1, scratch), (disk.openFile side path).2) := rfl

theorem run_close (disk : Disk) (scratch : Scratch) (side : Side) :
    disk.run scratch (Files.close side)
      = ((.ok (disk.close side).1, scratch), (disk.close side).2) := rfl

theorem run_remove (disk : Disk) (scratch : Scratch) (path : String) :
    disk.run scratch (Files.remove path)
      = ((.ok (disk.remove path).1, scratch), (disk.remove path).2) := rfl

theorem run_note {fact : Note} (hwritable : fact.isWritable = true) :
    disk.run scratch (Files.note fact)
      = ((.ok (), scratch), { disk with notes := fact :: disk.notes }) := by
  have hanswer : answer (.stream (.note fact)) disk
      = ((.ok () : Except Fault Unit), { disk with notes := fact :: disk.notes }) := by
    rw [answer, answerStream, Note.keep, if_pos hwritable]
    rfl
  simp only [run, Files.note, Files.onStreams, Task.rephrase, Stream.note, Task.request, bind,
    Task.bind, Dialogue.bind, Dialogue.rephrase, Dialogue.run, hanswer]
  rfl

/-- Closing an open file has the fault of the schedule, and changes no more than its handle. -/
theorem close_of_isOpen (hopen : disk.IsOpen side location schedule) :
    (disk.close side).1 = (closeFault? schedule).elim (.ok ()) .error ∧
      SameBut side disk (disk.close side).2 := by
  rw [IsOpen] at hopen
  rw [close]
  cases hhandle : disk.handle? side with
  | none =>
      rw [hhandle] at hopen
      exact absurd hopen (by simp)
  | some handle =>
      rw [hhandle] at hopen
      obtain ⟨hlocation, hschedule, hcloses, hclosed⟩ :
          handle.location = location ∧ handle.guard.schedule = schedule ∧
            handle.guard.tally.closes = 0 ∧ handle.guard.closed = false := by
        simpa only [Option.map_some, Handle.lasting, Option.some.injEq, Prod.mk.injEq] using hopen
      have hmishap : handle.guard.mishap .close = schedule .close 1 := by
        rw [Stream.Guard.mishap, hschedule, Stream.Tally.count, hcloses]
      have hsame {handle : Handle} : SameBut side disk (disk.setHandle side handle) := by
        refine ⟨tree_setHandle _ _ _, plan_setHandle _ _ _, fun other hother => ?_⟩
        rw [handle?_setHandle, if_neg hother]
      dsimp only
      rw [hmishap, hclosed, closeFault?]
      cases schedule .close 1 with
      | none => exact ⟨rfl, hsame⟩
      | some effect =>
          cases effect with
          | raise fault => exact ⟨rfl, hsame⟩
          | answer value => exact ⟨rfl, hsame⟩
          | alter limit surplus =>
              exact ⟨rfl, hsame⟩

end Disk

end RomImage
