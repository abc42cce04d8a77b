import RomImage.Disk
import RomImage.Proofs.Ensures
import RomImage.Proofs.FileTree

/-!
# What work on open files leaves alone

Reading, writing and moving change the contents of files, the positions in them and the counts of
calls. They do not change the plan, where directories and files stand, or which file is open at a
side, and they close nothing (`Disk.frame_run`).
-/

namespace RomImage

namespace Disk

open RomImage.Stream (Call Guard Gate Schedule)

variable {α : Type} {disk after last : Disk} {side : Side}

/-- What no request to an open file changes about it: its location, its schedule, how often it was
closed and whether it is. -/
def Handle.lasting (handle : Handle) : Location × Schedule × Nat × Bool :=
  (handle.location, handle.guard.schedule, handle.guard.tally.closes, handle.guard.closed)

/-- The second disk is the first but for contents, positions, counts and notes. -/
structure Frame (disk after : Disk) : Prop where
  plan : after.plan = disk.plan
  shape : disk.tree.SameShape after.tree
  handle : ∀ side, (after.handle? side).map Handle.lasting = (disk.handle? side).map Handle.lasting

theorem Frame.refl (disk : Disk) : Frame disk disk :=
  ⟨rfl, fun _ => rfl, fun _ => rfl⟩

theorem Frame.trans (hfirst : Frame disk after) (hsecond : Frame after last) : Frame disk last :=
  ⟨hsecond.plan.trans hfirst.plan,
    fun location => (hsecond.shape location).trans (hfirst.shape location),
    fun side => (hsecond.handle side).trans (hfirst.handle side)⟩

@[simp] theorem handle?_setHandle (disk : Disk) (side other : Side) (handle : Handle) :
    (disk.setHandle side handle).handle? other
      = if other = side then some handle else disk.handle? other := by
  cases side <;> cases other <;> rfl

@[simp] theorem tree_setHandle (disk : Disk) (side : Side) (handle : Handle) :
    (disk.setHandle side handle).tree = disk.tree := by
  cases side <;> rfl

@[simp] theorem plan_setHandle (disk : Disk) (side : Side) (handle : Handle) :
    (disk.setHandle side handle).plan = disk.plan := by
  cases side <;> rfl

def Handle.recording (handle : Handle) (call : Call) : Handle :=
  { handle with guard := handle.guard.record call }

/-- A call on an open file is kept, and then goes as its gate says. -/
theorem access_eq {handle : Handle} (hhandle : disk.handle? side = some handle) (call : Call)
    (preset : Option Int → α)
    (act : Option Nat → Option Nat → Handle → Disk → Except Fault α × Disk) :
    disk.access side call preset act =
      match handle.guard.gate call with
      | .refused fault => (.error fault, disk.setHandle side (handle.recording call))
      | .preset value => (.ok (preset value), disk.setHandle side (handle.recording call))
      | .admitted limit surplus =>
          act limit surplus (handle.recording call)
            (disk.setHandle side (handle.recording call)) := by
  rw [access]
  simp only [hhandle]
  rfl

theorem frame_setHandle {old handle : Handle} (hold : disk.handle? side = some old)
    (hlasting : handle.lasting = old.lasting) : Frame disk (disk.setHandle side handle) := by
  refine ⟨plan_setHandle _ _ _, fun _ => by rw [tree_setHandle], fun other => ?_⟩
  rw [handle?_setHandle]
  split
  · rename_i hsame
    rw [hsame, hold, Option.map_some, Option.map_some, hlasting]
  · rfl

theorem frame_change (disk : Disk) (location : Location) (step : Contents → α × Contents) :
    Frame disk (disk.change location step).2 := by
  obtain ⟨tree, source, dest, notes, plan⟩ := disk
  have hshape := FileTree.sameShape_change tree location step
  rw [change]
  split
  · rename_i hchange
    rw [hchange] at hshape
    exact ⟨rfl, hshape, fun side => by cases side <;> rfl⟩
  · rename_i hchange
    rw [hchange] at hshape
    exact ⟨rfl, hshape, fun side => by cases side <;> rfl⟩

@[simp] theorem handle?_change (disk : Disk) (location : Location)
    (step : Contents → α × Contents) (side : Side) :
    (disk.change location step).2.handle? side = disk.handle? side := by
  obtain ⟨tree, source, dest, notes, plan⟩ := disk
  rw [change]
  split
  · cases side <;> rfl
  · cases side <;> rfl

theorem frame_take {handle : Handle} (hhandle : disk.handle? side = some handle) (count : Nat) :
    Frame disk (disk.take side handle count).2 := by
  have hkept (step : Contents → Bytes × Contents) :
      (disk.change handle.location step).2.handle? side = some handle := by
    rw [handle?_change, hhandle]
  exact (frame_change disk handle.location _).trans (frame_setHandle (hkept _) rfl)

theorem frame_store {handle : Handle} (hhandle : disk.handle? side = some handle) (data : Bytes) :
    Frame disk (disk.store side handle data) := by
  have hkept (step : Contents → Unit × Contents) :
      (disk.change handle.location step).2.handle? side = some handle := by
    rw [handle?_change, hhandle]
  exact (frame_change disk handle.location _).trans (frame_setHandle (hkept _) rfl)

/-- A call keeps the frame if what it does keeps it, unless it closes. -/
theorem frame_access {call : Call} {preset : Option Int → α}
    {act : Option Nat → Option Nat → Handle → Disk → Except Fault α × Disk}
    (hcall : call.method ≠ .close)
    (hact : ∀ limit surplus handle after, after.handle? side = some handle →
      Frame after (act limit surplus handle after).2) :
    Frame disk (disk.access side call preset act).2 := by
  rw [access]
  cases hhandle : disk.handle? side with
  | none => exact .refl disk
  | some handle =>
      have hrecord : Handle.lasting { handle with guard := handle.guard.record call }
          = handle.lasting := by
        have hcloses : (handle.guard.tally.add call.method).closes = handle.guard.tally.closes := by
          have hcount := Stream.Tally.count_add handle.guard.tally call.method .close
          rwa [if_neg hcall, Nat.add_zero] at hcount
        exact congrArg (fun closes =>
          (handle.location, handle.guard.schedule, closes, handle.guard.closed)) hcloses
      have hset := frame_setHandle hhandle hrecord
      dsimp only
      split
      · exact hset
      · exact hset
      · refine hset.trans (hact _ _ _ _ ?_)
        rw [handle?_setHandle, if_pos rfl]

/-- No request to an open file breaks the frame. -/
theorem frame_answerStream (request : Stream.Request Side) (disk : Disk) :
    Frame disk (disk.answerStream request).2 := by
  cases request with
  | readInto side size =>
      refine frame_access Stream.Method.noConfusion fun _ _ handle after hhandle => ?_
      exact frame_take hhandle _
  | read side size =>
      refine frame_access Stream.Method.noConfusion fun _ _ handle after hhandle => ?_
      exact frame_take hhandle _
  | write side data =>
      refine frame_access Stream.Method.noConfusion fun _ _ handle after hhandle => ?_
      exact frame_store hhandle _
  | seek side offset whence =>
      refine frame_access Stream.Method.noConfusion fun _ _ handle after hhandle => ?_
      split
      · split
        · exact frame_setHandle hhandle rfl
        · exact .refl after
      · exact .refl after
  | seekUnknown side =>
      exact frame_access Stream.Method.noConfusion fun _ _ handle after _ => .refl after
  | tell side =>
      refine frame_access Stream.Method.noConfusion fun _ _ handle after _ => ?_
      split
      · exact .refl after
      · exact .refl after
  | seekable side =>
      exact frame_access Stream.Method.noConfusion fun _ _ handle after _ => .refl after
  | note fact => exact ⟨rfl, fun _ => rfl, fun side => by cases side <;> rfl⟩

theorem tree_change (disk : Disk) (location : Location) (step : Contents → α × Contents) :
    (disk.change location step).2.tree = (disk.tree.change location step).2 := by
  obtain ⟨tree, source, dest, notes, plan⟩ := disk
  rw [change]
  split
  · rename_i hchange
    exact (congrArg Prod.snd hchange).symm
  · rename_i hchange
    exact (congrArg Prod.snd hchange).symm

theorem tree_take (disk : Disk) (side : Side) (handle : Handle) (count : Nat) :
    (disk.take side handle count).2.tree = disk.tree := by
  have hchange := tree_change disk handle.location fun contents =>
    (contents.slice handle.position count, contents)
  rw [FileTree.change_of_same _ _ fun _ => rfl] at hchange
  exact (tree_setHandle _ _ _).trans hchange

theorem tree_store (disk : Disk) (side : Side) (handle : Handle) (data : Bytes) :
    (disk.store side handle data).tree = (disk.tree.change handle.location fun contents =>
      ((), contents.store handle.position data)).2 :=
  (tree_setHandle _ _ _).trans (tree_change disk handle.location _)

theorem tree_access {call : Call} {preset : Option Int → α}
    {act : Option Nat → Option Nat → Handle → Disk → Except Fault α × Disk}
    (hact : ∀ limit surplus handle after, (act limit surplus handle after).2.tree = after.tree) :
    (disk.access side call preset act).2.tree = disk.tree := by
  rw [access]
  split
  · rfl
  · dsimp only
    split
    · exact tree_setHandle _ _ _
    · exact tree_setHandle _ _ _
    · rw [hact, tree_setHandle]

/-- Only a write changes a file. -/
theorem tree_answerStream (disk : Disk) {request : Stream.Request Side}
    (hreads : ∀ side data, request ≠ .write side data) :
    (disk.answerStream request).2.tree = disk.tree := by
  cases request with
  | readInto side size => exact tree_access fun _ _ _ _ => tree_take _ _ _ _
  | read side size => exact tree_access fun _ _ _ _ => tree_take _ _ _ _
  | write side data => exact absurd rfl (hreads side data)
  | seek side offset whence =>
      refine tree_access fun _ _ handle after => ?_
      split
      · split
        · exact tree_setHandle _ _ _
        · rfl
      · rfl
  | seekUnknown side => exact tree_access fun _ _ _ _ => rfl
  | tell side =>
      refine tree_access fun _ _ handle after => ?_
      split
      · rfl
      · rfl
  | seekable side => exact tree_access fun _ _ _ _ => rfl
  | note fact => rfl

/-- A write changes the contents of its file, if anything. -/
theorem tree_write {handle : Handle} (hhandle : disk.handle? side = some handle) (data : Bytes) :
    ∃ step : Contents → Unit × Contents, (disk.answerStream (.write side data)).2.tree
      = (disk.tree.change handle.location step).2 := by
  have hnothing : (disk.tree.change handle.location fun contents => ((), contents)).2 = disk.tree :=
    FileTree.change_of_same _ _ fun _ => rfl
  rw [answerStream, access_eq hhandle]
  cases handle.guard.gate (.write data.length) with
  | refused fault => exact ⟨_, (tree_setHandle _ _ _).trans hnothing.symm⟩
  | preset value => exact ⟨_, (tree_setHandle _ _ _).trans hnothing.symm⟩
  | admitted limit surplus =>
      have hstore := tree_store (disk.setHandle side (handle.recording (.write data.length))) side
        (handle.recording (.write data.length))
      simp only [tree_setHandle] at hstore
      exact ⟨_, hstore _⟩

def Handle.closing (handle : Handle) : Handle :=
  { handle with guard := { handle.guard.record .close with closed := true } }

/-- To close a file that is open changes its handle, and to close any other nothing. -/
theorem after_close (disk : Disk) (side : Side) :
    disk.handle? side = none ∧ (disk.close side).2 = disk ∨
      ∃ handle, disk.handle? side = some handle ∧
        (disk.close side).2 = disk.setHandle side handle.closing := by
  rw [close]
  cases disk.handle? side with
  | none => exact .inl ⟨rfl, rfl⟩
  | some handle =>
      refine .inr ⟨handle, rfl, ?_⟩
      dsimp only
      split
      · rfl
      · rfl

theorem tree_close (disk : Disk) (side : Side) : (disk.close side).2.tree = disk.tree := by
  obtain ⟨-, hafter⟩ | ⟨handle, -, hafter⟩ := disk.after_close side
  · rw [hafter]
  · rw [hafter, tree_setHandle]

@[simp] theorem notes_setHandle (disk : Disk) (side : Side) (handle : Handle) :
    (disk.setHandle side handle).notes = disk.notes := by
  cases side <;> rfl

theorem notes_close (disk : Disk) (side : Side) : (disk.close side).2.notes = disk.notes := by
  obtain ⟨-, hafter⟩ | ⟨handle, -, hafter⟩ := disk.after_close side
  · rw [hafter]
  · rw [hafter, notes_setHandle]

/-- Work on open files keeps the frame, however it ends. -/
theorem frame_run (work : Stream.Work Side α) (scratch : Scratch) (disk : Disk) :
    Frame disk (disk.run scratch (Files.onStreams work)).2 := by
  have hanswer (request : Stream.Request Side) (after : Disk) (hframe : Frame disk after) :
      Frame disk (after.answerStream request).2 :=
    hframe.trans (frame_answerStream request after)
  have hrun : disk.run scratch (Files.onStreams work)
      = (work scratch).run (fun request after => after.answerStream request) disk :=
    Dialogue.run_rephrase (I := Stream.interface Side) (J := Files.interface Side) .stream
      (fun _ answer => answer) answer (work scratch) disk
  rw [hrun]
  exact Dialogue.run_preserves hanswer (work scratch) (Frame.refl disk)

end Disk

end RomImage
