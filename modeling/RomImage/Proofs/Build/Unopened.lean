import RomImage.Proofs.Build.Handles
import RomImage.Proofs.Build.Unnoted

/-!
# Builds that do not come to their destination

A build needs a buffer, a source and a destination, in this order, and the first that it cannot have
ends it. No request up to there changes a file: a source that was opened is closed again, and
nothing is removed, since only a destination that was opened is (`Build.named_comes`).

Whether a note is kept on the disk or goes elsewhere makes no difference to the files, so the steps
are followed on a disk of which only the other answers are known (`Disk.apartFromNotes`).
-/

namespace RomImage

namespace Disk

variable {tree : FileTree} {disk after : Disk} {side : Side}

def HasOpened (disk : Disk) (side : Side) : Prop := (disk.handle? side).isSome = true

instance (disk : Disk) (side : Side) : Decidable (disk.HasOpened side) :=
  inferInstanceAs (Decidable (_ = true))

def CanOpen (disk : Disk) (side : Side) (path : Option String) : Prop :=
  ∃ name ∈ path, (disk.openFile side name).1 = .ok side

/-- A run has come to nothing: the destination was not opened, every file and every directory is as
it was found, and a source that was opened is closed. -/
structure AsFound (tree : FileTree) (disk : Disk) : Prop where
  unopened : ¬ disk.HasOpened .dest
  tree : disk.tree = tree
  closed : ∀ handle ∈ disk.handle? .source, handle.guard.closed = true

theorem AsFound.ofTree (tree : FileTree) (plan : Plan) : AsFound tree (.ofTree tree plan) :=
  ⟨Bool.false_ne_true, rfl, fun _ hhandle => absurd hhandle (by simp [Disk.ofTree, handle?])⟩

/-- A disk answers as it does, but a note may have any answer and may be kept or not. -/
def apartFromNotes : Conduct (Files.interface Side) Disk := fun request disk answer after =>
  (answer, after) = disk.answer request ∨
    Build.Notes request ∧ after.tree = disk.tree ∧ ∀ side, after.handle? side = disk.handle? side

theorem apartFromNotes_of_unnoted {request : Files.Request Side} {answer : request.Answer}
    (hanswer : unnoted False request disk answer after) :
    apartFromNotes request disk answer after := by
  cases request with
  | stream request =>
      by_cases hnote : ∀ fact, request ≠ .note fact
      · exact .inl ((unnotedStream_iff hnote).mp hanswer).1
      · obtain ⟨fact, rfl⟩ := not_forall_not.mp hnote
        obtain ⟨-, rfl⟩ := hanswer
        exact .inr ⟨⟨fact, rfl⟩, rfl, fun _ => rfl⟩
  | _ => exact .inl hanswer.1

/-- A note leaves the files alone, wherever it goes. -/
theorem apartFromNotes_note {request : Files.Request Side} {answer : request.Answer}
    (hnotes : Build.Notes request) (hanswer : apartFromNotes request disk answer after) :
    after.tree = disk.tree ∧ ∀ side, after.handle? side = disk.handle? side := by
  obtain hanswer | ⟨-, hsame⟩ := hanswer
  · obtain ⟨fact, rfl⟩ := hnotes
    obtain rfl := congrArg Prod.snd hanswer
    refine ⟨rfl, fun side => ?_⟩
    cases side with
    | source => rfl
    | dest => rfl
  · exact hsame

/-- A request that is about files and not about streams has the answer of the disk. -/
theorem apartFromNotes_answer {request : Files.Request Side} {answer : request.Answer}
    (hother : ∀ inner, request ≠ .stream inner)
    (hanswer : apartFromNotes request disk answer after) :
    (answer, after) = disk.answer request := by
  obtain hanswer | ⟨⟨fact, hnote⟩, -⟩ := hanswer
  · exact hanswer
  · exact absurd hnote (hother _)

namespace HasOpened

theorem setHandle (hopened : disk.HasOpened side) (other : Side) (handle : Handle) :
    (disk.setHandle other handle).HasOpened side := by
  rw [HasOpened, handle?_setHandle]
  split
  · rfl
  · exact hopened

theorem frame (hopened : disk.HasOpened side) (hframe : Frame disk after) :
    after.HasOpened side := by
  have hsame := congrArg Option.isSome (hframe.handle side)
  rw [Option.isSome_map, Option.isSome_map] at hsame
  exact hsame.trans hopened

theorem openFile (hopened : disk.HasOpened side) (other : Side) (path : String) :
    (disk.openFile other path).2.HasOpened side := by
  obtain hafter | ⟨tree, handle, -, hafter⟩ := disk.after_openFile other path
  · rwa [hafter]
  · have hopened' : HasOpened { disk with tree } side := hopened
    rw [hafter]
    exact hopened'.setHandle other handle

theorem close (hopened : disk.HasOpened side) (other : Side) :
    (disk.close other).2.HasOpened side := by
  obtain ⟨-, hafter⟩ | ⟨handle, -, hafter⟩ := disk.after_close other
  · rwa [hafter]
  · rw [hafter]
    exact hopened.setHandle other _

theorem remove (hopened : disk.HasOpened side) (path : String) :
    (disk.remove path).2.HasOpened side := by
  rw [Disk.remove]
  split
  · exact hopened
  split
  · exact hopened
  · exact hopened

/-- No request makes a disk forget a file that was opened. -/
theorem answer (hopened : disk.HasOpened side) (request : Files.Request Side) :
    (disk.answer request).2.HasOpened side := by
  cases request with
  | stream request => exact hopened.frame (frame_answerStream request disk)
  | openFile other path => exact hopened.openFile other path
  | openUnnamed other => exact hopened
  | close other => exact hopened.close other
  | remove path => exact hopened.remove path

theorem ensures {α : Type} {scratch : Scratch} (hopened : disk.HasOpened side)
    (task : Files.Work Side α) :
    task.Ensures apartFromNotes scratch disk (fun _ _ after => after.HasOpened side)
      (fun _ _ after => after.HasOpened side) := by
  have hasks : task.AsksOnly fun _ => True := .of_forall (fun _ => trivial) task
  refine hasks.ensures ?_ hopened
  rintro request before answer after - hopened (hanswer | ⟨-, -, hhandle⟩)
  · obtain rfl := congrArg Prod.snd hanswer
    exact hopened.answer request
  · rw [HasOpened, hhandle]
    exact hopened

end HasOpened

/-- Whether a file can be opened depends on the tree and on the plan. -/
theorem canOpen_congr {path : Option String} (htree : after.tree = disk.tree)
    (hplan : after.plan = disk.plan) : after.CanOpen side path ↔ disk.CanOpen side path := by
  have hanswer (name : String) : (after.openFile side name).1 = (disk.openFile side name).1 := by
    rw [openFile, openFile, htree, hplan]
    cases disk.plan.opening side with
    | some fault => rfl
    | none =>
        cases side with
        | source => cases disk.tree.locateForReading name <;> rfl
        | dest => cases disk.tree.locateForWriting name <;> rfl
  simp only [CanOpen, hanswer]

/-- Closing the source leaves everything as it was found. -/
theorem asFound_close (hunopened : ¬ disk.HasOpened .dest) (htree : disk.tree = tree) :
    (disk.close .source).2.AsFound tree := by
  obtain ⟨hnone, hafter⟩ | ⟨handle, -, hafter⟩ := disk.after_close .source
  · rw [hafter]
    exact ⟨hunopened, htree, fun handle hhandle => absurd (hnone.symm.trans hhandle) (by simp)⟩
  · rw [hafter]
    refine ⟨hunopened, (tree_setHandle _ _ _).trans htree, fun closed hclosed => ?_⟩
    obtain rfl : handle.closing = closed := Option.some.inj hclosed
    rfl

end Disk

namespace Build

open Files (channel)
open RomImage.Disk (CanOpen AsFound HasOpened apartFromNotes)

variable {disk after : Disk} {scratch : Scratch} {tree : FileTree} {path : String} {side : Side}
  {ready : Prop} {missed : Disk → Prop}

def Provided [Machine] (disk : Disk) (scratch : Scratch) (source dest : Option String) : Prop :=
  (∃ buffer, scratch.buffer = .ok buffer) ∧ disk.CanOpen .source source ∧ disk.CanOpen .dest dest

def Comes (ready : Prop) (missed : Disk → Prop) (after : Disk) : Prop :=
  ready ∧ after.HasOpened .dest ∨ ¬ ready ∧ missed after

theorem Comes.unopened_iff (hcomes : Comes ready (AsFound tree) after) :
    ¬ after.HasOpened .dest ↔ ¬ ready := by
  obtain ⟨hready, hopened⟩ | ⟨hmissing, hmissed⟩ := hcomes
  · exact iff_of_false (fun hunopened => hunopened hopened) fun hmissing => hmissing hready
  · exact iff_of_true hmissed.unopened hmissing

theorem Comes.asFound (hcomes : Comes ready (AsFound tree) after)
    (hunopened : ¬ after.HasOpened .dest) : after.AsFound tree := by
  obtain ⟨-, hopened⟩ | ⟨-, hmissed⟩ := hcomes
  · exact absurd hopened hunopened
  · exact hmissed

/-- Once the destination was opened, work has come to it, whatever is done yet. -/
theorem comes_of_hasOpened (task : Files.Work Side Summary) (hready : ready)
    (hopened : disk.HasOpened .dest) :
    task.Ensures apartFromNotes scratch disk
      (fun _ _ after => ready ∧ after.HasOpened .dest)
      (fun _ _ after => Comes ready missed after) :=
  (hopened.ensures task).mono (fun _ _ _ hopened => ⟨hready, hopened⟩)
    fun _ _ _ hopened => .inl ⟨hready, hopened⟩

theorem canOpen_of_openFile {file : Side} (hopened : disk.openFile side path = (.ok file, after)) :
    disk.CanOpen side (some path) := by
  obtain ⟨-, rfl, -⟩ := Disk.openFile_eq_ok.mp hopened
  exact ⟨path, rfl, by rw [hopened]⟩

theorem hasOpened_of_openFile {file : Side}
    (hopened : disk.openFile side path = (.ok file, after)) :
    after.HasOpened side := by
  obtain ⟨-, -, hplace⟩ := Disk.openFile_eq_ok.mp hopened
  cases side with
  | source =>
      obtain ⟨location, -, rfl⟩ := hplace
      rfl
  | dest =>
      obtain ⟨location, -, rfl⟩ := hplace
      rfl

/-- A file is opened if it can be, and else nothing has happened. -/
theorem openAt_comes (side : Side) (path : String) :
    (openAt side path).Ensures apartFromNotes scratch disk
      (fun file scratch' after => scratch' = scratch ∧ disk.openFile side path = (.ok file, after))
      (fun _ _ after => ¬ disk.CanOpen side (some path) ∧ after = disk) := by
  apply openAt_conduct
  · intro file after hanswer
    exact ⟨rfl, (Disk.apartFromNotes_answer (by simp) hanswer).symm⟩
  · intro fault after hanswer
    have hrefused : disk.openFile side path = (.error fault, after) :=
      (Disk.apartFromNotes_answer (by simp) hanswer).symm
    refine ⟨?_, Disk.openFile_error hrefused⟩
    rintro ⟨name, hname, hopened⟩
    obtain rfl := Option.some.inj hname
    rw [hrefused] at hopened
    exact absurd hopened (by simp)

/-- A file without a path is not opened. -/
theorem refuse_comes (side : Side) {good : Summary → Scratch → Disk → Prop} :
    (refuse side).Ensures apartFromNotes scratch disk good
      (fun _ _ after => ¬ disk.CanOpen side none ∧ after = disk) := by
  rw [refuse]
  refine Task.Ensures.bind (Task.ensures_request _) ?_
  rintro fault _ after ⟨rfl, hanswer⟩
  have hafter := congrArg Prod.snd (Disk.apartFromNotes_answer (by simp) hanswer)
  refine Task.ensures_fail ⟨?_, hafter⟩
  rintro ⟨name, hname, -⟩
  exact absurd hname (by simp)

/-- A build into a destination that cannot be opened has done nothing. -/
theorem into_comes [Machine] (rule : Rule) (source : Stream.Channel Side) (path : String) :
    (into rule source path).Ensures apartFromNotes scratch disk
      (fun _ _ after => disk.CanOpen .dest (some path) ∧ after.HasOpened .dest)
      (fun _ _ after => Comes (disk.CanOpen .dest (some path)) (· = disk) after) := by
  rw [into]
  refine Task.Ensures.bind ((openAt_comes .dest path).bad_mono fun _ _ _ => .inr) ?_
  rintro file _ opened ⟨rfl, hopened⟩
  obtain ⟨-, rfl, -⟩ := Disk.openFile_eq_ok.mp hopened
  exact comes_of_hasOpened _ (canOpen_of_openFile hopened) (hasOpened_of_openFile hopened)

/-- After a failure the source is closed, and a note of that leaves the files alone. -/
theorem closeAfterFailure_comes (path : String) (hunopened : ¬ disk.HasOpened .dest)
    (htree : disk.tree = tree) :
    (closeAfterFailure .source path).Ensures apartFromNotes scratch disk
      (fun _ _ after => after.AsFound tree) (fun _ _ after => after.AsFound tree) := by
  rw [closeAfterFailure]
  refine Task.Ensures.bind (Task.ensures_request _) ?_
  rintro answer _ after ⟨rfl, hanswer⟩
  obtain rfl := congrArg Prod.snd (Disk.apartFromNotes_answer (by simp) hanswer)
  refine Task.AsksOnly.ensures ?_ (?_ : Task.AsksOnly Notes _)
    (Disk.asFound_close hunopened htree)
  · rintro request before answer after hnotes hfound hanswer
    obtain ⟨htree, hhandle⟩ := Disk.apartFromNotes_note hnotes hanswer
    refine ⟨?_, htree.trans hfound.tree, ?_⟩
    · rw [HasOpened, hhandle]
      exact hfound.unopened
    · rw [hhandle]
      exact hfound.closed
  · cases answer with
    | ok _ => exact .pure ()
    | error fault =>
        cases fault with
        | interrupt => exact .fail _
        | _ => exact note_asksOnly (fun fact => ⟨fact, rfl⟩) _

/-- Work on a source goes the way of its body, if the source can be opened. -/
theorem withSource_comes {body : Stream.Channel Side → Files.Work Side Summary} (path : String)
    (hfound : disk.AsFound tree)
    (hbody : ∀ first, disk.openFile .source path = (.ok .source, first) →
      (body (channel .source path)).Ensures apartFromNotes scratch first
        (fun _ _ after => ready ∧ after.HasOpened .dest)
        (fun _ _ after => Comes ready (· = first) after)) :
    (withSource path body).Ensures apartFromNotes scratch disk
      (fun _ _ after => (disk.CanOpen .source (some path) ∧ ready) ∧ after.HasOpened .dest)
      (fun _ _ after => Comes (disk.CanOpen .source (some path) ∧ ready) (AsFound tree) after) := by
  rw [withSource]
  refine Task.Ensures.bind ((openAt_comes .source path).bad_mono ?_) ?_
  · rintro _ _ after ⟨hrefused, rfl⟩
    exact .inr ⟨fun hready => hrefused hready.1, hfound⟩
  rintro file _ first ⟨rfl, hopened⟩
  have hsource := canOpen_of_openFile hopened
  obtain ⟨-, rfl, location, -, hfirst⟩ := Disk.openFile_eq_ok.mp hopened
  refine Task.Ensures.bind (hbody first hopened).attempt ?_
  intro outcome scratch after hdone
  cases outcome with
  | ok summary => exact comes_of_hasOpened _ ⟨hsource, hdone.1⟩ hdone.2
  | error failure =>
      obtain ⟨hready, hknown⟩ | ⟨hrefused, rfl⟩ := hdone
      · exact comes_of_hasOpened _ ⟨hsource, hready⟩ hknown
      have hunopened : ¬ after.HasOpened .dest := by
        rw [hfirst, HasOpened, Disk.handle?_setHandle, if_neg (by decide)]
        exact hfound.unopened
      have htree : after.tree = tree := by
        rw [hfirst, Disk.tree_setHandle]
        exact hfound.tree
      have hmissed {final : Disk} (hfinal : final.AsFound tree) :
          Comes (disk.CanOpen .source (some path) ∧ ready) (AsFound tree) final :=
        .inr ⟨fun hready => hrefused hready.2, hfinal⟩
      refine Task.Ensures.bind ((closeAfterFailure_comes path hunopened htree).bad_mono
        fun _ _ _ => hmissed) ?_
      exact fun _ _ _ hfinal => Task.ensures_fail (hmissed hfinal)

/-- Without a buffer nothing is done, and with one all depends on the rest. -/
theorem buffer_comes [Machine] {work : Files.Work Side Summary} (hfound : disk.AsFound tree)
    (hwork : ∀ scratch, work.Ensures apartFromNotes scratch disk
      (fun _ _ after => ready ∧ after.HasOpened .dest)
      (fun _ _ after => Comes ready (AsFound tree) after)) :
    (Task.buffer >>= fun _ => work).Ensures apartFromNotes scratch disk
      (fun _ _ after =>
        ((∃ buffer, scratch.buffer = .ok buffer) ∧ ready) ∧ after.HasOpened .dest)
      (fun _ _ after =>
        Comes ((∃ buffer, scratch.buffer = .ok buffer) ∧ ready) (AsFound tree) after) := by
  cases hbuffer : scratch.buffer with
  | error failure =>
      have hnone : ¬ ∃ buffer, (.error failure : Except Failure Buffer) = .ok buffer := by simp
      have hfails : (Task.buffer : Files.Work Side Buffer).Ensures apartFromNotes scratch disk
          (fun _ _ _ => False) (fun _ _ after => after = disk) := by
        simp only [Task.Ensures, Task.buffer, hbuffer]
        rfl
      refine Task.Ensures.bind (hfails.bad_mono ?_) fun _ _ _ => False.elim
      rintro _ _ _ rfl
      exact .inr ⟨fun hready => hnone hready.1, hfound⟩
  | ok buffer =>
      have hsome : ∃ other, (.ok buffer : Except Failure Buffer) = .ok other := ⟨buffer, rfl⟩
      refine Task.Ensures.bind (Task.ensures_buffer hbuffer) ?_
      rintro _ _ _ ⟨rfl, rfl, rfl⟩
      refine (hwork _).mono ?_ ?_
      · rintro _ _ _ ⟨hready, hopened⟩
        exact ⟨⟨hsome, hready⟩, hopened⟩
      · rintro _ _ _ (⟨hready, hopened⟩ | ⟨hrefused, hmissed⟩)
        · exact .inl ⟨⟨hsome, hready⟩, hopened⟩
        · exact .inr ⟨fun hready => hrefused hready.2, hmissed⟩

/-- **A build that is provided for comes to its destination, and any other to nothing.** -/
theorem named_comes [Machine] (rule : Rule) (source dest : Option String)
    (hfound : disk.AsFound tree) :
    (named rule source dest).Ensures apartFromNotes scratch disk
      (fun _ _ after => Provided disk scratch source dest ∧ after.HasOpened .dest)
      (fun _ _ after => Comes (Provided disk scratch source dest) (AsFound tree) after) := by
  cases source with
  | none =>
      refine buffer_comes hfound fun scratch => (refuse_comes .source).bad_mono ?_
      rintro _ _ _ ⟨hrefused, rfl⟩
      exact .inr ⟨fun hready => hrefused hready.1, hfound⟩
  | some sourcePath =>
      -- The source is not what decides whether the destination can be opened.
      have hsame {first : Disk}
          (hopened : disk.openFile .source sourcePath = (.ok .source, first)) :
          first.CanOpen .dest dest ↔ disk.CanOpen .dest dest := by
        obtain ⟨-, _, -, htree, hplan, -⟩ := Disk.openFile_source hopened
        exact Disk.canOpen_congr htree hplan
      cases dest with
      | none =>
          refine buffer_comes hfound fun scratch => withSource_comes sourcePath hfound ?_
          intro first hopened
          rw [← hsame hopened]
          exact (refuse_comes .dest).bad_mono fun _ _ _ => .inr
      | some destPath =>
          refine buffer_comes hfound fun scratch => ?_
          refine Task.Ensures.bind (withSource_comes sourcePath hfound ?_) ?_
          · intro first hopened
            rw [← hsame hopened]
            exact into_comes rule (channel .source sourcePath) destPath
          · intro summary _ after hcame
            exact comes_of_hasOpened _ hcame.1 hcame.2

end Build

end RomImage
