import RomImage.Proofs.Build
import RomImage.Proofs.Disk.Engaged
import RomImage.Proofs.Disk.Spared

/-!
# Step by step through a build

A build asks for its two files, lets the rule work, and closes both. Two things are followed through
these steps. One is what they leave alone, which no mishap changes: `Build.files_spares`. The other
is what they come to, which is what the rule came to, if the build succeeds; and it does if the disk
is calm (`Build.files_ensures`).
-/

namespace RomImage

namespace Disk

def GoesWell : (request : Files.Request Side) → Disk → Prop
  | .stream request, disk => disk.StreamGoesWell request
  | .openFile side _, disk => disk.plan.opening side = none
  | .openUnnamed _, _ => False
  | .close side, disk =>
    ∀ handle ∈ disk.handle? side, ∀ effect ∈ handle.guard.mishap .close, effect.Harmless .close
  | .remove _, disk => disk.plan.removal = none

instance : (request : (Files.interface Side).Request) → (disk : Disk) →
    Decidable (GoesWell request disk)
  | .stream request, disk => inferInstanceAs (Decidable (disk.StreamGoesWell request))
  | .openFile side _, disk => inferInstanceAs (Decidable (disk.plan.opening side = none))
  | .openUnnamed _, _ => inferInstanceAs (Decidable False)
  | .close side, disk => inferInstanceAs (Decidable (∀ handle ∈ disk.handle? side,
      ∀ effect ∈ handle.guard.mishap .close, effect.Harmless .close))
  | .remove _, disk => inferInstanceAs (Decidable (disk.plan.removal = none))

def course (calm : Prop) : Conduct (Files.interface Side) Disk :=
  fun request disk answer after =>
    (answer, after) = disk.answer request ∧ (calm → GoesWell request disk)

theorem close_of_goesWell {disk : Disk} {side : Side} (hwell : GoesWell (.close side) disk) :
    (disk.close side).1 = .ok () := by
  rw [close]
  cases hhandle : disk.handle? side with
  | none => rfl
  | some handle =>
      have hharmless := hwell handle hhandle
      dsimp only
      split
      · rename_i fault hmishap
        exact (hharmless _ hmishap).elim
      · rfl

/-- All goes well with every request that work of a build makes of a disk. -/
def RunsWell {α : Type} (disk : Disk) (scratch : Scratch) (work : Files.Work Side α) : Prop :=
  (work scratch).Throughout GoesWell answer disk

instance {α : Type} (disk : Disk) (scratch : Scratch) (work : Files.Work Side α) :
    Decidable (disk.RunsWell scratch work) :=
  Dialogue.decidableThroughout (work scratch) disk

/-- Work of a build on a disk ends as it does under the course of the disk. -/
theorem run_course {α : Type} {calm : Prop} {disk : Disk} {scratch : Scratch}
    {work : Files.Work Side α} {good : α → Scratch → Disk → Prop}
    {bad : Failure → Scratch → Disk → Prop}
    (hwork : work.Ensures (course calm) scratch disk good bad)
    (hwell : calm → disk.RunsWell scratch work) :
    (∃ value scratch' after, disk.run scratch work = ((.ok value, scratch'), after) ∧
        good value scratch' after) ∨
      ∃ failure scratch' after, disk.run scratch work = ((.error failure, scratch'), after) ∧
        bad failure scratch' after :=
  hwork.run_throughout (fun _ _ hfine => ⟨rfl, hfine⟩) hwell

/-- What comes of work that ends with a value, whatever went wrong on the way. -/
theorem course_ok {α : Type} {disk : Disk} {scratch : Scratch} {work : Files.Work Side α}
    {good : α → Scratch → Disk → Prop} {bad : Failure → Scratch → Disk → Prop} {value : α}
    (hwork : work.Ensures (course False) scratch disk good bad)
    (hrun : (disk.run scratch work).1.1 = .ok value) :
    ∃ scratch', good value scratch' (disk.run scratch work).2 := by
  obtain ⟨_, scratch', after, hends, hgood⟩ | ⟨_, _, _, hends, -⟩ := run_course hwork False.elim
  · rw [hends] at hrun ⊢
    obtain rfl := Except.ok.inj hrun
    exact ⟨scratch', hgood⟩
  · rw [hends] at hrun
    exact absurd hrun (by simp)

end Disk

namespace Build

open Files (channel onStreams)
open RomImage.Disk (course streamCourse Spared Sparing)
open RomImage.Stream (Reads Moves)

section Requests

variable {ι : Type} {kind : Files.Request ι → Prop} {file : ι}

theorem note_asksOnly (hnote : ∀ fact, kind (.stream (.note fact))) (fact : Note) :
    (Files.note fact : Files.Work ι Unit).AsksOnly kind :=
  .rephrase (Stream.note_asksOnly (hnote fact))

theorem closeAt_asksOnly (hclose : kind (.close file)) (path : String) :
    (closeAt file path).AsksOnly kind := by
  refine .bind (.request hclose) fun answer => ?_
  cases answer with
  | ok _ => exact .pure ()
  | error fault =>
      dsimp only
      split
      · exact .fail _
      · exact .fail _

theorem closeAfterFailure_asksOnly (hclose : kind (.close file))
    (hnote : ∀ fact, kind (.stream (.note fact))) (path : String) :
    (closeAfterFailure file path).AsksOnly kind := by
  refine .bind (.request hclose) fun answer => ?_
  cases answer with
  | ok _ => exact .pure ()
  | error fault =>
      cases fault with
      | interrupt => exact .fail _
      | _ => exact note_asksOnly hnote _

theorem discard_asksOnly {path : String} (hremove : kind (.remove path))
    (hnote : ∀ fact, kind (.stream (.note fact))) :
    (discard path : Files.Work ι Unit).AsksOnly kind := by
  refine .bind (.request hremove) fun answer => ?_
  cases answer with
  | ok _ => exact note_asksOnly hnote _
  | error fault =>
      dsimp only
      split
      · exact .pure ()
      split
      · exact note_asksOnly hnote _
      · exact .fail _

/-- Under any conduct a file is opened as the request for it is answered. -/
theorem openAt_conduct {σ : Type} {conduct : Conduct (Files.interface ι) σ} {state : σ}
    {scratch : Scratch} {side : Side} {path : String} {good : ι → Scratch → σ → Prop}
    {bad : Failure → Scratch → σ → Prop}
    (hopened : ∀ file after,
      conduct (.openFile side path) state (.ok file : Except Fault ι) after →
        good file scratch after)
    (hrefused : ∀ fault after,
      conduct (.openFile side path) state (.error fault : Except Fault ι) after →
        bad (openingFailure path fault) scratch after) :
    (openAt side path).Ensures conduct scratch state good bad := by
  rw [openAt]
  refine Task.Ensures.bind (Task.ensures_request _) ?_
  rintro answer _ after ⟨rfl, hanswer⟩
  cases answer with
  | ok file => exact Task.ensures_pure (hopened file after hanswer)
  | error fault =>
      have hfailed := hrefused fault after hanswer
      rw [openingFailure] at hfailed
      dsimp only
      split
      · rename_i hsystem
        rw [if_pos hsystem] at hfailed
        exact Task.ensures_fail hfailed
      · rename_i hother
        rw [if_neg hother] at hfailed
        exact Task.ensures_fail hfailed

end Requests

variable {calm : Prop} {disk : Disk} {scratch : Scratch} {tree : FileTree} {path : String}

theorem onStreams_ensures {α : Type} {work : Stream.Work Side α}
    {good : α → Scratch → Disk → Prop} {bad : Failure → Scratch → Disk → Prop}
    (hwork : work.Ensures (streamCourse calm) scratch disk good bad) :
    (onStreams work).Ensures (course calm) scratch disk good bad := by
  rw [onStreams]
  exact Task.Ensures.rephrase (I := Stream.interface Side) (J := Files.interface Side)
    (fun _ _ _ _ hanswer => hanswer) hwork

theorem openAt_ensures (side : Side) (path : String) :
    (openAt side path).Ensures (course calm) scratch disk
      (fun file scratch' after => scratch' = scratch ∧ disk.openFile side path = (.ok file, after))
      (fun _ _ after => ∃ fault, disk.openFile side path = (.error fault, after) ∧
        (calm → disk.plan.opening side = none)) := by
  apply openAt_conduct
  · rintro file after ⟨hopened, -⟩
    exact ⟨rfl, hopened.symm⟩
  · rintro fault after ⟨hrefused, hwell⟩
    exact ⟨fault, hrefused.symm, hwell⟩

section Spares

/-- What spares the rest keeps it spared. -/
theorem spared_step (request : Files.Request Side) (disk : Disk) (answer : request.Answer)
    (after : Disk) (hsparing : Sparing path request) (hspared : Spared tree path disk)
    (hanswer : course calm request disk answer after) : Spared tree path after := by
  have hafter : after = (disk.answer request).2 := congrArg Prod.snd hanswer.1
  rw [hafter]
  exact hspared.answer request hsparing

theorem spares_of_asksOnly {α : Type} {task : Files.Work Side α}
    (hasks : task.AsksOnly (Sparing path)) (hspared : Spared tree path disk) :
    task.Ensures (course calm) scratch disk (fun _ _ after => Spared tree path after)
      (fun _ _ after => Spared tree path after) :=
  hasks.ensures spared_step hspared

/-- A rule does not write to its source. -/
theorem apply_sparing [Machine] (rule : Rule) (sourcePath destPath : String) :
    (onStreams (rule.apply (channel Side.source sourcePath) (channel .dest destPath))).AsksOnly
      (Sparing destPath) :=
  .rephrase (rule.apply_asksOnly ⟨fun _ => trivial, fun _ => trivial⟩
    ⟨trivial, fun _ _ => trivial, trivial⟩ (fun _ => trivial)
    ⟨trivial, fun _ _ => trivial, trivial⟩ (fun _ => trivial) fun _ _ => trivial)

theorem into_spares [Machine] (rule : Rule) (sourcePath destPath : String)
    (hspared : Spared tree destPath disk) :
    (into rule (channel .source sourcePath) destPath).Ensures (course calm) scratch disk
      (fun _ _ after => Spared tree destPath after)
      (fun _ _ after => Spared tree destPath after) := by
  rw [into]
  refine Task.Ensures.bind ((openAt_ensures .dest destPath).bad_mono ?_) ?_
  · rintro _ _ after ⟨fault, hrefused, -⟩
    rw [Disk.openFile_error hrefused]
    exact hspared
  rintro file _ after ⟨rfl, hopened⟩
  obtain ⟨-, rfl, -⟩ := Disk.openFile_eq_ok.mp hopened
  have hafter : Spared tree destPath after := by
    have hkept : Spared tree destPath (disk.openFile .dest destPath).2 :=
      hspared.openFile .dest fun _ => rfl
    rwa [hopened] at hkept
  refine spares_of_asksOnly ?_ hafter
  refine .bind (apply_sparing rule sourcePath destPath).attempt fun outcome => ?_
  cases outcome with
  | error failure =>
      refine .bind (closeAfterFailure_asksOnly trivial (fun _ => trivial) destPath) fun _ => ?_
      exact .bind (discard_asksOnly rfl fun _ => trivial) fun _ => .fail failure
  | ok summary =>
      refine .bind (closeAt_asksOnly trivial destPath).attempt fun closed => ?_
      cases closed with
      | ok _ => exact .pure summary
      | error failure =>
          dsimp only
          split
          · exact .bind (discard_asksOnly rfl fun _ => trivial) fun _ => .fail failure
          · exact .fail failure

/-- A build leaves all files alone but its output, however it ends. -/
theorem files_spares [Machine] (rule : Rule) (sourcePath destPath : String)
    (hspared : Spared tree destPath disk) :
    (files rule sourcePath destPath).Ensures (course calm) scratch disk
      (fun _ _ after => Spared tree destPath after)
      (fun _ _ after => Spared tree destPath after) := by
  rw [files]
  refine Task.Ensures.bind (spares_of_asksOnly .buffer hspared) ?_
  intro _ _ disk hspared
  refine Task.Ensures.bind ?_ fun summary _ after hafter =>
    spares_of_asksOnly (.bind (note_asksOnly (fun _ => trivial) _) fun _ => .pure summary) hafter
  rw [withSource]
  refine Task.Ensures.bind ((openAt_ensures .source sourcePath).bad_mono ?_) ?_
  · rintro _ _ after ⟨fault, hrefused, -⟩
    rw [Disk.openFile_error hrefused]
    exact hspared
  rintro file _ after ⟨rfl, hopened⟩
  obtain ⟨-, rfl, -⟩ := Disk.openFile_eq_ok.mp hopened
  have hafter : Spared tree destPath after := by
    have hkept : Spared tree destPath (disk.openFile .source sourcePath).2 :=
      hspared.openFile .source Side.noConfusion
    rwa [hopened] at hkept
  refine Task.Ensures.bind (into_spares rule sourcePath destPath hafter).attempt ?_
  intro outcome _ after hafter
  cases outcome with
  | error failure =>
      refine spares_of_asksOnly ?_ hafter
      exact .bind (closeAfterFailure_asksOnly trivial (fun _ => trivial) sourcePath) fun _ =>
        .fail failure
  | ok summary =>
      refine spares_of_asksOnly ?_ hafter
      exact .bind (closeAt_asksOnly trivial sourcePath) fun _ => .pure summary

theorem run_files_spares [Machine] (rule : Rule) (tree : FileTree) (plan : Disk.Plan)
    (sourcePath destPath : String) (scratch : Scratch) :
    Spared tree destPath
      ((Disk.ofTree tree plan).run scratch (files rule sourcePath destPath)).2 := by
  have hspares : (files rule sourcePath destPath).Ensures (course False) scratch
      (.ofTree tree plan) (fun _ _ after => Spared tree destPath after)
      (fun _ _ after => Spared tree destPath after) :=
    files_spares rule sourcePath destPath (.ofTree tree destPath plan)
  obtain ⟨_, _, _, hrun, hspared⟩ | ⟨_, _, _, hrun, hspared⟩ :=
    Disk.run_course hspares False.elim
  · rwa [hrun]
  · rwa [hrun]

end Spares

section Succeeds

variable {sourcePath destPath : String} {opened : Disk}

theorem closeAt_ensures (side : Side) (path : String) :
    (closeAt side path).Ensures (course calm) scratch disk
      (fun _ _ after => after.tree = disk.tree) (fun _ _ _ => ¬ calm) := by
  rw [closeAt]
  refine Task.Ensures.bind (Task.ensures_request _) ?_
  rintro answer _ after ⟨rfl, hanswer, hwell⟩
  have hclosed : (answer, after) = disk.close side := hanswer
  cases answer with
  | ok _ =>
      refine Task.ensures_pure ?_
      have hafter : after = (disk.close side).2 := congrArg Prod.snd hclosed
      rw [hafter, Disk.tree_close]
  | error fault =>
      have hrefused : ¬ calm := by
        intro hcalm
        have hdone := (congrArg Prod.fst hclosed).trans (Disk.close_of_goesWell (hwell hcalm))
        exact absurd hdone (by simp)
      dsimp only
      split
      · exact Task.ensures_fail hrefused
      · exact Task.ensures_fail hrefused

theorem note_ensures (fact : Note) :
    (Files.note fact : Files.Work Side Unit).Ensures (course calm) scratch disk
      (fun _ _ after => after.tree = disk.tree) (fun _ _ _ => ¬ calm) := by
  refine onStreams_ensures ?_
  rw [Stream.note]
  refine Task.Ensures.bind (Task.ensures_request _) ?_
  rintro answer _ after ⟨rfl, hanswer, hwell⟩
  cases answer with
  | ok _ =>
      refine Task.ensures_pure ?_
      have hafter : after = (disk.answerStream (.note fact)).2 := congrArg Prod.snd hanswer
      rw [hafter]
      rfl
  | error fault =>
      refine Task.ensures_fail fun hcalm => ?_
      have hwritable : fact.isWritable = true := (hwell hcalm).2
      have hkept : (fact.keep disk.notes).1 = .ok () := by rw [Note.keep, if_pos hwritable]
      exact absurd ((congrArg Prod.fst hanswer).trans hkept) (by simp)

/-- After a mishap a build fails. -/
theorem fails_of_not_calm {α : Type} {task : Files.Work Side Unit} {rest : Files.Work Side α}
    (hmishap : ¬ calm) {good : α → Scratch → Disk → Prop} (hrest : ∀ scratch disk,
      rest.Ensures (course calm) scratch disk good (fun _ _ _ => ¬ calm)) :
    (task >>= fun _ => rest).Ensures (course calm) scratch disk good (fun _ _ _ => ¬ calm) := by
  have htask : task.Ensures (course calm) scratch disk (fun _ _ _ => True)
      (fun _ _ _ => ¬ calm) :=
    .of_forall (fun _ _ _ => trivial) (fun _ _ _ => hmishap) task scratch disk
  exact htask.bind fun _ scratch disk _ => hrest scratch disk

theorem into_ensures [Machine] {rule : Rule} {source : Stream.Channel Side}
    {good : Summary → FileTree → Prop}
    (hlocate : calm → ∃ location, disk.tree.locateForWriting destPath = .ok location)
    (happly : ∀ opened, disk.openFile .dest destPath = (.ok .dest, opened) →
      (onStreams (rule.apply source (channel .dest destPath))).Ensures (course calm) scratch opened
        (fun summary _ after => good summary after.tree) (fun _ _ _ => ¬ calm)) :
    (into rule source destPath).Ensures (course calm) scratch disk
      (fun summary _ after => good summary after.tree) (fun _ _ _ => ¬ calm) := by
  rw [into]
  refine Task.Ensures.bind ((openAt_ensures .dest destPath).bad_mono ?_) ?_
  · rintro _ _ after ⟨fault, hrefused, hwell⟩ hcalm
    obtain ⟨location, hplace⟩ := hlocate hcalm
    have hopened := Disk.openFile_eq_ok.mpr ⟨hwell hcalm, rfl, location, hplace, rfl⟩
    exact absurd (congrArg Prod.fst (hrefused.symm.trans hopened)) (by simp)
  rintro file _ opened ⟨rfl, hopened⟩
  obtain ⟨-, rfl, -⟩ := Disk.openFile_eq_ok.mp hopened
  refine Task.Ensures.bind (happly opened hopened).attempt ?_
  intro outcome scratch disk hdone
  cases outcome with
  | error failure =>
      -- The rule has met a mishap, so it does not matter what the cleanup comes to.
      refine fails_of_not_calm hdone fun scratch disk => ?_
      exact fails_of_not_calm hdone fun _ _ => Task.ensures_fail hdone
  | ok summary =>
      refine Task.Ensures.bind (closeAt_ensures .dest destPath).attempt ?_
      intro closed scratch after hclosed
      cases closed with
      | ok _ =>
          dsimp only at hclosed hdone
          rw [← hclosed] at hdone
          exact Task.ensures_pure hdone
      | error failure =>
          dsimp only
          split
          · exact fails_of_not_calm hclosed fun _ _ => Task.ensures_fail hclosed
          · exact Task.ensures_fail hclosed

theorem withSource_ensures [Machine] {rule : Rule} {good : Summary → FileTree → Prop}
    (hsource : calm → ∃ location, disk.tree.locateForReading sourcePath = .ok location)
    (hdest : calm → ∃ location, disk.tree.locateForWriting destPath = .ok location)
    (happly : ∀ opened, Opened disk sourcePath destPath opened →
      (onStreams (rule.apply (channel .source sourcePath) (channel .dest destPath))).Ensures
        (course calm) scratch opened (fun summary _ after => good summary after.tree)
        (fun _ _ _ => ¬ calm)) :
    (withSource sourcePath fun source => into rule source destPath).Ensures (course calm) scratch
      disk (fun summary _ after => good summary after.tree) (fun _ _ _ => ¬ calm) := by
  rw [withSource]
  refine Task.Ensures.bind ((openAt_ensures .source sourcePath).bad_mono ?_) ?_
  · rintro _ _ after ⟨fault, hrefused, hwell⟩ hcalm
    obtain ⟨location, hplace⟩ := hsource hcalm
    have hopened := Disk.openFile_eq_ok.mpr ⟨hwell hcalm, rfl, location, hplace, rfl⟩
    exact absurd (congrArg Prod.fst (hrefused.symm.trans hopened)) (by simp)
  rintro file scratch first ⟨rfl, hopened⟩
  obtain ⟨-, rfl, location, -, hfirst⟩ := Disk.openFile_eq_ok.mp hopened
  have htree : first.tree = disk.tree := by
    rw [hfirst]
    exact Disk.tree_setHandle _ _ _
  have hinto : (into rule (channel .source sourcePath) destPath).Ensures (course calm) scratch first
      (fun summary _ after => good summary after.tree) (fun _ _ _ => ¬ calm) := by
    refine into_ensures ?_ fun opened hnext => happly opened ⟨first, hopened, hnext⟩
    rwa [htree]
  refine Task.Ensures.bind hinto.attempt ?_
  intro outcome scratch disk hdone
  cases outcome with
  | error failure => exact fails_of_not_calm hdone fun _ _ => Task.ensures_fail hdone
  | ok summary =>
      refine Task.Ensures.bind (closeAt_ensures .source sourcePath) ?_
      intro _ _ after hclosed
      dsimp only at hdone
      rw [← hclosed] at hdone
      exact Task.ensures_pure hdone

/-- A build comes to what its rule came to, and fails for nothing else on a calm disk that has the
two files. -/
theorem files_ensures [Machine] {rule : Rule} {good : Summary → FileTree → Prop} {buffer : Buffer}
    (hbuffer : scratch.buffer = .ok buffer)
    (hsource : calm → ∃ location, disk.tree.locateForReading sourcePath = .ok location)
    (hdest : calm → ∃ location, disk.tree.locateForWriting destPath = .ok location)
    (happly : ∀ opened, Opened disk sourcePath destPath opened →
      (onStreams (rule.apply (channel .source sourcePath) (channel .dest destPath))).Ensures
        (course calm) (.ready buffer) opened (fun summary _ after => good summary after.tree)
        (fun _ _ _ => ¬ calm)) :
    (files rule sourcePath destPath).Ensures (course calm) scratch disk
      (fun summary _ after => good summary after.tree) (fun _ _ _ => ¬ calm) := by
  rw [files]
  refine Task.Ensures.bind (Task.ensures_buffer hbuffer) ?_
  rintro _ _ disk ⟨rfl, rfl, rfl⟩
  refine Task.Ensures.bind (withSource_ensures hsource hdest happly) ?_
  intro summary _ disk hdone
  refine Task.Ensures.bind (note_ensures _) ?_
  intro _ _ after hnoted
  rw [← hnoted] at hdone
  exact Task.ensures_pure hdone

end Succeeds

end Build

end RomImage
