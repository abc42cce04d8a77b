import RomImage.Proofs.Build.Output
import RomImage.Proofs.Disk.Unnoted
import RomImage.Proofs.Rule.Orderly

/-!
# Builds whose notes go elsewhere

On a console a build is the same work, but no note is kept on the disk. It still comes to the
container of its image (`Build.apply_unnoted_of_apart`). And if the faults it meets are usual, all
that it fails with is reported, unless a file that it has come to is without a path
(`Build.named_unnoted`).
-/

namespace RomImage

namespace Disk

def MeetsUsual : (request : Files.Request Side) → Disk → Prop
  | .stream request, disk => disk.StruckUsually request
  | .openFile side _, disk | .openUnnamed side, disk =>
    ∀ fault ∈ disk.plan.opening side, fault.IsUsual
  | .close side, disk => ∀ handle ∈ disk.handle? side, ∀ fault,
      handle.guard.mishap .close = some (.raise fault) → fault.IsUsual
  | .remove _, disk => ∀ fault ∈ disk.plan.removal, fault.IsUsual

def unnoted (usual : Prop) : Conduct (Files.interface Side) Disk
  | .stream request, disk, answer, after => unnotedStream usual request disk answer after
  | request, disk, answer, after =>
    (answer, after) = disk.answer request ∧ (usual → MeetsUsual request disk)

variable {disk after : Disk} {side : Side} {path : String} {fault : Fault}

theorem openFile_usual (hnul : '\x00' ∉ path.toList)
    (hopening : ∀ fault ∈ disk.plan.opening side, fault.IsUsual)
    (hrefused : disk.openFile side path = (.error fault, after)) : fault.IsUsual := by
  rw [openFile] at hrefused
  split at hrefused
  · rename_i struck hstruck
    obtain rfl := Except.error.inj (congrArg Prod.fst hrefused)
    exact hopening struck hstruck
  · cases side with
    | source =>
        dsimp only at hrefused
        split at hrefused
        · rename_i reason hreason
          obtain rfl := Except.error.inj (congrArg Prod.fst hrefused)
          exact .inl (FileTree.refused_locateForReading hnul reason hreason)
        · exact absurd (congrArg Prod.fst hrefused) (by simp)
    | dest =>
        dsimp only at hrefused
        split at hrefused
        · rename_i reason hreason
          obtain rfl := Except.error.inj (congrArg Prod.fst hrefused)
          exact .inl (FileTree.refused_locateForWriting hnul reason hreason)
        · exact absurd (congrArg Prod.fst hrefused) (by simp)

theorem close_usual (hclosing : MeetsUsual (.close side) disk)
    (hrefused : disk.close side = (.error fault, after)) : fault.IsUsual := by
  rw [close] at hrefused
  split at hrefused
  · exact absurd (congrArg Prod.fst hrefused) (by simp)
  · rename_i handle hhandle
    dsimp only at hrefused
    split at hrefused
    · rename_i struck hstruck
      have hclosed := congrArg Prod.fst hrefused
      dsimp only at hclosed
      split at hclosed
      · exact absurd hclosed (by simp)
      · exact Except.error.inj hclosed ▸ hclosing handle hhandle struck hstruck
    · exact absurd (congrArg Prod.fst hrefused) (by simp)

theorem remove_usual (hnul : '\x00' ∉ path.toList)
    (hremoval : ∀ fault ∈ disk.plan.removal, fault.IsUsual)
    (hrefused : disk.remove path = (.error fault, after)) : fault.IsUsual := by
  rw [remove] at hrefused
  split at hrefused
  · rename_i struck hstruck
    obtain rfl := Except.error.inj (congrArg Prod.fst hrefused)
    exact hremoval struck hstruck
  · split at hrefused
    · rename_i reason hreason
      obtain rfl := Except.error.inj (congrArg Prod.fst hrefused)
      exact .inl (FileTree.refused_locateForRemoval hnul reason hreason)
    · exact absurd (congrArg Prod.fst hrefused) (by simp)

end Disk

namespace Build

open Files (channel onStreams)
open RomImage.Disk (Engaged Onward unnoted unnotedStream)
open RomImage.Stream (conduct)

variable {usual : Prop} {disk opened : Disk} {scratch : Scratch} {path sourcePath destPath : String}

section Steps

theorem onStreams_unnoted {α : Type} {work : Stream.Work Side α}
    {good : α → Scratch → Disk → Prop} {bad : Failure → Scratch → Disk → Prop}
    (hwork : work.Ensures (unnotedStream usual) scratch disk good bad) :
    (onStreams work).Ensures (unnoted usual) scratch disk good bad := by
  rw [onStreams]
  exact Task.Ensures.rephrase (I := Stream.interface Side) (J := Files.interface Side)
    (fun _ _ _ _ hanswer => hanswer) hwork

theorem note_unnoted (fact : Note) {bad : Failure → Scratch → Disk → Prop} :
    (Files.note fact : Files.Work Side Unit).Ensures (unnoted usual) scratch disk
      (fun _ _ after => after = disk) bad := by
  refine onStreams_unnoted ?_
  rw [Stream.note]
  refine Task.Ensures.bind (Task.ensures_request _) ?_
  rintro answer _ after ⟨rfl, rfl, rfl⟩
  exact Task.ensures_pure rfl

/-- A usual fault that no step takes for an error of the build is an interruption. -/
theorem isReported_fault {fault : Fault} (hfault : fault.IsUsual)
    (hother : ¬ fault.isSystem = true) : (Failure.fault fault).IsReported :=
  .inr (congrArg Failure.fault (hfault.resolve_left hother))

theorem openAt_unnoted (side : Side) (hnul : usual → '\x00' ∉ path.toList) :
    (openAt side path).Ensures (unnoted usual) scratch disk
      (fun file scratch' after => scratch' = scratch ∧ disk.openFile side path = (.ok file, after))
      (fun failure _ _ => usual → failure.IsReported) := by
  apply openAt_conduct
  · rintro file after ⟨hopened, -⟩
    exact ⟨rfl, hopened.symm⟩
  · rintro fault after ⟨hrefused, hmeets⟩ husual
    rw [openingFailure]
    by_cases hsystem : fault.isSystem = true
    · rw [if_pos hsystem]
      exact .inl ⟨_, rfl⟩
    · rw [if_neg hsystem]
      exact isReported_fault
        (Disk.openFile_usual (hnul husual) (hmeets husual) hrefused.symm) hsystem

theorem closeAt_unnoted (side : Side) (path : String) :
    (closeAt side path).Ensures (unnoted usual) scratch disk
      (fun _ _ after => after.tree = disk.tree)
      (fun failure _ _ => usual → failure.IsReported) := by
  rw [closeAt]
  refine Task.Ensures.bind (Task.ensures_request _) ?_
  rintro answer _ after ⟨rfl, hanswer, hmeets⟩
  have hclosed : disk.close side = (answer, after) := hanswer.symm
  cases answer with
  | ok _ =>
      refine Task.ensures_pure ?_
      rw [← Disk.tree_close disk side, hclosed]
  | error fault =>
      dsimp only
      split
      · exact Task.ensures_fail fun _ => .inl ⟨_, rfl⟩
      · rename_i hother
        exact Task.ensures_fail fun husual =>
          isReported_fault (Disk.close_usual (hmeets husual) hclosed) hother

theorem closeAfterFailure_unnoted (side : Side) (path : String) :
    (closeAfterFailure side path).Ensures (unnoted usual) scratch disk (fun _ _ _ => True)
      (fun failure _ _ => usual → failure.IsReported) := by
  rw [closeAfterFailure]
  refine Task.Ensures.bind (Task.ensures_request _) ?_
  rintro answer _ after ⟨rfl, hanswer, hmeets⟩
  cases answer with
  | ok _ => exact Task.ensures_pure trivial
  | error fault =>
      cases fault with
      | interrupt => exact Task.ensures_fail fun _ => .inr rfl
      | _ => exact (note_unnoted _).mono (fun _ _ _ _ => trivial) fun _ _ _ hbad => hbad

theorem discard_unnoted (hnul : usual → '\x00' ∉ path.toList) :
    (discard path : Files.Work Side Unit).Ensures (unnoted usual) scratch disk (fun _ _ _ => True)
      (fun failure _ _ => usual → failure.IsReported) := by
  rw [discard]
  refine Task.Ensures.bind (Task.ensures_request _) ?_
  rintro answer _ after ⟨rfl, hanswer, hmeets⟩
  have hremoved : disk.remove path = (answer, after) := hanswer.symm
  cases answer with
  | ok _ => exact (note_unnoted _).mono (fun _ _ _ _ => trivial) fun _ _ _ hbad => hbad
  | error fault =>
      dsimp only
      split
      · exact Task.ensures_pure trivial
      split
      · exact (note_unnoted _).mono (fun _ _ _ _ => trivial) fun _ _ _ hbad => hbad
      · rename_i hother
        exact Task.ensures_fail fun husual =>
          isReported_fault (Disk.remove_usual (hnul husual) (hmeets husual) hremoved) hother

end Steps

section Files

variable {rule : Rule} {good : Summary → FileTree → Prop}

theorem into_unnoted [Machine] {source : Stream.Channel Side}
    (hnul : usual → '\x00' ∉ destPath.toList)
    (happly : ∀ opened, disk.openFile .dest destPath = (.ok .dest, opened) →
      (onStreams (rule.apply source (channel .dest destPath))).Ensures (unnoted usual) scratch
        opened (fun summary _ after => good summary after.tree)
        (fun failure _ _ => usual → failure.IsReported)) :
    (into rule source destPath).Ensures (unnoted usual) scratch disk
      (fun summary _ after => good summary after.tree)
      (fun failure _ _ => usual → failure.IsReported) := by
  rw [into]
  refine Task.Ensures.bind (openAt_unnoted .dest hnul) ?_
  rintro file _ opened ⟨rfl, hopened⟩
  obtain ⟨-, rfl, -⟩ := Disk.openFile_eq_ok.mp hopened
  refine Task.Ensures.bind (happly opened hopened).attempt ?_
  intro outcome scratch disk hdone
  cases outcome with
  | error failure =>
      refine Task.Ensures.bind (closeAfterFailure_unnoted .dest destPath) fun _ _ _ _ => ?_
      exact Task.Ensures.bind (discard_unnoted hnul) fun _ _ _ _ => Task.ensures_fail hdone
  | ok summary =>
      refine Task.Ensures.bind (closeAt_unnoted .dest destPath).attempt ?_
      intro closed scratch after hclosed
      cases closed with
      | ok _ =>
          dsimp only at hclosed hdone
          rw [← hclosed] at hdone
          exact Task.ensures_pure hdone
      | error failure =>
          dsimp only
          split
          · exact Task.Ensures.bind (discard_unnoted hnul) fun _ _ _ _ => Task.ensures_fail hclosed
          · exact Task.ensures_fail hclosed

theorem withSource_unnoted (good : Summary → FileTree → Prop)
    {body : Stream.Channel Side → Files.Work Side Summary} {bad : Failure → Prop}
    (hnul : usual → '\x00' ∉ sourcePath.toList)
    (hbad : ∀ failure, (usual → failure.IsReported) → bad failure)
    (hbody : ∀ first, disk.openFile .source sourcePath = (.ok .source, first) →
      (body (channel .source sourcePath)).Ensures (unnoted usual) scratch first
        (fun summary _ after => good summary after.tree) (fun failure _ _ => bad failure)) :
    (withSource sourcePath body).Ensures (unnoted usual) scratch disk
      (fun summary _ after => good summary after.tree) (fun failure _ _ => bad failure) := by
  rw [withSource]
  refine Task.Ensures.bind ((openAt_unnoted .source hnul).bad_mono fun _ _ _ => hbad _) ?_
  rintro file _ first ⟨rfl, hopened⟩
  obtain ⟨-, rfl, -⟩ := Disk.openFile_eq_ok.mp hopened
  refine Task.Ensures.bind (hbody first hopened).attempt ?_
  intro outcome scratch disk hdone
  cases outcome with
  | error failure =>
      refine Task.Ensures.bind ((closeAfterFailure_unnoted .source sourcePath).bad_mono
        fun _ _ _ => hbad _) fun _ _ _ _ => ?_
      exact Task.ensures_fail hdone
  | ok summary =>
      refine Task.Ensures.bind ((closeAt_unnoted .source sourcePath).bad_mono
        fun _ _ _ => hbad _) ?_
      intro _ _ after hclosed
      dsimp only at hdone
      rw [← hclosed] at hdone
      exact Task.ensures_pure hdone

/-- A build comes to what its rule comes to. -/
theorem files_unnoted [Machine] {buffer : Buffer} (hbuffer : scratch.buffer = .ok buffer)
    (hsource : usual → '\x00' ∉ sourcePath.toList) (hdest : usual → '\x00' ∉ destPath.toList)
    (happly : ∀ opened, Opened disk sourcePath destPath opened →
      (onStreams (rule.apply (channel .source sourcePath) (channel .dest destPath))).Ensures
        (unnoted usual) (.ready buffer) opened (fun summary _ after => good summary after.tree)
        (fun failure _ _ => usual → failure.IsReported)) :
    (files rule sourcePath destPath).Ensures (unnoted usual) scratch disk
      (fun summary _ after => good summary after.tree)
      (fun failure _ _ => usual → failure.IsReported) := by
  rw [files]
  refine Task.Ensures.bind (Task.ensures_buffer hbuffer) ?_
  rintro _ _ disk ⟨rfl, rfl, rfl⟩
  refine Task.Ensures.bind (withSource_unnoted good hsource (fun _ hbad => hbad) fun first hfirst =>
    into_unnoted hdest fun opened hopened => happly opened ⟨first, hfirst, hopened⟩) ?_
  intro summary _ disk hdone
  refine Task.Ensures.bind (note_unnoted _) ?_
  rintro _ _ _ rfl
  exact Task.ensures_pure hdone

theorem refuse_unnoted (side : Side) :
    (refuse side).Ensures (unnoted usual) scratch disk (fun _ _ _ => False)
      (fun failure _ _ => usual → failure.IsReported ∨ failure = .fault .noPath) := by
  rw [refuse]
  refine Task.Ensures.bind (Task.ensures_request _) ?_
  rintro fault _ after ⟨rfl, hanswer, hmeets⟩
  refine Task.ensures_fail fun husual => ?_
  obtain rfl : fault = disk.refuseUnnamed side := congrArg Prod.fst hanswer
  rw [Disk.refuseUnnamed]
  cases hopening : disk.plan.opening side with
  | none => exact .inr rfl
  | some fault =>
      rw [Option.getD_some]
      by_cases hsystem : fault.isSystem = true
      · rw [if_pos hsystem]
        exact .inr rfl
      · rw [if_neg hsystem]
        exact .inl (isReported_fault (hmeets husual fault hopening) hsystem)

def Complete (source dest : Option String) : Prop := source.isSome = true ∧ dest.isSome = true

/-- And a build of which a file is without a path fails when its turn comes. -/
theorem named_unnoted [Machine] (good : Summary → FileTree → Prop) {source dest : Option String}
    {buffer : Buffer} (hbuffer : scratch.buffer = .ok buffer)
    (hsource : usual → ∀ path ∈ source, '\x00' ∉ path.toList)
    (hdest : usual → ∀ path ∈ dest, '\x00' ∉ path.toList)
    (happly : ∀ sourcePath destPath, source = some sourcePath → dest = some destPath →
      ∀ opened, Opened disk sourcePath destPath opened →
        (onStreams (rule.apply (channel .source sourcePath) (channel .dest destPath))).Ensures
          (unnoted usual) (.ready buffer) opened (fun summary _ after => good summary after.tree)
          (fun failure _ _ => usual → failure.IsReported)) :
    (named rule source dest).Ensures (unnoted usual) scratch disk
      (fun summary _ after => Complete source dest ∧ good summary after.tree)
      (fun failure _ _ => usual →
        failure.IsReported ∨ failure = .fault .noPath ∧ ¬ Complete source dest) := by
  have hrefused {failure : Failure} (hincomplete : ¬ Complete source dest)
      (hbad : usual → failure.IsReported ∨ failure = .fault .noPath) (husual : usual) :
      failure.IsReported ∨ failure = .fault .noPath ∧ ¬ Complete source dest :=
    (hbad husual).imp id fun hpathless => ⟨hpathless, hincomplete⟩
  cases source with
  | none =>
      have hincomplete : ¬ Complete none dest := fun hcomplete => absurd hcomplete.1 (by simp)
      refine Task.Ensures.bind (Task.ensures_buffer hbuffer) ?_
      rintro _ _ _ ⟨rfl, rfl, rfl⟩
      exact (refuse_unnoted .source).mono (fun _ _ _ hnever => hnever.elim)
        fun _ _ _ => hrefused hincomplete
  | some sourcePath =>
      cases dest with
      | none =>
          have hincomplete : ¬ Complete (some sourcePath) none :=
            fun hcomplete => absurd hcomplete.2 (by simp)
          refine Task.Ensures.bind (Task.ensures_buffer hbuffer) ?_
          rintro _ _ disk ⟨rfl, rfl, rfl⟩
          refine withSource_unnoted (fun summary tree => Complete _ _ ∧ good summary tree)
            (fun husual => hsource husual sourcePath rfl)
            (fun _ hbad husual => .inl (hbad husual)) fun first _ => ?_
          exact (refuse_unnoted .dest).mono (fun _ _ _ hnever => hnever.elim)
            fun _ _ _ => hrefused hincomplete
      | some destPath =>
          have hcomplete : Complete (some sourcePath) (some destPath) := ⟨rfl, rfl⟩
          exact (files_unnoted hbuffer (fun husual => hsource husual sourcePath rfl)
            (fun husual => hdest husual destPath rfl) (happly sourcePath destPath rfl rfl)).mono
              (fun _ _ _ hgood => ⟨hcomplete, hgood⟩) fun _ _ _ hbad husual => .inl (hbad husual)

end Files

section Apply

variable {rule : Rule}

/-- Whether or not the two files are one, the rule fails with a failure that is reported. -/
theorem apply_unnoted [Machine] (hshipped : rule.IsShipped) {buffer : Buffer}
    (hspan : 0 < buffer.length)
    (hmost : buffer.length ≤ Machine.memory) (hplan : disk.plan.Honest)
    (hopened : Opened disk sourcePath destPath opened) :
    (onStreams (rule.apply (channel .source sourcePath) (channel .dest destPath))).Ensures
      (unnoted usual) (.ready buffer) opened
      (fun summary _ _ => ∃ size : Nat, size ≤ rule.ceiling ∧ summary = rule.report size)
      (fun failure _ _ => usual → failure.IsReported) := by
  obtain ⟨source, dest, -, -, hengaged, -⟩ := engaged_of_opened hopened
  have hpatch : ∀ patch ∈ rule.spec.patch, patch.data.length ≤ Machine.memory := by
    intro patch hpatch
    have hlayout : rule.layout = .patched := by
      by_contra hother
      exact absurd (hshipped.matched.patch_eq_none hother)
        (Option.ne_none_iff_exists'.mpr ⟨_, hpatch⟩)
    have hmemory := hshipped.memory hlayout
    have hstop := hshipped.matched.stop_le hpatch
    rw [Patch.stop] at hstop
    omega
  have hsize : Fault.sizeBound < Nat.pow 10 Text.digitLimit := by decide +kernel
  have hbound : Machine.memory < Nat.pow 10 Text.digitLimit :=
    Nat.lt_of_le_of_lt Machine.memory_le hsize
  have hlast : Disk.lastPosition < Nat.pow 10 Text.digitLimit := by decide +kernel
  refine onStreams_unnoted ((Rule.apply_orderly
    (fun size => hengaged.orderly_unnoted hplan hbound _ _ _)
    (hengaged.measure_unnoted hplan (.refl opened)) ?_ hshipped.matched hshipped.memory rfl hspan
    hmost hpatch).mono ?_ fun _ _ _ hbad => hbad)
  · rintro _ _ _ ⟨-, count, rfl, hcount⟩ hsize -
    cases hsize with
    | negative hnegative => omega
    | tooLarge hlarge =>
        refine Failure.isReported_imageTooLarge ?_
        rw [BuildError.excess]
        omega
  · rintro _ _ _ ⟨size, ⟨-, count, hsome, -⟩, hfits, rfl⟩
    obtain rfl := Option.some.inj hsome
    exact ⟨count, Int.ofNat_le.mp hfits, rfl⟩

end Apply

end Build

end RomImage
