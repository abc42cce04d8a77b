import RomImage.Proofs.Build.Steps

/-!
# What a build reports

A build has stages: the buffer, the two openings, the rule, and the two closes. The first stage that
fails decides what the build comes to. What fails after it, a close or the removal of the output, is
noted and nothing else, and that a build is finished is noted if and only if it is.

The notes of a rule are all of the lowest level, so that `Disk.reported`, the notes above it, are
those of the build itself.
-/

namespace RomImage

namespace Rule

open RomImage.Stream

variable {ι τ : Type} {conduct : Conduct (interface ι) τ} {source dest : Channel ι} {size : Int}
  {scratch : Scratch} {state : τ}

theorem layImage_negative [Machine] (rule : Rule) (hsize : size < 0) :
    (rule.layImage source dest size).Ensures conduct scratch state (fun _ _ _ => False)
      (fun _ _ _ => True) := by
  have hcopy : copy source dest size = Task.fail (.misuse (.negativeCount size)) := by
    rw [copy, if_pos hsize]
  rw [layImage, hcopy]
  exact trivial

/-- An image of fewer than no bytes is never laid out. -/
theorem lay_negative [Machine] (rule : Rule) (hsize : size < 0) :
    (rule.lay source dest size).Ensures conduct scratch state (fun _ _ _ => False)
      (fun _ _ _ => True) := by
  rw [lay]
  cases rule.layout with
  | padded => exact rule.layImage_negative hsize
  | led =>
      dsimp only
      split
      · exact Task.ensures_fail trivial
      · exact (Task.ensures_trivial _).bind fun _ _ _ _ => rule.layImage_negative hsize
  | patched =>
      refine (Task.ensures_trivial _).bind fun moves scratch state _ => ?_
      split
      · exact (rule.layImage_negative hsize).bind fun _ _ _ => False.elim
      refine (Task.ensures_trivial _).bind fun _ scratch state _ => ?_
      have hwork : (do
          rule.layImage (source.mapHandle some) stagingChannel size
          rule.layPatch stagingChannel
          move stagingChannel 0 fromStart
          copy stagingChannel (dest.mapHandle some) rule.containerSize :
            Work (Option ι) Unit).Ensures (fun _ _ _ _ => True) scratch ()
          (fun _ _ _ => False) (fun _ _ _ => True) :=
        (rule.layImage_negative hsize).bind fun _ _ _ => False.elim
      refine (Task.Ensures.route (fun _ _ => ()) ?_ hwork).mono ?_ fun _ _ _ _ => trivial
      · intro request memory state
        cases steer request memory with
        | kept answer memory' => trivial
        | passed request back memory' => exact fun _ _ _ => trivial
      · rintro _ _ _ ⟨-, hnever⟩
        exact hnever

/-- What a rule reports adds up, and it has noted the numbers that this comes from. -/
theorem apply_reports [Machine] (rule : Rule) (noted : Note → Prop)
    (hnoted : ∀ fact state after, conduct (.note fact) state (.ok () : Except Fault Unit) after →
      noted fact) :
    (rule.apply source dest).Ensures conduct scratch state
      (fun summary _ _ => ∃ size : Int, 0 ≤ size ∧ size ≤ rule.ceiling ∧
        noted (.building rule.spec.kind size rule.ceiling rule.containerSize) ∧
        summary = ⟨rule.spec.kind, size, rule.containerSize, rule.ceiling - size⟩)
      (fun _ _ _ => True) := by
  have hnote (fact : Note) (scratch : Scratch) (state : τ) :
      (note fact : Work ι Unit).Ensures conduct scratch state (fun _ _ _ => noted fact)
        (fun _ _ _ => True) := by
    rw [note]
    refine Task.Ensures.bind (Task.ensures_request _) ?_
    rintro answer _ after ⟨rfl, hanswer⟩
    cases answer with
    | ok _ => exact Task.ensures_pure (hnoted fact state after hanswer)
    | error fault => exact Task.ensures_fail trivial
  rw [apply]
  refine (Task.ensures_trivial _).bind fun _ scratch state _ => ?_
  refine (Task.ensures_trivial _).bind fun size scratch state _ => ?_
  cases size with
  | none => exact Task.ensures_fail trivial
  | some size =>
      dsimp only
      split
      · exact Task.ensures_fail trivial
      rename_i hfits
      refine (hnote _ scratch state).bind fun _ scratch state hkept => ?_
      by_cases hsize : size < 0
      · exact (rule.lay_negative hsize).bind fun _ _ _ => False.elim
      · refine (Task.ensures_trivial _).bind fun _ scratch state _ => ?_
        exact Task.ensures_pure ⟨size, Int.not_lt.mp hsize, Int.not_lt.mp hfits, hkept, rfl⟩

end Rule

namespace Disk

variable {α : Type} {disk after : Disk}

/-- The notes above the lowest level, the first in front. -/
def reported (disk : Disk) : List Note :=
  (disk.notes.filter (·.level ≠ .debug)).reverse

@[simp] theorem notes_change (disk : Disk) (location : Location)
    (step : Contents → α × Contents) : (disk.change location step).2.notes = disk.notes := by
  obtain ⟨tree, source, dest, notes, plan⟩ := disk
  rw [change]
  split
  · rfl
  · rfl

end Disk

namespace Build

open Files (channel onStreams)
open RomImage.Disk (closeFault? course streamCourse)

variable {disk opened stopped : Disk} {sourcePath destPath : String} {scratch scratch' : Scratch}
  {rule : Rule} {ruled : Except Failure Summary}

variable {closingDest closingSource removal : Option Fault}

end Build

end RomImage
