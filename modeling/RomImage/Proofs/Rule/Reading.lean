import RomImage.Proofs.Stream.Reading
import RomImage.Rule

/-!
# Either way of reading the image

A rule reads its source only to copy the image, so that it does not matter to it either whether the
source reads into chunks or hands over bytes, as long as it delivers the same. This holds of every
layout, and of the staged one too, where the source is read beside the tape in memory.
-/

namespace RomImage

open RomImage.Stream

variable {ι σ : Type}

namespace Rule

variable (rule : Rule) (source dest : Channel ι) (size : Int)

theorem layImage_alike [Machine] :
    (rule.layImage source.storing dest size).Alike (readings source.handle)
      (rule.layImage source.handing dest size) :=
  .bind (copy_alike source dest size) fun _ => .refl _

theorem lay_alike [Machine] :
    (rule.lay source.storing dest size).Alike (readings source.handle)
      (rule.lay source.handing dest size) := by
  rw [lay, lay]
  cases rule.layout with
  | padded => exact rule.layImage_alike source dest size
  | led =>
      dsimp only
      cases rule.spec.lead with
      | none => exact .refl _
      | some lead => exact .bind (.refl _) fun _ => rule.layImage_alike source dest size
  | patched =>
      refine .bind (.refl _) fun moves => ?_
      split
      · exact .bind (rule.layImage_alike source dest size) fun _ => .refl _
      · have himage : (rule.layImage (source.storing.mapHandle some) stagingChannel size).Alike
            (readings (some source.handle))
            (rule.layImage (source.handing.mapHandle some) stagingChannel size) :=
          rule.layImage_alike (source.mapHandle some) stagingChannel size
        exact .bind (.refl _) fun _ => staged_alike (.bind himage fun _ => .refl _)

theorem apply_alike [Machine] :
    (rule.apply source.storing dest).Alike (readings source.handle)
      (rule.apply source.handing dest) := by
  have hmeasure : measure source.storing = measure source.handing := rfl
  rw [apply, apply, hmeasure]
  refine .bind (.refl _) fun _ => .bind (.refl _) fun size => ?_
  cases size with
  | none => exact .refl _
  | some size =>
      dsimp only
      split
      · exact .refl _
      · exact .bind (.refl _) fun _ => .bind (rule.lay_alike source dest size) fun _ => .refl _

end Rule

/-- **Either way of reading ends alike.** From a source that delivers the same in both ways, no more
than was asked for, a copy or a rule that reads into chunks and one that is handed bytes make the
same calls, with reads of the same sizes, and end with one outcome, one buffer and one state of the
streams. -/
theorem ends_alike_either_way [Machine] {world : World ι σ} {source : Channel ι}
    (halike : world.ReadsAlike source.handle) (dest : Channel ι) (scratch : Scratch) (state : σ) :
    (∀ count, EndsAlike (readings source.handle)
      (world.logged.run scratch (copy source.storing dest count) (state, []))
      (world.logged.run scratch (copy source.handing dest count) (state, []))) ∧
    ∀ rule : Rule, EndsAlike (readings source.handle)
      (world.logged.run scratch (rule.apply source.storing dest) (state, []))
      (world.logged.run scratch (rule.apply source.handing dest) (state, [])) :=
  ⟨fun count => (copy_alike source dest count).run_recording halike.kept scratch state,
    fun rule => (rule.apply_alike source dest).run_recording halike.kept scratch state⟩

/-- Three bytes come one at a time, and a fourth is not there; the cartridge image is made of
them. -/
theorem ends_alike_either_way_dry :
    let source : Channel Bool := ⟨false, "in.bin", true, true⟩
    let dest : Channel Bool := ⟨true, "out.bin", true, true⟩
    let tapes : Bool → Tape := fun stream => if stream then .empty else ⟨.ofBytes [1, 2, 3], 0⟩
    let ended {α : Type} (work : Work Bool α) :=
      (World.plain 0).logged.run (.ready (.zeros 2)) work (tapes, [])
    (ended (copy source.handing dest 4)).1.1.isOk = false ∧
      ((ended (copy source.handing dest 4)).2.1 true).contents.bytes = [1, 2, 3] ∧
      EndsAlike (readings false) (ended (copy source.storing dest 4))
        (ended (copy source.handing dest 4)) ∧
      EndsAlike (readings false) (ended (Rule.stc.apply source.storing dest))
        (ended (Rule.stc.apply source.handing dest)) := by
  intro source dest tapes ended
  have halike : (World.plain 0 : World Bool _).ReadsAlike source.handle :=
    World.plain_readsAlike 0 false
  exact ⟨by decide +kernel, by decide +kernel,
    (ends_alike_either_way halike dest (.ready (.zeros 2)) tapes).1 4,
    (ends_alike_either_way halike dest (.ready (.zeros 2)) tapes).2 .stc⟩

end RomImage
