import RomImage.Container.Spec

/-!
# What a container holds

The bytes of the container of an image, as the specification lays them down: the bytes in front, the
image, zeros up to the target size, and the patch over all of it.
-/

namespace RomImage

def Patch.over (patch : Patch) (bytes : Bytes) : Bytes :=
  bytes.take patch.offset ++ patch.data ++ bytes.drop patch.stop

theorem Patch.length_over (patch : Patch) (bytes : Bytes) (inside : patch.stop ≤ bytes.length) :
    (patch.over bytes).length = bytes.length := by
  simp only [Patch.stop] at inside
  simp [Patch.over, Patch.stop]
  omega

namespace Spec

def leadBytes (spec : Spec) : Bytes :=
  match spec.lead with
  | some lead => List.replicate lead.count lead.fill
  | none => []

@[simp] theorem length_leadBytes (spec : Spec) : spec.leadBytes.length = spec.leadSize := by
  cases present : spec.lead <;> simp [leadBytes, leadSize, present]

def unpatched (spec : Spec) (target : Nat) (image : Bytes) : Bytes :=
  spec.leadBytes ++ image ++ List.replicate (target - image.length) 0

def container (spec : Spec) (target : Nat) (image : Bytes) : Bytes :=
  match spec.patch with
  | some patch => patch.over (spec.unpatched target image)
  | none => spec.unpatched target image

theorem length_unpatched (spec : Spec) (target : Nat) (image : Bytes)
    (fits : image.length ≤ target) :
    (spec.unpatched target image).length = spec.leadSize + target := by
  simp [unpatched]
  omega

/-- The container of an image that fits is as large as the specification says. -/
theorem length_container (spec : Spec) (target : Nat) (image : Bytes)
    (wellFormed : spec.WellFormed) (sized : spec.targetSize = some target)
    (fits : image.length ≤ target) :
    (spec.container target image).length = spec.leadSize + target := by
  unfold container
  split
  · rename_i patch present
    obtain ⟨bound, isTarget, inside⟩ := wellFormed.patch_inside patch present
    obtain rfl : target = bound := by simpa [sized] using isTarget
    rw [patch.length_over _ (by rw [length_unpatched _ _ _ fits]; exact inside),
      length_unpatched _ _ _ fits]
  · exact length_unpatched _ _ _ fits

end Spec

end RomImage
