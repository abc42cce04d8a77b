import RomImage.Proofs.Rule.Apply

/-!
# The image in its container

A container is the bytes in front, the image, and a trailer: zeros up to the target size, with the
patch over them. The trailer is made without the image and depends on its length only, provided that
the patch lies behind the image. It does so under every rule that comes with the tool, which is a
matter of three constants: no accepted image reaches as far as the patch, and the largest ends right
where the patch may begin (`IsShipped.ceiling_le_offset`).
-/

namespace RomImage

open RomImage.Stream

def Patch.behind (patch : Patch) (count : Nat) : Patch :=
  { patch with offset := patch.offset - count }

theorem Patch.stop_behind {patch : Patch} {count : Nat} (hcount : count ≤ patch.offset) :
    (patch.behind count).stop = patch.stop - count := by
  simp only [behind, stop]
  omega

/-- A patch behind a front leaves the front alone. -/
theorem Patch.over_append {patch : Patch} {front : Bytes} (back : Bytes)
    (hfront : front.length ≤ patch.offset) :
    patch.over (front ++ back) = front ++ (patch.behind front.length).over back := by
  have hstop : front.length ≤ patch.stop := Nat.le_trans hfront (Nat.le_add_right _ _)
  calc patch.over (front ++ back)
      = (front ++ back).take patch.offset ++ patch.data ++ (front ++ back).drop patch.stop := rfl
    _ = front ++ back.take (patch.offset - front.length) ++ patch.data
          ++ back.drop (patch.stop - front.length) := by
        rw [List.take_append, List.take_of_length_le hfront, List.drop_append,
          List.drop_of_length_le hstop, List.nil_append]
    _ = front ++ (patch.behind front.length).over back := by
        rw [Patch.over, stop_behind hfront]
        simp only [behind, List.append_assoc]

namespace Spec

/-- What follows an image of so many bytes in its container. -/
def trailer (spec : Spec) (target size : Nat) : Bytes :=
  let zeros := List.replicate (target - size) 0
  match spec.patch with
  | some patch => (patch.behind (spec.leadSize + size)).over zeros
  | none => zeros

/-- If no patch reaches into the image, the container is the image between the bytes in front and a
trailer. -/
theorem container_eq_append {spec : Spec} (target : Nat) (image : Bytes)
    (hbehind : ∀ patch ∈ spec.patch, spec.leadSize + image.length ≤ patch.offset) :
    spec.container target image
      = spec.leadBytes ++ image ++ spec.trailer target image.length := by
  have hfront : (spec.leadBytes ++ image).length = spec.leadSize + image.length := by
    rw [List.length_append, length_leadBytes]
  rw [container, trailer]
  cases hpatch : spec.patch with
  | none => rfl
  | some patch =>
      dsimp only
      rw [← hfront, unpatched]
      exact Patch.over_append _ (hfront ▸ hbehind patch hpatch)

/-- The image is what stands between. -/
theorem take_drop_container {spec : Spec} {image container rest : Bytes}
    (hcontainer : container = spec.leadBytes ++ image ++ rest) :
    (container.drop spec.leadSize).take image.length = image := by
  rw [hcontainer, List.append_assoc, List.drop_left' spec.length_leadBytes, List.take_left]

end Spec

namespace Rule

variable {rule : Rule}

/-- No image that a rule of the tool accepts reaches as far as its patch. -/
theorem IsShipped.ceiling_le_offset (hshipped : rule.IsShipped) :
    ∀ patch ∈ rule.spec.patch, rule.spec.leadSize + rule.ceiling ≤ patch.offset := by
  intro patch hpatch
  by_cases hlayout : rule.layout = .patched
  · cases hshipped with
    | pad hpad => exact absurd ((pad_eq_ok hpad).1.symm.trans hlayout) (by simp)
    | pak3 =>
        obtain rfl : ⟨Table.jumpOffset, Table.jumpInstruction⟩ = patch := Option.some.inj hpatch
        decide
    | stc => exact absurd hlayout (by decide)
  · rw [hshipped.matched.patch_eq_none hlayout] at hpatch
    exact absurd hpatch (by simp)

/-- The container of an accepted image shows the image, and nothing else of it than its length. -/
theorem IsShipped.container_eq (hshipped : rule.IsShipped) {image : Bytes}
    (hfits : image.length ≤ rule.ceiling) :
    rule.spec.container rule.targetSize image
      = rule.spec.leadBytes ++ image ++ rule.spec.trailer rule.targetSize image.length := by
  apply Spec.container_eq_append
  intro patch hpatch
  exact Nat.le_trans (Nat.add_le_add_left hfits _) (hshipped.ceiling_le_offset patch hpatch)

/-- **The image can be cut out of its container again.** Under the rules that come with the tool,
every image that is not above the ceiling is accepted where the streams oblige; and whatever
truthful streams do, an image that was accepted stands whole in what was made, behind the bytes in
front, and of what surrounds it nothing but its length can be told. -/
theorem apply_recoverable [Machine] :
    (∀ size : Nat, ∃ rule, pad (.integer size) = .ok rule ∧ rule.IsShipped) ∧
    stc.IsShipped ∧ pak3.IsShipped ∧
    ∀ {ι σ : Type} [DecidableEq ι] (rule : Rule) (world : World ι σ) (source dest : Channel ι)
      (scratch : Scratch) (buffer : Buffer) (state : σ) (image : Bytes),
      rule.IsShipped → world.IsTruthful → source.handle ≠ dest.handle →
      scratch.buffer = .ok buffer → 0 < buffer.length →
      (world.tape state source.handle).contents.bytes = image →
      world.tape state dest.handle = .empty →
      (∀ ability, world.IsObliging ability → rule.Ready ability source dest (world.tape state) →
        image.length ≤ rule.ceiling →
        ∃ summary scratch' after, world.run scratch (rule.apply source dest) state
          = ((.ok summary, scratch'), after)) ∧
      ∀ summary scratch' after,
        world.run scratch (rule.apply source dest) state = ((.ok summary, scratch'), after) →
        let made := (world.tape after dest.handle).contents.bytes
        (made.drop rule.spec.leadSize).take summary.sourceSize.toNat = image ∧
          made = rule.spec.leadBytes ++ image ++ rule.spec.trailer rule.targetSize image.length ∧
          ∀ patch ∈ rule.spec.patch, rule.spec.leadSize + image.length ≤ patch.offset := by
  refine ⟨fun size => ?_, .stc, .pak3, ?_⟩
  · obtain ⟨rule, hpad, -⟩ := pad_integer size
    exact ⟨rule, hpad, .pad hpad⟩
  intro ι σ _ rule world source dest scratch buffer state image hshipped htruthful hapart hbuffer
    hspan himage hempty
  have hmatched := hshipped.matched
  constructor
  · intro ability hobliging hready hfits
    have hsize : (world.tape state source.handle).contents.size = image.length := by
      rw [← himage, Contents.length_bytes]
    obtain ⟨scratch', after, hrun⟩ :=
      exists_report hmatched htruthful hobliging hapart hbuffer hspan hsize hfits hready
    exact ⟨_, scratch', after, hrun⟩
  · intro summary scratch' after hrun made
    obtain ⟨hreport, hfits, -, hmade⟩ :=
      reported_container hmatched htruthful hapart hbuffer hspan hempty hrun
    rw [himage] at hreport hfits hmade
    have hlaid : made
        = rule.spec.leadBytes ++ image ++ rule.spec.trailer rule.targetSize image.length :=
      hmade.trans (hshipped.container_eq hfits)
    refine ⟨?_, hlaid, fun patch hpatch => ?_⟩
    · rw [hreport]
      exact Spec.take_drop_container hlaid
    · exact Nat.le_trans (Nat.add_le_add_left hfits _) (hshipped.ceiling_le_offset patch hpatch)

/-- Two bytes are padded to four, and are cut out again. -/
theorem apply_recoverable_pad :
    ∃ summary scratch' after, (World.plain 0).run (.ready (.ofBytes [9, 9, 9]))
        (apply ⟨.padded, { Table.pad with targetSize := some 4 }, 4, rfl⟩
          ⟨false, "source", true, true⟩ ⟨true, "dest", false, false⟩)
        (fun isDest => if isDest then .empty else ⟨.ofBytes [1, 2], 0⟩)
      = ((.ok summary, scratch'), after) ∧
      (after true).contents.bytes.take summary.sourceSize.toNat = [1, 2] := by
  obtain ⟨hreports, hcuts⟩ := apply_recoverable.2.2.2
    ⟨.padded, { Table.pad with targetSize := some 4 }, 4, rfl⟩ (World.plain 0)
    ⟨false, "source", true, true⟩ ⟨true, "dest", false, false⟩ (.ready (.ofBytes [9, 9, 9]))
    (.ofBytes [9, 9, 9]) (fun isDest => if isDest then .empty else ⟨.ofBytes [1, 2], 0⟩) [1, 2]
    (.pad (rfl : Rule.pad (.integer 4) = _)) (World.plain_isTruthful 0) (by decide) rfl (by decide)
    rfl rfl
  obtain ⟨summary, scratch', after, hrun⟩ := hreports (fun _ => ⟨true, true, true, none⟩)
    (World.plain_isObliging 0)
    ⟨rfl, rfl, by simp [Ability.reaches], by decide, ⟨rfl, by simp [Ability.reaches]⟩,
      fun hlayout => absurd hlayout (by decide)⟩
    (by decide)
  exact ⟨summary, scratch', after, hrun, (hcuts summary scratch' after hrun).1⟩

end Rule

end RomImage
