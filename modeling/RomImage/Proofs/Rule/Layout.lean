import RomImage.Container.Contents
import RomImage.Proofs.Rule.Matched
import RomImage.Proofs.Stream.Position
import RomImage.Proofs.Stream.Staging
import RomImage.Proofs.Stream.Transfer

/-!
# What the layouts write

A layout in order takes the image from the source and gives the bytes of the container, one after
another. A layout in place gives the container without its patch first, and then goes back. Both are
stated for a destination with any contents at any position, because the tape in memory is one of
them; where a layout stops early, the destination holds a beginning of what was to come.
-/

namespace RomImage

open RomImage.Stream

namespace Tape

def overlaid (patch : Patch) (given : Nat) (tape : Tape) : Tape :=
  (tape.moved patch.offset).write (patch.data.take given)

def patched (patch : Patch) (tape : Tape) : Tape :=
  (tape.overlaid patch patch.data.length).moved
    (tape.overlaid patch patch.data.length).contents.size

theorem bytes_overlaid {patch : Patch} {tape : Tape} (given : Nat)
    (hinside : patch.offset ≤ tape.contents.size) :
    (tape.overlaid patch given).contents.bytes
      = Patch.over ⟨patch.offset, patch.data.take given⟩ tape.contents.bytes :=
  bytes_write (tape.moved patch.offset) (patch.data.take given) hinside

theorem bytes_patched {patch : Patch} {tape : Tape} (hinside : patch.stop ≤ tape.contents.size) :
    (tape.patched patch).contents.bytes = patch.over tape.contents.bytes := by
  have hover := bytes_overlaid patch.data.length (Nat.le_of_add_right_le hinside)
  rwa [List.take_length] at hover

end Tape

namespace Stream

open Function (update)

variable {ι : Type} [DecidableEq ι]

def laid (source dest : ι) (taken : Nat) (data : Bytes) (tapes : ι → Tape) : ι → Tape :=
  written dest data (update tapes source ((tapes source).advance taken))

theorem laid_zero (source dest : ι) (data : Bytes) (tapes : ι → Tape) :
    laid source dest 0 data tapes = written dest data tapes := by
  rw [laid, Tape.advance_zero, Function.update_eq_self]

theorem laid_dest {source dest : ι} (hapart : source ≠ dest) (taken : Nat) (data : Bytes)
    (tapes : ι → Tape) : laid source dest taken data tapes dest = (tapes dest).write data := by
  rw [laid, written_self, Function.update_of_ne hapart.symm]

theorem written_laid (source dest : ι) (taken : Nat) (first second : Bytes) (tapes : ι → Tape) :
    written dest second (laid source dest taken first tapes)
      = laid source dest taken (first ++ second) tapes := by
  rw [laid, written_written, laid]

theorem laid_written {source dest : ι} (hapart : source ≠ dest) (taken : Nat)
    (first second : Bytes) (tapes : ι → Tape) :
    laid source dest taken second (written dest first tapes)
      = laid source dest taken (first ++ second) tapes := by
  have hcommute (tape : Tape) : update (written dest first tapes) source tape
      = written dest first (update tapes source tape) := by
    rw [written, Function.update_comm hapart.symm, written, Function.update_of_ne hapart.symm]
  rw [laid, written_of_ne hapart, hcommute, written_written, laid]

omit [DecidableEq ι] in
theorem beside_tapes {memory memory' : Tape} {tapes tapes' : ι → Tape}
    (hbeside : beside memory tapes = beside memory' tapes') : tapes = tapes' :=
  funext fun stream => congrFun hbeside (some stream)

/-- To lay on the tape in memory leaves the other tapes but the source. -/
theorem laid_beside (source : ι) (taken : Nat) (data : Bytes) (memory : Tape) (tapes : ι → Tape) :
    laid (some source) none taken data (beside memory tapes)
      = beside (memory.write data) (update tapes source ((tapes source).advance taken)) := by
  rw [laid, update_beside_some, written, update_beside_none]
  rfl

theorem laid_nil (source dest : ι) (taken : Nat) (tapes : ι → Tape) :
    laid source dest taken [] tapes = update tapes source ((tapes source).advance taken) := by
  rw [laid, written_nil]

/-- To take from the tape in memory leaves the other tapes but the destination. -/
theorem transferred_beside (dest : ι) (taken given : Nat) (memory : Tape) (tapes : ι → Tape) :
    transferred none (some dest) taken given (beside memory tapes)
      = beside (memory.advance taken) (written dest (memory.ahead.take given) tapes) := by
  rw [transferred, update_beside_none, written, update_beside_some]
  rfl

end Stream

namespace Rule

open Function (update)

variable {ι : Type} [DecidableEq ι] {ability : ι → Ability} {obliged : Prop}

def area (rule : Rule) (image : Bytes) : Bytes :=
  image ++ List.replicate (rule.targetSize - image.length) 0

theorem length_area {rule : Rule} {image : Bytes} (hsize : image.length ≤ rule.targetSize) :
    (rule.area image).length = rule.targetSize := by
  rw [area, List.length_append, List.length_replicate]
  omega

theorem containerSize_eq {rule : Rule} (hlead : rule.spec.lead = none) :
    rule.containerSize = rule.targetSize := by
  rw [containerSize, Spec.leadSize, hlead, Nat.zero_add]

theorem targetSize_le (rule : Rule) : rule.targetSize ≤ rule.containerSize :=
  Nat.le_add_left _ _

theorem unpatched_eq (rule : Rule) (image : Bytes) :
    rule.spec.unpatched rule.targetSize image = rule.spec.leadBytes ++ rule.area image := by
  rw [Spec.unpatched, area, List.append_assoc]

theorem layImage_ensures [Machine] (rule : Rule) (source dest : Channel ι) {span size : Nat}
    (hapart : source.handle ≠ dest.handle) (hspan : 0 < span) (hsize : size ≤ rule.targetSize)
    {scratch : Scratch} {tapes : ι → Tape} (hscratch : HasBuffer span scratch)
    (hready : obliged → (ability source.handle).readable = true ∧
      size ≤ (tapes source.handle).ahead.length ∧
      (ability dest.handle).takes ((tapes dest.handle).position + rule.targetSize)) :
    (rule.layImage source dest size).Ensures (conduct ability obliged) scratch tapes
      (fun _ scratch' after => size ≤ (tapes source.handle).ahead.length ∧
        HasBuffer span scratch' ∧
        after = laid source.handle dest.handle size
          (rule.area ((tapes source.handle).ahead.take size)) tapes)
      (fun _ scratch' after => ¬ obliged ∧ HasBuffer span scratch' ∧ ∃ taken ≤ size, ∃ given,
        after = laid source.handle dest.handle taken
          ((rule.area ((tapes source.handle).ahead.take size)).take given) tapes) := by
  have hcopy (hobliged : obliged) :
      CanCopy ability source.handle dest.handle size tapes := by
    obtain ⟨hreadable, hthere, htakes⟩ := hready hobliged
    exact ⟨hreadable, hthere, htakes.of_le (by omega)⟩
  rw [layImage]
  refine Task.Ensures.bind ((copy_ensures source dest hapart hspan hscratch hcopy).bad_mono ?_) ?_
  · rintro failure scratch' after ⟨hrefused, hscratch', taken, given, htaken, hthere, hstopped, rfl⟩
    have hgiven := hstopped.given_le
    refine ⟨hrefused, hscratch', taken, htaken, given, ?_⟩
    have hfront : given ≤ ((tapes source.handle).ahead.take size).length := by
      rw [List.length_take]
      omega
    rw [area, List.take_append_of_le_length hfront, List.take_take, Nat.min_eq_left (by omega)]
    rfl
  intro _ scratch' after ⟨hthere, hscratch', hafter⟩
  have hlength : ((tapes source.handle).ahead.take size).length = size :=
    List.length_take_of_le hthere
  have hafter : after = laid source.handle dest.handle size ((tapes source.handle).ahead.take size)
      tapes := hafter
  subst hafter
  have hcount : (rule.targetSize : Int) - size = ((rule.targetSize - size : Nat) : Int) := by omega
  rw [hcount]
  refine (fill_ensures dest 0 hspan hscratch' fun hobliged => ?_).mono ?_ ?_
  · obtain ⟨-, -, htakes⟩ := hready hobliged
    rw [laid_dest hapart, Tape.position_write, hlength]
    exact htakes.of_le (by omega)
  · rintro _ scratch'' _ ⟨hscratch'', rfl⟩
    rw [written_laid, area, hlength]
    exact ⟨hthere, hscratch'', rfl⟩
  · rintro _ scratch'' _ ⟨hrefused, hscratch'', -, given, hgiven, rfl⟩
    refine ⟨hrefused, hscratch'', size, Nat.le_refl _, size + given, ?_⟩
    have hfront (image : Bytes) (himage : image.length = size) :
        (rule.area image).take (size + given) = image ++ List.replicate given 0 := by
      rw [← himage, area, List.take_length_add_append, List.take_replicate,
        Nat.min_eq_left (by omega)]
    rw [written_laid, hfront _ hlength]

/-- Bytes in front and the image area, whatever else the specification has. -/
theorem layLed_ensures [Machine] {rule : Rule} {lead : Lead} (hlead : rule.spec.lead = some lead)
    (source dest : Channel ι) {span size : Nat} (hapart : source.handle ≠ dest.handle)
    (hspan : 0 < span) (hsize : size ≤ rule.targetSize) {scratch : Scratch} {tapes : ι → Tape}
    (hscratch : HasBuffer span scratch)
    (hready : obliged → (ability source.handle).readable = true ∧
      size ≤ (tapes source.handle).ahead.length ∧
      (ability dest.handle).takes ((tapes dest.handle).position + rule.containerSize)) :
    (do fill dest lead.fill.toNat lead.count
        rule.layImage source dest size : Work ι Unit).Ensures
      (conduct ability obliged) scratch tapes
      (fun _ scratch' after => size ≤ (tapes source.handle).ahead.length ∧
        HasBuffer span scratch' ∧
        after = laid source.handle dest.handle size
          (rule.spec.leadBytes ++ rule.area ((tapes source.handle).ahead.take size)) tapes)
      (fun _ scratch' after => ¬ obliged ∧ HasBuffer span scratch' ∧ ∃ taken ≤ size, ∃ given,
        after = laid source.handle dest.handle taken ((rule.spec.leadBytes
          ++ rule.area ((tapes source.handle).ahead.take size)).take given) tapes) := by
  have hbytes : rule.spec.leadBytes = List.replicate lead.count lead.fill := by
    rw [Spec.leadBytes, hlead]
  have hsizes : rule.containerSize = lead.count + rule.targetSize := by
    rw [containerSize, Spec.leadSize, hlead]
  rw [hbytes]
  rw [hsizes] at hready
  refine Task.Ensures.bind ((fill_ensures dest lead.fill hspan hscratch
    fun hobliged => ?_).bad_mono ?_) ?_
  · obtain ⟨-, -, htakes⟩ := hready hobliged
    exact htakes.of_le (by omega)
  · rintro failure scratch' _ ⟨hrefused, hscratch', -, given, hgiven, rfl⟩
    have hfront : given ≤ (List.replicate lead.count lead.fill).length := by
      rwa [List.length_replicate]
    refine ⟨hrefused, hscratch', 0, Nat.zero_le _, given, ?_⟩
    rw [laid_zero, List.take_append_of_le_length hfront, List.take_replicate,
      Nat.min_eq_left hgiven]
  rintro _ scratch' _ ⟨hscratch', rfl⟩
  have hahead : (written dest.handle (List.replicate lead.count lead.fill) tapes
      source.handle).ahead = (tapes source.handle).ahead := by
    rw [written_of_ne hapart]
  refine (layImage_ensures rule source dest hapart hspan hsize hscratch'
    fun hobliged => ?_).mono ?_ ?_
  · obtain ⟨hreadable, hthere, htakes⟩ := hready hobliged
    rw [hahead, written_self, Tape.position_write, List.length_replicate, Nat.add_assoc]
    exact ⟨hreadable, hthere, htakes⟩
  · rintro _ scratch'' _ ⟨hthere, hscratch'', rfl⟩
    rw [hahead] at hthere ⊢
    exact ⟨hthere, hscratch'', laid_written hapart _ _ _ _⟩
  · rintro _ scratch'' _ ⟨hrefused, hscratch'', taken, htaken, given, rfl⟩
    refine ⟨hrefused, hscratch'', taken, htaken, lead.count + given, ?_⟩
    have hfront : (List.replicate lead.count lead.fill).length ≤ lead.count + given := by
      rw [List.length_replicate]
      omega
    rw [hahead, laid_written hapart, List.take_append, List.take_of_length_le hfront,
      List.length_replicate, Nat.add_sub_cancel_left]

/-- Bytes in front, if the layout has them, and the image area: the layouts without a patch. -/
theorem lay_unpatched_ensures [Machine] {rule : Rule} (hmatched : rule.Matched)
    (hlayout : rule.layout ≠ .patched) (source dest : Channel ι) {span size : Nat}
    (hapart : source.handle ≠ dest.handle) (hspan : 0 < span) (hsize : size ≤ rule.targetSize)
    {scratch : Scratch} {tapes : ι → Tape} (hscratch : HasBuffer span scratch)
    (hready : obliged → (ability source.handle).readable = true ∧
      size ≤ (tapes source.handle).ahead.length ∧
      (ability dest.handle).takes ((tapes dest.handle).position + rule.containerSize)) :
    (rule.lay source dest size).Ensures (conduct ability obliged) scratch tapes
      (fun _ scratch' after => size ≤ (tapes source.handle).ahead.length ∧
        HasBuffer span scratch' ∧
        after = laid source.handle dest.handle size
          (rule.spec.container rule.targetSize ((tapes source.handle).ahead.take size)) tapes)
      (fun _ scratch' after => ¬ obliged ∧ HasBuffer span scratch' ∧ ∃ taken ≤ size, ∃ given,
        after = laid source.handle dest.handle taken ((rule.spec.container rule.targetSize
          ((tapes source.handle).ahead.take size)).take given) tapes) := by
  have hfits := hmatched.fits
  rw [lay]
  cases hrule : rule.layout with
  | patched => exact absurd hrule hlayout
  | padded =>
      rw [hrule] at hfits
      obtain ⟨hlead, hpatch⟩ := hfits
      have hcontainer (image : Bytes) : rule.spec.container rule.targetSize image
          = rule.area image := by
        rw [Spec.container, hpatch, unpatched_eq, Spec.leadBytes, hlead]
        rfl
      have hsizes := containerSize_eq hlead
      rw [hcontainer]
      rw [hsizes] at hready
      exact layImage_ensures rule source dest hapart hspan hsize hscratch hready
  | led =>
      rw [hrule] at hfits
      obtain ⟨hlead, hpatch⟩ := hfits
      obtain ⟨lead, hlead⟩ := Option.isSome_iff_exists.mp hlead
      have hcontainer (image : Bytes) : rule.spec.container rule.targetSize image
          = rule.spec.leadBytes ++ rule.area image := by
        rw [Spec.container, hpatch, unpatched_eq]
      rw [hcontainer]
      dsimp only
      rw [hlead]
      exact layLed_ensures hlead source dest hapart hspan hsize hscratch hready

/-- A patch is written over the destination, or a beginning of it. -/
theorem layPatch_ensures {rule : Rule} {patch : Patch} (hpatch : rule.spec.patch = some patch)
    (dest : Channel ι) {scratch : Scratch} {tapes : ι → Tape}
    (hready : obliged → (ability dest.handle).movable = true ∧
      (ability dest.handle).takes patch.stop) :
    (rule.layPatch dest).Ensures (conduct ability obliged) scratch tapes
      (fun _ scratch' after => scratch' = scratch ∧
        after = update tapes dest.handle ((tapes dest.handle).patched patch))
      (fun _ scratch' after => ¬ obliged ∧ scratch' = scratch ∧ ∃ given, ∃ position,
        after = update tapes dest.handle
          (((tapes dest.handle).overlaid patch given).moved position)) := by
  have hlands : Tape.destination (tapes dest.handle).position (tapes dest.handle).contents.size
      patch.offset fromStart = .ok patch.offset := Tape.destination_start _ _ _
  have hreaches (hobliged : obliged) : (ability dest.handle).reaches patch.stop :=
    (hready hobliged).2.2
  rw [layPatch, hpatch]
  dsimp only
  refine Task.Ensures.bind ((moveTo_ensures dest hlands fun hobliged => ?_).bad_mono ?_) ?_
  · exact ⟨(hready hobliged).1, (hreaches hobliged).of_le (by rw [Patch.stop]; omega)⟩
  · rintro failure _ _ ⟨position, hrefused, rfl, rfl, -⟩
    exact ⟨hrefused, rfl, 0, position, rfl⟩
  rintro _ _ _ ⟨-, rfl, rfl⟩
  have hover (given : Nat) : written dest.handle (patch.data.take given)
      (repositioned dest.handle patch.offset tapes)
        = update tapes dest.handle ((tapes dest.handle).overlaid patch given) := by
    rw [written, repositioned_self, repositioned, Function.update_idem, Tape.overlaid]
  refine Task.Ensures.bind ((writeAll_ensures dest _ fun hobliged => ?_).bad_mono ?_) ?_
  · rw [repositioned_self]
    exact (hready hobliged).2
  · rintro failure _ _ ⟨hrefused, rfl, -, given, -, -, rfl⟩
    exact ⟨hrefused, rfl, given, _, hover given⟩
  rintro _ _ after ⟨rfl, hafter⟩
  have hafter : after
      = update tapes dest.handle ((tapes dest.handle).overlaid patch patch.data.length) := by
    rw [hafter, ← hover, List.take_length]
  subst hafter
  have hmoved (position : Nat) : repositioned dest.handle position (update tapes dest.handle
      ((tapes dest.handle).overlaid patch patch.data.length)) = update tapes dest.handle
        (((tapes dest.handle).overlaid patch patch.data.length).moved position) := by
    rw [repositioned, Function.update_self, Function.update_idem]
  refine Task.Ensures.bind ((moveTo_ensures dest (Tape.destination_end _ _)
    fun hobliged => ?_).bad_mono ?_) ?_
  · exact ⟨(hready hobliged).1, (hreaches hobliged).of_le (Nat.zero_le _)⟩
  · rintro failure _ _ ⟨position, hrefused, rfl, rfl, -⟩
    exact ⟨hrefused, rfl, patch.data.length, position, hmoved position⟩
  rintro _ _ _ ⟨-, rfl, rfl⟩
  rw [hmoved, Function.update_self]
  refine (note_ensures _).mono ?_ ?_
  · rintro _ _ _ ⟨rfl, rfl⟩
    exact ⟨rfl, rfl⟩
  · rintro _ _ _ ⟨hrefused, rfl, rfl, -⟩
    exact ⟨hrefused, rfl, patch.data.length, _, rfl⟩

section Patched

variable {rule : Rule} {patch : Patch}

/-- Where there are no bytes in front, the container is the image area with the patch over it. -/
theorem container_eq_over (hlead : rule.spec.lead = none) (hpatch : rule.spec.patch = some patch)
    (image : Bytes) :
    rule.spec.container rule.targetSize image = patch.over (rule.area image) := by
  rw [Spec.container, hpatch, unpatched_eq, Spec.leadBytes, hlead, List.nil_append]

theorem stop_le (hwellFormed : rule.spec.WellFormed) (hpatch : rule.spec.patch = some patch) :
    patch.stop ≤ rule.containerSize := by
  obtain ⟨target, htarget, hinside⟩ := hwellFormed.patch_inside patch hpatch
  obtain rfl : rule.targetSize = target := Option.some.inj (rule.targetSize_eq.symm.trans htarget)
  exact hinside

theorem Matched.stop_le (hmatched : rule.Matched) (hpatch : rule.spec.patch = some patch) :
    patch.stop ≤ rule.containerSize :=
  Rule.stop_le hmatched.wellFormed hpatch

/-- The image area is laid out in place, and then the patch over it. -/
theorem layInPlace_ensures [Machine] (hwellFormed : rule.spec.WellFormed)
    (hpatch : rule.spec.patch = some patch) (source dest : Channel ι) {span size : Nat}
    (hapart : source.handle ≠ dest.handle) (hspan : 0 < span) (hsize : size ≤ rule.targetSize)
    {scratch : Scratch} {tapes : ι → Tape} (hscratch : HasBuffer span scratch)
    (hready : obliged → (ability source.handle).readable = true ∧
      size ≤ (tapes source.handle).ahead.length ∧ (ability dest.handle).movable = true ∧
      (ability dest.handle).takes ((tapes dest.handle).position + rule.containerSize)) :
    (do rule.layImage source dest size
        rule.layPatch dest : Work ι Unit).Ensures (conduct ability obliged) scratch tapes
      (fun _ scratch' after => size ≤ (tapes source.handle).ahead.length ∧
        HasBuffer span scratch' ∧
        after = update (laid source.handle dest.handle size
          (rule.area ((tapes source.handle).ahead.take size)) tapes) dest.handle
          (((tapes dest.handle).write
            (rule.area ((tapes source.handle).ahead.take size))).patched patch))
      (fun _ scratch' after => ¬ obliged ∧ HasBuffer span scratch' ∧
        ((∃ taken ≤ size, ∃ given, after = laid source.handle dest.handle taken
          ((rule.area ((tapes source.handle).ahead.take size)).take given) tapes) ∨
        ∃ given position, after = update (laid source.handle dest.handle size
          (rule.area ((tapes source.handle).ahead.take size)) tapes) dest.handle
          ((((tapes dest.handle).write (rule.area ((tapes source.handle).ahead.take size))).overlaid
            patch given).moved position))) := by
  refine Task.Ensures.bind ((layImage_ensures rule source dest hapart hspan hsize hscratch
    fun hobliged => ?_).bad_mono ?_) ?_
  · obtain ⟨hreadable, hthere, -, htakes⟩ := hready hobliged
    exact ⟨hreadable, hthere, htakes.of_le (Nat.add_le_add_left rule.targetSize_le _)⟩
  · rintro failure scratch' after ⟨hrefused, hscratch', hbegun⟩
    exact ⟨hrefused, hscratch', .inl hbegun⟩
  rintro _ scratch' after ⟨hthere, hscratch', rfl⟩
  have hdest := laid_dest hapart size (rule.area ((tapes source.handle).ahead.take size)) tapes
  refine (layPatch_ensures hpatch dest fun hobliged => ?_).mono ?_ ?_
  · obtain ⟨-, -, hmovable, htakes⟩ := hready hobliged
    have hstop := stop_le hwellFormed hpatch
    exact ⟨hmovable, htakes.of_le (by omega)⟩
  · rintro _ _ _ ⟨rfl, rfl⟩
    rw [hdest]
    exact ⟨hthere, hscratch', rfl⟩
  · rintro failure _ _ ⟨hrefused, rfl, given, position, rfl⟩
    rw [hdest]
    exact ⟨hrefused, hscratch', .inr ⟨given, position, rfl⟩⟩

/-- The tape in memory, at its start again, has the container ahead. -/
theorem ahead_staged (hlead : rule.spec.lead = none) (hpatch : rule.spec.patch = some patch)
    {image : Bytes} (hstop : patch.stop ≤ (rule.area image).length) :
    (((Tape.empty.write (rule.area image)).patched patch).moved 0).ahead
      = rule.spec.container rule.targetSize image := by
  have hwritten : (Tape.empty.write (rule.area image)).contents.bytes = rule.area image :=
    Tape.bytes_write_empty _
  have hinside : patch.stop ≤ (Tape.empty.write (rule.area image)).contents.size := by
    rwa [← Contents.length_bytes, hwritten]
  calc (((Tape.empty.write (rule.area image)).patched patch).moved 0).ahead
      = ((Tape.empty.write (rule.area image)).patched patch).contents.bytes := List.drop_zero
    _ = patch.over (rule.area image) := by rw [Tape.bytes_patched hinside, hwritten]
    _ = rule.spec.container rule.targetSize image := (container_eq_over hlead hpatch image).symm

/-- The image area is laid out in memory, while the source is all that changes outside. -/
theorem layImage_inMemory [Machine] (rule : Rule) (source : Channel ι) {span size : Nat}
    (hspan : 0 < span)
    (hsize : size ≤ rule.targetSize) {scratch : Scratch} {tapes : ι → Tape}
    (hscratch : HasBuffer span scratch)
    (hready : obliged → (ability source.handle).readable = true ∧
      size ≤ (tapes source.handle).ahead.length ∧ rule.targetSize < Machine.memory) :
    (rule.layImage (source.mapHandle some) stagingChannel size).Ensures
      (conduct (besideAbility ability) obliged) scratch (beside .empty tapes)
      (fun _ scratch' joint => size ≤ (tapes source.handle).ahead.length ∧
        HasBuffer span scratch' ∧
        joint = beside (Tape.empty.write (rule.area ((tapes source.handle).ahead.take size)))
          (update tapes source.handle ((tapes source.handle).advance size)))
      (fun _ scratch' joint => ¬ obliged ∧ HasBuffer span scratch' ∧ ∃ taken ≤ size, ∃ memory,
        joint = beside memory
          (update tapes source.handle ((tapes source.handle).advance taken))) := by
  refine (layImage_ensures rule (source.mapHandle some) stagingChannel (Option.some_ne_none _)
    hspan hsize hscratch fun hobliged => ?_).mono ?_ ?_
  · obtain ⟨hreadable, hthere, hmemory⟩ := hready hobliged
    refine ⟨hreadable, hthere, memory_takes ?_⟩
    have hstart : (beside .empty tapes none).position = 0 := rfl
    rw [stagingChannel, hstart, Nat.zero_add]
    exact hmemory
  · intro _ scratch' joint ⟨hthere, hscratch', hjoint⟩
    exact ⟨hthere, hscratch', hjoint.trans (laid_beside _ _ _ _ _)⟩
  · intro failure scratch' joint ⟨hrefused, hscratch', taken, htaken, given, hjoint⟩
    exact ⟨hrefused, hscratch', taken, htaken, _, hjoint.trans (laid_beside _ _ _ _ _)⟩

/-- What was made in memory is given to the destination, from its start. -/
theorem giveStaged_ensures [Machine] (dest : Channel ι) {span : Nat} (hspan : 0 < span)
    {scratch : Scratch}
    (hscratch : HasBuffer span scratch) {made : Tape} {container : Bytes}
    (hmade : (made.moved 0).ahead = container) {rest : ι → Tape}
    (hready : obliged →
      (ability dest.handle).takes ((rest dest.handle).position + container.length)) :
    (do move stagingChannel 0 fromStart
        copy stagingChannel (dest.mapHandle some) container.length :
          Work (Option ι) Unit).Ensures (conduct (besideAbility ability) obliged) scratch
      (beside made rest)
      (fun _ scratch' joint => HasBuffer span scratch' ∧ ∃ memory,
        joint = beside memory (written dest.handle container rest))
      (fun _ scratch' joint => ¬ obliged ∧ HasBuffer span scratch' ∧ ∃ given memory,
        joint = beside memory (written dest.handle (container.take given) rest)) := by
  refine Task.Ensures.bind ((move_ensures stagingChannel (Tape.destination_start _ _ 0)
    fun _ => ?_).bad_mono ?_) ?_
  · exact ⟨rfl, (memory_takes Machine.memory_pos).2⟩
  · rintro failure _ _ ⟨hrefused, rfl, rfl, -⟩
    refine ⟨hrefused, hscratch, 0, made, ?_⟩
    rw [List.take_zero, written_nil]
  intro _ _ joint ⟨hsame, hjoint⟩
  have hjoint : joint = beside (made.moved 0) rest := hjoint.trans (update_beside_none _ _ _)
  subst hsame hjoint
  have hpassed (taken given : Nat) : transferred none (some dest.handle) taken given
      (beside (made.moved 0) rest) = beside ((made.moved 0).advance taken)
        (written dest.handle (container.take given) rest) := by
    rw [transferred_beside, hmade]
  refine (copy_ensures stagingChannel (dest.mapHandle some) (Option.some_ne_none _).symm hspan
    hscratch fun hobliged => ?_).mono ?_ ?_
  · have hall : (made.moved 0).ahead.length = container.length := by rw [hmade]
    exact ⟨rfl, Nat.le_of_eq hall.symm, hready hobliged⟩
  · rintro _ scratch' _ ⟨-, hscratch', rfl⟩
    have hwhole := hpassed container.length container.length
    rw [List.take_length] at hwhole
    exact ⟨hscratch', _, hwhole⟩
  · rintro failure scratch' _ ⟨hrefused, hscratch', taken, given, -, -, -, rfl⟩
    exact ⟨hrefused, hscratch', given, _, hpassed taken given⟩

/-- The image area and the patch over it are made in memory. -/
theorem makeStaged_ensures [Machine] (hwellFormed : rule.spec.WellFormed)
    (hpatch : rule.spec.patch = some patch) (source : Channel ι) {span size : Nat}
    (hspan : 0 < span) (hsize : size ≤ rule.targetSize) {scratch : Scratch} {tapes : ι → Tape}
    (hscratch : HasBuffer span scratch)
    (hready : obliged → (ability source.handle).readable = true ∧
      size ≤ (tapes source.handle).ahead.length ∧ rule.containerSize < Machine.memory) :
    (do rule.layImage (source.mapHandle some) stagingChannel size
        rule.layPatch stagingChannel : Work (Option ι) Unit).Ensures
      (conduct (besideAbility ability) obliged) scratch (beside .empty tapes)
      (fun _ scratch' joint => size ≤ (tapes source.handle).ahead.length ∧
        HasBuffer span scratch' ∧
        joint = beside
          ((Tape.empty.write (rule.area ((tapes source.handle).ahead.take size))).patched patch)
          (update tapes source.handle ((tapes source.handle).advance size)))
      (fun _ scratch' joint => ¬ obliged ∧ HasBuffer span scratch' ∧ ∃ taken ≤ size, ∃ memory,
        joint = beside memory
          (update tapes source.handle ((tapes source.handle).advance taken))) := by
  refine Task.Ensures.bind (layImage_inMemory rule source hspan hsize hscratch
    fun hobliged => ?_) ?_
  · obtain ⟨hreadable, hthere, hmemory⟩ := hready hobliged
    exact ⟨hreadable, hthere, Nat.lt_of_le_of_lt rule.targetSize_le hmemory⟩
  intro _ scratch' joint ⟨hthere, hscratch', hjoint⟩
  subst hjoint
  refine (layPatch_ensures hpatch stagingChannel fun hobliged => ?_).mono ?_ ?_
  · obtain ⟨-, -, hmemory⟩ := hready hobliged
    exact ⟨rfl, memory_takes (Nat.lt_of_le_of_lt (stop_le hwellFormed hpatch) hmemory)⟩
  · intro _ _ joint ⟨hsame, hjoint⟩
    subst hsame
    exact ⟨hthere, hscratch', hjoint.trans (update_beside_none _ _ _)⟩
  · intro _ _ joint ⟨hrefused, hsame, given, position, hjoint⟩
    subst hsame
    exact ⟨hrefused, hscratch', size, Nat.le_refl _, _, hjoint.trans (update_beside_none _ _ _)⟩

/-- The container is made in memory and then given in order. -/
theorem layStaged_ensures [Machine] (hmatched : rule.Matched) (hlead : rule.spec.lead = none)
    (hpatch : rule.spec.patch = some patch) (source dest : Channel ι) {span size : Nat}
    (hapart : source.handle ≠ dest.handle) (hspan : 0 < span) (hsize : size ≤ rule.targetSize)
    {scratch : Scratch} {tapes : ι → Tape} (hscratch : HasBuffer span scratch)
    (hready : obliged → (ability source.handle).readable = true ∧
      size ≤ (tapes source.handle).ahead.length ∧ rule.containerSize < Machine.memory ∧
      (ability dest.handle).takes ((tapes dest.handle).position + rule.containerSize)) :
    (staged do
        rule.layImage (source.mapHandle some) stagingChannel size
        rule.layPatch stagingChannel
        move stagingChannel 0 fromStart
        copy stagingChannel (dest.mapHandle some) rule.containerSize : Work ι Unit).Ensures
      (conduct ability obliged) scratch tapes
      (fun _ scratch' after => size ≤ (tapes source.handle).ahead.length ∧
        HasBuffer span scratch' ∧
        after = laid source.handle dest.handle size
          (rule.spec.container rule.targetSize ((tapes source.handle).ahead.take size)) tapes)
      (fun _ scratch' after => ¬ obliged ∧ HasBuffer span scratch' ∧ ∃ taken ≤ size, ∃ given,
        after = laid source.handle dest.handle taken ((rule.spec.container rule.targetSize
          ((tapes source.handle).ahead.take size)).take given) tapes) := by
  have hsizes := containerSize_eq hlead
  have hstop := hmatched.stop_le hpatch
  obtain ⟨image, himage⟩ : ∃ image, image = (tapes source.handle).ahead.take size := ⟨_, rfl⟩
  rw [← himage]
  -- The inner work is stated on both kinds of tapes; the memory is forgotten at the end.
  have hwork : (do
      rule.layImage (source.mapHandle some) stagingChannel size
      rule.layPatch stagingChannel
      move stagingChannel 0 fromStart
      copy stagingChannel (dest.mapHandle some) rule.containerSize :
        Work (Option ι) Unit).Ensures (conduct (besideAbility ability) obliged) scratch
      (beside .empty tapes)
      (fun _ scratch' joint => size ≤ (tapes source.handle).ahead.length ∧
        HasBuffer span scratch' ∧ ∃ memory, joint = beside memory
          (laid source.handle dest.handle size
            (rule.spec.container rule.targetSize image) tapes))
      (fun _ scratch' joint => ¬ obliged ∧ HasBuffer span scratch' ∧ ∃ taken ≤ size, ∃ given,
        ∃ memory, joint = beside memory (laid source.handle dest.handle taken
          ((rule.spec.container rule.targetSize image).take given) tapes)) := by
    have hmade := makeStaged_ensures hmatched.wellFormed hpatch source hspan hsize hscratch
      fun hobliged => ⟨(hready hobliged).1, (hready hobliged).2.1, (hready hobliged).2.2.1⟩
    rw [← bind_assoc]
    refine Task.Ensures.bind (hmade.bad_mono ?_) ?_
    · intro failure scratch' joint ⟨hrefused, hscratch', taken, htaken, memory, hjoint⟩
      refine ⟨hrefused, hscratch', taken, htaken, 0, memory, ?_⟩
      rw [List.take_zero, laid_nil]
      exact hjoint
    intro _ scratch' joint ⟨hthere, hscratch', hjoint⟩
    subst hjoint
    rw [← himage]
    have hlength : image.length = size := himage ▸ List.length_take_of_le hthere
    have hcontainer : (rule.spec.container rule.targetSize image).length = rule.containerSize :=
      Spec.length_container _ _ _ hmatched.wellFormed rule.targetSize_eq (hlength ▸ hsize)
    have hinside : patch.stop ≤ (rule.area image).length := by
      rw [length_area (hlength ▸ hsize), ← hsizes]
      exact hstop
    have hmade := ahead_staged hlead hpatch hinside
    rw [← hcontainer]
    refine (giveStaged_ensures dest hspan hscratch' hmade fun hobliged => ?_).mono ?_ ?_
    · obtain ⟨-, -, -, htakes⟩ := hready hobliged
      rw [Function.update_of_ne hapart.symm, hcontainer]
      exact htakes
    · intro _ scratch'' joint ⟨hscratch'', hjoint⟩
      exact ⟨hthere, hscratch'', hjoint⟩
    · intro failure scratch'' joint ⟨hrefused, hscratch'', hjoint⟩
      exact ⟨hrefused, hscratch'', size, Nat.le_refl _, hjoint⟩
  refine (staged_ensures hwork).mono ?_ ?_
  · rintro _ scratch' after ⟨memory, hthere, hscratch', memory', hjoint⟩
    exact ⟨hthere, hscratch', beside_tapes hjoint⟩
  · rintro failure scratch' after ⟨memory, hrefused, hscratch', taken, htaken, given, memory',
      hjoint⟩
    exact ⟨hrefused, hscratch', taken, htaken, given, beside_tapes hjoint⟩

end Patched

def Laid (rule : Rule) (source dest : ι) (size : Nat) (tapes after : ι → Tape) : Prop :=
  after = laid source dest size
    (rule.spec.container rule.targetSize ((tapes source).ahead.take size)) tapes ∨
  ∃ patch ∈ rule.spec.patch, rule.spec.lead = none ∧
    after = update (laid source dest size (rule.area ((tapes source).ahead.take size)) tapes) dest
      (((tapes dest).write (rule.area ((tapes source).ahead.take size))).patched patch)

/-- A beginning of the container has been laid out: of the whole, of the part that comes before the
patch, or of the patch. -/
def Begun (rule : Rule) (source dest : ι) (size : Nat) (tapes after : ι → Tape) : Prop :=
  (∃ taken ≤ size, ∃ given, after = laid source dest taken ((rule.spec.container rule.targetSize
    ((tapes source).ahead.take size)).take given) tapes) ∨
  ∃ patch ∈ rule.spec.patch, rule.spec.lead = none ∧
    ((∃ taken ≤ size, ∃ given, after = laid source dest taken
      ((rule.area ((tapes source).ahead.take size)).take given) tapes) ∨
    ∃ given position, after = update
      (laid source dest size (rule.area ((tapes source).ahead.take size)) tapes) dest
      ((((tapes dest).write (rule.area ((tapes source).ahead.take size))).overlaid patch
        given).moved position))

omit [DecidableEq ι] in
/-- A layout with a patch goes back in the destination where that can be moved, and stages the
container where it cannot, under any conduct. -/
theorem lay_patched_ensures [Machine] {σ : Type} {conduct : Conduct (interface ι) σ} {rule : Rule}
    (hlayout : rule.layout = .patched) (source dest : Channel ι) {size : Int} {scratch : Scratch}
    {state : σ} {middle : Bool → Scratch → σ → Prop} {good : Unit → Scratch → σ → Prop}
    {bad : Failure → Scratch → σ → Prop}
    (hmoves : (canMove dest).Ensures conduct scratch state middle bad)
    (hinPlace : ∀ scratch' after, middle true scratch' after → (do
      rule.layImage source dest size
      rule.layPatch dest : Work ι Unit).Ensures conduct scratch' after good bad)
    (hstaged : ∀ scratch' after, middle false scratch' after → (do
      note .staging
      staged do
        rule.layImage (source.mapHandle some) stagingChannel size
        rule.layPatch stagingChannel
        move stagingChannel 0 fromStart
        copy stagingChannel (dest.mapHandle some) rule.containerSize : Work ι Unit).Ensures conduct
          scratch' after good bad) :
    (rule.lay source dest size).Ensures conduct scratch state good bad := by
  rw [lay, hlayout]
  refine Task.Ensures.bind hmoves ?_
  intro moves scratch' after hmiddle
  cases moves with
  | true => exact hinPlace scratch' after hmiddle
  | false => exact hstaged scratch' after hmiddle

/-- A layout lays out the container, or stops at a beginning of it. -/
theorem lay_ensures [Machine] {rule : Rule} (hmatched : rule.Matched) (source dest : Channel ι)
    {span size : Nat} (hapart : source.handle ≠ dest.handle) (hspan : 0 < span)
    (hsize : size ≤ rule.targetSize) {scratch : Scratch} {tapes : ι → Tape}
    (hscratch : HasBuffer span scratch)
    (hready : obliged → (ability source.handle).readable = true ∧
      size ≤ (tapes source.handle).ahead.length ∧
      (ability dest.handle).takes ((tapes dest.handle).position + rule.containerSize) ∧
      (rule.layout = .patched → (dest.answersSeekable && (ability dest.handle).movable) = false →
        rule.containerSize < Machine.memory)) :
    (rule.lay source dest size).Ensures (conduct ability obliged) scratch tapes
      (fun _ scratch' after => size ≤ (tapes source.handle).ahead.length ∧
        HasBuffer span scratch' ∧ rule.Laid source.handle dest.handle size tapes after)
      (fun _ scratch' after => ¬ obliged ∧ HasBuffer span scratch' ∧
        rule.Begun source.handle dest.handle size tapes after) := by
  by_cases hlayout : rule.layout = .patched
  · obtain ⟨hlead, patch, hpatch⟩ := hmatched.of_patched hlayout
    have hnothing : rule.Begun source.handle dest.handle size tapes tapes := by
      refine .inl ⟨0, Nat.zero_le _, 0, ?_⟩
      rw [laid_zero, List.take_zero, written_nil]
    refine lay_patched_ensures hlayout source dest ((canMove_ensures dest).bad_mono ?_) ?_ ?_
    · rintro failure _ _ ⟨hrefused, rfl, rfl, -⟩
      exact ⟨hrefused, hscratch, hnothing⟩
    · rintro _ _ ⟨rfl, rfl, hmoves⟩
      refine (layInPlace_ensures hmatched.wellFormed hpatch source dest hapart hspan hsize hscratch
        fun hobliged => ?_).mono ?_ ?_
      · obtain ⟨hreadable, hthere, htakes, -⟩ := hready hobliged
        obtain ⟨-, hmovable⟩ := (Bool.and_eq_true_iff ..).mp (hmoves hobliged).symm
        exact ⟨hreadable, hthere, hmovable, htakes⟩
      · rintro _ scratch' _ ⟨hthere, hscratch', hafter⟩
        exact ⟨hthere, hscratch', .inr ⟨patch, hpatch, hlead, hafter⟩⟩
      · rintro _ scratch' _ ⟨hrefused, hscratch', hbegun⟩
        exact ⟨hrefused, hscratch', .inr ⟨patch, hpatch, hlead, hbegun⟩⟩
    · rintro _ _ ⟨rfl, rfl, hmoves⟩
      refine Task.Ensures.bind ((note_ensures _).bad_mono ?_) ?_
      · rintro failure _ _ ⟨hrefused, rfl, rfl, -⟩
        exact ⟨hrefused, hscratch, hnothing⟩
      rintro _ _ _ ⟨rfl, rfl⟩
      refine (layStaged_ensures hmatched hlead hpatch source dest hapart hspan hsize hscratch
        fun hobliged => ?_).mono ?_ ?_
      · obtain ⟨hreadable, hthere, htakes, hmemory⟩ := hready hobliged
        exact ⟨hreadable, hthere, hmemory hlayout (hmoves hobliged).symm, htakes⟩
      · rintro _ scratch' _ ⟨hthere, hscratch', hafter⟩
        exact ⟨hthere, hscratch', .inl hafter⟩
      · rintro _ scratch' _ ⟨hrefused, hscratch', hbegun⟩
        exact ⟨hrefused, hscratch', .inl hbegun⟩
  · refine (lay_unpatched_ensures hmatched hlayout source dest hapart hspan hsize hscratch
      fun hobliged => ?_).mono ?_ ?_
    · obtain ⟨hreadable, hthere, htakes, -⟩ := hready hobliged
      exact ⟨hreadable, hthere, htakes⟩
    · rintro _ scratch' _ ⟨hthere, hscratch', hafter⟩
      exact ⟨hthere, hscratch', .inl hafter⟩
    · rintro _ scratch' _ ⟨hrefused, hscratch', hbegun⟩
      exact ⟨hrefused, hscratch', .inl hbegun⟩

end Rule

end RomImage
