import RomImage.Proofs.Rule.Apply

/-!
# Where a container is laid

A container without a patch is laid out from the position of its destination on, and the position
is at its end afterwards. A patch does not follow the position: it is written at its offset from the
start of the stream, and the move behind it leads to the end of the stream. So a patched container
is right only if it starts where the stream does, and the position only if nothing lies behind it.
-/

namespace RomImage

open RomImage.Stream

/-- Bytes written over others from a position on. -/
def Bytes.splice (bytes data : Bytes) (position : Nat) : Bytes :=
  bytes.take position ++ data ++ bytes.drop (position + data.length)

namespace Bytes

variable {bytes data : Bytes} {position : Nat}

theorem length_splice (hinside : position ≤ bytes.length) :
    (bytes.splice data position).length = max bytes.length (position + data.length) := by
  simp only [splice, List.length_append, List.length_take, List.length_drop]
  omega

theorem getElem?_splice_of_lt {index : Nat} (hinside : position ≤ bytes.length)
    (hindex : index < data.length) :
    (bytes.splice data position)[position + index]? = data[index]? := by
  have hfront : (bytes.take position).length = position := List.length_take_of_le hinside
  rw [splice, List.append_assoc, List.getElem?_append_right (by omega), hfront,
    Nat.add_sub_cancel_left, List.getElem?_append_left hindex]

/-- Past its end nothing of what is written shows. -/
theorem getElem?_splice_of_le {index : Nat} (hinside : position ≤ bytes.length)
    (hindex : position + data.length ≤ index) :
    (bytes.splice data position)[index]? = bytes[index]? := by
  have hfront : (bytes.take position ++ data).length = position + data.length := by
    rw [List.length_append, List.length_take_of_le hinside]
  rw [splice, List.getElem?_append_right (by omega), hfront, List.getElem?_drop,
    Nat.add_sub_cancel' hindex]

/-- To write inside what was written is to write all of it at once. -/
theorem splice_splice {inner : Bytes} {offset : Nat} (hinside : position ≤ bytes.length)
    (hinner : offset + inner.length ≤ data.length) :
    (bytes.splice data position).splice inner (position + offset)
      = bytes.splice (data.splice inner offset) position := by
  have hfront : (bytes.take position).length = position := List.length_take_of_le hinside
  have hlength : (data.splice inner offset).length = data.length := by
    rw [length_splice (by omega)]
    omega
  have htake : (bytes.splice data position).take (position + offset)
      = bytes.take position ++ data.take offset := by
    rw [splice, List.append_assoc, List.take_append, hfront, Nat.add_sub_cancel_left,
      List.take_of_length_le (by omega), List.take_append_of_le_length (by omega)]
  have hdrop : (bytes.splice data position).drop (position + offset + inner.length)
      = data.drop (offset + inner.length) ++ bytes.drop (position + data.length) := by
    rw [splice, List.append_assoc, List.drop_append, hfront, List.drop_of_length_le (by omega),
      List.nil_append, Nat.add_assoc, Nat.add_sub_cancel_left, List.drop_append_of_le_length hinner]
  rw [splice, htake, hdrop, splice, hlength, splice]
  simp only [List.append_assoc]

end Bytes

theorem Tape.bytes_write_eq_splice {tape : Tape} (data : Bytes)
    (hinside : tape.position ≤ tape.contents.size) :
    (tape.write data).contents.bytes = tape.contents.bytes.splice data tape.position :=
  tape.bytes_write data hinside

namespace Rule

variable {ι σ : Type} [DecidableEq ι] {ability : ι → Ability} {rule : Rule}

def placed (rule : Rule) (image : Bytes) (tape : Tape) : Tape :=
  match rule.spec.patch with
  | some patch => (tape.write (rule.area image)).patched patch
  | none => tape.write (rule.spec.container rule.targetSize image)

/-- Where streams oblige and the destination can be moved, the container is laid out in place. -/
theorem lay_places [Machine] (hmatched : rule.Matched) (source dest : Channel ι) {span size : Nat}
    (hapart : source.handle ≠ dest.handle) (hspan : 0 < span) (hsize : size ≤ rule.targetSize)
    {scratch : Scratch} {tapes : ι → Tape} (hscratch : HasBuffer span scratch)
    (hreadable : (ability source.handle).readable = true)
    (hthere : size ≤ (tapes source.handle).ahead.length)
    (hmoves : (dest.answersSeekable && (ability dest.handle).movable) = true)
    (htakes : (ability dest.handle).takes ((tapes dest.handle).position + rule.containerSize)) :
    (rule.lay source dest size).Ensures (conduct ability True) scratch tapes
      (fun _ _ after => after dest.handle
        = rule.placed ((tapes source.handle).ahead.take size) (tapes dest.handle))
      (fun _ _ _ => False) := by
  by_cases hlayout : rule.layout = .patched
  · obtain ⟨hlead, patch, hpatch⟩ := hmatched.of_patched hlayout
    have hmovable := ((Bool.and_eq_true_iff ..).mp hmoves).2
    have hchoice : (canMove dest).Ensures (conduct ability True) scratch tapes
        (fun moves scratch' after => scratch' = scratch ∧ after = tapes ∧ moves = true)
        (fun _ _ _ => False) := by
      refine (canMove_ensures dest).mono ?_ fun _ _ _ hrefused => hrefused.1 trivial
      intro moves scratch' after ⟨hsame, hafter, hanswer⟩
      exact ⟨hsame, hafter, (hanswer trivial).trans hmoves⟩
    refine lay_patched_ensures hlayout source dest hchoice ?_ ?_
    · rintro _ _ ⟨rfl, rfl, -⟩
      refine (layInPlace_ensures hmatched.wellFormed hpatch source dest hapart hspan hsize hscratch
        fun _ => ⟨hreadable, hthere, hmovable, htakes⟩).mono ?_
        fun _ _ _ hrefused => hrefused.1 trivial
      rintro _ _ _ ⟨-, -, rfl⟩
      rw [Function.update_self, placed, hpatch]
    · intro _ _ hrefused
      exact absurd hrefused.2.2 Bool.false_ne_true
  · refine (lay_unpatched_ensures hmatched hlayout source dest hapart hspan hsize hscratch
      fun _ => ⟨hreadable, hthere, htakes⟩).mono ?_ fun _ _ _ hrefused => hrefused.1 trivial
    rintro _ _ _ ⟨-, -, rfl⟩
    rw [laid_dest hapart, placed, hmatched.patch_eq_none hlayout]

/-- Where streams oblige and the destination can be moved, a rule reports an image that fits and
leaves its container in place. -/
theorem apply_places [Machine] (hmatched : rule.Matched) {world : World ι σ}
    (htruthful : world.IsTruthful)
    (hobliging : world.IsObliging ability) {source dest : Channel ι}
    (hapart : source.handle ≠ dest.handle) {scratch : Scratch} {buffer : Buffer}
    (hbuffer : scratch.buffer = .ok buffer) (hspan : 0 < buffer.length) {image : Bytes} {state : σ}
    (hfits : image.length ≤ rule.ceiling) (hsource : world.Holds ability state source image)
    (hmoves : (dest.answersSeekable && (ability dest.handle).movable) = true)
    (htakes : (ability dest.handle).takes
      ((world.tape state dest.handle).position + rule.containerSize)) :
    ∃ scratch' after, world.run scratch (rule.apply source dest) state
        = ((.ok (rule.report image.length), scratch'), after) ∧
      world.tape after dest.handle = rule.placed image (world.tape state dest.handle) := by
  have happly : (rule.apply source dest).Ensures (conduct ability True) scratch (world.tape state)
      (fun summary _ after => summary = rule.report image.length ∧ image.length ≤ rule.ceiling ∧
        after dest.handle = rule.placed image (world.tape state dest.handle))
      (fun _ _ _ => False) := by
    refine apply_ensures_of_lay rule source dest hbuffer
      ((measure_ensures source fun _ =>
        ⟨hsource.movable, hsource.reaches_position⟩).mono ?_ ?_) ?_
      ((note_ensures _).bad_mono fun _ _ _ hrefused => hrefused.1 trivial) fun _ => ?_
    · rintro value _ _ ⟨rfl, rfl, rfl⟩
      rw [hsource.size_eq]
      exact ⟨rfl, rfl, rfl⟩
    · rintro failure _ _ ⟨position, hrefused, -⟩
      exact hrefused trivial
    · intro hlarge
      exact absurd hfits (Nat.not_le_of_lt hlarge)
    · have hlay := lay_places hmatched source dest hapart hspan
        (Nat.le_trans hfits hmatched.ceiling_le) ⟨buffer, rfl, rfl⟩ hsource.readable
        (Nat.le_of_eq (congrArg List.length hsource.ahead_eq.symm)) hmoves htakes
      rwa [hsource.ahead_eq, List.take_length] at hlay
  obtain ⟨summary, scratch', after, hrun, rfl, -, hplaced⟩ | ⟨_, _, _, _, hrefused⟩ :=
    World.run_ends htruthful (fun _ => hobliging) happly
  · exact ⟨scratch', after, hrun, hplaced⟩
  · exact hrefused.elim

section Shipped

variable {image : Bytes} {tape : Tape}

theorem placed_of_patch {patch : Patch} (hpatch : rule.spec.patch = some patch)
    (hstop : patch.stop ≤ rule.targetSize) (hsize : image.length ≤ rule.targetSize)
    (hinside : tape.position ≤ tape.contents.size) :
    (rule.placed image tape).contents.bytes
        = patch.over (tape.contents.bytes.splice (rule.area image) tape.position) ∧
      (rule.placed image tape).position
        = max tape.contents.size (tape.position + rule.targetSize) := by
  have hwritten := Tape.bytes_write_eq_splice (rule.area image) hinside
  have hlength : (tape.contents.bytes.splice (rule.area image) tape.position).length
      = max tape.contents.size (tape.position + rule.targetSize) := by
    rw [← length_area hsize]
    exact Bytes.length_splice hinside
  have hreach : patch.stop ≤ (tape.write (rule.area image)).contents.size := by
    rw [← Contents.length_bytes, hwritten, hlength]
    omega
  have hbytes : ((tape.write (rule.area image)).patched patch).contents.bytes
      = patch.over (tape.contents.bytes.splice (rule.area image) tape.position) := by
    rw [Tape.bytes_patched hreach, hwritten]
  have hend : ((tape.write (rule.area image)).patched patch).position
      = (patch.over (tape.contents.bytes.splice (rule.area image) tape.position)).length :=
    congrArg List.length hbytes
  rw [placed, hpatch]
  refine ⟨hbytes, hend.trans ?_⟩
  rw [patch.length_over _ (by omega), hlength]

theorem placed_of_no_patch (image : Bytes) (hpatch : rule.spec.patch = none)
    (hinside : tape.position ≤ tape.contents.size) :
    (rule.placed image tape).contents.bytes
        = tape.contents.bytes.splice (rule.spec.container rule.targetSize image) tape.position ∧
      (rule.placed image tape).position
        = tape.position + (rule.spec.container rule.targetSize image).length := by
  rw [placed, hpatch]
  exact ⟨Tape.bytes_write_eq_splice _ hinside, rfl⟩

/-- The area of a PAK/3 image is zero where the jump belongs. -/
theorem getElem?_area_jump (hfits : image.length ≤ pak3.ceiling) {index : Nat}
    (hindex : Table.jumpOffset ≤ index) (hinside : index < pak3.targetSize) :
    (pak3.area image)[index]? = some 0 := by
  have hceiling : pak3.ceiling ≤ Table.jumpOffset := by decide
  rw [area, List.getElem?_append_right (by omega), List.getElem?_replicate, if_pos (by omega)]

theorem container_pak3 (image : Bytes) : pak3.spec.container pak3.targetSize image
    = (pak3.area image).splice Table.jumpInstruction Table.jumpOffset := by
  have hpatch : pak3.spec.patch = some ⟨Table.jumpOffset, Table.jumpInstruction⟩ := rfl
  exact container_eq_over rfl hpatch image

theorem over_jump (bytes : Bytes) :
    Patch.over ⟨Table.jumpOffset, Table.jumpInstruction⟩ bytes
      = bytes.splice Table.jumpInstruction Table.jumpOffset := rfl

/-- The jump stands where it belongs in the container only if the container starts where the stream
does. -/
theorem over_splice_iff {old : Bytes} {start : Nat} (hfits : image.length ≤ pak3.ceiling)
    (hstart : start ≤ old.length) :
    Patch.over ⟨Table.jumpOffset, Table.jumpInstruction⟩ (old.splice (pak3.area image) start)
        = old.splice (pak3.spec.container pak3.targetSize image) start ↔ start = 0 := by
  have hceiling : pak3.ceiling ≤ Table.jumpOffset := by decide
  have hjump : Table.jumpOffset + Table.jumpInstruction.length ≤ pak3.targetSize := by decide
  have harea : (pak3.area image).length = pak3.targetSize :=
    length_area (Nat.le_trans hfits (by decide))
  have hinside : Table.jumpOffset + Table.jumpInstruction.length ≤ (pak3.area image).length := by
    omega
  have hsome : 0 < Table.jumpInstruction.length := by decide
  rw [container_pak3, over_jump]
  constructor
  · intro hsame
    -- The first byte of the jump tells the two apart, where the container has it.
    by_contra hlater
    have hlong : start + pak3.targetSize ≤ (old.splice (pak3.area image) start).length := by
      rw [Bytes.length_splice hstart]
      omega
    have hwanted : (old.splice ((pak3.area image).splice Table.jumpInstruction Table.jumpOffset)
        start)[start + Table.jumpOffset]? = some 0x4e := by
      rw [Bytes.getElem?_splice_of_lt hstart (by rw [Bytes.length_splice (by omega)]; omega)]
      exact Bytes.getElem?_splice_of_lt (by omega) hsome
    rw [← hsame] at hwanted
    by_cases hnear : start < Table.jumpInstruction.length
    · have honly : ∀ index < Table.jumpInstruction.length,
          Table.jumpInstruction[index]? = some 0x4e → index = 0 := by decide
      rw [Nat.add_comm, Bytes.getElem?_splice_of_lt (by omega) hnear] at hwanted
      exact hlater (honly start hnear hwanted)
    · rw [Bytes.getElem?_splice_of_le (by omega) (by omega),
        Bytes.getElem?_splice_of_lt hstart (by omega),
        getElem?_area_jump hfits (Nat.le_refl _) (by decide)] at hwanted
      exact absurd hwanted (by decide)
  · rintro rfl
    have hinner := Bytes.splice_splice hstart hinside
    rwa [Nat.zero_add] at hinner

end Shipped

/-- **Where a container ends up in a stream that is moved to the middle.** A rule without a patch
lays out its container from the position on, leaves all else as it was, and ends behind it. The rule
for the PAK/3 writes its jump at its offset from the start of the stream and ends at the end of the
stream. So what it leaves is right only if it starts at the start, and where it ends only if there
was nothing behind. -/
theorem apply_at_position [Machine] {rule : Rule} (hshipped : rule.IsShipped) {world : World ι σ}
    (htruthful : world.IsTruthful) (hobliging : world.IsObliging ability) {source dest : Channel ι}
    (hapart : source.handle ≠ dest.handle) {scratch : Scratch} {buffer : Buffer}
    (hbuffer : scratch.buffer = .ok buffer) (hspan : 0 < buffer.length) {image : Bytes} {state : σ}
    (hfits : image.length ≤ rule.ceiling) (hsource : world.Holds ability state source image)
    (hasks : dest.answersSeekable = true) (hmovable : (ability dest.handle).movable = true)
    (hinside : (world.tape state dest.handle).position
      ≤ (world.tape state dest.handle).contents.size)
    (htakes : (ability dest.handle).takes
      ((world.tape state dest.handle).position + rule.containerSize)) :
    let old := (world.tape state dest.handle).contents.bytes
    let start := (world.tape state dest.handle).position
    let stop := start + rule.containerSize
    let wanted := old.take start ++ rule.spec.container rule.targetSize image ++ old.drop stop
    ∃ scratch' after, world.run scratch (rule.apply source dest) state
        = ((.ok (rule.report image.length), scratch'), after) ∧
      (rule ≠ pak3 → (world.tape after dest.handle).contents.bytes = wanted ∧
        (world.tape after dest.handle).position = stop) ∧
      (rule = pak3 →
        (world.tape after dest.handle).contents.bytes
            = Patch.over ⟨Table.jumpOffset, Table.jumpInstruction⟩
              (old.take start ++ rule.area image ++ old.drop stop) ∧
          (world.tape after dest.handle).position = max old.length stop ∧
          ((world.tape after dest.handle).contents.bytes = wanted ↔ start = 0) ∧
          ((world.tape after dest.handle).position = stop ↔ old.length ≤ stop)) := by
  intro old start stop wanted
  have hmatched := hshipped.matched
  have hsize : image.length ≤ rule.targetSize := Nat.le_trans hfits hmatched.ceiling_le
  have hcontainer : (rule.spec.container rule.targetSize image).length = rule.containerSize :=
    Spec.length_container _ _ _ hmatched.wellFormed rule.targetSize_eq hsize
  have hwanted : wanted = old.splice (rule.spec.container rule.targetSize image) start := by
    rw [Bytes.splice, hcontainer]
  obtain ⟨scratch', after, hrun, hplaced⟩ := apply_places hmatched htruthful hobliging hapart
    hbuffer hspan hfits hsource (Bool.and_eq_true_iff.mpr ⟨hasks, hmovable⟩) htakes
  refine ⟨scratch', after, hrun, ?_⟩
  rw [hplaced, hwanted]
  constructor
  · intro hplain
    have hpatch : rule.spec.patch = none := by
      cases hshipped with
      | pad hpad =>
          exact hmatched.patch_eq_none (by rw [(pad_eq_ok hpad).1]; decide)
      | stc => rfl
      | pak3 => exact absurd rfl hplain
    obtain ⟨hbytes, hposition⟩ := placed_of_no_patch image hpatch hinside
    rw [hcontainer] at hposition
    exact ⟨hbytes, hposition⟩
  · rintro rfl
    have hpatch : pak3.spec.patch = some ⟨Table.jumpOffset, Table.jumpInstruction⟩ := rfl
    obtain ⟨hbytes, hposition⟩ := placed_of_patch hpatch (by decide) hsize hinside
    have harea : (pak3.area image).length = pak3.containerSize := length_area hsize
    have hlaid : old.take start ++ pak3.area image ++ old.drop stop
        = old.splice (pak3.area image) start := by
      rw [Bytes.splice, harea]
    rw [hlaid, hbytes, hposition]
    have hends : max old.length stop = stop ↔ old.length ≤ stop := by omega
    exact ⟨rfl, rfl, over_splice_iff hfits hinside, hends⟩

/-- A PAK/3 image behind one byte of what was there: its jump is one byte off. -/
theorem apply_at_position_one :
    ∃ scratch' after, (World.plain 0).run (.ready (.ofBytes [9, 9, 9]))
        (pak3.apply ⟨false, "source", true, true⟩ ⟨true, "dest", true, true⟩)
        (fun isDest => if isDest then ⟨.ofBytes [7], 1⟩ else ⟨.ofBytes [1, 2], 0⟩)
        = ((.ok (pak3.report 2), scratch'), after) ∧
      (after true).contents.bytes ≠ [7] ++ pak3.spec.container pak3.targetSize [1, 2] := by
  obtain ⟨scratch', after, hrun, -, hpak3⟩ := apply_at_position IsShipped.pak3
    (World.plain_isTruthful 0) (World.plain_isObliging 0)
    (by decide : (⟨false, "source", true, true⟩ : Channel Bool).handle
      ≠ (⟨true, "dest", true, true⟩ : Channel Bool).handle)
    (by rfl : (Scratch.ready (.ofBytes [9, 9, 9])).buffer = .ok (.ofBytes [9, 9, 9])) (by decide)
    (by decide : [1, 2].length ≤ pak3.ceiling)
    (⟨rfl, rfl, by simp [Ability.reaches], rfl, rfl⟩ :
      World.Holds _ _ (fun isDest => if isDest then ⟨.ofBytes [7], 1⟩ else ⟨.ofBytes [1, 2], 0⟩)
        _ [1, 2])
    rfl rfl (by decide) ⟨rfl, by simp [Ability.reaches]⟩
  refine ⟨scratch', after, hrun, fun hright => ?_⟩
  have hstart := (hpak3 rfl).2.2.1.mp (hright.trans (List.append_nil _).symm)
  exact absurd hstart (by decide)

end Rule

end RomImage
