import RomImage.Proofs.Rule.Apply

/-!
# How much a rule produces

A rule reports the size of its specification, and a layout writes by its own part of it: the one for
bytes in front by the lead, the one for a patch by the patch, and plain padding by neither. So a
specification that validation accepts may have a lead that nobody writes, which the report counts.

`Rule.producedSize` is what a layout leaves on an empty destination, whatever parts there are. A
container that is staged is given by the size of the specification; where less than that was made in
memory, giving it runs dry, and there is no report (`Rule.CanLay`).
-/

namespace RomImage

open RomImage.Stream

/-- A patch that starts behind the end leaves a gap, and the tape ends where the patch does. -/
theorem Tape.size_patched_eq {patch : Patch} (tape : Tape) (hdata : patch.data ≠ []) :
    (tape.patched patch).contents.size = max tape.contents.size patch.stop := by
  calc (tape.patched patch).contents.size
      = (tape.contents.store patch.offset (patch.data.take patch.data.length)).size := rfl
    _ = (tape.contents.store patch.offset patch.data).size := by rw [List.take_length]
    _ = max tape.contents.size patch.stop := Contents.size_store _ _ _ hdata

theorem Tape.size_write_empty (data : Bytes) :
    (Tape.empty.write data).contents.size = data.length := by
  rw [← Contents.length_bytes, Tape.bytes_write_empty]

namespace Rule

variable {ι σ : Type} [DecidableEq ι] {ability : ι → Ability} {rule : Rule}
  {source dest : Channel ι} {span size : Nat} {scratch : Scratch} {tapes : ι → Tape}

/-- How many bytes the layout leaves on an empty destination, if that can be moved or cannot. -/
def producedSize (rule : Rule) (moves : Bool) : Nat :=
  match rule.layout, rule.spec.patch with
  | .padded, _ => rule.targetSize
  | .led, _ => rule.containerSize
  | .patched, none => rule.targetSize
  | .patched, some patch =>
    if moves then max rule.targetSize patch.stop else rule.containerSize

/-- The layout finds its part of the specification. If it has to stage the container, what it makes
in memory is as large as what it is to give. -/
def CanLay (rule : Rule) (moves : Bool) : Prop :=
  match rule.layout with
  | .padded => True
  | .led => rule.spec.lead.isSome
  | .patched => ∃ patch ∈ rule.spec.patch,
    moves = false → max rule.targetSize patch.stop = rule.containerSize

/-- What is written to the destination when the image area is laid out on it. -/
theorem size_laid {data : Bytes} {taken : Nat} (hapart : source.handle ≠ dest.handle)
    (hempty : tapes dest.handle = .empty) :
    (laid source.handle dest.handle taken data tapes dest.handle).contents.size = data.length := by
  rw [laid_dest hapart, hempty, Tape.size_write_empty]

theorem layPatch_eq_fail {κ : Type} (hpatch : rule.spec.patch = none) (channel : Channel κ) :
    rule.layPatch channel = .fail (.misuse .missingPatch) := by
  rw [layPatch, hpatch]

/-- Whatever comes before a failure, there is one. -/
theorem fails_after {κ τ : Type} {conduct : Conduct (interface κ) τ} (work : Work κ Unit)
    (failure : Failure) {state : τ} :
    (do work
        Task.fail failure : Work κ Unit).Ensures conduct scratch state
      (fun _ _ _ => False) (fun _ _ _ => True) := by
  refine Task.Ensures.bind ((Task.ensures_trivial work).bad_mono fun _ _ _ _ => trivial) ?_
  intro _ _ _ _
  exact Task.ensures_fail trivial

/-- The layout for patches needs one. -/
theorem lay_unspecified [Machine] (hlayout : rule.layout = .patched)
    (hpatch : rule.spec.patch = none) :
    (rule.lay source dest size).Ensures (conduct ability True) scratch tapes
      (fun _ _ _ => False) (fun _ _ _ => True) := by
  have hchoice := (Task.ensures_trivial (canMove dest) : Task.Ensures (conduct ability True) _
    scratch tapes _ _)
  refine lay_patched_ensures hlayout source dest hchoice ?_ ?_
  · intro _ _ _
    rw [layPatch_eq_fail hpatch]
    exact fails_after _ _
  · intro _ _ _
    refine Task.Ensures.bind ((note_ensures _).bad_mono fun _ _ _ _ => trivial) ?_
    intro _ scratch' after _
    simp only [layPatch_eq_fail hpatch, Task.fail_bind]
    refine (staged_ensures (fails_after (rule.layImage (source.mapHandle some) stagingChannel size)
      (.misuse .missingPatch))).mono ?_ fun _ _ _ _ => trivial
    rintro _ _ _ ⟨_, hnever⟩
    exact hnever

/-- A tape in memory that holds less than is to be given runs dry. -/
theorem giveStaged_runs_dry [Machine] {made : Tape} {rest : ι → Tape} {count : Nat}
    (hspan : 0 < span)
    (hscratch : HasBuffer span scratch) (hshort : made.contents.size < count) :
    (do move stagingChannel 0 fromStart
        copy stagingChannel (dest.mapHandle some) count :
          Work (Option ι) Unit).Ensures (conduct (besideAbility ability) True) scratch
      (beside made rest) (fun _ _ _ => False) (fun _ _ _ => True) := by
  refine Task.Ensures.bind ((move_ensures stagingChannel (Tape.destination_start _ _ 0)
    fun _ => ⟨rfl, (memory_takes Machine.memory_pos).2⟩).bad_mono fun _ _ _ _ => trivial) ?_
  rintro _ scratch' joint ⟨hsame, hjoint⟩
  have hjoint : joint = beside (made.moved 0) rest := hjoint.trans (update_beside_none _ _ _)
  subst hsame hjoint
  have hlength : (made.moved 0).ahead.length = made.contents.size := by
    rw [Tape.ahead, Tape.moved, List.drop_zero, Contents.length_bytes]
  refine (ensures_of_truthful (besideAbility ability) (fun _ _ _ _ hanswer => hanswer.1)
    (copy_ensures stagingChannel (dest.mapHandle some) (Option.some_ne_none _).symm hspan hscratch
      False.elim)).mono ?_ fun _ _ _ _ => trivial
  rintro _ _ _ ⟨hthere, _⟩
  have hthere : count ≤ (made.moved 0).ahead.length := hthere
  omega

section Lay

variable (hwellFormed : rule.spec.WellFormed) (hapart : source.handle ≠ dest.handle)
  (hspan : 0 < span) (hsize : size ≤ rule.targetSize) (hscratch : HasBuffer span scratch)
  (hempty : tapes dest.handle = .empty) (hreadable : (ability source.handle).readable = true)
  (hthere : size ≤ (tapes source.handle).ahead.length)
  (htakes : (ability dest.handle).takes ((tapes dest.handle).position + rule.containerSize))

include hwellFormed hapart hspan hsize hscratch hempty hreadable hthere htakes

/-- What is made in memory is given if it is as large as the specification says. -/
theorem layStaged_produces [Machine] {patch : Patch} (hpatch : rule.spec.patch = some patch)
    (hmemory : rule.containerSize < Machine.memory) :
    (staged do
        rule.layImage (source.mapHandle some) stagingChannel size
        rule.layPatch stagingChannel
        move stagingChannel 0 fromStart
        copy stagingChannel (dest.mapHandle some) rule.containerSize : Work ι Unit).Ensures
      (conduct ability True) scratch tapes
      (fun _ _ after => max rule.targetSize patch.stop = rule.containerSize ∧
        (after dest.handle).contents.size = rule.containerSize)
      (fun _ _ _ => max rule.targetSize patch.stop ≠ rule.containerSize) := by
  have hdata := hwellFormed.patch_nonempty patch hpatch
  have hstop := stop_le hwellFormed hpatch
  have htarget := rule.targetSize_le
  obtain ⟨made, hmade⟩ : ∃ made, made = (Tape.empty.write
      (rule.area ((tapes source.handle).ahead.take size))).patched patch := ⟨_, rfl⟩
  have hlength : ((tapes source.handle).ahead.take size).length ≤ rule.targetSize := by
    rwa [List.length_take_of_le hthere]
  have hsized : made.contents.size = max rule.targetSize patch.stop := by
    rw [hmade, Tape.size_patched_eq _ hdata, Tape.size_write_empty, length_area hlength]
  have hwork : (do
      rule.layImage (source.mapHandle some) stagingChannel size
      rule.layPatch stagingChannel
      move stagingChannel 0 fromStart
      copy stagingChannel (dest.mapHandle some) rule.containerSize :
        Work (Option ι) Unit).Ensures (conduct (besideAbility ability) True) scratch
      (beside .empty tapes)
      (fun _ _ joint => max rule.targetSize patch.stop = rule.containerSize ∧
        (joint (some dest.handle)).contents.size = rule.containerSize)
      (fun _ _ _ => max rule.targetSize patch.stop ≠ rule.containerSize) := by
    rw [← bind_assoc]
    refine Task.Ensures.bind ((makeStaged_ensures hwellFormed hpatch source hspan hsize hscratch
      fun _ => ⟨hreadable, hthere, hmemory⟩).bad_mono ?_) ?_
    · intro _ _ _ hrefused
      exact absurd trivial hrefused.1
    rintro _ scratch' joint ⟨_, hscratch', hjoint⟩
    subst hjoint
    rw [← hmade]
    by_cases hwhole : max rule.targetSize patch.stop = rule.containerSize
    · have hbytes : made.contents.bytes.length = rule.containerSize := by
        rw [Contents.length_bytes, hsized, hwhole]
      have hahead : (made.moved 0).ahead = made.contents.bytes := List.drop_zero
      rw [← hbytes]
      refine (giveStaged_ensures dest hspan hscratch' hahead fun _ => ?_).mono ?_ ?_
      · rw [Function.update_of_ne hapart.symm, hbytes]
        exact htakes
      · rintro _ _ _ ⟨_, memory, hjoint⟩
        refine ⟨hwhole.trans hbytes.symm, ?_⟩
        rw [hjoint]
        calc ((written dest.handle made.contents.bytes (Function.update tapes source.handle
              ((tapes source.handle).advance size))) dest.handle).contents.size
            = (Tape.empty.write made.contents.bytes).contents.size := by
              rw [written_self, Function.update_of_ne hapart.symm, hempty]
          _ = made.contents.bytes.length := Tape.size_write_empty _
      · intro _ _ _ hrefused
        exact absurd trivial hrefused.1
    · refine (giveStaged_runs_dry hspan hscratch' (by omega)).mono ?_ ?_
      · intro _ _ _ hnever
        exact hnever.elim
      · intro _ _ _ _
        exact hwhole
  refine (staged_ensures hwork).mono ?_ ?_
  · rintro _ _ after ⟨memory, hgood⟩
    exact hgood
  · rintro _ _ after ⟨memory, hbad⟩
    exact hbad

/-- The layout for patches lays in place where the destination can be moved, and gives what it made
in memory where it cannot. -/
theorem lay_patched_produces [Machine] (hlayout : rule.layout = .patched)
    (hmemory : (dest.answersSeekable && (ability dest.handle).movable) = false →
      rule.containerSize < Machine.memory) :
    (rule.lay source dest size).Ensures (conduct ability True) scratch tapes
      (fun _ _ after =>
        rule.CanLay (dest.answersSeekable && (ability dest.handle).movable) ∧
        (after dest.handle).contents.size
          = rule.producedSize (dest.answersSeekable && (ability dest.handle).movable))
      (fun _ _ _ =>
        ¬ rule.CanLay (dest.answersSeekable && (ability dest.handle).movable)) := by
  have hlength : ((tapes source.handle).ahead.take size).length ≤ rule.targetSize := by
    rwa [List.length_take_of_le hthere]
  obtain ⟨moves, hmoves⟩ :
      ∃ moves, moves = (dest.answersSeekable && (ability dest.handle).movable) := ⟨_, rfl⟩
  rw [← hmoves] at hmemory ⊢
  cases hpatch : rule.spec.patch with
  | none =>
      have hcannot : ¬ rule.CanLay moves := by
        rw [CanLay, hlayout]
        rintro ⟨patch, hsome, _⟩
        exact absurd (hpatch.symm.trans hsome) (by simp)
      exact (lay_unspecified hlayout hpatch).mono (fun _ _ _ hnever => hnever.elim)
        fun _ _ _ _ => hcannot
  | some patch =>
      have hcan : rule.CanLay moves ↔
          (moves = false → max rule.targetSize patch.stop = rule.containerSize) := by
        rw [CanLay, hlayout]
        simp [hpatch]
      have hchoice : (canMove dest).Ensures (conduct ability True) scratch tapes
          (fun answer scratch' after => scratch' = scratch ∧ after = tapes ∧ answer = moves)
          (fun _ _ _ => ¬ rule.CanLay moves) := by
        refine (canMove_ensures dest).mono ?_ ?_
        · rintro answer scratch' after ⟨hsame, hafter, hanswer⟩
          exact ⟨hsame, hafter, (hanswer trivial).trans hmoves.symm⟩
        · intro _ _ _ hrefused
          exact absurd trivial hrefused.1
      refine lay_patched_ensures hlayout source dest hchoice ?_ ?_
      · rintro scratch' after ⟨hsame, hafter, htrue⟩
        subst hsame hafter htrue
        have hmovable := ((Bool.and_eq_true_iff ..).mp hmoves.symm).2
        refine (layInPlace_ensures hwellFormed hpatch source dest hapart hspan hsize hscratch
          fun _ => ⟨hreadable, hthere, hmovable, htakes⟩).mono ?_ ?_
        · rintro _ _ after ⟨_, _, hafter⟩
          refine ⟨hcan.mpr (by simp), ?_⟩
          rw [hafter, Function.update_self, hempty,
            Tape.size_patched_eq _ (hwellFormed.patch_nonempty patch hpatch),
            Tape.size_write_empty, length_area hlength, producedSize, hlayout, hpatch]
          rfl
        · intro _ _ _ hrefused
          exact absurd trivial hrefused.1
      · rintro scratch' after ⟨hsame, hafter, hfalse⟩
        subst hsame hafter hfalse
        refine Task.Ensures.bind ((note_ensures _).bad_mono ?_) ?_
        · intro _ _ _ hrefused
          exact absurd trivial hrefused.1
        rintro _ scratch' after ⟨hsame, hafter⟩
        subst hsame hafter
        refine (layStaged_produces hwellFormed hapart hspan hsize hscratch hempty hreadable hthere
          htakes hpatch (hmemory rfl)).mono ?_ ?_
        · rintro _ _ after ⟨hwhole, hgiven⟩
          refine ⟨hcan.mpr fun _ => hwhole, ?_⟩
          rw [hgiven, producedSize, hlayout, hpatch]
          rfl
        · intro _ _ _ hshort
          exact fun hlays => hshort (hcan.mp hlays rfl)

/-- A layout leaves what `producedSize` says, or fails where it cannot lay anything. -/
theorem lay_produces [Machine]
    (hmemory : rule.layout = .patched →
      (dest.answersSeekable && (ability dest.handle).movable) = false →
      rule.containerSize < Machine.memory) :
    (rule.lay source dest size).Ensures (conduct ability True) scratch tapes
      (fun _ _ after =>
        rule.CanLay (dest.answersSeekable && (ability dest.handle).movable) ∧
        (after dest.handle).contents.size
          = rule.producedSize (dest.answersSeekable && (ability dest.handle).movable))
      (fun _ _ _ =>
        ¬ rule.CanLay (dest.answersSeekable && (ability dest.handle).movable)) := by
  have hlength : ((tapes source.handle).ahead.take size).length ≤ rule.targetSize := by
    rwa [List.length_take_of_le hthere]
  cases hlayout : rule.layout with
  | patched =>
      exact lay_patched_produces hwellFormed hapart hspan hsize hscratch hempty hreadable hthere
        htakes hlayout (hmemory hlayout)
  | padded =>
      rw [lay, hlayout]
      refine (layImage_ensures rule source dest hapart hspan hsize hscratch fun _ =>
        ⟨hreadable, hthere, htakes.of_le (Nat.add_le_add_left rule.targetSize_le _)⟩).mono ?_ ?_
      · rintro _ _ after ⟨_, _, hafter⟩
        rw [hafter, size_laid hapart hempty, length_area hlength, CanLay, producedSize, hlayout]
        exact ⟨trivial, rfl⟩
      · intro _ _ _ hrefused
        exact absurd trivial hrefused.1
  | led =>
      rw [lay, hlayout]
      dsimp only
      cases hlead : rule.spec.lead with
      | none =>
          refine Task.ensures_fail ?_
          rw [CanLay, hlayout]
          simp [hlead]
      | some lead =>
          refine (layLed_ensures hlead source dest hapart hspan hsize hscratch fun _ =>
            ⟨hreadable, hthere, htakes⟩).mono ?_ ?_
          · rintro _ _ after ⟨_, _, hafter⟩
            rw [hafter, size_laid hapart hempty, List.length_append, Spec.length_leadBytes,
              length_area hlength, CanLay, producedSize, hlayout]
            exact ⟨by simp [hlead], rfl⟩
          · intro _ _ _ hrefused
            exact absurd trivial hrefused.1

end Lay

/-- What a layout leaves is as much as the specification says if there is nothing in front, or the
layout is the one that lays it, or a patch reaches the end, or the container is staged. -/
theorem producedSize_eq_iff (hwellFormed : rule.spec.WellFormed) {moves : Bool}
    (hcan : rule.CanLay moves) :
    rule.producedSize moves = rule.containerSize ↔
      rule.spec.leadSize = 0 ∨ rule.layout = .led ∨ rule.layout = .patched ∧
        (moves = false ∨ ∃ patch ∈ rule.spec.patch, patch.stop = rule.containerSize) := by
  have hsizes : rule.containerSize = rule.spec.leadSize + rule.targetSize := rfl
  rw [CanLay] at hcan
  rw [producedSize]
  cases hlayout : rule.layout with
  | padded =>
      simp only [reduceCtorEq, false_and, or_false]
      omega
  | led => simp
  | patched =>
      rw [hlayout] at hcan
      obtain ⟨patch, hpatch, _⟩ := hcan
      have hstop := stop_le hwellFormed hpatch
      rw [Option.mem_def.mp hpatch]
      cases moves with
      | false => simp
      | true =>
          simp only [reduceCtorEq, false_or, true_and, Bool.true_eq_false, Option.mem_def,
            Option.some.injEq, exists_eq_left', if_true]
          omega

theorem apply_ensures_produced [Machine] (hwellFormed : rule.spec.WellFormed)
    (hapart : source.handle ≠ dest.handle) {buffer : Buffer} (hbuffer : scratch.buffer = .ok buffer)
    (hspan : 0 < buffer.length) (hempty : tapes dest.handle = .empty)
    (hready : rule.Ready ability source dest tapes)
    (hsize : (tapes source.handle).contents.size = size) (hfits : size ≤ rule.ceiling) :
    (rule.apply source dest).Ensures (conduct ability True) scratch tapes
      (fun summary _ after => summary = rule.report size ∧ size ≤ rule.ceiling ∧
        rule.CanLay (dest.answersSeekable && (ability dest.handle).movable) ∧
        (after dest.handle).contents.size
          = rule.producedSize (dest.answersSeekable && (ability dest.handle).movable))
      (fun _ _ _ =>
        ¬ rule.CanLay (dest.answersSeekable && (ability dest.handle).movable)) := by
  subst hsize
  refine apply_ensures_of_lay rule source dest hbuffer ((measure_ensures source fun _ =>
    ⟨hready.movable, hready.reaches⟩).bad_mono ?_) ?_ ((note_ensures _).bad_mono ?_) ?_
  · rintro _ _ _ ⟨_, hrefused, _⟩
    exact absurd trivial hrefused
  · intro hlarge
    exact absurd hfits (Nat.not_le_of_lt hlarge)
  · intro _ _ _ hrefused
    exact absurd trivial hrefused.1
  · intro _
    exact lay_produces hwellFormed hapart hspan (Nat.le_trans hfits (ceiling_le hwellFormed))
      ⟨buffer, rfl, rfl⟩ hempty hready.readable hready.whole hready.takes hready.memory

/-- **What is reported and what is produced.** On an empty destination that takes everything, a
layout that finds its part of a specification ends with a report of the size that the specification
gives, and leaves what the layout makes of it; the two are the same unless there are bytes in front
that the layout does not lay. What is read from data is well-formed (`Spec.wellFormed_of_read`). -/
theorem apply_produces [Machine] (rule : Rule) (hwellFormed : rule.spec.WellFormed)
    {world : World ι σ}
    (htruthful : world.IsTruthful) (hobliging : world.IsObliging ability)
    (source dest : Channel ι) (hapart : source.handle ≠ dest.handle) (scratch : Scratch)
    {buffer : Buffer} (hbuffer : scratch.buffer = .ok buffer) (hspan : 0 < buffer.length)
    (state : σ) (hempty : world.tape state dest.handle = .empty)
    (hready : rule.Ready ability source dest (world.tape state))
    (hfits : (world.tape state source.handle).contents.size ≤ rule.ceiling) :
    let moves := dest.answersSeekable && (ability dest.handle).movable
    ((∃ summary scratch' after, world.run scratch (rule.apply source dest) state
      = ((.ok summary, scratch'), after)) ↔ rule.CanLay moves) ∧
    ∀ summary scratch' after,
      world.run scratch (rule.apply source dest) state = ((.ok summary, scratch'), after) →
      let produced := (world.tape after dest.handle).contents.size
      summary.containerSize = rule.containerSize ∧ produced = rule.producedSize moves ∧
      (summary.containerSize = produced ↔
        rule.spec.leadSize = 0 ∨ rule.layout = .led ∨ rule.layout = .patched ∧
          (moves = false ∨ ∃ patch ∈ rule.spec.patch, patch.stop = rule.containerSize)) := by
  intro moves
  have hends := World.run_ends htruthful (fun _ : True => hobliging)
    (apply_ensures_produced hwellFormed hapart hbuffer hspan hempty hready rfl hfits)
  obtain ⟨report, scratch', after, hrun, hreport, _, hcan, hproduced⟩ |
    ⟨failure, scratch', after, hrun, hcannot⟩ := hends
  · refine ⟨⟨fun _ => hcan, fun _ => ⟨report, scratch', after, hrun⟩⟩, ?_⟩
    intro summary scratch'' after' hrun' produced
    obtain ⟨⟨⟨⟩, rfl⟩, rfl⟩ := by simpa only [Prod.mk.injEq] using hrun.symm.trans hrun'
    have hreported : report.containerSize = rule.containerSize := by rw [hreport]; rfl
    refine ⟨hreported, hproduced, ?_⟩
    calc report.containerSize = (produced : Int)
        ↔ produced = rule.containerSize := by rw [hreported]; omega
      _ ↔ rule.producedSize moves = rule.containerSize := by rw [← hproduced]
      _ ↔ _ := producedSize_eq_iff hwellFormed hcan
  · refine ⟨⟨?_, fun hcan => absurd hcan hcannot⟩, ?_⟩
    · rintro ⟨summary, scratch'', after', hrun'⟩
      exact absurd (hrun.symm.trans hrun') (by simp)
    · intro summary scratch'' after' hrun'
      exact absurd (hrun.symm.trans hrun') (by simp)

/-- Plain padding to eight bytes by a specification that has four in front: twelve are reported, and
eight are there. -/
theorem apply_produces_unled :
    ∃ summary scratch' after, (World.plain 0).run (.ready (.ofBytes [9, 9, 9]))
        (apply ⟨.padded, ⟨.pad, "", some 8, none, some ⟨4, 0⟩, none⟩, 8, rfl⟩
          ⟨false, "source", true, true⟩ ⟨true, "dest", true, true⟩)
        (fun isDest => if isDest then .empty else ⟨.ofBytes [1, 2], 0⟩)
      = ((.ok summary, scratch'), after) ∧
      summary.containerSize = 12 ∧ (after true).contents.size = 8 := by
  have hspec : Spec.WellFormed ⟨.pad, "", some 8, none, some ⟨4, 0⟩, none⟩ :=
    Spec.wellFormed_of_conflict (by decide) (by simp)
  have hbuffer : Scratch.buffer (.ready (.ofBytes [9, 9, 9])) = .ok (.ofBytes [9, 9, 9]) := rfl
  obtain ⟨hends, hsizes⟩ := apply_produces
    ⟨.padded, ⟨.pad, "", some 8, none, some ⟨4, 0⟩, none⟩, 8, rfl⟩ hspec
    (World.plain_isTruthful 0) (World.plain_isObliging 0) ⟨false, "source", true, true⟩
    ⟨true, "dest", true, true⟩ (by decide) _ hbuffer (by decide)
    (fun isDest => if isDest then .empty else ⟨.ofBytes [1, 2], 0⟩) rfl
    ⟨rfl, rfl, by simp [Ability.reaches], by decide, ⟨rfl, by simp [Ability.reaches]⟩,
      fun hlayout => absurd hlayout (by decide)⟩ (by decide)
  obtain ⟨summary, scratch', after, hrun⟩ := hends.mpr trivial
  obtain ⟨hreported, hproduced, _⟩ := hsizes summary scratch' after hrun
  exact ⟨summary, scratch', after, hrun, hreported, hproduced⟩

end Rule

end RomImage
