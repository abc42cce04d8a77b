import RomImage.Proofs.Rule.Apply
import RomImage.Proofs.Rule.Orderly
import RomImage.Proofs.Stream.Brimming

/-!
# The size of the buffer does not show

With buffers of different sizes a rule cuts its image into different chunks, so that two runs have
no states in common on the way. Where they end is told without chunks: from the bytes that the
source has ahead, the bytes of the container that can be made of them, and the limit of the
destination (`Rule.Ends`). A source that runs dry and a destination that is full may be near to each
other; the destination holds the same bytes whatever the chunks are, and which of the two it was
depends on which comes first.
-/

namespace RomImage

open RomImage.Stream

namespace Rule

def made (rule : Rule) (size : Nat) (ahead : Bytes) : Bytes :=
  if size ≤ ahead.length then rule.area (ahead.take size) else ahead

/-- The bytes that go to the destination in order: those in front and of the image area, or the
whole container, once it is staged. -/
def offered (rule : Rule) (staged : Bool) (size : Nat) (ahead : Bytes) : Bytes :=
  if staged then
    if size ≤ ahead.length then rule.spec.container rule.targetSize (ahead.take size) else []
  else rule.spec.leadBytes ++ rule.made size ahead

section Pours

variable {κ τ ρ : Type} {conduct : Conduct (interface κ) τ} {source dest : Channel κ}
  {limit : Option Nat} {reach span size : Nat} {view : View τ ρ} {scratch : Scratch} {state : τ}
  {ahead : Bytes} {tape : Tape} {aside : ρ} {rule : Rule}

/-- The image area is laid out if the image is there and the area fits; otherwise as much of it is
as there is, or fits. -/
theorem layImage_pours [Machine] (hpours : Pours conduct source.handle dest.handle limit reach view)
    (hspan : 0 < span) (hprintable : span < Nat.pow 10 Text.digitLimit)
    (hsize : size ≤ rule.targetSize) (hreach : tape.position + rule.targetSize ≤ reach)
    (hscratch : HasBuffer span scratch) (hview : view state = (ahead, tape, aside)) :
    (rule.layImage source dest size).Ensures conduct scratch state
      (fun _ scratch' after => HasBuffer span scratch' ∧ size ≤ ahead.length ∧
        Fits limit tape.position rule.targetSize ∧
        view after = (ahead.drop size, tape.write (rule.area (ahead.take size)), aside))
      (fun failure _ after => Halted source.name dest.name limit tape (rule.made size ahead)
        (size ≤ ahead.length) aside view failure after) := by
  rw [layImage]
  refine Task.Ensures.bind ((copy_pours hpours hspan hprintable (by omega) hscratch
    hview).bad_mono ?_) ?_
  · rintro failure _ after ⟨bytes, hhalts, hafter⟩
    refine ⟨bytes, ?_, hafter⟩
    by_cases hthere : size ≤ ahead.length
    · rw [made, if_pos hthere, area]
      exact hhalts.before _ hthere
    · rw [made, if_neg hthere]
      rwa [List.take_of_length_le (by omega)] at hhalts
  rintro _ scratch' after ⟨hscratch', hthere, hfits, hafter⟩
  have hlength : (ahead.take size).length = size := List.length_take_of_le hthere
  have hposition : (tape.write (ahead.take size)).position = tape.position + size := by
    rw [Tape.position_write, hlength]
  have hrest : (rule.targetSize : Int) - size = ((rule.targetSize - size : Nat) : Int) := by omega
  have hsplit : size + (rule.targetSize - size) = rule.targetSize := by omega
  have harea : rule.area (ahead.take size)
      = ahead.take size ++ List.replicate (rule.targetSize - size) 0 := by
    rw [area, hlength]
  rw [hrest]
  refine (fill_pours hpours hspan hprintable 0 (by omega) hscratch' hafter).mono ?_ ?_
  · rintro _ scratch'' after' ⟨hscratch'', hzeros, hafter'⟩
    rw [hposition] at hzeros
    refine ⟨hscratch'', hthere, ?_, ?_⟩
    · rw [← hsplit]
      exact fits_add.mpr ⟨hfits, hzeros⟩
    · rw [hafter', Tape.write_append, harea]
  · rintro failure _ after' ⟨bytes, hhalts, hafter'⟩
    refine ⟨ahead.take size ++ bytes, ?_, ?_⟩
    · rw [made, if_pos hthere, harea]
      rw [hposition] at hhalts
      exact .behind (hlength.symm ▸ hfits) (hlength.symm ▸ hhalts) fun _ => trivial
    · rw [hafter', Tape.write_append]

/-- The same with bytes in front, if the layout has them. -/
theorem lay_unpatched_pours [Machine] (hmatched : rule.Matched) (hlayout : rule.layout ≠ .patched)
    (hpours : Pours conduct source.handle dest.handle limit reach view) (hspan : 0 < span)
    (hprintable : span < Nat.pow 10 Text.digitLimit) (hsize : size ≤ rule.targetSize)
    (hreach : tape.position + rule.containerSize ≤ reach) (hscratch : HasBuffer span scratch)
    (hview : view state = (ahead, tape, aside)) :
    (rule.lay source dest size).Ensures conduct scratch state
      (fun _ _ after => size ≤ ahead.length ∧ Fits limit tape.position rule.containerSize ∧
        (view after).2.1
          = tape.write (rule.spec.container rule.targetSize (ahead.take size)))
      (fun failure _ after => Halted source.name dest.name limit tape
        (rule.spec.leadBytes ++ rule.made size ahead) (size ≤ ahead.length) aside view failure
        after) := by
  have hfits := hmatched.fits
  have hpatch := hmatched.patch_eq_none hlayout
  have hcontainer (image : Bytes) : rule.spec.container rule.targetSize image
      = rule.spec.leadBytes ++ rule.area image := by
    rw [Spec.container, hpatch, unpatched_eq]
  rw [hcontainer, lay]
  cases hrule : rule.layout with
  | patched => exact absurd hrule hlayout
  | padded =>
      rw [hrule] at hfits
      have hlead := hfits.1
      have hnone : rule.spec.leadBytes = [] := by rw [Spec.leadBytes, hlead]
      rw [containerSize_eq hlead] at hreach ⊢
      rw [hnone, List.nil_append, List.nil_append]
      refine (layImage_pours hpours hspan hprintable hsize hreach hscratch hview).mono ?_
        fun _ _ _ hhalted => hhalted
      rintro _ _ after ⟨-, hthere, hroom, hafter⟩
      exact ⟨hthere, hroom, by rw [hafter]⟩
  | led =>
      rw [hrule] at hfits
      obtain ⟨lead, hlead⟩ := Option.isSome_iff_exists.mp hfits.1
      have hbytes : rule.spec.leadBytes = List.replicate lead.count lead.fill := by
        rw [Spec.leadBytes, hlead]
      have hsizes : rule.containerSize = lead.count + rule.targetSize := by
        rw [containerSize, Spec.leadSize, hlead]
      have hlength : (List.replicate lead.count lead.fill).length = lead.count :=
        List.length_replicate
      have hposition : (tape.write (List.replicate lead.count lead.fill)).position
          = tape.position + lead.count := by
        rw [Tape.position_write, hlength]
      dsimp only
      rw [hlead, hsizes, hbytes]
      rw [hsizes] at hreach
      refine Task.Ensures.bind ((fill_pours hpours hspan hprintable lead.fill (by omega) hscratch
        hview).bad_mono ?_) ?_
      · rintro failure _ after ⟨bytes, hhalts, hafter⟩
        exact ⟨bytes, hhalts.before _ trivial, hafter⟩
      rintro _ scratch' after ⟨hscratch', hfront, hafter⟩
      refine (layImage_pours hpours hspan hprintable hsize (by omega) hscratch' hafter).mono ?_ ?_
      · rintro _ _ after' ⟨-, hthere, hroom, hafter'⟩
        rw [hposition] at hroom
        refine ⟨hthere, fits_add.mpr ⟨hfront, hroom⟩, ?_⟩
        rw [hafter', Tape.write_append]
      · rintro failure _ after' ⟨bytes, hhalts, hafter'⟩
        rw [hposition] at hhalts
        refine ⟨List.replicate lead.count lead.fill ++ bytes, ?_, ?_⟩
        · exact .behind (hlength.symm ▸ hfront) (hlength.symm ▸ hhalts) id
        · rw [hafter', Tape.write_append]

end Pours

section Brimming

variable {ι σ : Type} [DecidableEq ι] {movable : Bool} {limit : Option Nat} {span size : Nat}
  {source dest : Channel ι} {scratch : Scratch} {tapes : ι → Tape} {rule : Rule}

def Gave (rule : Rule) (source dest : ι) (limit : Option Nat) (size : Nat)
    (tapes after : ι → Tape) : Prop :=
  size ≤ (tapes source).ahead.length ∧ Fits limit 0 rule.containerSize ∧
    (after dest).contents.bytes
      = rule.spec.container rule.targetSize ((tapes source).ahead.take size)

def GaveOut (rule : Rule) (source dest : Channel ι) (limit : Option Nat) (staged : Bool)
    (size : Nat) (tapes : ι → Tape) (failure : Failure) (after : ι → Tape) : Prop :=
  ∃ bytes, Halts source.name dest.name limit 0
    (rule.offered staged size (tapes source.handle).ahead)
    (size ≤ (tapes source.handle).ahead.length) failure bytes ∧
    (after dest.handle).contents.bytes = bytes

/-- The patch is laid without a refusal where it fits. -/
theorem layPatch_brimming {patch : Patch} (hpatch : rule.spec.patch = some patch)
    (hstop : Fits limit 0 patch.stop) :
    (rule.layPatch dest).Ensures (brimming dest.handle true limit) scratch tapes
      (fun _ _ after => after dest.handle = (tapes dest.handle).patched patch)
      (fun _ _ _ => False) := by
  have hfits : Fits limit 0 (patch.offset + patch.data.length) := hstop
  obtain ⟨hoffset, hdata⟩ := fits_add.mp hfits
  rw [Nat.zero_add] at hdata
  rw [layPatch, hpatch]
  refine Task.Ensures.bind (moveTo_brimming (Tape.destination_start _ _ patch.offset) hoffset) ?_
  rintro _ _ _ ⟨rfl, rfl⟩
  refine Task.Ensures.bind (writeAll_brimming ?_) ?_
  · rw [repositioned_self]
    exact hdata
  rintro _ _ _ ⟨rfl, rfl⟩
  refine Task.Ensures.bind (moveTo_brimming (Tape.destination_end _ _) (fits_zero _ _)) ?_
  rintro _ _ _ ⟨rfl, rfl⟩
  refine (note_brimming _).mono ?_ fun _ _ _ => False.elim
  rintro _ _ _ ⟨rfl, rfl⟩
  rw [repositioned_self, written_self, repositioned_self, Tape.patched, Tape.overlaid,
    List.take_length]

/-- In place: the image area first, and the patch over it. -/
theorem layInPlace_brimming [Machine] (hmatched : rule.Matched) (hlayout : rule.layout = .patched)
    (hapart : source.handle ≠ dest.handle) (hspan : 0 < span)
    (hprintable : span < Nat.pow 10 Text.digitLimit) (hsize : size ≤ rule.targetSize)
    (hscratch : HasBuffer span scratch) (hempty : tapes dest.handle = .empty) :
    (do rule.layImage source dest size
        rule.layPatch dest : Work ι Unit).Ensures (brimming dest.handle true limit) scratch tapes
      (fun _ _ after => rule.Gave source.handle dest.handle limit size tapes after)
      (fun failure _ after => rule.GaveOut source dest limit false size tapes failure after) := by
  obtain ⟨hlead, patch, hpatch⟩ := hmatched.of_patched hlayout
  have hsizes := containerSize_eq hlead
  have hstop := hmatched.stop_le hpatch
  have hview : ((tapes source.handle).ahead, tapes dest.handle, ())
      = ((tapes source.handle).ahead, Tape.empty, ()) := by rw [hempty]
  have hnone : rule.spec.leadBytes = [] := by rw [Spec.leadBytes, hlead]
  refine Task.Ensures.bind ((layImage_pours (pours_brimming hapart rule.targetSize) hspan
    hprintable hsize (Nat.le_of_eq (Nat.zero_add _)) hscratch hview).bad_mono ?_) ?_
  · rintro failure _ after ⟨bytes, hhalts, hafter⟩
    refine ⟨bytes, ?_, ?_⟩
    · rw [offered, if_neg Bool.false_ne_true, hnone, List.nil_append]
      exact hhalts
    · have hdest : after dest.handle = Tape.empty.write bytes := congrArg Prod.fst hafter
      rw [hdest, Tape.bytes_write_empty]
  rintro _ scratch' after ⟨-, hthere, hfits, hafter⟩
  have hfits : Fits limit 0 rule.containerSize := hsizes ▸ hfits
  have hdest : after dest.handle
      = Tape.empty.write (rule.area ((tapes source.handle).ahead.take size)) :=
    congrArg (fun shown => shown.2.1) hafter
  refine (layPatch_brimming hpatch (hfits.of_le hstop)).mono ?_ fun _ _ _ => False.elim
  intro _ _ after' hafter'
  have hlength : ((tapes source.handle).ahead.take size).length = size :=
    List.length_take_of_le hthere
  have hwritten := Tape.bytes_write_empty (rule.area ((tapes source.handle).ahead.take size))
  have hinside : patch.stop ≤ (Tape.empty.write
      (rule.area ((tapes source.handle).ahead.take size))).contents.size := by
    rw [← Contents.length_bytes, hwritten, length_area (hlength.symm ▸ hsize)]
    omega
  refine ⟨hthere, hfits, ?_⟩
  rw [hafter', hdest, Tape.bytes_patched hinside, hwritten, container_eq_over hlead hpatch]

/-- What is staged is given to the destination as far as it fits. -/
theorem giveStaged_brimming [Machine] {patch : Patch} (hpatch : rule.spec.patch = some patch)
    (hmemory : rule.containerSize < Machine.memory) (hspan : 0 < span)
    (hprintable : span < Nat.pow 10 Text.digitLimit) (hscratch : HasBuffer span scratch)
    (hempty : tapes dest.handle = .empty) {memory : Tape} {container : Bytes}
    (hsize : memory.contents.size = rule.containerSize) (hstop : patch.stop ≤ rule.containerSize)
    (hahead : ((memory.patched patch).moved 0).ahead = container)
    (hlength : container.length = rule.containerSize) (name : String) (whole : Prop) :
    (do rule.layPatch stagingChannel
        move stagingChannel 0 fromStart
        copy stagingChannel (dest.mapHandle some) rule.containerSize :
          Work (Option ι) Unit).Ensures
      (.steered steer (brimming dest.handle movable limit)) scratch (memory, tapes)
      (fun _ _ joint => Fits limit 0 rule.containerSize ∧
        (joint.2 dest.handle).contents.bytes = container)
      (fun failure _ joint => Halts name dest.name limit 0 container whole failure
        (joint.2 dest.handle).contents.bytes) := by
  have hnote : ∀ fact state (answer : Except Fault Unit) after, state = tapes →
      brimming dest.handle movable limit (.note fact) state answer after →
      answer = .ok () ∧ after = tapes := by
    rintro fact _ answer after rfl hanswer
    exact brimming_note hanswer
  rw [← bind_assoc]
  refine Task.Ensures.bind ((inside_ensures hnote rule.layPatch_inside
    (layPatch_inMemory hpatch (hsize ▸ hstop) (hsize ▸ hmemory)
      (fun _ => ⟨false, false, false, none⟩) fun _ => .empty) rfl).bad_mono ?_) ?_
  · rintro _ _ _ ⟨hnever, -⟩
    exact hnever.elim
  rintro _ _ ⟨memory', tapes⟩ ⟨⟨rfl, hjoint⟩, rfl⟩
  obtain rfl : memory' = (memory.patched patch).moved 0 := congrFun hjoint none
  have hempty : tapes dest.handle = Tape.empty := hempty
  have hview : (((memory.patched patch).moved 0).ahead, tapes dest.handle, ())
      = (container, Tape.empty, ()) := by rw [hahead, hempty]
  have hemptying : Pours (.steered steer (brimming dest.handle movable limit))
      stagingChannel.handle (dest.mapHandle some).handle limit rule.containerSize
      fun state : Tape × (ι → Tape) => (state.1.ahead, state.2 dest.handle, ()) :=
    pours_emptying rule.containerSize
  have hall : container.take rule.containerSize = container :=
    List.take_of_length_le (Nat.le_of_eq hlength)
  refine (copy_pours hemptying hspan hprintable (Nat.le_of_eq (Nat.zero_add _)) hscratch
    hview).mono ?_ ?_
  · rintro _ _ ⟨memory', after⟩ ⟨-, -, hfits, hafter⟩
    have hdest : after dest.handle = Tape.empty.write (container.take rule.containerSize) :=
      congrArg (fun shown => shown.2.1) hafter
    refine ⟨hfits, ?_⟩
    dsimp only
    rw [hdest, hall, Tape.bytes_write_empty]
  · rintro failure _ ⟨memory', after⟩ ⟨bytes, hhalts, hafter⟩
    have hdest : after dest.handle = Tape.empty.write bytes := congrArg Prod.fst hafter
    dsimp only
    rw [hdest, Tape.bytes_write_empty]
    rw [hall] at hhalts
    exact hhalts.of_whole name (Nat.le_of_eq hlength.symm)

/-- Staged: all of it in memory first, and then to the destination. -/
theorem layStaged_brimming [Machine] (hmatched : rule.Matched) (hlayout : rule.layout = .patched)
    (hmemory : rule.containerSize < Machine.memory)
    (hapart : source.handle ≠ dest.handle) (hspan : 0 < span)
    (hprintable : span < Nat.pow 10 Text.digitLimit) (hsize : size ≤ rule.targetSize)
    (hscratch : HasBuffer span scratch) (hempty : tapes dest.handle = .empty) :
    (staged do
        rule.layImage (source.mapHandle some) stagingChannel size
        rule.layPatch stagingChannel
        move stagingChannel 0 fromStart
        copy stagingChannel (dest.mapHandle some) rule.containerSize : Work ι Unit).Ensures
      (brimming dest.handle movable limit) scratch tapes
      (fun _ _ after => rule.Gave source.handle dest.handle limit size tapes after)
      (fun failure _ after => rule.GaveOut source dest limit true size tapes failure after) := by
  obtain ⟨hlead, patch, hpatch⟩ := hmatched.of_patched hlayout
  have hsizes := containerSize_eq hlead
  have hwork : (do
      rule.layImage (source.mapHandle some) stagingChannel size
      rule.layPatch stagingChannel
      move stagingChannel 0 fromStart
      copy stagingChannel (dest.mapHandle some) rule.containerSize :
        Work (Option ι) Unit).Ensures (.steered steer (brimming dest.handle movable limit)) scratch
      (.empty, tapes)
      (fun _ _ joint => rule.Gave source.handle dest.handle limit size tapes joint.2)
      (fun failure _ joint =>
        rule.GaveOut source dest limit true size tapes failure joint.2) := by
    have hfill : rule.targetSize < Machine.memory := hsizes ▸ hmemory
    have hfilling : Pours (.steered steer (brimming dest.handle movable limit))
        (source.mapHandle some).handle stagingChannel.handle none rule.targetSize
        fun state : Tape × (ι → Tape) =>
          ((state.2 source.handle).ahead, state.1, state.2 dest.handle) :=
      pours_filling hapart hfill
    have hview : ((tapes source.handle).ahead, Tape.empty, tapes dest.handle)
        = ((tapes source.handle).ahead, Tape.empty, Tape.empty) := by rw [hempty]
    refine Task.Ensures.bind ((layImage_pours hfilling hspan hprintable hsize
      (Nat.le_of_eq (Nat.zero_add _)) hscratch hview).bad_mono ?_) ?_
    · -- Memory has no limit here, so that it can only be the source that was dry.
      rintro failure _ ⟨memory, after⟩ ⟨bytes, hhalts, hafter⟩
      obtain ⟨-, hshort, rfl⟩ := hhalts.of_none
      have hdest : after dest.handle = Tape.empty := congrArg Prod.snd hafter
      refine ⟨[], ?_, congrArg (fun tape => tape.contents.bytes) hdest⟩
      rw [offered, if_pos rfl, if_neg hshort]
      exact .dry (fits_zero _ _) hshort
    rintro _ scratch' ⟨memory, after⟩ ⟨hscratch', hthere, -, hafter⟩
    obtain rfl : memory = Tape.empty.write (rule.area ((tapes source.handle).ahead.take size)) :=
      congrArg (fun shown => shown.2.1) hafter
    have hdest : after dest.handle = Tape.empty := congrArg (fun shown => shown.2.2) hafter
    have hlength : ((tapes source.handle).ahead.take size).length = size :=
      List.length_take_of_le hthere
    have hmade : (rule.area ((tapes source.handle).ahead.take size)).length
        = rule.containerSize := by
      rw [length_area (hlength.symm ▸ hsize), hsizes]
    have hinside : patch.stop ≤ (rule.area ((tapes source.handle).ahead.take size)).length :=
      hmade ▸ hmatched.stop_le hpatch
    refine (giveStaged_brimming hpatch hmemory hspan hprintable hscratch' hdest ?_
      (hmatched.stop_le hpatch) (ahead_staged hlead hpatch hinside) ?_ source.name
      (size ≤ (tapes source.handle).ahead.length)).mono ?_ ?_
    · rw [← Contents.length_bytes, Tape.bytes_write_empty, hmade]
    · rw [container_eq_over hlead hpatch, patch.length_over _ hinside, hmade]
    · rintro _ _ _ ⟨hfits, hbytes⟩
      exact ⟨hthere, hfits, hbytes⟩
    · intro failure _ _ hhalts
      refine ⟨_, ?_, rfl⟩
      rw [offered, if_pos rfl, if_pos hthere]
      exact hhalts
  refine (Task.Ensures.route Prod.mk Conduct.follows_steered hwork).mono ?_ ?_
  · rintro _ _ _ ⟨_, hgave⟩
    exact hgave
  · rintro _ _ _ ⟨_, hout⟩
    exact hout

def stages (rule : Rule) (dest : Channel ι) (movable : Bool) : Bool :=
  rule.layout == .patched && !(dest.answersSeekable && movable)

theorem lay_brimming [Machine] (hmatched : rule.Matched)
    (hmemory : rule.layout = .patched → rule.containerSize < Machine.memory)
    (hapart : source.handle ≠ dest.handle) (hspan : 0 < span)
    (hprintable : span < Nat.pow 10 Text.digitLimit) (hsize : size ≤ rule.targetSize)
    (hscratch : HasBuffer span scratch) (hempty : tapes dest.handle = .empty) :
    (rule.lay source dest size).Ensures (brimming dest.handle movable limit) scratch tapes
      (fun _ _ after => rule.Gave source.handle dest.handle limit size tapes after)
      (fun failure _ after =>
        rule.GaveOut source dest limit (rule.stages dest movable) size tapes failure after) := by
  by_cases hlayout : rule.layout = .patched
  · have hstages : rule.stages dest movable = !(dest.answersSeekable && movable) := by
      rw [stages, hlayout]
      rfl
    have hasks : (canMove dest).AsksOnly Unwriting :=
      canMove_asksOnly fun _ ⟨_, hwrites⟩ => absurd hwrites (by simp)
    rw [hstages]
    refine lay_patched_ensures hlayout source dest
      ((brimming_ensures (canMove_ensures dest) hasks).bad_mono ?_) ?_ ?_
    · rintro _ _ _ ⟨hrefused, -⟩
      exact absurd trivial hrefused
    · rintro _ _ ⟨rfl, rfl, hmoves⟩
      rw [abilities_dest] at hmoves
      obtain ⟨hanswers, rfl⟩ := (Bool.and_eq_true_iff ..).mp (hmoves trivial).symm
      rw [hanswers]
      exact layInPlace_brimming hmatched hlayout hapart hspan hprintable hsize hscratch hempty
    · rintro _ _ ⟨rfl, rfl, hmoves⟩
      rw [abilities_dest] at hmoves
      rw [← hmoves trivial]
      refine Task.Ensures.bind ((note_brimming _).bad_mono fun _ _ _ => False.elim) ?_
      rintro _ _ _ ⟨rfl, rfl⟩
      exact layStaged_brimming hmatched hlayout (hmemory hlayout) hapart hspan hprintable hsize
        hscratch hempty
  · have hstages : rule.stages dest movable = false := by
      rw [stages, beq_eq_false_iff_ne.mpr hlayout]
      rfl
    have hview : ((tapes source.handle).ahead, tapes dest.handle, ())
        = ((tapes source.handle).ahead, Tape.empty, ()) := by rw [hempty]
    rw [hstages]
    refine (lay_unpatched_pours hmatched hlayout (pours_brimming hapart rule.containerSize) hspan
      hprintable hsize (Nat.le_of_eq (Nat.zero_add _)) hscratch hview).mono ?_ ?_
    · rintro _ _ after ⟨hthere, hfits, hafter⟩
      have hdest : after dest.handle = Tape.empty.write
          (rule.spec.container rule.targetSize ((tapes source.handle).ahead.take size)) := hafter
      exact ⟨hthere, hfits, by rw [hdest, Tape.bytes_write_empty]⟩
    · rintro failure _ after ⟨bytes, hhalts, hafter⟩
      have hdest : after dest.handle = Tape.empty.write bytes := congrArg Prod.fst hafter
      exact ⟨bytes, hhalts, by rw [hdest, Tape.bytes_write_empty]⟩

end Brimming

section Ends

variable {ι σ : Type} {movable : Bool} {limit : Option Nat} {size : Nat} {source dest : Channel ι}
  {scratch : Scratch} {ahead : Bytes} {rule : Rule}

/-- How a rule ends, and the bytes that it leaves on a destination with a limit. -/
inductive Ends (rule : Rule) (source dest : Channel ι) (movable : Bool) (limit : Option Nat)
    (size : Nat) (ahead : Bytes) : Except Failure Summary → Bytes → Prop
  | tooLarge (hlarge : rule.ceiling < size) :
      Ends rule source dest movable limit size ahead
        (.error (.imageTooLarge source.name size rule.ceiling)) []
  | finished (hsize : size ≤ rule.ceiling) (hthere : size ≤ ahead.length)
      (hfits : Fits limit 0 rule.containerSize) :
      Ends rule source dest movable limit size ahead (.ok (rule.report size))
        (rule.spec.container rule.targetSize (ahead.take size))
  | halted (hsize : size ≤ rule.ceiling) {failure : Failure} {bytes : Bytes}
      (hhalts : Halts source.name dest.name limit 0
        (rule.offered (rule.stages dest movable) size ahead) (size ≤ ahead.length) failure bytes) :
      Ends rule source dest movable limit size ahead (.error failure) bytes

inductive SameEnd : Except Failure Summary → Except Failure Summary → Prop
  | ok (summary : Summary) : SameEnd (.ok summary) (.ok summary)
  | error {first second : Failure} (halike : first.Alike second) :
      SameEnd (.error first) (.error second)

theorem length_offered (hmatched : rule.Matched) (hsize : size ≤ rule.targetSize)
    (hthere : size ≤ ahead.length) (staged : Bool) :
    (rule.offered staged size ahead).length = rule.containerSize := by
  have hfits : (ahead.take size).length ≤ rule.targetSize := by
    rwa [List.length_take_of_le hthere]
  cases staged with
  | true =>
      rw [offered, if_pos rfl, if_pos hthere]
      exact Spec.length_container _ _ _ hmatched.wellFormed rule.targetSize_eq hfits
  | false =>
      rw [offered, if_neg Bool.false_ne_true, made, if_pos hthere, List.length_append,
        Spec.length_leadBytes, length_area hfits, containerSize]

/-- A rule ends in one way only. -/
theorem Ends.same (hmatched : rule.Matched) {result result' : Except Failure Summary}
    {bytes bytes' : Bytes} (hends : rule.Ends source dest movable limit size ahead result bytes)
    (hends' : rule.Ends source dest movable limit size ahead result' bytes') :
    SameEnd result result' ∧ bytes = bytes' := by
  have hstop {failure : Failure} {bytes : Bytes} (hsize : size ≤ rule.ceiling)
      (hthere : size ≤ ahead.length) (hfits : Fits limit 0 rule.containerSize) :
      ¬ Halts source.name dest.name limit 0 (rule.offered (rule.stages dest movable) size ahead)
        (size ≤ ahead.length) failure bytes := by
    intro hhalts
    refine hhalts.not_fits hthere ?_
    rwa [length_offered hmatched (Nat.le_trans hsize hmatched.ceiling_le) hthere]
  cases hends with
  | tooLarge hlarge =>
      cases hends' with
      | tooLarge _ => exact ⟨.error (.same _), rfl⟩
      | finished hsize _ _ | halted hsize _ => exact absurd hsize (Nat.not_le.mpr hlarge)
  | finished hsize hthere hfits =>
      cases hends' with
      | tooLarge hlarge => exact absurd hsize (Nat.not_le.mpr hlarge)
      | finished _ _ _ => exact ⟨.ok _, rfl⟩
      | halted _ hhalts => exact absurd hhalts (hstop hsize hthere hfits)
  | halted hsize hhalts =>
      cases hends' with
      | tooLarge hlarge => exact absurd hsize (Nat.not_le.mpr hlarge)
      | finished _ hthere hfits => exact absurd hhalts (hstop hsize hthere hfits)
      | halted _ hhalts' =>
          obtain ⟨halike, hbytes⟩ := hhalts.alike hhalts'
          exact ⟨.error halike, hbytes⟩

variable [DecidableEq ι] {tapes : ι → Tape}

/-- A rule ends as its source and its destination are, and not as its buffer is. -/
theorem apply_brimming [Machine] (hmatched : rule.Matched)
    (hmemory : rule.layout = .patched → rule.containerSize < Machine.memory)
    (hapart : source.handle ≠ dest.handle) {buffer : Buffer}
    (hbuffer : scratch.buffer = .ok buffer) (hspan : 0 < buffer.length)
    (hprintable : buffer.length < Nat.pow 10 Text.digitLimit)
    (hempty : tapes dest.handle = .empty) :
    (rule.apply source dest).Ensures (brimming dest.handle movable limit) scratch tapes
      (fun summary _ after => rule.Ends source dest movable limit
        (tapes source.handle).contents.size (tapes source.handle).ahead (.ok summary)
        (after dest.handle).contents.bytes)
      (fun failure _ after => rule.Ends source dest movable limit
        (tapes source.handle).contents.size (tapes source.handle).ahead (.error failure)
        (after dest.handle).contents.bytes) := by
  have hmeasure : (measure source).Ensures (brimming dest.handle movable limit) (.ready buffer)
      tapes (fun value scratch' after => value = some ((tapes source.handle).contents.size : Int) ∧
        scratch' = .ready buffer ∧ after = tapes) (fun _ _ _ => False) := by
    refine (brimming_ensures (measure_ensures source fun _ => ?_)
      (measure_asksOnly (moves_unwriting _))).bad_mono ?_
    · rw [abilities_of_ne hapart]
      exact ⟨rfl, fun _ hroom => absurd hroom (by simp)⟩
    · rintro _ _ _ ⟨_, hrefused, -⟩
      exact hrefused trivial
  have hlay (hsize : (tapes source.handle).contents.size ≤ rule.ceiling) :
      (rule.lay source dest (tapes source.handle).contents.size).Ensures
        (brimming dest.handle movable limit) (.ready buffer) tapes
        (fun _ _ after => rule.Gave source.handle dest.handle limit
          (tapes source.handle).contents.size tapes after)
        (fun failure _ after => rule.Ends source dest movable limit
          (tapes source.handle).contents.size (tapes source.handle).ahead (.error failure)
          (after dest.handle).contents.bytes) := by
    refine (lay_brimming hmatched hmemory hapart hspan hprintable
      (Nat.le_trans hsize hmatched.ceiling_le) ⟨buffer, rfl, rfl⟩ hempty).bad_mono ?_
    rintro failure _ _ ⟨bytes, hhalts, rfl⟩
    exact .halted hsize hhalts
  refine (apply_ensures_of_lay rule source dest hbuffer
    (hmeasure.bad_mono fun _ _ _ => False.elim) (fun hlarge => ?_)
    ((note_brimming _).bad_mono fun _ _ _ => False.elim) hlay).mono ?_
    fun _ _ _ hends => hends
  · rw [hempty]
    exact .tooLarge hlarge
  · rintro summary _ after ⟨rfl, hsize, hthere, hfits, hbytes⟩
    rw [hbytes]
    exact .finished hsize hthere hfits

/-- **The size of the buffer does not show.** Under the rules that come with the tool, two buffers
that are not empty, of whatever sizes and contents, lead to the same end: the same report, or the
same failure but for the details of a short write, and the same bytes on a destination that was
empty and takes the bytes before a limit. The source may stand anywhere, and may cut its bytes into
reads as it likes. -/
theorem apply_buffer_size_hidden [Machine] (hshipped : rule.IsShipped) {world : World ι σ}
    (hbrimming : world.IsBrimming dest.handle movable limit)
    (hapart : source.handle ≠ dest.handle) {state : σ}
    (hempty : world.tape state dest.handle = .empty) {buffer buffer' : Buffer}
    (hspan : 0 < buffer.length ∧ buffer.length < Fault.sizeBound)
    (hspan' : 0 < buffer'.length ∧ buffer'.length < Fault.sizeBound) :
    let first := world.run (.ready buffer) (rule.apply source dest) state
    let second := world.run (.ready buffer') (rule.apply source dest) state
    SameEnd first.1.1 second.1.1 ∧
      (world.tape first.2 dest.handle).contents.bytes
        = (world.tape second.2 dest.handle).contents.bytes := by
  have hends (buffer : Buffer) (hspan : 0 < buffer.length ∧ buffer.length < Fault.sizeBound) :
      let run := world.run (.ready buffer) (rule.apply source dest) state
      rule.Ends source dest movable limit (world.tape state source.handle).contents.size
        (world.tape state source.handle).ahead run.1.1
        (world.tape run.2 dest.handle).contents.bytes := by
    intro run
    have hprintable : buffer.length < Nat.pow 10 Text.digitLimit :=
      Nat.lt_of_lt_of_le hspan.2 (by decide +kernel)
    obtain ⟨_, _, _, hrun, hends⟩ | ⟨_, _, _, hrun, hends⟩ :=
      (apply_brimming hshipped.matched hshipped.memory hapart
        (rfl : (Scratch.ready buffer).buffer = .ok buffer) hspan.1 hprintable hempty).run
        world.tape (fun _ => True) (fun request state _ => ⟨hbrimming request state, trivial⟩)
        state trivial
    · exact (show run = _ from hrun) ▸ hends
    · exact (show run = _ from hrun) ▸ hends
  exact (hends buffer hspan).same hshipped.matched (hends buffer' hspan')

/-- Plain padding of two bytes to four where only three fit, through a buffer of one byte and one of
three: the last write is another one, and takes more. -/
theorem apply_buffer_size_hidden_full :
    let rule : Rule := ⟨.padded, { Table.pad with targetSize := some 4 }, 4, rfl⟩
    let source : Channel Bool := ⟨false, "in.bin", true, true⟩
    let dest : Channel Bool := ⟨true, "out.bin", true, true⟩
    let tapes : Bool → Tape := fun stream => if stream then .empty else ⟨.ofBytes [1, 2], 0⟩
    let world : World Bool (Bool → Tape) := .limited 0 true (some 3)
    ∀ first second,
      world.run (.ready (.ofBytes [9])) (rule.apply source dest) tapes = first →
      world.run (.ready (.ofBytes [8, 8, 8])) (rule.apply source dest) tapes = second →
      first.1.1.toOption = none ∧ (world.tape first.2 dest.handle).contents.bytes = [1, 2, 0] ∧
        SameEnd first.1.1 second.1.1 ∧
        (world.tape first.2 dest.handle).contents.bytes
          = (world.tape second.2 dest.handle).contents.bytes := by
  intro rule source dest tapes world
  have hshipped : rule.IsShipped := .pad (rfl : Rule.pad (.integer 4) = _)
  have hbrimming : world.IsBrimming dest.handle true (some 3) := World.limited_isBrimming 0 true _
  have hempty : world.tape tapes dest.handle = .empty := rfl
  have hapart : source.handle ≠ dest.handle := by decide
  have hsmall : 0 < (Buffer.ofBytes [9]).length ∧
      (Buffer.ofBytes [9]).length < Fault.sizeBound := by decide
  have hlarge : 0 < (Buffer.ofBytes [8, 8, 8]).length ∧
      (Buffer.ofBytes [8, 8, 8]).length < Fault.sizeBound := by decide
  have hsame := apply_buffer_size_hidden hshipped hbrimming hapart hempty hsmall hlarge
  rintro _ _ rfl rfl
  exact ⟨by decide +kernel, by decide +kernel, hsame⟩

end Ends

end Rule

end RomImage
