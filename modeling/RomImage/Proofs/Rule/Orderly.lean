import RomImage.Proofs.Rule.Layout
import RomImage.Proofs.Stream.Orderly

/-!
# Rules on orderly streams

On orderly streams a rule comes to its end, or to what a failed call amounts to, or it fails over
the size that the source has told (`Rule.apply_orderly`). Work on the tape in memory has no part in
it: there is memory for the container, the patch is inside, and what is given away is what was made.
-/

namespace RomImage

open RomImage.Stream

theorem Tape.size_patched {patch : Patch} {tape : Tape}
    (hinside : patch.stop ≤ tape.contents.size) :
    (tape.patched patch).contents.size = tape.contents.size := by
  rw [← Contents.length_bytes, Tape.bytes_patched hinside, Patch.length_over, Contents.length_bytes]
  rwa [Contents.length_bytes]

namespace Rule

inductive SizeFailure (rule : Rule) (source : String) : Option Int → Failure → Prop
  | unknown : SizeFailure rule source none (.misuse .unknownSize)
  | negative {size : Int} (hsize : size < 0) :
      SizeFailure rule source (some size) (.misuse (.negativeCount size))
  | tooLarge {size : Int} (hsize : rule.ceiling < size) :
      SizeFailure rule source (some size) (.imageTooLarge source size rule.ceiling)

variable {ι κ τ : Type} {rule : Rule} {span most : Nat} {size : Int} {scratch : Scratch}

theorem SizeFailure.context_eq {source : String} {told : Option Int} {failure : Failure}
    (hsize : rule.SizeFailure source told failure) {error : BuildError}
    (herror : failure = .build error) : error.context = source := by
  cases hsize with
  | unknown | negative => exact absurd herror (by simp)
  | tooLarge =>
      unfold Failure.imageTooLarge at herror
      revert herror
      cases Text.decimal? _ with
      | some digits =>
          intro herror
          obtain rfl := Failure.build.inj herror
          rfl
      | none => exact fun herror => absurd herror (by simp)

/-- The image area is laid out in full, unless the image has fewer than no bytes. -/
theorem layImage_carries [Machine] {conduct : Conduct (interface κ) τ}
    {held : Bytes → Nat → τ → Prop}
    {bad : Failure → τ → Prop} {source dest : Channel κ} {state : τ}
    (hcarries : Carries conduct source dest span held bad)
    (hspend : ∀ chunk ≤ span, ∀ left state, held [] (chunk + left) state →
      held (List.replicate chunk 0) left state) (hspan : 0 < span) (hsize : size ≤ rule.targetSize)
    (hscratch : HasBuffer span scratch) (hheld : held [] rule.targetSize state)
    (hnegative : size < 0 → bad (.misuse (.negativeCount size)) state) :
    (rule.layImage source dest size).Ensures conduct scratch state
      (fun _ scratch' after => HasBuffer span scratch' ∧ held [] 0 after)
      (fun failure _ after => bad failure after) := by
  rw [layImage]
  by_cases hsign : size < 0
  · rw [copy, if_pos hsign]
    exact Task.ensures_fail (hnegative hsign)
  obtain ⟨size, rfl⟩ := Int.eq_ofNat_of_zero_le (Int.not_lt.mp hsign)
  have hrest : (rule.targetSize : Int) - size = ((rule.targetSize - size : Nat) : Int) := by omega
  have hsplit : rule.targetSize = size + (rule.targetSize - size + 0) := by omega
  rw [hsplit] at hheld
  rw [hrest]
  refine Task.Ensures.bind (copy_carries hcarries hspan size hscratch hheld) ?_
  rintro _ scratch after ⟨hscratch, hheld⟩
  exact fill_gives hcarries.toGives hspend _ 0 hspan hscratch hheld

/-- Over a tape in memory the patch is laid, and the tape is moved to its start. -/
theorem layPatch_inMemory [Machine] [DecidableEq ι] {patch : Patch}
    (hpatch : rule.spec.patch = some patch)
    {tape : Tape} (hstop : patch.stop ≤ tape.contents.size)
    (hroom : tape.contents.size < Machine.memory) (ability : ι → Ability) (tapes : ι → Tape) :
    (do rule.layPatch stagingChannel
        move stagingChannel 0 fromStart : Work (Option ι) Unit).Ensures
      (conduct (besideAbility ability) True) scratch (beside tape tapes)
      (fun _ scratch' joint => scratch' = scratch ∧
        joint = beside ((tape.patched patch).moved 0) tapes)
      (fun _ _ _ => False) := by
  have hmemory : True → (besideAbility ability none).movable = true ∧
      (besideAbility ability none).takes patch.stop := fun _ => ⟨rfl, memory_takes (by omega)⟩
  refine Task.Ensures.bind ((layPatch_ensures hpatch stagingChannel hmemory).bad_mono ?_) ?_
  · rintro _ _ _ ⟨hrefused, -⟩
    exact hrefused trivial
  rintro _ _ _ ⟨rfl, rfl⟩
  refine (move_ensures stagingChannel (Tape.destination_start _ _ 0) fun _ => ?_).mono ?_ ?_
  · exact ⟨rfl, (memory_takes Machine.memory_pos).2⟩
  · rintro _ _ _ ⟨rfl, rfl⟩
    refine ⟨rfl, ?_⟩
    rw [repositioned, stagingChannel, Function.update_self, Function.update_idem,
      update_beside_none]
    rfl
  · rintro _ _ _ ⟨hrefused, -⟩
    exact hrefused trivial

theorem layPatch_inside (rule : Rule) :
    (do rule.layPatch stagingChannel
        move stagingChannel 0 fromStart : Work (Option ι) Unit).AsksOnly (Inside ι) :=
  .bind (rule.layPatch_asksOnly moves_beside (fun _ => trivial) fun _ _ _ => rfl)
    fun _ => move_asksOnly moves_beside 0 fromStart

section Orderly

variable {conduct : Conduct (interface κ) τ} {source dest : Channel κ} {inv : τ → Prop}
  {bad : Failure → τ → Prop} {state : τ}

theorem layPatch_orderly (horderly : Orderly conduct source dest most inv bad) {patch : Patch}
    (hpatch : rule.spec.patch = some patch) (hmost : patch.data.length ≤ most) (hinv : inv state) :
    (rule.layPatch dest).Ensures conduct scratch state (fun _ _ after => inv after)
      (fun failure _ after => bad failure after) := by
  rw [layPatch, hpatch]
  refine Task.Ensures.bind (horderly.moveTo_ensures _ _ hinv) ?_
  rintro _ _ _ ⟨-, hinv⟩
  refine Task.Ensures.bind (horderly.writeAll_ensures hmost hinv) ?_
  rintro _ _ _ ⟨-, hinv⟩
  refine Task.Ensures.bind (horderly.moveTo_ensures _ _ hinv) ?_
  rintro _ _ _ ⟨-, hinv⟩
  refine (horderly.note_ensures _ hinv).mono ?_ fun _ _ _ hbad => hbad
  rintro _ _ _ ⟨-, hinv⟩
  exact hinv

/-- Once the patch is laid, the tape in memory is all that is to be given away. -/
theorem layPatch_emptying [Machine] [DecidableEq κ]
    (horderly : Orderly conduct source dest most inv bad)
    {patch : Patch} (hpatch : rule.spec.patch = some patch) {tape : Tape}
    (hfull : tape.contents.size = rule.containerSize) (hstop : patch.stop ≤ rule.containerSize)
    (hmemory : rule.containerSize < Machine.memory) (hinv : inv state)
    {never : Failure → Scratch → Tape × τ → Prop} :
    (do rule.layPatch stagingChannel
        move stagingChannel 0 fromStart : Work (Option κ) Unit).Ensures
      (.steered steer conduct) scratch (tape, state)
      (fun _ scratch' after => scratch' = scratch ∧
        Emptying inv [] (rule.containerSize + 0) after) never := by
  have hinside : patch.stop ≤ tape.contents.size := hfull ▸ hstop
  refine (inside_ensures horderly.note rule.layPatch_inside (layPatch_inMemory hpatch hinside
    (hfull ▸ hmemory) (fun _ => ⟨false, false, false, none⟩) fun _ => .empty) hinv).mono ?_ ?_
  · rintro _ _ ⟨tape', state⟩ ⟨⟨rfl, hjoint⟩, hinv⟩
    obtain rfl : tape' = (tape.patched patch).moved 0 := congrFun hjoint none
    refine ⟨rfl, ?_, hinv⟩
    rw [Tape.moved, Nat.zero_add, Nat.add_zero, ← hfull, Tape.size_patched hinside]
  · rintro _ _ _ ⟨hnever, -⟩
    exact hnever.elim

variable (horderly : Orderly conduct source dest most inv bad) (hmatched : rule.Matched)
  (hspan : 0 < span) (hmost : span ≤ most)

include horderly hmatched hspan hmost

/-- What is staged in memory is made and given away in full. -/
theorem layStaged_orderly [Machine] (hlayout : rule.layout = .patched)
    (hmemory : rule.containerSize < Machine.memory) (hsize : size ≤ rule.targetSize)
    (hnegative : ∀ state, inv state → size < 0 → bad (.misuse (.negativeCount size)) state)
    (hscratch : HasBuffer span scratch) (hinv : inv state) :
    (staged do
        rule.layImage (source.mapHandle some) stagingChannel size
        rule.layPatch stagingChannel
        move stagingChannel 0 fromStart
        copy stagingChannel (dest.mapHandle some) rule.containerSize : Work κ Unit).Ensures
      conduct scratch state (fun _ _ after => inv after)
      (fun failure _ after => bad failure after) := by
  classical
  obtain ⟨hlead, patch, hpatch⟩ := hmatched.of_patched hlayout
  have hsizes := containerSize_eq hlead
  have hwork : (do
      rule.layImage (source.mapHandle some) stagingChannel size
      rule.layPatch stagingChannel
      move stagingChannel 0 fromStart
      copy stagingChannel (dest.mapHandle some) rule.containerSize :
        Work (Option κ) Unit).Ensures (.steered steer conduct) scratch (.empty, state)
      (fun _ _ after => inv after.2) (fun failure _ after => bad failure after.2) := by
    -- The tape in memory is filled from the source first, and then emptied to the destination.
    refine Task.Ensures.bind (layImage_carries (horderly.filling (hsizes ▸ hmemory) span) ?_ hspan
      hsize hscratch ⟨Nat.zero_add _, rfl, hinv⟩ (hnegative state hinv)) ?_
    · rintro chunk - left state ⟨htarget, hend⟩
      refine ⟨?_, hend⟩
      rw [List.length_nil] at htarget
      rw [List.length_replicate]
      omega
    rintro _ scratch ⟨tape, state⟩ ⟨hscratch, htarget, hend, hinv⟩
    have hfull : tape.contents.size = rule.containerSize := by
      rw [hend, hsizes]
      exact htarget
    rw [← bind_assoc]
    refine Task.Ensures.bind (layPatch_emptying horderly hpatch hfull (hmatched.stop_le hpatch)
      hmemory hinv) ?_
    rintro _ _ _ ⟨rfl, hahead⟩
    exact (copy_carries (horderly.emptying hmost) hspan _ hscratch hahead).mono
      (fun _ _ _ hdone => hdone.2.2) fun _ _ _ hbad => hbad
  refine (Task.Ensures.route Prod.mk Conduct.follows_steered hwork).mono ?_ ?_
  · rintro _ _ _ ⟨_, hinv⟩
    exact hinv
  · rintro _ _ _ ⟨_, hbad⟩
    exact hbad

theorem lay_orderly [Machine]
    (hmemory : rule.layout = .patched → rule.containerSize < Machine.memory)
    (hpatch : ∀ patch ∈ rule.spec.patch, patch.data.length ≤ most) (hsize : size ≤ rule.targetSize)
    (hnegative : ∀ state, inv state → size < 0 → bad (.misuse (.negativeCount size)) state)
    (hscratch : HasBuffer span scratch) (hinv : inv state) :
    (rule.lay source dest size).Ensures conduct scratch state (fun _ _ after => inv after)
      (fun failure _ after => bad failure after) := by
  have hcarries := horderly.carries hmost
  have hlaid {scratch : Scratch} {state : τ} (hscratch : HasBuffer span scratch)
      (hinv : inv state) :
      (rule.layImage source dest size).Ensures conduct scratch state
        (fun _ scratch' after => HasBuffer span scratch' ∧ inv after)
        (fun failure _ after => bad failure after) :=
    layImage_carries hcarries (fun _ _ _ _ hinv => hinv) hspan hsize hscratch hinv
      (hnegative state hinv)
  have hdone {scratch : Scratch} {state : τ} (hscratch : HasBuffer span scratch)
      (hinv : inv state) :
      (rule.layImage source dest size).Ensures conduct scratch state (fun _ _ after => inv after)
        (fun failure _ after => bad failure after) :=
    (hlaid hscratch hinv).mono (fun _ _ _ hafter => hafter.2) fun _ _ _ hbad => hbad
  have hfits := hmatched.fits
  by_cases hlayout : rule.layout = .patched
  · obtain ⟨-, patch, hsome⟩ := hmatched.of_patched hlayout
    refine lay_patched_ensures hlayout source dest (horderly.canMove_ensures hinv) ?_ ?_
    · rintro _ _ ⟨rfl, hinv⟩
      refine Task.Ensures.bind (hlaid hscratch hinv) ?_
      rintro _ _ _ ⟨_, hinv⟩
      exact layPatch_orderly horderly hsome (hpatch patch hsome) hinv
    · rintro _ _ ⟨rfl, hinv⟩
      refine Task.Ensures.bind (horderly.note_ensures _ hinv) ?_
      rintro _ _ _ ⟨rfl, hinv⟩
      exact layStaged_orderly horderly hmatched hspan hmost hlayout (hmemory hlayout) hsize
        hnegative hscratch hinv
  rw [lay]
  cases hrule : rule.layout with
  | patched => exact absurd hrule hlayout
  | padded => exact hdone hscratch hinv
  | led =>
      rw [hrule] at hfits
      obtain ⟨lead, hlead⟩ := Option.isSome_iff_exists.mp hfits.1
      dsimp only
      rw [hlead]
      refine Task.Ensures.bind (fill_gives hcarries.toGives (fun _ _ _ _ hinv => hinv) lead.count 0
        hspan hscratch hinv) ?_
      rintro _ scratch state ⟨hscratch, hinv⟩
      exact hdone hscratch hinv

end Orderly

/-- On orderly streams a rule comes to its end, or to the failure of a call, or it fails over the
size that the source has told. -/
theorem apply_orderly [Machine] {conduct : Conduct (interface κ) τ} {source dest : Channel κ}
    {told : Option Int → τ → Prop} {bad : Failure → τ → Prop} {state : τ}
    (horderly : ∀ size, Orderly conduct source dest most (told size) bad) {buffer : Buffer}
    (hmeasure : (measure source).Ensures conduct (.ready buffer) state
      (fun size scratch' after => scratch' = .ready buffer ∧ told size after)
      (fun failure _ after => bad failure after))
    (hover : ∀ size failure after, told size after → rule.SizeFailure source.name size failure →
      bad failure after)
    (hmatched : rule.Matched)
    (hmemory : rule.layout = .patched → rule.containerSize < Machine.memory)
    (hbuffer : scratch.buffer = .ok buffer) (hspan : 0 < buffer.length)
    (hmost : buffer.length ≤ most) (hpatch : ∀ patch ∈ rule.spec.patch, patch.data.length ≤ most) :
    (rule.apply source dest).Ensures conduct scratch state
      (fun summary _ after => ∃ size : Int, told (some size) after ∧ size ≤ rule.ceiling ∧
        summary = ⟨rule.spec.kind, size, rule.containerSize, rule.ceiling - size⟩)
      (fun failure _ after => bad failure after) := by
  rw [apply]
  refine Task.Ensures.bind (Task.ensures_buffer hbuffer) ?_
  rintro buffer _ _ ⟨rfl, rfl, rfl⟩
  refine Task.Ensures.bind hmeasure ?_
  rintro size _ state ⟨rfl, htold⟩
  cases size with
  | none => exact Task.ensures_fail (hover none _ _ htold .unknown)
  | some size =>
      dsimp only
      split
      · rename_i hlarge
        exact Task.ensures_fail (hover (some size) _ _ htold (.tooLarge hlarge))
      rename_i hfits
      have hceiling : size ≤ rule.ceiling := Int.not_lt.mp hfits
      have htarget : size ≤ rule.targetSize :=
        Int.le_trans hceiling (Int.ofNat_le.mpr hmatched.ceiling_le)
      refine Task.Ensures.bind ((horderly _).note_ensures _ htold) ?_
      rintro _ _ state ⟨rfl, htold⟩
      refine Task.Ensures.bind (lay_orderly (horderly _) hmatched hspan hmost hmemory hpatch htarget
        (fun state htold hsign => hover _ _ _ htold (.negative hsign)) ⟨buffer, rfl, rfl⟩ htold) ?_
      intro _ _ _ htold
      exact Task.ensures_pure ⟨size, htold, hceiling, rfl⟩

end Rule

end RomImage
