import RomImage.Proofs.Stream.Conduct
import RomImage.Stream.Transfer

/-!
# Positions of truthful streams

A truthful stream tells its position and moves as it says, or fails without a change. Measuring
visits the end and comes back: when it succeeds nothing has changed, and when it fails the position
is all that may have.
-/

namespace RomImage

namespace Stream

open Function (update)

variable {ι : Type} [DecidableEq ι] {ability : ι → Ability} {obliged : Prop}
  {scratch : Scratch} {tapes : ι → Tape}

def repositioned (stream : ι) (position : Nat) (tapes : ι → Tape) : ι → Tape :=
  update tapes stream ((tapes stream).moved position)

@[simp] theorem repositioned_self (stream : ι) (position : Nat) (tapes : ι → Tape) :
    repositioned stream position tapes stream = (tapes stream).moved position :=
  Function.update_self _ _ _

theorem repositioned_repositioned (stream : ι) (first second : Nat) (tapes : ι → Tape) :
    repositioned stream second (repositioned stream first tapes)
      = repositioned stream second tapes := by
  rw [repositioned, repositioned_self, repositioned, Function.update_idem]
  rfl

theorem repositioned_position (stream : ι) (tapes : ι → Tape) :
    repositioned stream (tapes stream).position tapes = tapes :=
  Function.update_eq_self _ _

def SeekRefused (stream : Channel ι) (obliged : Prop) (scratch : Scratch) (tapes : ι → Tape)
    (failure : Failure) (scratch' : Scratch) (after : ι → Tape) : Prop :=
  ¬ obliged ∧ scratch' = scratch ∧ after = tapes ∧ ∃ fault, failure = seekFailure stream fault

theorem position_ensures (stream : Channel ι)
    (hready : obliged → (ability stream.handle).movable = true) :
    (position stream).Ensures (conduct ability obliged) scratch tapes
      (fun value scratch' after => value = some ((tapes stream.handle).position : Int) ∧
        scratch' = scratch ∧ after = tapes)
      (SeekRefused stream obliged scratch tapes) := by
  rw [position]
  refine Task.Ensures.bind (Task.ensures_request _) ?_
  rintro answer scratch' after ⟨rfl, htruthful, hobliging⟩
  obtain fault | value := answer
  · have hafter : after = tapes := htruthful
    refine Task.ensures_fail ⟨fun hobliged => ?_, rfl, hafter, fault, rfl⟩
    exact absurd (hobliging hobliged (hready hobliged)) (by simp)
  · obtain ⟨hvalue, hafter⟩ := htruthful
    exact Task.ensures_pure ⟨hvalue, rfl, hafter⟩

theorem move_ensures (stream : Channel ι) {offset whence : Int} {target : Nat}
    (htarget : Tape.destination (tapes stream.handle).position (tapes stream.handle).contents.size
      offset whence = .ok target)
    (hready : obliged → (ability stream.handle).movable = true ∧
      (ability stream.handle).reaches offset.natAbs) :
    (move stream offset whence).Ensures (conduct ability obliged) scratch tapes
      (fun _ scratch' after => scratch' = scratch ∧
        after = repositioned stream.handle target tapes)
      (SeekRefused stream obliged scratch tapes) := by
  rw [move]
  refine Task.Ensures.bind (Task.ensures_request _) ?_
  rintro answer scratch' after ⟨rfl, htruthful, hobliging⟩
  obtain fault | _ := answer
  · have hafter : after = tapes := htruthful
    refine Task.ensures_fail ⟨fun hobliged => ?_, rfl, hafter, fault, rfl⟩
    obtain ⟨hmovable, hreaches⟩ := hready hobliged
    have hgranted := hobliging hobliged hmovable hreaches (by rw [htarget]; rfl)
    exact absurd hgranted (by simp)
  · obtain ⟨position, hposition, hafter⟩ := htruthful
    obtain rfl : target = position := Except.ok.inj (htarget.symm.trans hposition)
    exact Task.ensures_pure ⟨rfl, hafter⟩

theorem moveTo_ensures (stream : Channel ι) {offset whence : Int} {target : Nat}
    (htarget : Tape.destination (tapes stream.handle).position (tapes stream.handle).contents.size
      offset whence = .ok target)
    (hready : obliged → (ability stream.handle).movable = true ∧
      (ability stream.handle).reaches offset.natAbs) :
    (moveTo stream offset whence).Ensures (conduct ability obliged) scratch tapes
      (fun value scratch' after => value = some (target : Int) ∧ scratch' = scratch ∧
        after = repositioned stream.handle target tapes)
      (fun failure scratch' after => ∃ position, SeekRefused stream obliged scratch
        (repositioned stream.handle position tapes) failure scratch' after) := by
  rw [moveTo]
  refine Task.Ensures.bind ((move_ensures stream htarget hready).bad_mono ?_) ?_
  · intro failure scratch' after hrefused
    refine ⟨(tapes stream.handle).position, ?_⟩
    rwa [repositioned_position]
  rintro _ _ _ ⟨rfl, rfl⟩
  refine (position_ensures stream fun hobliged => (hready hobliged).1).mono ?_ ?_
  · rintro value _ _ ⟨rfl, rfl, rfl⟩
    rw [repositioned_self]
    exact ⟨rfl, rfl, rfl⟩
  · intro failure scratch' after hrefused
    exact ⟨target, hrefused⟩

/-- Measuring gives the size of the stream and changes nothing; where it fails, no more than the
position has changed. -/
theorem measure_ensures (stream : Channel ι)
    (hready : obliged → (ability stream.handle).movable = true ∧
      (ability stream.handle).reaches (tapes stream.handle).position) :
    (measure stream).Ensures (conduct ability obliged) scratch tapes
      (fun value scratch' after => value = some ((tapes stream.handle).contents.size : Int) ∧
        scratch' = scratch ∧ after = tapes)
      (fun failure scratch' after => ∃ position, SeekRefused stream obliged scratch
        (repositioned stream.handle position tapes) failure scratch' after) := by
  have hstay {failure : Failure} {scratch' : Scratch} {after : ι → Tape}
      (hrefused : SeekRefused stream obliged scratch tapes failure scratch' after) :
      ∃ position, SeekRefused stream obliged scratch
        (repositioned stream.handle position tapes) failure scratch' after :=
    ⟨(tapes stream.handle).position, by rwa [repositioned_position]⟩
  have hend : Tape.destination (tapes stream.handle).position
      (tapes stream.handle).contents.size 0 fromEnd = .ok (tapes stream.handle).contents.size :=
    Tape.destination_end _ _
  have hmovable (hobliged : obliged) : (ability stream.handle).movable = true :=
    (hready hobliged).1
  have hreaches (hobliged : obliged) : (ability stream.handle).reaches 0 :=
    (hready hobliged).2.of_le (Nat.zero_le _)
  rw [measure]
  refine Task.Ensures.bind ((position_ensures stream hmovable).bad_mono fun _ _ _ => hstay) ?_
  rintro _ scratch tapes ⟨rfl, rfl, rfl⟩
  refine Task.Ensures.bind ((move_ensures stream hend fun hobliged =>
    ⟨hmovable hobliged, hreaches hobliged⟩).bad_mono fun _ _ _ => hstay) ?_
  rintro _ scratch _ ⟨rfl, rfl⟩
  refine Task.Ensures.bind ((position_ensures stream hmovable).bad_mono
    fun _ _ _ hrefused => ⟨_, hrefused⟩) ?_
  rintro size scratch _ ⟨hsize, rfl, rfl⟩
  rw [repositioned_self] at hsize
  refine Task.Ensures.bind ((move_ensures stream (Tape.destination_start _ _ _)
    fun hobliged => ⟨hmovable hobliged, (hready hobliged).2⟩).bad_mono
    fun _ _ _ hrefused => ⟨_, hrefused⟩) ?_
  rintro _ scratch _ ⟨rfl, rfl⟩
  refine Task.ensures_pure ⟨hsize, rfl, ?_⟩
  rw [repositioned_repositioned, repositioned_position]

/-- Asking whether a stream can be moved changes nothing. -/
theorem canMove_ensures (stream : Channel ι) :
    (canMove stream).Ensures (conduct ability obliged) scratch tapes
      (fun value scratch' after => scratch' = scratch ∧ after = tapes ∧
        (obliged → value = (stream.answersSeekable && (ability stream.handle).movable)))
      (fun failure scratch' after => ¬ obliged ∧ scratch' = scratch ∧ after = tapes ∧
        ∃ fault, failure = .fault fault) := by
  rw [canMove]
  cases hasks : stream.answersSeekable with
  | false => exact Task.ensures_pure ⟨rfl, rfl, fun _ => rfl⟩
  | true =>
      rw [if_pos rfl]
      refine Task.Ensures.bind (Task.ensures_request _) ?_
      rintro answer scratch' after ⟨rfl, htruthful, hobliging⟩
      have hafter : after = tapes := htruthful
      have hgranted : obliged → answer = .ok (ability stream.handle).movable := hobliging
      obtain fault | movable := answer
      · have hrefused (hobliged : obliged) : False :=
          absurd (hgranted hobliged) (by simp)
        dsimp only
        by_cases hcaught : fault.isSystemOrValue = true
        · rw [if_pos hcaught]
          exact Task.ensures_pure ⟨rfl, hafter, fun hobliged => (hrefused hobliged).elim⟩
        · rw [if_neg hcaught]
          exact Task.ensures_fail ⟨hrefused, rfl, hafter, fault, rfl⟩
      · exact Task.ensures_pure ⟨rfl, hafter, fun hobliged => Except.ok.inj (hgranted hobliged)⟩

end Stream

end RomImage
