import RomImage.Proofs.Rule.Matched
import RomImage.Proofs.Stream.Calls
import RomImage.Proofs.Stream.Oblivious
import RomImage.Rule

/-!
# What the buffer held never shows

Transfers and rules leave their remains in the buffer: the end of an image, a stretch of fill bytes,
a read that came to nothing. The next one uses the same buffer. Since each of them is oblivious, so
is any number of them in sequence, failed ones among them, and the remains show nowhere: not in an
outcome, not in a stream, and not in what is noted (`Step.all_oblivious`, `run_steps_oblivious`).
-/

namespace RomImage

open RomImage.Stream

variable {ι σ : Type}

namespace Rule

variable (rule : Rule) (source dest : Channel ι)

theorem layImage_oblivious [Machine] (size : Int) :
    (rule.layImage source dest size).Oblivious ReportsStored :=
  .bind (copy_oblivious source dest size) fun _ => fill_oblivious dest 0 _

theorem layPatch_oblivious : (rule.layPatch dest).Oblivious ReportsStored := by
  rw [layPatch]
  split
  · exact .fail _
  · refine .bind (moveTo_oblivious dest _ fromStart) fun _ => ?_
    refine .bind (writeAll_oblivious dest _) fun _ => ?_
    exact .bind (moveTo_oblivious dest 0 fromEnd) fun _ => note_oblivious _

theorem layStaged_oblivious [Machine] (size : Int) :
    (staged do
      rule.layImage (source.mapHandle some) stagingChannel size
      rule.layPatch stagingChannel
      move stagingChannel 0 fromStart
      copy stagingChannel (dest.mapHandle some) rule.containerSize : Work ι Unit).Oblivious
        ReportsStored := by
  refine staged_oblivious (.bind (rule.layImage_oblivious _ _ size) fun _ => ?_)
  refine .bind (rule.layPatch_oblivious _) fun _ => ?_
  exact .bind (move_oblivious _ 0 fromStart) fun _ => copy_oblivious _ _ _

theorem lay_oblivious [Machine] (size : Int) :
    (rule.lay source dest size).Oblivious ReportsStored := by
  rw [lay]
  split
  · exact rule.layImage_oblivious source dest size
  · split
    · exact .fail _
    · exact .bind (fill_oblivious dest _ _) fun _ => rule.layImage_oblivious source dest size
  · refine .bind (canMove_oblivious dest) fun moves => ?_
    split
    · refine .bind (rule.layImage_oblivious source dest size) fun _ => ?_
      exact rule.layPatch_oblivious dest
    · exact .bind (note_oblivious _) fun _ => rule.layStaged_oblivious source dest size

theorem apply_oblivious [Machine] : (rule.apply source dest).Oblivious ReportsStored := by
  refine .length_bind (fun _ _ _ => rfl) fun _ => .bind (measure_oblivious source) fun size => ?_
  split
  · exact .fail _
  split
  · exact .fail _
  · refine .bind (note_oblivious _) fun _ => ?_
    exact .bind (rule.lay_oblivious source dest _) fun _ => .pure _

end Rule

inductive Step (ι : Type) where
  | copy (source dest : Channel ι) (count : Int)
  | fill (dest : Channel ι) (value count : Int)
  | write (dest : Channel ι) (data : Bytes)
  | measure (stream : Channel ι)
  | moveTo (stream : Channel ι) (offset whence : Int)
  | apply (rule : Rule) (source dest : Channel ι)

namespace Step

inductive Result where
  | nothing
  | place (position : Option Int)
  | built (summary : Summary)
  deriving DecidableEq, Repr

def work [Machine] : Step ι → Work ι Result
  | copy source dest count => do
    Stream.copy source dest count
    return .nothing
  | fill dest value count => do
    Stream.fill dest value count
    return .nothing
  | write dest data => do
    Stream.writeAll dest data
    return .nothing
  | measure stream => return .place (← Stream.measure stream)
  | moveTo stream offset whence => return .place (← Stream.moveTo stream offset whence)
  | apply rule source dest => return .built (← rule.apply source dest)

/-- The outcomes of steps, each taken whether or not an earlier one failed. -/
def all [Machine] : List (Step ι) → Work ι (List (Except Failure Result))
  | [] => return []
  | step :: steps => do
    let outcome ← step.work.attempt
    let outcomes ← all steps
    return outcome :: outcomes

theorem work_oblivious [Machine] (step : Step ι) : step.work.Oblivious ReportsStored := by
  cases step with
  | copy source dest count => exact .bind (copy_oblivious source dest count) fun _ => .pure _
  | fill dest value count => exact .bind (fill_oblivious dest value count) fun _ => .pure _
  | write dest data => exact .bind (writeAll_oblivious dest data) fun _ => .pure _
  | measure stream => exact .bind (measure_oblivious stream) fun _ => .pure _
  | moveTo stream offset whence =>
      exact .bind (moveTo_oblivious stream offset whence) fun _ => .pure _
  | apply rule source dest => exact .bind (rule.apply_oblivious source dest) fun _ => .pure _

/-- The remains of one step do not show in the next. -/
theorem all_oblivious [Machine] (steps : List (Step ι)) : (all steps).Oblivious ReportsStored := by
  induction steps with
  | nil => exact .pure []
  | cons step steps ih =>
      refine .bind step.work_oblivious.attempt fun outcome => ?_
      exact .bind ih fun outcomes => .pure (outcome :: outcomes)

/-- Every step has its outcome, whatever became of the ones before. -/
theorem all_ensures [Machine] {σ : Type} {conduct : Conduct (interface ι) σ} (steps : List (Step ι))
    (scratch : Scratch) (state : σ) :
    (all steps).Ensures conduct scratch state
      (fun outcomes _ _ => outcomes.length = steps.length) (fun _ _ _ => False) := by
  induction steps generalizing scratch state with
  | nil => exact Task.ensures_pure rfl
  | cons step steps ih =>
      refine Task.Ensures.bind (Task.ensures_trivial step.work).attempt ?_
      intro outcome scratch' after _
      refine Task.Ensures.bind (ih scratch' after) fun outcomes _ _ hlength => ?_
      exact Task.ensures_pure (congrArg (· + 1) hlength)

end Step

/-- **What the buffer held never shows.** Over streams whose reads report no bytes that they did not
store, any steps from one state of the streams have the same outcomes, make the same calls and
notes, and leave the streams the same, from any two buffers of one length. -/
theorem run_steps_oblivious [Machine] {world : World ι σ} (hstored : world.IsStored)
    (steps : List (Step ι))
    {buffer buffer' : Buffer} (hlength : buffer.length = buffer'.length) (state : σ) :
    ∃ outcomes left left' after calls, outcomes.length = steps.length ∧
      left.length = left'.length ∧
      world.logged.run (.ready buffer) (Step.all steps) (state, [])
        = ((.ok outcomes, .ready left), (after, calls)) ∧
      world.logged.run (.ready buffer') (Step.all steps) (state, [])
        = ((.ok outcomes, .ready left'), (after, calls)) := by
  have hfair (request : Request ι) (logged : σ × List (Exchange ι)) :
      ReportsStored request (world.logged.answer request logged).1 := hstored request logged.1
  obtain ⟨outcome, left, left', ⟨after, calls⟩, hrun, hrun', hleft⟩ :=
    (Step.all_oblivious steps).run hfair hlength (state, [])
  have hall : (Step.all steps).Ensures (fun _ _ _ _ => True) (.ready buffer)
      (id (state, ([] : List (Exchange ι)))) (fun outcomes _ _ => outcomes.length = steps.length)
      (fun _ _ _ => False) := Step.all_ensures steps _ _
  obtain ⟨outcomes, _, _, hvalue, hcount⟩ | ⟨_, _, _, -, hnever⟩ :=
    hall.run id (fun _ => True) (fun _ _ _ => ⟨trivial, trivial⟩) (state, []) trivial
  · obtain ⟨⟨rfl, -⟩, -⟩ := by simpa only [Prod.mk.injEq] using hrun.symm.trans hvalue
    exact ⟨outcomes, left, left', after, calls, hcount, hleft, hrun, hrun'⟩
  · exact hnever.elim

/-- Remains of an earlier transfer or zeros: a copy, a fill that leaves remains of its own, and a
whole container go the same way. -/
theorem run_steps_oblivious_remains :
    let source : Channel Bool := ⟨false, "in.bin", true, true⟩
    let dest : Channel Bool := ⟨true, "out.bin", true, true⟩
    let tapes : Bool → Tape := fun stream => if stream then .empty else ⟨.ofBytes [1, 2, 3], 0⟩
    let steps : List (Step Bool) :=
      [.copy source dest 2, .fill dest 7 4, .measure dest, .apply .stc source dest]
    Buffer.ofBytes [8, 9] ≠ .zeros 2 ∧
      ∃ outcomes left left' after calls, outcomes.length = 4 ∧ left.length = left'.length ∧
        (World.plain 0).logged.run (.ready (.ofBytes [8, 9])) (Step.all steps) (tapes, [])
          = ((.ok outcomes, .ready left), (after, calls)) ∧
        (World.plain 0).logged.run (.ready (.zeros 2)) (Step.all steps) (tapes, [])
          = ((.ok outcomes, .ready left'), (after, calls)) := by
  intro source dest tapes steps
  have hlength : (Buffer.ofBytes [8, 9]).length = (Buffer.zeros 2).length := rfl
  exact ⟨by decide, run_steps_oblivious (World.plain_isTruthful 0).isStored steps hlength tapes⟩

end RomImage
