import RomImage.Proofs.Recorded
import RomImage.Proofs.Rule.Place
import RomImage.Proofs.Stream.Still

/-!
# Containers for streams that cannot be moved

A layout that has to go back is staged in memory if its destination cannot be moved. What it makes
is the container that it would have made in place, and what it asks of the destination splits in
two: while the container is made, no more than whether it can be moved, and writes once it is made.
So the source is never asked for anything after the first write, and if reading it fails there is
none.
-/

namespace RomImage

open RomImage.Stream

namespace Rule

variable {ι σ : Type} {rule : Rule} {source dest : Channel ι}

section Container

variable [DecidableEq ι] {ability : ι → Ability} {obliged : Prop} {scratch : Scratch}
  {buffer : Buffer} {tapes : ι → Tape} {image : Bytes}

/-- On an empty destination that cannot be moved, a layout with a patch leaves the container. -/
theorem lay_stages [Machine] (hmatched : rule.Matched) (hlayout : rule.layout = .patched)
    (hapart : source.handle ≠ dest.handle) (hspan : 0 < buffer.length)
    (hfits : image.length ≤ rule.targetSize) (hahead : (tapes source.handle).ahead = image)
    (hempty : tapes dest.handle = .empty)
    (hready : obliged → (ability source.handle).readable = true ∧
      (ability dest.handle).takes rule.containerSize ∧ rule.containerSize < Machine.memory) :
    (rule.lay source dest image.length).Ensures (stillConduct ability obliged dest) (.ready buffer)
      tapes (fun _ _ after => (after dest.handle).contents.bytes
        = rule.spec.container rule.targetSize image) (fun _ _ _ => ¬ obliged) := by
  obtain ⟨hlead, patch, hpatch⟩ := hmatched.of_patched hlayout
  have hdenied : (canMove dest).Ensures (stillConduct ability obliged dest) (.ready buffer) tapes
      (fun moves scratch' after => moves = false ∧ scratch' = .ready buffer ∧ after = tapes)
      (fun _ _ _ => ¬ obliged) := by
    refine canMove_denied ?_ rfl
    intro hasks answer after ⟨htruthful, _, hdenies⟩
    exact ⟨hdenies hasks rfl, htruthful⟩
  refine lay_patched_ensures hlayout source dest hdenied ?_ ?_
  · rintro _ _ ⟨hfalse, -⟩
    exact absurd hfalse (by simp)
  rintro _ _ ⟨-, rfl, rfl⟩
  refine Task.Ensures.bind (still_note .staging) ?_
  rintro _ _ tapes ⟨rfl, rfl⟩
  have hthere : image.length ≤ (tapes source.handle).ahead.length := Nat.le_of_eq (by rw [hahead])
  have hasks := rule.layStaged_asksThen
    (fun _ : (image.length : Int) ≠ 0 => reads_unasking dest.handle source.handle)
    (notes_unasking dest.handle) (writes_unasking dest.handle dest.handle)
    (notes_unasking dest.handle)
  refine (still_of_conduct (layStaged_ensures hmatched hlead hpatch source dest hapart hspan hfits
    ⟨buffer, rfl, rfl⟩ fun hobliged => ?_) hasks.asksOnly).mono ?_ ?_
  · obtain ⟨hreadable, htakes, hmemory⟩ := hready hobliged
    rw [hempty, Tape.empty, Nat.zero_add]
    exact ⟨hreadable, hthere, hmemory, htakes⟩
  · rintro _ _ _ ⟨-, -, rfl⟩
    rw [laid_dest hapart, hempty, Tape.bytes_write_empty, hahead, List.take_length]
  · rintro failure _ _ ⟨hrefused, -⟩
    exact hrefused

/-- On an empty destination that cannot be moved, a rule with a patch reports an image that fits and
leaves its container. -/
theorem apply_stages [Machine] (hmatched : rule.Matched) (hlayout : rule.layout = .patched)
    (hapart : source.handle ≠ dest.handle) (hbuffer : scratch.buffer = .ok buffer)
    (hspan : 0 < buffer.length) (hfits : image.length ≤ rule.ceiling)
    (hahead : (tapes source.handle).ahead = image)
    (hsize : (tapes source.handle).contents.size = image.length)
    (hempty : tapes dest.handle = .empty)
    (hready : obliged → (ability source.handle).readable = true ∧
      (ability source.handle).movable = true ∧
      (ability source.handle).reaches (tapes source.handle).position ∧
      (ability dest.handle).takes rule.containerSize ∧ rule.containerSize < Machine.memory) :
    (rule.apply source dest).Ensures (stillConduct ability obliged dest) scratch tapes
      (fun summary _ after => summary = rule.report image.length ∧ image.length ≤ rule.ceiling ∧
        (after dest.handle).contents.bytes = rule.spec.container rule.targetSize image)
      (fun _ _ _ => ¬ obliged) := by
  refine apply_ensures_of_lay rule source dest hbuffer ((still_of_conduct (measure_ensures source
    fun hobliged => ?_) (measure_asksOnly (moves_unasking _ _))).mono ?_ ?_) ?_ (still_note _) ?_
  · obtain ⟨-, hmovable, hreaches, -⟩ := hready hobliged
    exact ⟨hmovable, hreaches⟩
  · rintro value _ _ ⟨rfl, rfl, rfl⟩
    rw [hsize]
    exact ⟨rfl, rfl, rfl⟩
  · rintro failure _ _ ⟨position, hrefused, -⟩
    exact hrefused
  · intro hlarge
    exact absurd hfits (Nat.not_le_of_lt hlarge)
  · intro _
    refine lay_stages hmatched hlayout hapart hspan (Nat.le_trans hfits hmatched.ceiling_le) hahead
      hempty fun hobliged => ?_
    obtain ⟨hreadable, -, -, htakes, hmemory⟩ := hready hobliged
    exact ⟨hreadable, htakes, hmemory⟩

end Container

section Calls

/-- A layout with a patch goes back in a destination that does not deny that it can be moved.
Otherwise it makes its container before it gives any of it. -/
theorem lay_makesThenGives [Machine] (hlayout : rule.layout = .patched)
    (hapart : source.handle ≠ dest.handle) {size : Int} {scratch : Scratch}
    {calls : List (Exchange ι)} (huntouched : Untouched dest.handle calls) :
    (rule.lay source dest size).Ensures recorded scratch calls
      (fun _ _ after => Affirmed dest after ∨ MadeThenGiven dest.handle after)
      (fun _ _ after => Affirmed dest after ∨ MadeThenGiven dest.handle after) := by
  have hother : (some source.handle : Option ι) ≠ some dest.handle := by simpa using hapart
  have hreads : Reads (Making dest.handle) source.handle :=
    ⟨fun _ => making_of_ne hother, fun _ => making_of_ne hother⟩
  have hnotes : Notes (Making dest.handle) :=
    fun fact _ _ => making_of_ne (by simp [Request.stream?])
  refine lay_patched_ensures hlayout source dest ((canMove_affirms huntouched).bad_mono ?_) ?_ ?_
  · exact fun _ _ _ hmade => .inr hmade.madeThenGiven
  · intro scratch calls haffirmed
    have haffirmed : Affirmed dest calls := haffirmed.1 rfl
    have hasks : (do
        rule.layImage source dest size
        rule.layPatch dest : Work ι Unit).AsksOnly (Unasking dest.handle) :=
      .bind (rule.layImage_asksOnly (fun _ => reads_unasking _ _) (writes_unasking _ _)
        (notes_unasking _)) fun _ => rule.layPatch_asksOnly (moves_unasking _ _)
          (writes_unasking _ _) (notes_unasking _)
    exact (hasks.ensures affirmed_step haffirmed).mono (fun _ _ _ => .inl) fun _ _ _ => .inl
  · intro scratch calls hmade
    have hmade : Made dest.handle calls := hmade.2 rfl
    have hwrites : Writes (Giving dest.handle) dest.handle := fun data => .inr ⟨data, rfl⟩
    have hgiven : Notes (Giving dest.handle) := fun fact _ _ => .inl rfl
    have hstaged := rule.layStaged_asksThen (fun _ : size ≠ 0 => hreads) hnotes hwrites hgiven
    have hasks :=
      Task.AsksThen.bind (note_asksOnly (hnotes .staging rfl (by decide))) fun _ => hstaged
    have himplies (calls : List (Exchange ι)) (hmade : Made dest.handle calls) :
        MadeThenGiven dest.handle calls := hmade.madeThenGiven
    exact (hasks.ensures made_step given_step himplies hmade).mono
      (fun _ _ _ => .inr) fun _ _ _ => .inr

theorem apply_makesThenGives [Machine] (hlayout : rule.layout = .patched)
    (hapart : source.handle ≠ dest.handle) (scratch : Scratch) :
    (rule.apply source dest).Ensures recorded scratch []
      (fun _ _ after => Affirmed dest after ∨ MadeThenGiven dest.handle after)
      (fun _ _ after => Affirmed dest after ∨ MadeThenGiven dest.handle after) := by
  have hother : (some source.handle : Option ι) ≠ some dest.handle := by simpa using hapart
  have hmoves : Moves (fun request : Request ι => request.stream? ≠ some dest.handle)
      source.handle :=
    ⟨hother, fun _ _ => hother, hother⟩
  have huntouching {α : Type} {work : Work ι α}
      (hasks : work.AsksOnly fun request : Request ι => request.stream? ≠ some dest.handle)
      {scratch : Scratch} {calls : List (Exchange ι)} (huntouched : Untouched dest.handle calls) :
      work.Ensures recorded scratch calls (fun _ _ after => Untouched dest.handle after)
        (fun _ _ after => Affirmed dest after ∨ MadeThenGiven dest.handle after) :=
    (hasks.ensures untouched_step huntouched).bad_mono
      fun _ _ _ hafter => .inr hafter.made.madeThenGiven
  refine Task.Ensures.bind (huntouching .buffer fun _ hcall => absurd hcall List.not_mem_nil) ?_
  intro _ _ _ huntouched
  refine Task.Ensures.bind (huntouching (measure_asksOnly hmoves) huntouched) ?_
  intro size _ _ huntouched
  split
  · exact Task.ensures_fail (.inr huntouched.made.madeThenGiven)
  split
  · exact Task.ensures_fail (.inr huntouched.made.madeThenGiven)
  refine Task.Ensures.bind (huntouching (note_asksOnly (by simp [Request.stream?])) huntouched) ?_
  intro _ _ _ huntouched
  refine Task.Ensures.bind (lay_makesThenGives hlayout hapart huntouched) ?_
  intro _ _ _ hsettled
  exact Task.ensures_pure hsettled

/-- In every run of a rule with a patch, the container is made before it is given, unless the
destination was asked whether it can be moved and did not deny it. -/
theorem affirmed_or_madeThenGiven [Machine] {world : World ι σ} (hlayout : rule.layout = .patched)
    (hapart : source.handle ≠ dest.handle) {scratch scratch' : Scratch} {state after : σ}
    {outcome : Except Failure Summary} {calls : List (Exchange ι)}
    (hrun : world.logged.run scratch (rule.apply source dest) (state, [])
      = ((outcome, scratch'), (after, calls))) :
    Affirmed dest calls ∨ MadeThenGiven dest.handle calls := by
  have hends := (apply_makesThenGives hlayout hapart scratch).run_recording
    (fun _ _ _ _ => rfl) hrun fun _ _ => trivial
  cases outcome with
  | ok summary => exact hends
  | error failure => exact hends

/-- In every run on a destination that cannot be moved, the container is made before it is given. -/
theorem madeThenGiven_of_run [Machine] {world : World ι σ} (hlayout : rule.layout = .patched)
    (hapart : source.handle ≠ dest.handle) (hstill : world.CannotMove dest)
    {scratch scratch' : Scratch} {state after : σ} {outcome : Except Failure Summary}
    {calls : List (Exchange ι)}
    (hrun : world.logged.run scratch (rule.apply source dest) (state, [])
      = ((outcome, scratch'), (after, calls))) : MadeThenGiven dest.handle calls := by
  obtain ⟨hasks, ⟨answer, hasked⟩, hgranted⟩ | hgiven :=
    affirmed_or_madeThenGiven hlayout hapart hrun
  · have hdenies : ∀ call ∈ ((rule.apply source dest scratch).run (recording world.answer)
        (state, [])).2.2, Denies dest.handle call.1 call.2 :=
      Dialogue.forall_run_recording (hstill hasks) _ _
    have hcalls : ((rule.apply source dest scratch).run (recording world.answer) (state, [])).2.2
        = calls := congrArg (fun ended => ended.2.2) hrun
    rw [hcalls] at hdenies
    exact absurd (hdenies _ hasked rfl) (hgranted answer hasked)
  · exact hgiven

end Calls

theorem run_inPlace [Machine] [DecidableEq ι] (hmatched : rule.Matched)
    (hlayout : rule.layout = .patched)
    {world : World ι σ} {ability : ι → Ability} {scratch : Scratch} {buffer : Buffer}
    {image : Bytes} {state : σ} (hfits : image.length ≤ rule.ceiling)
    (htruthful : world.IsTruthful) (hobliging : world.IsObliging ability)
    (hapart : source.handle ≠ dest.handle) (hsource : world.Holds ability state source image)
    (hdest : world.Accepts ability state dest rule.containerSize)
    (hbuffer : scratch.buffer = .ok buffer) (hspan : 0 < buffer.length) :
    ∃ ended after, world.run scratch (rule.apply source dest) state
        = ((.ok (rule.report image.length), ended), after) ∧
      (world.tape after dest.handle).contents.bytes
        = rule.spec.container rule.targetSize image := by
  obtain ⟨hlead, patch, hpatch⟩ := hmatched.of_patched hlayout
  have htakes : (ability dest.handle).takes
      ((world.tape state dest.handle).position + rule.containerSize) := by
    rw [hdest.empty, Tape.empty, Nat.zero_add]
    exact hdest.takes
  obtain ⟨ended, after, hrun, hplaced⟩ := apply_places hmatched htruthful hobliging hapart hbuffer
    hspan hfits hsource (Bool.and_eq_true_iff.mpr ⟨hdest.asks, hdest.movable⟩) htakes
  refine ⟨ended, after, hrun, ?_⟩
  have hstop : patch.stop ≤ rule.targetSize := containerSize_eq hlead ▸ hmatched.stop_le hpatch
  have hwhole : Tape.empty.contents.bytes.splice (rule.area image) Tape.empty.position
      = rule.area image := by simp [Bytes.splice, Tape.empty]
  rw [hplaced, hdest.empty, container_eq_over hlead hpatch, (placed_of_patch hpatch hstop
    (Nat.le_trans hfits hmatched.ceiling_le) (Nat.le_refl _)).1, hwhole]

theorem run_staged [Machine] [DecidableEq ι] (hmatched : rule.Matched)
    (hlayout : rule.layout = .patched)
    {world : World ι σ} {ability : ι → Ability} {scratch : Scratch} {buffer : Buffer}
    {image : Bytes} {state : σ} (hfits : image.length ≤ rule.ceiling)
    (hstill : world.IsStill ability dest) (hapart : source.handle ≠ dest.handle)
    (hsource : world.Holds ability state source image)
    (hempty : world.tape state dest.handle = .empty)
    (htakes : (ability dest.handle).takes rule.containerSize)
    (hbuffer : scratch.buffer = .ok buffer) (hspan : 0 < buffer.length)
    (hmemory : rule.containerSize < Machine.memory) :
    ∃ ended after calls, world.logged.run scratch (rule.apply source dest) (state, [])
        = ((.ok (rule.report image.length), ended), (after, calls)) ∧
      (world.tape after dest.handle).contents.bytes
        = rule.spec.container rule.targetSize image ∧
      offeredTo dest.handle calls = rule.spec.container rule.targetSize image := by
  have hanswer (request : Request ι) (between : σ × List (Exchange ι)) (_ : True) :
      stillConduct ability True dest request
        (world.tape between.1) (world.logged.answer request between).1
        (world.tape (world.logged.answer request between).2.1) ∧ True :=
    ⟨⟨hstill.truthful request between.1, fun _ => hstill.obliging request between.1,
      fun hasks => hstill.cannotMove hasks request between.1⟩, trivial⟩
  have happly := apply_stages hmatched hlayout hapart hbuffer hspan hfits hsource.ahead_eq
    hsource.size_eq hempty fun _ : True =>
      ⟨hsource.readable, hsource.movable, hsource.reaches_position, htakes, hmemory⟩
  obtain ⟨_, ended, ⟨after, calls⟩, hrun, rfl, -, hbytes⟩ | ⟨_, _, _, -, hrefused⟩ :=
    Task.Ensures.run (fun between : σ × List (Exchange ι) => world.tape between.1) (fun _ => True)
      hanswer (state, []) trivial happly
  · refine ⟨ended, after, calls, hrun, hbytes, ?_⟩
    have hcalls := (rule.apply_stops NoneFailed.tail source dest).run_logged world hrun
    have hgiven := madeThenGiven_of_run hlayout hapart hstill.cannotMove hrun
    -- A run with a report had no failing call, so the tape holds all that was offered.
    have hwritten := World.tape_logged hstill.truthful hrun (hcalls.2 rfl) hgiven.onlyWritten
    rw [← hbytes, hwritten, hempty, Tape.bytes_write_empty]
  · exact absurd trivial hrefused

/-- If a call to the source fails, the run does, and nothing was written to a destination that
cannot be moved. -/
theorem unwritten_of_failed [Machine] {world : World ι σ} (hlayout : rule.layout = .patched)
    (hapart : source.handle ≠ dest.handle) (hstill : world.CannotMove dest)
    {scratch scratch' : Scratch} {state after : σ} {outcome : Except Failure Summary}
    {calls : List (Exchange ι)}
    (hrun : world.logged.run scratch (rule.apply source dest) (state, [])
      = ((outcome, scratch'), (after, calls)))
    {call : Exchange ι} (hcall : call ∈ calls) (hto : call.1.stream? = some source.handle)
    (hfailed : call.Failed) :
    (∃ failure, outcome = .error failure) ∧ ∀ other ∈ calls, ¬ other.1.WritesTo dest.handle := by
  have hgiven := madeThenGiven_of_run hlayout hapart hstill hrun
  obtain ⟨hearlier, hdone⟩ :=
    (rule.apply_stops NoneFailed.tail source dest).run_logged world hrun
  constructor
  · cases outcome with
    | ok summary => exact absurd hfailed (hdone rfl call hcall)
    | error failure => exact ⟨failure, rfl⟩
  cases calls with
  | nil => exact absurd hcall (by simp)
  | cons last earlier =>
      obtain rfl | hbefore := List.mem_cons.mp hcall
      · refine List.forall_mem_cons.mpr ⟨?_, hgiven.unwritten hapart (List.nil_append _).symm hto⟩
        rintro ⟨data, hwrite⟩
        rw [hwrite] at hto
        exact hapart (Option.some.inj hto).symm
      · exact absurd hfailed (hearlier call hbefore)

/-- **A staged container is the one that is laid out in place.** Take a rule with a patch, and an
image that fits. On an empty destination that can be moved and on one that cannot, it gives the same
report and leaves the same bytes, the container, whatever the reads and the buffers are. To the
destination that cannot be moved the bytes of the container are offered in order. The container is
made in memory for it, so this much is for a machine that has memory for the container.

In every world, whatever its streams do, a destination that cannot be moved is only asked whether it
can and written to, nothing is written to it before the last call to the source, and nothing at all
if a call to the source fails. -/
theorem apply_staged [Machine] {τ : Type} [DecidableEq ι] (hmatched : rule.Matched)
    (hlayout : rule.layout = .patched) {moving : World ι σ} {still : World ι τ}
    {ability ability' : ι → Ability} {source' dest' : Channel ι} {scratch scratch' : Scratch}
    {buffer buffer' : Buffer} {image : Bytes} {state : σ} {state' : τ}
    (hfits : image.length ≤ rule.ceiling)
    (htruthful : moving.IsTruthful) (hobliging : moving.IsObliging ability)
    (hapart : source.handle ≠ dest.handle) (hsource : moving.Holds ability state source image)
    (hdest : moving.Accepts ability state dest rule.containerSize)
    (hbuffer : scratch.buffer = .ok buffer) (hspan : 0 < buffer.length)
    (hstill : still.IsStill ability' dest') (hapart' : source'.handle ≠ dest'.handle)
    (hsource' : still.Holds ability' state' source' image)
    (hempty : still.tape state' dest'.handle = .empty)
    (htakes : (ability' dest'.handle).takes rule.containerSize)
    (hbuffer' : scratch'.buffer = .ok buffer') (hspan' : 0 < buffer'.length) :
    (∃ ended after, moving.run scratch (rule.apply source dest) state
        = ((.ok (rule.report image.length), ended), after) ∧
      (moving.tape after dest.handle).contents.bytes
        = rule.spec.container rule.targetSize image) ∧
    (rule.containerSize < Machine.memory →
      ∃ ended after calls, still.logged.run scratch' (rule.apply source' dest') (state', [])
          = ((.ok (rule.report image.length), ended), (after, calls)) ∧
        (still.tape after dest'.handle).contents.bytes
          = rule.spec.container rule.targetSize image ∧
        offeredTo dest'.handle calls = rule.spec.container rule.targetSize image) ∧
    ∀ {ρ : Type} (world : World ι ρ), world.CannotMove dest' →
      ∀ scratch scratch' state after outcome calls,
        world.logged.run scratch (rule.apply source' dest') (state, [])
          = ((outcome, scratch'), (after, calls)) →
        (∀ call ∈ calls, call.1.stream? = some dest'.handle →
          call.1 = .seekable dest'.handle ∨ call.1.WritesTo dest'.handle) ∧
        (∀ later call earlier, calls = later ++ call :: earlier →
          call.1.stream? = some source'.handle →
          ∀ other ∈ earlier, ¬ other.1.WritesTo dest'.handle) ∧
        ∀ call ∈ calls, call.1.stream? = some source'.handle → call.Failed →
          (∃ failure, outcome = .error failure) ∧
            ∀ other ∈ calls, ¬ other.1.WritesTo dest'.handle := by
  refine ⟨run_inPlace hmatched hlayout hfits htruthful hobliging hapart hsource hdest hbuffer hspan,
    run_staged hmatched hlayout hfits hstill hapart' hsource' hempty htakes hbuffer' hspan', ?_⟩
  intro ρ world hdenies scratch scratch' state after outcome calls hrun
  have hgiven := madeThenGiven_of_run hlayout hapart' hdenies hrun
  refine ⟨hgiven.onlyWritten, ?_, ?_⟩
  · intro later call earlier hcalls hto
    exact hgiven.unwritten hapart' hcalls hto
  · intro call hcall hto hfailed
    exact unwritten_of_failed hlayout hapart' hdenies hrun hcall hto hfailed

/-- A patched container of four bytes, in place through a buffer of three and staged through one of
two, from sources that hand over two bytes at a time and one. -/
theorem apply_staged_small :
    let rule : Rule := ⟨.patched, ⟨.pak3, "", some 4, none, none, some ⟨2, [5, 6]⟩⟩, 4, rfl⟩
    let source : Channel Bool := ⟨false, "source", true, true⟩
    let dest : Channel Bool := ⟨true, "dest", true, true⟩
    let tapes : Bool → Tape := fun isDest => if isDest then .empty else ⟨.ofBytes [1, 2, 3], 0⟩
    (∃ ended after, (World.plain 1).run (.ready (.ofBytes [9, 9, 9])) (rule.apply source dest) tapes
        = ((.ok (rule.report 3), ended), after) ∧ (after true).contents.bytes = [1, 2, 5, 6]) ∧
    ∃ ended after calls, ((World.plain 0).denying true).logged.run (.ready (.ofBytes [9, 9]))
        (rule.apply source dest) (tapes, []) = ((.ok (rule.report 3), ended), (after, calls)) ∧
      (after true).contents.bytes = [1, 2, 5, 6] ∧ offeredTo true calls = [1, 2, 5, 6] := by
  intro rule source dest tapes
  have hspec : rule.spec.WellFormed := by
    refine Spec.wellFormed_of_conflict (by decide) fun patch hpatch => ?_
    obtain rfl := Option.some.inj hpatch
    exact List.cons_ne_nil _ _
  have hsource : World.Holds (World.plain 1) (fun _ => ⟨true, true, true, none⟩) tapes source
      [1, 2, 3] := ⟨rfl, rfl, by simp [Ability.reaches], rfl, rfl⟩
  have hsource' : World.Holds ((World.plain 0).denying true)
      (fun _ => ⟨true, true, true, none⟩) tapes source [1, 2, 3] :=
    ⟨rfl, rfl, by simp [Ability.reaches], rfl, rfl⟩
  have hcontainer : rule.spec.container rule.targetSize [1, 2, 3] = [1, 2, 5, 6] := rfl
  have hbuffer (front : Bytes) : (Scratch.ready (.ofBytes front)).buffer = .ok (.ofBytes front) :=
    rfl
  obtain ⟨hmoving, hstill, -⟩ := apply_staged
    (⟨hspec, rfl, rfl⟩ : rule.Matched) rfl (by decide) (World.plain_isTruthful 1)
    (World.plain_isObliging 1) (by decide) hsource
    (⟨rfl, rfl, ⟨rfl, by simp [Ability.reaches]⟩, rfl⟩ : World.Accepts _ _ _ dest _)
    (hbuffer [9, 9, 9]) (by decide)
    (World.isStill_denying (World.plain_isTruthful 0) (World.plain_isObliging 0) dest)
    (by decide) hsource' rfl ⟨rfl, by simp [Ability.reaches]⟩ (hbuffer [9, 9]) (by decide)
  rw [hcontainer] at hmoving hstill
  exact ⟨hmoving, hstill (by decide)⟩

end Rule

end RomImage
