import RomImage.Proofs.Rule.Apply
import RomImage.Proofs.Stream.Still

/-!
# What a failed rule leaves

Wherever a rule fails, what it leaves on an empty destination is a beginning of what it was going to
write: of the container where that is given in order, and of the image area or of the patch over it
where the container is laid out in place. Which of the two it is can be told from the calls alone,
by the answer to the question whether the destination can be moved.
-/

namespace RomImage

open RomImage.Stream

namespace Stream

variable {ι σ α : Type} [DecidableEq ι]

def truthfulLogged : Conduct (interface ι) ((ι → Tape) × List (Exchange ι)) :=
  fun request state answer after =>
    Truthful request state.1 answer after.1 ∧ after.2 = ⟨request, answer⟩ :: state.2

/-- Work does on truthful streams what it does, and makes its calls after the earlier ones. -/
theorem logged_ensures (ability : ι → Ability) {work : Work ι α} {scratch : Scratch}
    {state : (ι → Tape) × List (Exchange ι)} {good : α → Scratch → (ι → Tape) → Prop}
    {bad : Failure → Scratch → (ι → Tape) → Prop}
    (hwork : work.Ensures (conduct ability False) scratch state.1 good bad) :
    work.Ensures truthfulLogged scratch state
      (fun value scratch' after => good value scratch' after.1 ∧ state.2 ⊆ after.2)
      (fun failure scratch' after => bad failure scratch' after.1 ∧ state.2 ⊆ after.2) := by
  refine Task.Ensures.of_view Prod.fst (state.2 ⊆ ·.2) ?_
    (.of_forall (fun _ => trivial) work : work.AsksOnly fun _ => True) (List.Subset.refl _) hwork
  rintro request before answer after - hearlier ⟨htruthful, hlogged⟩
  refine ⟨⟨htruthful, False.elim⟩, ?_⟩
  rw [hlogged]
  exact List.subset_cons_of_subset _ hearlier

/-- Every run in a world of truthful streams is one of truthful streams with its calls. -/
theorem World.run_truthfulLogged {world : World ι σ} (htruthful : world.IsTruthful)
    {work : Work ι α} {scratch scratch' : Scratch} {state after : σ} {failure : Failure}
    {calls : List (Exchange ι)} {good : α → Scratch → (ι → Tape) × List (Exchange ι) → Prop}
    {bad : Failure → Scratch → (ι → Tape) × List (Exchange ι) → Prop}
    (hwork : work.Ensures truthfulLogged scratch (world.tape state, []) good bad)
    (hrun : world.logged.run scratch work (state, [])
      = ((.error failure, scratch'), (after, calls))) :
    bad failure scratch' (world.tape after, calls) := by
  have hanswer (request : Request ι) (between : σ × List (Exchange ι)) (_ : True) :
      truthfulLogged request (world.tape between.1, between.2)
        (world.logged.answer request between).1
        (world.tape (world.logged.answer request between).2.1,
          (world.logged.answer request between).2.2) ∧ True :=
    ⟨⟨htruthful request between.1, rfl⟩, trivial⟩
  have hends := hwork.run (fun between : σ × List (Exchange ι) =>
    (world.tape between.1, between.2)) (fun _ => True) hanswer (state, []) trivial
  rw [World.run] at hrun
  rw [hrun] at hends
  obtain ⟨_, _, _, hvalue, -⟩ | ⟨_, _, _, hfailure, hbad⟩ := hends
  · exact absurd hvalue (by simp)
  · obtain ⟨⟨⟨⟩, rfl⟩, rfl⟩ := by simpa only [Prod.mk.injEq] using hfailure
    exact hbad

end Stream

namespace Rule

variable {ι σ : Type} [DecidableEq ι] {rule : Rule} {source dest : Channel ι}

def LeftInPlace (patch : Patch) (area bytes : Bytes) : Prop :=
  bytes <+: area ∨
    ∃ given ≤ patch.data.length, bytes = Patch.over ⟨patch.offset, patch.data.take given⟩ area

/-- What a rule can leave on an empty destination when it fails, after such calls. -/
inductive Leaves (rule : Rule) (dest : Channel ι) (image : Bytes) (calls : List (Exchange ι)) :
    Bytes → Prop
  | nothing : Leaves rule dest image calls []
  /-- The container was given in order, without a patch or because the destination stands still. -/
  | inOrder {bytes : Bytes}
      (hstill : rule.layout = .patched → dest.answersSeekable = true →
        ∃ answer, IsDenial answer ∧ ⟨.seekable dest.handle, answer⟩ ∈ calls)
      (hfront : bytes <+: rule.spec.container rule.targetSize image) :
      Leaves rule dest image calls bytes
  | inPlace {bytes : Bytes} {patch : Patch} (hpatch : patch ∈ rule.spec.patch)
      (hasks : dest.answersSeekable = true)
      (hmoves : ⟨.seekable dest.handle, (.ok true : Except Fault Bool)⟩ ∈ calls)
      (hleft : LeftInPlace patch (rule.area image) bytes) :
      Leaves rule dest image calls bytes

/-- A beginning of data was laid on the empty destination. -/
theorem prefix_of_laid {tapes after : ι → Tape} {taken given : Nat} {data : Bytes}
    (hapart : source.handle ≠ dest.handle) (hempty : tapes dest.handle = .empty)
    (hafter : after = laid source.handle dest.handle taken (data.take given) tapes) :
    (after dest.handle).contents.bytes <+: data := by
  rw [hafter, laid_dest hapart, hempty, Tape.bytes_write_empty]
  exact List.take_prefix given data

section Leaves

variable {size span : Nat} {scratch : Scratch} {state : (ι → Tape) × List (Exchange ι)}

def LeavesOf (rule : Rule) (source dest : Channel ι) (size : Nat) (tapes : ι → Tape) (_ : Failure)
    (_ : Scratch) (after : (ι → Tape) × List (Exchange ι)) : Prop :=
  rule.Leaves dest ((tapes source.handle).ahead.take size) after.2
    (after.1 dest.handle).contents.bytes

omit [DecidableEq ι] in
theorem leavesOf_of_empty {tapes : ι → Tape} {failure : Failure}
    {after : (ι → Tape) × List (Exchange ι)} (hempty : after.1 dest.handle = .empty) :
    rule.LeavesOf source dest size tapes failure scratch after := by
  rw [LeavesOf, hempty]
  exact .nothing

/-- The answer to the question whether the destination can be moved is among the calls. -/
theorem canMove_logged :
    (canMove dest).Ensures truthfulLogged scratch state
      (fun moves scratch' after => scratch' = scratch ∧ after.1 = state.1 ∧
        if moves then dest.answersSeekable = true ∧
          ⟨.seekable dest.handle, (.ok true : Except Fault Bool)⟩ ∈ after.2
        else dest.answersSeekable = true →
          ∃ answer, IsDenial answer ∧ ⟨.seekable dest.handle, answer⟩ ∈ after.2)
      (fun _ _ after => after.1 = state.1) := by
  rw [canMove]
  cases hasks : dest.answersSeekable with
  | false => exact Task.ensures_pure ⟨rfl, rfl, fun hasked => absurd hasked (by decide)⟩
  | true =>
      rw [if_pos rfl]
      refine Task.Ensures.bind (Task.ensures_request _) ?_
      rintro answer scratch' ⟨after, calls⟩ ⟨rfl, htruthful, rfl⟩
      have hafter : after = state.1 := htruthful
      obtain fault | moves := answer
      · dsimp only
        by_cases hcaught : fault.isSystemOrValue = true
        · rw [if_pos hcaught]
          exact Task.ensures_pure ⟨rfl, hafter, fun _ =>
            ⟨_, .inr ⟨fault, rfl, hcaught⟩, List.mem_cons_self⟩⟩
        · rw [if_neg hcaught]
          exact Task.ensures_fail hafter
      · refine Task.ensures_pure ⟨rfl, hafter, ?_⟩
        cases moves with
        | true => exact ⟨rfl, List.mem_cons_self⟩
        | false => exact fun _ => ⟨_, .inl rfl, List.mem_cons_self⟩

/-- A layout in place leaves a beginning of the image area, or of the patch over it. -/
theorem layInPlace_leaves [Machine] (hmatched : rule.Matched) (hlayout : rule.layout = .patched)
    (hapart : source.handle ≠ dest.handle) (hspan : 0 < span) (hsize : size ≤ rule.targetSize)
    (hscratch : HasBuffer span scratch) (hempty : state.1 dest.handle = .empty)
    (hasks : dest.answersSeekable = true)
    (hmoves : ⟨.seekable dest.handle, (.ok true : Except Fault Bool)⟩ ∈ state.2) :
    (do rule.layImage source dest size
        rule.layPatch dest : Work ι Unit).Ensures truthfulLogged scratch state
      (fun _ _ _ => True) (rule.LeavesOf source dest size state.1) := by
  obtain ⟨hlead, patch, hpatch⟩ := hmatched.of_patched hlayout
  refine (logged_ensures (fun _ => ⟨false, false, false, none⟩) (layInPlace_ensures
    hmatched.wellFormed hpatch source dest hapart hspan hsize hscratch False.elim)).mono
    (fun _ _ _ _ => trivial) ?_
  rintro failure scratch' ⟨tapes, calls⟩ ⟨⟨-, -, hbegun⟩, hearlier⟩
  refine .inPlace hpatch hasks (hearlier hmoves) ?_
  obtain ⟨taken, -, given, hafter⟩ | ⟨given, position, hafter⟩ := hbegun
  · exact .inl (prefix_of_laid hapart hempty hafter)
  · obtain ⟨image, himage⟩ : ∃ image, image = (state.1 source.handle).ahead.take size := ⟨_, rfl⟩
    rw [← himage] at hafter ⊢
    have hfits : image.length ≤ rule.targetSize := by
      rw [himage, List.length_take]
      omega
    have harea : (Tape.empty.write (rule.area image)).contents.bytes = rule.area image :=
      Tape.bytes_write_empty _
    have hinside : patch.offset ≤ (Tape.empty.write (rule.area image)).contents.size := by
      have hstop := hmatched.stop_le hpatch
      rw [← Contents.length_bytes, harea, length_area hfits, ← containerSize_eq hlead]
      exact Nat.le_of_add_right_le hstop
    have hover : (tapes dest.handle).contents.bytes
        = Patch.over ⟨patch.offset, patch.data.take given⟩ (rule.area image) := by
      have hdest := congrFun hafter dest.handle
      rw [Function.update_self, hempty] at hdest
      calc (tapes dest.handle).contents.bytes
          = (((Tape.empty.write (rule.area image)).overlaid patch given).moved
              position).contents.bytes := congrArg (fun tape : Tape => tape.contents.bytes) hdest
        _ = Patch.over ⟨patch.offset, patch.data.take given⟩
              (Tape.empty.write (rule.area image)).contents.bytes :=
            Tape.bytes_overlaid given hinside
        _ = Patch.over ⟨patch.offset, patch.data.take given⟩ (rule.area image) := by rw [harea]
    rw [List.take_eq_take_min] at hover
    exact .inr ⟨_, Nat.min_le_right _ _, hover⟩

theorem lay_leaves [Machine] (hmatched : rule.Matched) (hapart : source.handle ≠ dest.handle)
    (hspan : 0 < span) (hsize : size ≤ rule.targetSize) (hscratch : HasBuffer span scratch)
    (hempty : state.1 dest.handle = .empty) :
    (rule.lay source dest size).Ensures truthfulLogged scratch state (fun _ _ _ => True)
      (rule.LeavesOf source dest size state.1) := by
  have hunable : ι → Ability := fun _ => ⟨false, false, false, none⟩
  by_cases hlayout : rule.layout = .patched
  · obtain ⟨hlead, patch, hpatch⟩ := hmatched.of_patched hlayout
    refine lay_patched_ensures hlayout source dest (canMove_logged.bad_mono ?_) ?_ ?_
    · intro failure scratch' after hafter
      exact leavesOf_of_empty (hafter ▸ hempty)
    · rintro _ ⟨tapes, calls⟩ ⟨rfl, rfl, hasks, hmoves⟩
      exact layInPlace_leaves hmatched hlayout hapart hspan hsize hscratch hempty hasks hmoves
    · rintro _ ⟨tapes, calls⟩ ⟨rfl, rfl, hstill⟩
      refine Task.Ensures.bind ((logged_ensures hunable
        (note_ensures .staging)).bad_mono ?_) ?_
      · rintro failure _ ⟨tapes, later⟩ ⟨⟨-, -, rfl, -⟩, -⟩
        exact leavesOf_of_empty hempty
      rintro _ _ ⟨tapes, later⟩ ⟨⟨rfl, rfl⟩, hearlier⟩
      refine (logged_ensures hunable (layStaged_ensures hmatched hlead hpatch source
        dest hapart hspan hsize hscratch False.elim)).mono (fun _ _ _ _ => trivial) ?_
      -- The denial is still among the calls when the staged work fails.
      rintro failure _ ⟨tapes, latest⟩ ⟨⟨-, -, taken, -, given, hafter⟩, hlater⟩
      refine .inOrder (fun _ hasks => ?_) (prefix_of_laid hapart hempty hafter)
      obtain ⟨answer, hdenial, hasked⟩ := hstill hasks
      exact ⟨answer, hdenial, hlater (hearlier hasked)⟩
  · refine (logged_ensures hunable (lay_unpatched_ensures hmatched hlayout source dest
      hapart hspan hsize hscratch False.elim)).mono (fun _ _ _ _ => trivial) ?_
    rintro failure _ ⟨tapes, calls⟩ ⟨⟨-, -, taken, -, given, hafter⟩, -⟩
    exact .inOrder (fun hpatched => absurd hpatched hlayout) (prefix_of_laid hapart hempty hafter)

/-- A rule leaves a beginning of what it was going to write, or nothing yet. -/
theorem apply_leaves [Machine] (hmatched : rule.Matched) (hapart : source.handle ≠ dest.handle)
    {buffer : Buffer} (hbuffer : scratch.buffer = .ok buffer) (hspan : 0 < buffer.length)
    (hsize : (state.1 source.handle).contents.size = size)
    (hempty : state.1 dest.handle = .empty) :
    (rule.apply source dest).Ensures truthfulLogged scratch state (fun _ _ _ => True)
      (rule.LeavesOf source dest size state.1) := by
  have hunable : ι → Ability := fun _ => ⟨false, false, false, none⟩
  have hmeasure : (measure source).Ensures truthfulLogged (.ready buffer) state
      (fun value scratch' after => value = some (size : Int) ∧ scratch' = .ready buffer ∧
        after.1 = state.1) (rule.LeavesOf source dest size state.1) := by
    refine (logged_ensures hunable (measure_ensures source False.elim)).mono ?_ ?_
    · rintro value _ after ⟨⟨rfl, rfl, hsame⟩, -⟩
      rw [hsize]
      exact ⟨rfl, rfl, hsame⟩
    · rintro failure _ after ⟨⟨position, -, -, hafter, -⟩, -⟩
      refine leavesOf_of_empty ?_
      rw [hafter, repositioned, Function.update_of_ne hapart.symm]
      exact hempty
  have hlay (after : (ι → Tape) × List (Exchange ι)) (hheld : after.1 = state.1)
      (hfits : size ≤ rule.ceiling) : (rule.lay source dest size).Ensures truthfulLogged
        (.ready buffer) after (fun _ _ _ => True) (rule.LeavesOf source dest size state.1) := by
    rw [← hheld] at hempty ⊢
    exact lay_leaves hmatched hapart hspan (Nat.le_trans hfits hmatched.ceiling_le)
      ⟨buffer, rfl, rfl⟩ hempty
  refine (apply_ensures_of_held rule source dest hbuffer (fun after => after.1 = state.1) hmeasure
    ?_ ?_ hlay).mono (fun _ _ _ _ => trivial) fun _ _ _ hleft => hleft
  · intro after hheld _
    exact leavesOf_of_empty (hheld ▸ hempty)
  · intro after hheld
    refine (logged_ensures hunable (note_ensures _)).mono ?_ ?_
    · rintro _ _ _ ⟨⟨rfl, hsame⟩, -⟩
      exact ⟨rfl, hsame.trans hheld⟩
    · rintro failure _ _ ⟨⟨-, -, hsame, -⟩, -⟩
      exact leavesOf_of_empty ((congrFun (hsame.trans hheld) _).trans hempty)

end Leaves

/-- **A failed rule leaves a truthful beginning.** Take a rule that comes with the tool, an image at
the start of its source, and an empty destination, and let truthful streams do whatever they like.
If the rule fails, the destination holds a beginning of the container, if the rule has no patch or
the destination has not said that it can be moved. If the rule has a patch and the destination does
not deny that it can be moved, it holds a beginning of the image and the zeros behind it, or all of
that with a beginning of the patch over it. -/
theorem apply_leaves_beginning [Machine] (hshipped : rule.IsShipped) {world : World ι σ}
    (htruthful : world.IsTruthful) (hapart : source.handle ≠ dest.handle)
    {scratch scratch' : Scratch} {buffer : Buffer} (hbuffer : scratch.buffer = .ok buffer)
    (hspan : 0 < buffer.length) {state after : σ} {failure : Failure} {calls : List (Exchange ι)}
    (hstart : (world.tape state source.handle).position = 0)
    (hempty : world.tape state dest.handle = .empty)
    (hrun : world.logged.run scratch (rule.apply source dest) (state, [])
      = ((.error failure, scratch'), (after, calls))) :
    let image := (world.tape state source.handle).contents.bytes
    let left := (world.tape after dest.handle).contents.bytes
    (rule.layout ≠ .patched ∨ dest.answersSeekable = false ∨
        ⟨.seekable dest.handle, (.ok true : Except Fault Bool)⟩ ∉ calls →
      left <+: rule.spec.container rule.targetSize image) ∧
    ∀ patch ∈ rule.spec.patch, dest.answersSeekable = true →
      (∀ answer, ⟨.seekable dest.handle, answer⟩ ∈ calls → ¬ IsDenial answer) →
      LeftInPlace patch (rule.area image) left := by
  intro image left
  have hmatched := hshipped.matched
  have hleft : rule.Leaves dest image calls left := by
    have happly : (rule.apply source dest).Ensures truthfulLogged scratch (world.tape state, [])
        (fun _ _ _ => True) (rule.LeavesOf source dest image.length (world.tape state)) :=
      apply_leaves hmatched hapart hbuffer hspan (Contents.length_bytes _).symm hempty
    have hleaves := World.run_truthfulLogged htruthful happly hrun
    rwa [LeavesOf, Tape.ahead, hstart, List.drop_zero, List.take_length] at hleaves
  clear_value left image
  constructor
  · intro hinOrder
    cases hleft with
    | nothing => exact List.nil_prefix
    | inOrder _ hfront => exact hfront
    | inPlace hpatch hasks hmoves =>
        obtain hlayout | hunasked | hunmoved := hinOrder
        · exact absurd (hmatched.patch_eq_none hlayout) (Option.ne_none_iff_exists'.mpr ⟨_, hpatch⟩)
        · exact absurd (hasks.symm.trans hunasked) (by decide)
        · exact absurd hmoves hunmoved
  · intro patch hpatch hasks hgranted
    have hlayout : rule.layout = .patched := by
      by_contra hother
      exact absurd (hmatched.patch_eq_none hother) (Option.ne_none_iff_exists'.mpr ⟨_, hpatch⟩)
    cases hleft with
    | nothing => exact .inl List.nil_prefix
    | inOrder hstill =>
        obtain ⟨answer, hdenial, hasked⟩ := hstill hlayout hasks
        exact absurd hdenial (hgranted answer hasked)
    | inPlace hsame _ _ hleft =>
        obtain rfl := Option.some.inj (hpatch.symm.trans hsame)
        exact hleft

/-- An image of two bytes, and a destination that takes one byte of a write. Plain padding to four
bytes fails at the zeros. The container of a PAK/3 fails at its second byte, in place. -/
theorem apply_leaves_beginning_stingy :
    let tapes : Bool → Tape := fun isDest => if isDest then .empty else ⟨.ofBytes [1, 2], 0⟩
    let source : Channel Bool := ⟨false, "source", true, true⟩
    let dest : Channel Bool := ⟨true, "dest", true, true⟩
    let pad : Rule := ⟨.padded, { Table.pad with targetSize := some 4 }, 4, rfl⟩
    let padded := (World.stingy 0 1).logged.run (.ready (.ofBytes [9, 9, 9]))
      (pad.apply source dest) (tapes, [])
    let patched := (World.stingy 1 1).logged.run (.ready (.ofBytes [9, 9, 9]))
      (pak3.apply source dest) (tapes, [])
    (padded.2.1 true).contents.bytes = [1, 2, 0] ∧ [1, 2, 0] <+: pad.spec.container 4 [1, 2] ∧
      (patched.2.1 true).contents.bytes = [1] ∧
        LeftInPlace ⟨Table.jumpOffset, Table.jumpInstruction⟩ (pak3.area [1, 2]) [1] := by
  intro tapes source dest pad padded patched
  have hpadded : padded.1.1.toOption = none ∧ (padded.2.1 true).contents.bytes = [1, 2, 0] := by
    decide +kernel
  have hpatched : patched.1.1.toOption = none ∧ (patched.2.1 true).contents.bytes = [1] ∧
      ∀ call ∈ patched.2.2, Unasking true call.1 ∨ ¬ Denies true call.1 call.2 := by
    decide +kernel
  have hshipped : pad.IsShipped := .pad (rfl : Rule.pad (.integer 4) = _)
  constructor
  · exact hpadded.2
  obtain ⟨ended, hpad⟩ : ∃ ended, padded = ended := ⟨_, rfl⟩
  obtain ⟨ended', hpak3⟩ : ∃ ended, patched = ended := ⟨_, rfl⟩
  rw [hpad] at hpadded
  rw [hpak3] at hpatched ⊢
  obtain ⟨⟨outcome, scratch'⟩, after, calls⟩ := ended
  obtain ⟨⟨outcome', scratch''⟩, after', calls'⟩ := ended'
  obtain ⟨hfailed, hleft⟩ := hpadded
  obtain ⟨hfailed', hleft', hanswers⟩ := hpatched
  cases outcome with
  | ok summary => exact absurd hfailed (by simp [Except.toOption])
  | error failure =>
      cases outcome' with
      | ok summary => exact absurd hfailed' (by simp [Except.toOption])
      | error failure' =>
          obtain ⟨hinOrder, -⟩ := apply_leaves_beginning hshipped (World.stingy_isTruthful 0 1)
            (by decide) rfl (by decide) rfl rfl hpad
          obtain ⟨-, hinPlace⟩ := apply_leaves_beginning IsShipped.pak3
            (World.stingy_isTruthful 1 1) (by decide) rfl (by decide) rfl rfl hpak3
          have hpadLeft := hinOrder (.inl (by decide))
          have hpak3Left := hinPlace _ rfl rfl fun answer hasked hdenial => by
            obtain hunasked | hgranted := hanswers _ hasked
            · exact hunasked rfl
            · exact hgranted fun _ => hdenial
          exact ⟨hleft ▸ hpadLeft, hleft', hleft' ▸ hpak3Left⟩

end Rule

end RomImage
