import RomImage.Proofs.Build.Output

/-!
# A build over its own input

A build opens its output, which empties the file, before the rule measures the image. If both paths
name one file, the image that is measured is empty: the container is the one of no bytes, and
nothing of what the file held before has any part in the build.
-/

namespace RomImage

namespace Build

open Files (channel onStreams)
open RomImage.Disk (course streamCourse Engaged Onward Spared)
open RomImage.Stream (conduct)

variable {calm : Prop} {disk opened : Disk} {sourcePath destPath : String} {rule : Rule}
  {scratch : Scratch} {buffer : Buffer}

def WritesNothing (request : Stream.Request Side) : Prop :=
  ¬ ∃ side data, request = .write side data

def LeavesSource (request : Stream.Request Side) : Prop :=
  request.stream? ≠ some .source

/-- Work on open files has changed none of the tapes. -/
structure Untouched (opened state : Disk) : Prop where
  onward : Onward opened state
  tape : state.tape = opened.tape

section Same

variable {plan : Disk.Plan} {place : Side → Location} {state : Disk}
  (hengaged : Engaged plan place opened) (hhonest : calm ∨ plan.Honest)

include hengaged hhonest

/-- Work that writes nothing finds two tapes in one file as well. -/
theorem ensures_untouched {α : Type} {work : Stream.Work Side α} {good : α → Prop}
    (hasks : work.AsksOnly WritesNothing) (huntouched : Untouched opened state)
    (hwork : work.Ensures (conduct plan.ability calm) scratch opened.tape
      (fun value scratch' after => good value ∧ scratch' = scratch ∧ after = opened.tape)
      (fun _ _ _ => ¬ calm)) :
    work.Ensures (streamCourse calm) scratch state
      (fun value scratch' after => good value ∧ scratch' = scratch ∧ Untouched opened after)
      (fun _ _ _ => ¬ calm) := by
  rw [← huntouched.tape] at hwork
  refine (hengaged.ensures_tape hhonest hasks (fun _ hnothing hwrite => absurd hwrite hnothing)
    huntouched.onward hwork).mono ?_ fun _ _ _ hrefused => hrefused.1
  rintro value scratch' after ⟨⟨hgood, hscratch, htape⟩, honward⟩
  exact ⟨hgood, hscratch, honward, htape.trans huntouched.tape⟩

theorem measure_ensures_untouched (huntouched : Untouched opened state) (path : String) {size : Nat}
    (hsize : (opened.tape .source).contents.size = size) :
    (Stream.measure (channel Side.source path)).Ensures (streamCourse calm) scratch state
      (fun value scratch' after => value = some (size : Int) ∧ scratch' = scratch ∧
        Untouched opened after)
      (fun _ _ _ => ¬ calm) := by
  subst hsize
  have hmoves : Stream.Moves WritesNothing Side.source :=
    ⟨by simp [WritesNothing], by simp [WritesNothing], by simp [WritesNothing]⟩
  refine ensures_untouched hengaged hhonest (Stream.measure_asksOnly hmoves) huntouched ?_
  refine (Stream.measure_ensures (channel Side.source path) fun _ =>
    ⟨rfl, plan.reaches_ability .source _⟩).bad_mono ?_
  rintro failure _ _ ⟨position, hrefused, -⟩
  exact hrefused

theorem note_ensures_untouched (huntouched : Untouched opened state) (fact : Note) :
    (Stream.note fact : Stream.Work Side Unit).Ensures (streamCourse calm) scratch state
      (fun _ scratch' after => scratch' = scratch ∧ Untouched opened after)
      (fun _ _ _ => ¬ calm) := by
  have hasks : (Stream.note fact : Stream.Work Side Unit).AsksOnly WritesNothing :=
    Stream.note_asksOnly (by simp [WritesNothing])
  have hnoted : (Stream.note fact : Stream.Work Side Unit).Ensures (conduct plan.ability calm)
      scratch opened.tape
      (fun _ scratch' after => True ∧ scratch' = scratch ∧ after = opened.tape)
      (fun _ _ _ => ¬ calm) :=
    (Stream.note_ensures fact).mono (fun _ _ _ hkept => ⟨trivial, hkept⟩)
      fun _ _ _ hrefused => hrefused.1
  exact (ensures_untouched hengaged hhonest hasks huntouched
    hnoted).mono (fun _ _ _ hkept => hkept.2) fun _ _ _ hrefused => hrefused

/-- The layout of an image of no bytes leaves the source alone. -/
theorem lay_ensures_nothing [Machine] (hshipped : rule.IsShipped) (hspan : 0 < buffer.length)
    (hempty : opened.tape .dest = .empty) (huntouched : Untouched opened state) :
    (rule.lay (channel .source sourcePath) (channel .dest destPath) (0 : Nat)).Ensures
      (streamCourse calm) (.ready buffer) state
      (fun _ _ after => Onward opened after ∧
        (after.tape .dest).contents.bytes = rule.spec.container rule.targetSize [])
      (fun _ _ _ => ¬ calm) := by
  have hleft : (rule.lay (channel Side.source sourcePath) (channel .dest destPath)
      (0 : Nat)).AsksOnly LeavesSource := by
    refine rule.lay_asksOnly (fun hsize => absurd rfl hsize) (fun _ => ?_)
      ⟨?_, fun _ _ => ?_, ?_⟩ (fun _ => ?_) fun _ _ _ => ?_
    all_goals simp [LeavesSource, Stream.Request.stream?, channel]
  have hsides : Side.source ≠ Side.dest := by decide
  have hbuffer : Stream.HasBuffer buffer.length (.ready buffer) := ⟨buffer, rfl, rfl⟩
  -- What is written shows on the tape of the source too, but it is never asked for anything, so
  -- that any tape may stand for it.
  let tapes : Side → Tape := Function.update state.tape .source .empty
  have hlay : (rule.lay (channel .source sourcePath) (channel .dest destPath) (0 : Nat)).Ensures
      (conduct plan.ability calm) (.ready buffer) tapes _ _ :=
    Rule.lay_ensures hshipped.matched (channel Side.source sourcePath) (channel .dest destPath)
      hsides hspan (Nat.zero_le _) hbuffer fun _ => ⟨rfl, Nat.zero_le _,
        ⟨rfl, plan.reaches_ability .dest _⟩, fun hlayout _ => hshipped.memory hlayout⟩
  refine (hengaged.ensures_dest hhonest hleft (fun _ hkind => hkind) huntouched.onward .empty
    hlay).mono ?_ ?_
  · rintro _ scratch' after ⟨⟨hthere, -, hlaid⟩, honward⟩
    refine ⟨honward, ?_⟩
    have hdest : tapes .dest = .empty := (congrFun huntouched.tape .dest).trans hempty
    have hbytes := hlaid.bytes_dest hshipped.matched hsides hdest hthere (Nat.zero_le _)
    rwa [List.take_zero] at hbytes
  · rintro _ _ _ ⟨⟨hrefused, -⟩, -⟩
    exact hrefused

end Same

/-- Over its own input a rule lays out the container of no bytes. -/
theorem apply_ensures_of_same [Machine] (hshipped : rule.IsShipped)
    (hbuffer : scratch.buffer = .ok buffer)
    (hspan : 0 < buffer.length) (hopened : Opened disk sourcePath destPath opened)
    (hhonest : calm ∨ disk.plan.Honest) (hsame : disk.tree.SameFile sourcePath destPath) :
    (onStreams (rule.apply (channel .source sourcePath) (channel .dest destPath))).Ensures
      (course calm) scratch opened
      (fun summary _ after => Delivers rule destPath [] summary after.tree)
      (fun _ _ _ => ¬ calm) := by
  obtain ⟨source, dest, hreading, hwriting, hengaged, htree, hempty, hsource⟩ :=
    engaged_of_opened hopened
  obtain ⟨first, -, hsecond⟩ := hopened
  have hnothing : (opened.tape .source).contents.size = 0 := by
    obtain ⟨location, hread, hwrite⟩ := hsame
    obtain rfl : location = source := Except.ok.inj (hread.symm.trans hreading)
    obtain rfl : location = dest := Except.ok.inj (hwrite.symm.trans hwriting)
    have hbelow :=
      FileTree.isOutward_eq_false (FileTree.locateForWriting_eq_ok hwriting).2
    have hfile : opened.tree.lookup location = some (.file .empty) := by
      rw [htree, FileTree.lookup_put _ _ _ _ hbelow, if_pos rfl]
    rw [hsource, Disk.contentsAt_eq hfile]
    rfl
  refine onStreams_ensures ((Rule.apply_ensures_of_held rule _ _ hbuffer (Untouched opened)
    (measure_ensures_untouched hengaged hhonest ⟨.refl opened, rfl⟩ sourcePath hnothing)
    (fun _ _ hlarge => absurd hlarge (Nat.not_lt_zero _))
    (fun state huntouched => note_ensures_untouched hengaged hhonest huntouched _)
    fun state huntouched _ =>
      lay_ensures_nothing hengaged hhonest hshipped hspan hempty huntouched).mono ?_
        fun _ _ _ hrefused => hrefused)
  rintro summary scratch' after ⟨rfl, hfits, honward, hbytes⟩
  exact ⟨rfl, hfits, holds_of_tape hsecond honward.frame hbytes⟩

/-- A build over its own input comes to the container of no bytes. -/
theorem files_ensures_of_same [Machine] (hshipped : rule.IsShipped)
    (hbuffer : scratch.buffer = .ok buffer)
    (hspan : 0 < buffer.length) (hhonest : calm ∨ disk.plan.Honest)
    (hsame : disk.tree.SameFile sourcePath destPath) :
    (files rule sourcePath destPath).Ensures (course calm) scratch disk
      (fun summary _ after => Delivers rule destPath [] summary after.tree)
      (fun _ _ _ => ¬ calm) := by
  obtain ⟨location, hreading, hwriting⟩ := id hsame
  refine files_ensures hbuffer (fun _ => ⟨location, hreading⟩) (fun _ => ⟨location, hwriting⟩) ?_
  intro opened hopened
  exact apply_ensures_of_same hshipped rfl hspan hopened hhonest hsame

/-- What a build does depends on nothing but what it has opened. -/
theorem run_files_congr [Machine] {first second : Disk} (hbuffer : scratch.buffer = .ok buffer)
    (hfirst : Opened first sourcePath destPath opened)
    (hsecond : Opened second sourcePath destPath opened) :
    first.run scratch (files rule sourcePath destPath)
      = second.run scratch (files rule sourcePath destPath) := by
  have hready (disk : Disk) :
      disk.run scratch Task.buffer = ((.ok buffer, .ready buffer), disk) := by
    rw [Disk.run, Task.buffer, hbuffer]
    rfl
  obtain ⟨between, hsource, hdest⟩ := hfirst
  obtain ⟨between', hsource', hdest'⟩ := hsecond
  have hinto : between.run (.ready buffer) (into rule (channel .source sourcePath) destPath)
      = between'.run (.ready buffer) (into rule (channel .source sourcePath) destPath) := by
    rw [into, Disk.run_bind_ok (run_openAt hdest), Disk.run_bind_ok (run_openAt hdest')]
  rw [files, Disk.run_bind_ok (hready first), Disk.run_bind_ok (hready second)]
  refine Disk.run_bind_congr ?_
  rw [withSource, Disk.run_bind_ok (run_openAt hsource), Disk.run_bind_ok (run_openAt hsource')]
  exact Disk.run_bind_congr (Disk.run_attempt_congr hinto)

/-- Where both openings are granted, one file at both paths is opened twice, and emptied. -/
theorem opened_of_same {tree : FileTree} {plan : Disk.Plan} {location : Location}
    (hreading : tree.locateForReading sourcePath = .ok location)
    (hwriting : tree.locateForWriting destPath = .ok location)
    (hopening : ∀ side, plan.opening side = none) :
    Opened (.ofTree tree plan) sourcePath destPath
      ⟨tree.put location (.file .empty),
        some ⟨location, 0, true, none, .fresh (plan.schedule .source)⟩,
        some ⟨location, 0, plan.destSeekable, plan.room, .fresh (plan.schedule .dest)⟩, [], plan⟩ :=
  ⟨_, Disk.openFile_eq_ok.mpr ⟨hopening .source, rfl, location, hreading, rfl⟩,
    Disk.openFile_eq_ok.mpr ⟨hopening .dest, rfl, location, hwriting, rfl⟩⟩

/-- A build over its own input does the same whatever the file held. -/
theorem run_files_put [Machine] {tree : FileTree} {plan : Disk.Plan} {location : Location}
    (hbuffer : scratch.buffer = .ok buffer)
    (hreading : tree.locateForReading sourcePath = .ok location)
    (hwriting : tree.locateForWriting destPath = .ok location)
    (hopening : ∀ side, plan.opening side = none) (contents : Contents) :
    (Disk.ofTree (tree.put location (.file contents)) plan).run scratch
        (files rule sourcePath destPath)
      = (Disk.ofTree tree plan).run scratch (files rule sourcePath destPath) := by
  obtain ⟨hleads, hplace⟩ := FileTree.locateForWriting_eq_ok hwriting
  have hkeeps : FileTree.KeepsDirectories tree (tree.put location (.file contents)) :=
    FileTree.keepsDirectories_put hplace
  have hfile : (tree.put location (.file contents)).lookup location = some (.file contents) := by
    rw [FileTree.lookup_put _ _ _ _ (FileTree.isOutward_eq_false hplace), if_pos rfl]
  have hopened := opened_of_same (FileTree.locateForReading_mono hreading hkeeps hfile)
    ((hleads.mono hkeeps).locateForWriting (by rw [hfile]; simp)) hopening
  rw [FileTree.put_put] at hopened
  exact run_files_congr hbuffer hopened (opened_of_same hreading hwriting hopening)

def KeepsTree (request : Files.Request Side) : Prop :=
  ∀ disk : Disk, (disk.answer request).2.tree = disk.tree

theorem into_ensures_of_refused [Machine] {source : Stream.Channel Side}
    (hrefused : disk.plan.opening .dest ≠ none) :
    (into rule source destPath).Ensures (course calm) scratch disk (fun _ _ _ => False)
      (fun _ _ after => after.tree = disk.tree) := by
  rw [into]
  refine Task.Ensures.bind ((openAt_ensures .dest destPath).bad_mono ?_) ?_
  · rintro _ _ after ⟨fault, hfault, -⟩
    rw [Disk.openFile_error hfault]
  · rintro file _ after ⟨rfl, hopened⟩
    exact absurd (Disk.openFile_eq_ok.mp hopened).1 hrefused

theorem withSource_ensures_of_refused [Machine] {side : Side}
    (hrefused : disk.plan.opening side ≠ none) :
    (withSource sourcePath fun source => into rule source destPath).Ensures (course calm) scratch
      disk (fun _ _ _ => False) (fun _ _ after => after.tree = disk.tree) := by
  rw [withSource]
  refine Task.Ensures.bind ((openAt_ensures .source sourcePath).bad_mono ?_) ?_
  · rintro _ _ after ⟨fault, hfault, -⟩
    rw [Disk.openFile_error hfault]
  rintro file scratch first ⟨rfl, hopened⟩
  obtain ⟨hgranted, rfl, location, -, hfirst⟩ := Disk.openFile_eq_ok.mp hopened
  obtain ⟨htree, hplan⟩ : first.tree = disk.tree ∧ first.plan = disk.plan := by
    rw [hfirst]
    exact ⟨rfl, rfl⟩
  have hdest : first.plan.opening .dest ≠ none := by
    rw [hplan]
    cases side with
    | source => exact absurd hgranted hrefused
    | dest => exact hrefused
  refine Task.Ensures.bind (into_ensures_of_refused hdest).attempt ?_
  intro outcome scratch disk' houtcome
  cases outcome with
  | ok summary => exact houtcome.elim
  | error failure =>
      have hcloses : KeepsTree (.close .source) := fun disk => disk.tree_close .source
      have hkept := closeAfterFailure_asksOnly hcloses (fun _ _ => rfl) sourcePath
      refine Task.Ensures.bind (hkept.ensures ?_ (houtcome.trans htree)) ?_
      · intro request disk answer after hkeeps htree hanswer
        have hafter : after = (disk.answer request).2 := congrArg Prod.snd hanswer.1
        rw [hafter, hkeeps disk, htree]
      · exact fun _ _ _ hafter => Task.ensures_fail hafter

/-- A build that cannot open a file fails before anything has happened. -/
theorem files_ensures_of_refused [Machine] {side : Side} (hbuffer : scratch.buffer = .ok buffer)
    (hrefused : disk.plan.opening side ≠ none) :
    (files rule sourcePath destPath).Ensures (course calm) scratch disk (fun _ _ _ => False)
      (fun _ _ after => after.tree = disk.tree) := by
  rw [files]
  refine Task.Ensures.bind (Task.ensures_buffer hbuffer) ?_
  rintro _ _ disk ⟨rfl, rfl, rfl⟩
  exact Task.Ensures.bind (withSource_ensures_of_refused hrefused)
    fun _ _ _ hnever => False.elim hnever

theorem run_files_of_refused [Machine] {side : Side} (hbuffer : scratch.buffer = .ok buffer)
    (tree : FileTree) {plan : Disk.Plan} (hrefused : plan.opening side ≠ none) :
    ∃ failure scratch' after, (Disk.ofTree tree plan).run scratch
        (files rule sourcePath destPath) = ((.error failure, scratch'), after) ∧
      after.tree = tree := by
  have hfails : (files rule sourcePath destPath).Ensures (course False) scratch
      (.ofTree tree plan) _ _ := files_ensures_of_refused hbuffer hrefused
  obtain ⟨_, _, _, -, hnever⟩ | hfailed := Disk.run_course hfails False.elim
  · exact hnever.elim
  · exact hfailed

/-- **What becomes of the input of a build.** Unless both paths name one file and both openings are
granted, the input stays as it was, and a result is about it. Otherwise the input is lost: a build
on a calm disk ends with a result all the same, every result is about an image of no bytes, and the
build goes on and ends as it would if the file had held anything else. -/
theorem files_keeps_input [Machine] (hshipped : rule.IsShipped) {tree : FileTree} {plan : Disk.Plan}
    (hplan : plan.Honest) (hbuffer : scratch.buffer = .ok buffer) (hspan : 0 < buffer.length)
    {image : Bytes} (hholds : tree.Holds sourcePath image) :
    let ended := (Disk.ofTree tree plan).run scratch (files rule sourcePath destPath)
    (¬ (tree.SameFile sourcePath destPath ∧ ∀ side, plan.opening side = none) →
      ended.2.tree.Holds sourcePath image ∧ ∀ summary, ended.1.1 = .ok summary →
        summary.sourceSize = image.length ∧
        ended.2.tree.Holds destPath (rule.spec.container rule.targetSize image)) ∧
    ∀ location, tree.locateForReading sourcePath = .ok location →
      tree.locateForWriting destPath = .ok location → (∀ side, plan.opening side = none) →
      ((Disk.ofTree tree plan).RunsWell scratch (files rule sourcePath destPath) →
        ∃ summary, ended.1.1 = .ok summary) ∧
      (∀ summary, ended.1.1 = .ok summary → summary.sourceSize = 0 ∧
        ended.2.tree.Holds destPath (rule.spec.container rule.targetSize [])) ∧
      ∀ contents, (Disk.ofTree (tree.put location (.file contents)) plan).run scratch
        (files rule sourcePath destPath) = ended := by
  intro ended
  constructor
  · intro hkept
    by_cases hsame : tree.SameFile sourcePath destPath
    · obtain ⟨side, hrefused⟩ : ∃ side, plan.opening side ≠ none :=
        not_forall.mp fun hopening => hkept ⟨hsame, hopening⟩
      obtain ⟨failure, scratch', after, hrun, htree⟩ :=
        run_files_of_refused hbuffer tree hrefused
      have hended : ended = ((.error failure, scratch'), after) := hrun
      rw [hended]
      exact ⟨htree ▸ hholds, fun summary hok => absurd hok (by simp)⟩
    · refine ⟨(run_files_spares rule tree plan sourcePath destPath scratch).holds hholds hsame, ?_⟩
      intro summary hok
      have hbuilds : (files rule sourcePath destPath).Ensures (course False) scratch
          (.ofTree tree plan) _ _ := files_ensures_of_apart hshipped hbuffer hspan (.inr hplan)
        hholds hsame False.elim
      obtain ⟨scratch', rfl, -, houtput⟩ := Disk.course_ok hbuilds hok
      exact ⟨rfl, houtput⟩
  · intro location hreading hwriting hopening
    have hsame : tree.SameFile sourcePath destPath := ⟨location, hreading, hwriting⟩
    refine ⟨fun hwell => ?_, fun summary hok => ?_, fun contents => ?_⟩
    · have hbuilds : (files rule sourcePath destPath).Ensures (course True) scratch
          (.ofTree tree plan) _ _ := files_ensures_of_same hshipped hbuffer hspan (.inr hplan) hsame
      obtain ⟨summary, scratch', after, hrun, -⟩ | ⟨_, _, _, -, hrefused⟩ :=
        Disk.run_course hbuilds fun _ => hwell
      · exact ⟨summary, congrArg (fun result => result.1.1) hrun⟩
      · exact absurd trivial hrefused
    · have hbuilds : (files rule sourcePath destPath).Ensures (course False) scratch
          (.ofTree tree plan) _ _ := files_ensures_of_same hshipped hbuffer hspan (.inr hplan) hsame
      obtain ⟨scratch', rfl, -, houtput⟩ := Disk.course_ok hbuilds hok
      exact ⟨rfl, houtput⟩
    · exact run_files_put hbuffer hreading hwriting hopening contents

/-- Two bytes that are built into their own file are lost, and the result is about no bytes. -/
theorem files_keeps_input_lost :
    ∃ summary scratch' final, (Disk.ofTree longerOutput .calm).run (.ready (.zeros 2))
        (files ⟨.padded, { Table.pad with targetSize := some 4 }, 4, rfl⟩ "in.bin" "in.bin")
        = ((.ok summary, scratch'), final) ∧
      summary.sourceSize = 0 ∧ ¬ final.tree.Holds "in.bin" [1, 2] := by
  have hsource : longerOutput.locateForReading "in.bin" = .ok ["in.bin"] := rfl
  have hdest : longerOutput.locateForWriting "in.bin" = .ok ["in.bin"] := rfl
  have hshipped : Rule.IsShipped ⟨.padded, { Table.pad with targetSize := some 4 }, 4, rfl⟩ :=
    .pad (rfl : Rule.pad (.integer 4) = _)
  have hcalm : Disk.Plan.calm.Honest := fun side _ _ _ hstruck => by cases side <;> cases hstruck
  have hholds : longerOutput.Holds "in.bin" [1, 2] :=
    ⟨["in.bin"], .mk #[1, 2], hsource, by decide, by decide⟩
  have hbuffer : (Scratch.ready (.zeros 2)).buffer = .ok (.zeros 2) := rfl
  obtain ⟨hends, hresult, -⟩ := (files_keeps_input hshipped hcalm hbuffer (by decide) hholds).2
    ["in.bin"] hsource hdest fun _ => rfl
  revert hends hresult
  generalize Disk.run _ _ _ = ended
  intro hends hresult
  obtain ⟨⟨outcome, scratch'⟩, final⟩ := ended
  obtain ⟨summary, rfl⟩ := hends (by decide +kernel)
  obtain ⟨hsize, houtput⟩ := hresult summary rfl
  refine ⟨summary, scratch', final, rfl, hsize, fun hkept => ?_⟩
  exact absurd (hkept.bytes_eq houtput) (by decide)

end Build

end RomImage
