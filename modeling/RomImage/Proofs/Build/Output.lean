import RomImage.Proofs.Build.Steps
import RomImage.Proofs.Rule.Apply

/-!
# The output of a build

If the source and the output are two files, the rule finds the two tapes that it works on: the image
at its start, and nothing. So the output is the container of the image, whatever stood there before,
and nothing else has changed (`Build.files_builds`).
-/

namespace RomImage

namespace Build

open Files (channel onStreams)
open RomImage.Disk (course streamCourse Engaged Onward Serves GoesWell Spared)
open RomImage.Stream (conduct)

variable {calm : Prop} {disk opened : Disk} {sourcePath destPath : String}

def places (source dest : Location) : Side → Location
  | .source => source
  | .dest => dest

/-- Once both files are open, the output is there, and empty. -/
theorem engaged_of_opened (hopened : Opened disk sourcePath destPath opened) :
    ∃ source dest, disk.tree.locateForReading sourcePath = .ok source ∧
      disk.tree.locateForWriting destPath = .ok dest ∧
      Engaged disk.plan (places source dest) opened ∧
      opened.tree = disk.tree.put dest (.file .empty) ∧ opened.tape .dest = .empty ∧
      opened.tape .source = ⟨opened.contentsAt source, 0⟩ := by
  obtain ⟨first, hfirst, hsecond⟩ := hopened
  obtain ⟨-, -, source, hreading, hfirst⟩ := Disk.openFile_eq_ok.mp hfirst
  obtain ⟨-, -, dest, hwriting, hsecond⟩ := Disk.openFile_eq_ok.mp hsecond
  obtain ⟨htree, hplan⟩ : first.tree = disk.tree ∧ first.plan = disk.plan := by
    rw [hfirst]
    exact ⟨rfl, rfl⟩
  rw [htree] at hwriting hsecond
  rw [hplan] at hsecond
  have hsource : opened.handle? .source = some
      ⟨source, 0, true, none, .fresh (disk.plan.schedule .source)⟩ := by
    rw [hsecond, hfirst]
    rfl
  have hdest : opened.handle? .dest = some
      ⟨dest, 0, disk.plan.destSeekable, disk.plan.room, .fresh (disk.plan.schedule .dest)⟩ := by
    rw [hsecond]
    rfl
  have hput : opened.tree = disk.tree.put dest (.file .empty) := by
    rw [hsecond, Disk.tree_setHandle]
  have hlookup (place : Location) := disk.tree.lookup_put dest place (.file .empty)
    (FileTree.isOutward_eq_false (FileTree.locateForWriting_eq_ok hwriting).2)
  have hempty : opened.tree.lookup dest = some (.file .empty) := by
    rw [hput, hlookup, if_pos rfl]
  refine ⟨source, dest, hreading, hwriting, ?_, hput, ?_, Disk.tape_eq hsource⟩
  · intro side
    cases side with
    | source =>
        refine ⟨_, ⟨hsource, rfl, ?_⟩, rfl, rfl, rfl⟩
        by_cases hsame : source = dest
        · exact ⟨_, hsame ▸ hempty⟩
        · obtain ⟨contents, hfile⟩ := FileTree.exists_file_of_locateForReading hreading
          rw [hput, hlookup, if_neg hsame]
          exact ⟨contents, hfile⟩
    | dest => exact ⟨_, ⟨hdest, rfl, _, hempty⟩, rfl, rfl, rfl⟩
  · rw [Disk.tape_eq hdest, Disk.contentsAt_eq hempty]
    rfl

/-- Where the container of an image is laid out, the path of the output leads to it. -/
theorem holds_of_tape {first stopped : Disk} {bytes : Bytes}
    (hopened : first.openFile .dest destPath = (.ok .dest, opened))
    (hframe : Disk.Frame opened stopped) (hbytes : (stopped.tape .dest).contents.bytes = bytes) :
    stopped.tree.Holds destPath bytes := by
  obtain ⟨location, ⟨hleads, contents, hfile⟩, hopen⟩ := outputAt_of_opened hopened hframe
  obtain ⟨handle, hhandle, hlasting⟩ := Option.map_eq_some_iff.mp hopen
  have hlocation : handle.location = location := congrArg Prod.fst hlasting
  rw [Disk.tape_eq hhandle, hlocation, Disk.contentsAt_eq hfile] at hbytes
  exact ⟨location, contents, hleads.locateForReading hfile, hfile, hbytes⟩

/-- A build has come to the container of an image. -/
structure Delivers (rule : Rule) (destPath : String) (image : Bytes) (summary : Summary)
    (tree : FileTree) : Prop where
  report : summary = rule.report image.length
  fits : image.length ≤ rule.ceiling
  output : tree.Holds destPath (rule.spec.container rule.targetSize image)

/-- Between two files that answer as two tapes a rule lays out the container of the image. -/
theorem apply_delivers [Machine] {outer : Conduct (Stream.interface Side) Disk} {rule : Rule}
    (hshipped : rule.IsShipped) {scratch : Scratch} {buffer : Buffer}
    (hbuffer : scratch.buffer = .ok buffer) (hspan : 0 < buffer.length)
    (hopened : Opened disk sourcePath destPath opened)
    (htapes : ∀ place, Engaged disk.plan place opened → place .source ≠ place .dest →
      ∀ request between (answer : request.Answer) after, Onward opened between →
        outer request between answer after →
        conduct disk.plan.ability calm request between.tape answer after.tape ∧
          Onward opened after)
    {image : Bytes} (hholds : disk.tree.Holds sourcePath image)
    (hapart : ¬ disk.tree.SameFile sourcePath destPath)
    (hfits : calm → image.length ≤ rule.ceiling) :
    (rule.apply (channel .source sourcePath) (channel .dest destPath)).Ensures outer scratch opened
      (fun summary _ after => Delivers rule destPath image summary after.tree)
      (fun _ _ _ => ¬ calm) := by
  obtain ⟨source, dest, hreading, hwriting, hengaged, htree, hempty, hsource⟩ :=
    engaged_of_opened hopened
  obtain ⟨first, -, hsecond⟩ := hopened
  obtain ⟨location, contents, hlocate, hfile, rfl⟩ := hholds
  obtain rfl : location = source := Except.ok.inj (hlocate.symm.trans hreading)
  have hne : location ≠ dest := fun hsame => hapart ⟨dest, hsame ▸ hreading, hwriting⟩
  have hbelow := FileTree.isOutward_eq_false (FileTree.locateForWriting_eq_ok hwriting).2
  have himage : opened.contentsAt location = contents := by
    refine Disk.contentsAt_eq ?_
    rw [htree, FileTree.lookup_put _ _ _ _ hbelow, if_neg hne, hfile]
  rw [himage] at hsource
  have hahead : (opened.tape .source).ahead = contents.bytes := by
    rw [hsource, Tape.ahead, List.drop_zero]
  have hsize : (opened.tape .source).contents.size = contents.bytes.length := by
    rw [hsource, Contents.length_bytes]
  have hsides : Side.source ≠ Side.dest := by decide
  have hready : rule.Ready disk.plan.ability (channel .source sourcePath) (channel .dest destPath)
      opened.tape := by
    refine ⟨rfl, rfl, disk.plan.reaches_ability .source _, ?_,
      ⟨rfl, disk.plan.reaches_ability .dest _⟩, ?_⟩
    · exact Nat.le_of_eq (hsize.trans (congrArg List.length hahead.symm))
    · exact fun hlayout _ => hshipped.memory hlayout
  have happly := Rule.apply_ensures hshipped.matched (channel Side.source sourcePath)
    (channel .dest destPath) hsides hbuffer hspan hsize (fun _ : calm => hready)
  have hany : (rule.apply (channel Side.source sourcePath) (channel .dest destPath)).AsksOnly
      fun _ => True := .of_forall (fun _ => trivial) _
  refine (Task.Ensures.of_view Disk.tape (Onward opened)
    (fun request between answer after _ => htapes _ hengaged hne request between answer after) hany
    (.refl opened) happly).mono ?_ ?_
  · rintro summary scratch' after ⟨⟨rfl, hfits, hthere, -, hlaid⟩, honward⟩
    refine ⟨rfl, hfits, holds_of_tape hsecond honward.frame ?_⟩
    have htarget := Nat.le_trans hfits hshipped.matched.ceiling_le
    have hbytes := hlaid.bytes_dest hshipped.matched hsides hempty hthere htarget
    rwa [hahead, List.take_length] at hbytes
  · rintro failure scratch' after ⟨⟨-, ⟨hlarge, -⟩ | ⟨hrefused, -⟩⟩, -⟩
    · exact fun hcalm => absurd (hfits hcalm) (Nat.not_le_of_lt hlarge)
    · exact hrefused

/-- Between two files a rule lays out the container of the image. -/
theorem apply_ensures_of_apart [Machine] {rule : Rule} (hshipped : rule.IsShipped)
    {scratch : Scratch}
    {buffer : Buffer} (hbuffer : scratch.buffer = .ok buffer) (hspan : 0 < buffer.length)
    (hopened : Opened disk sourcePath destPath opened) (hhonest : calm ∨ disk.plan.Honest)
    {image : Bytes} (hholds : disk.tree.Holds sourcePath image)
    (hapart : ¬ disk.tree.SameFile sourcePath destPath)
    (hfits : calm → image.length ≤ rule.ceiling) :
    (onStreams (rule.apply (channel .source sourcePath) (channel .dest destPath))).Ensures
      (course calm) scratch opened
      (fun summary _ after => Delivers rule destPath image summary after.tree)
      (fun _ _ _ => ¬ calm) :=
  onStreams_ensures (apply_delivers hshipped hbuffer hspan hopened
    (fun _ hengaged hne _ _ _ _ => hengaged.conduct_streamCourse hhonest fun _ => hne) hholds hapart
    hfits)

/-- A build between two files comes to the container of the image. -/
theorem files_ensures_of_apart [Machine] {rule : Rule} (hshipped : rule.IsShipped)
    {scratch : Scratch}
    {buffer : Buffer} (hbuffer : scratch.buffer = .ok buffer) (hspan : 0 < buffer.length)
    (hhonest : calm ∨ disk.plan.Honest) {image : Bytes}
    (hholds : disk.tree.Holds sourcePath image)
    (hapart : ¬ disk.tree.SameFile sourcePath destPath)
    (hfits : calm → image.length ≤ rule.ceiling ∧
      ∃ location, disk.tree.locateForWriting destPath = .ok location) :
    (files rule sourcePath destPath).Ensures (course calm) scratch disk
      (fun summary _ after => Delivers rule destPath image summary after.tree)
      (fun _ _ _ => ¬ calm) := by
  obtain ⟨location, contents, hlocate, -, -⟩ := id hholds
  refine files_ensures hbuffer (fun _ => ⟨location, hlocate⟩) (fun hcalm => (hfits hcalm).2) ?_
  intro opened hopened
  exact apply_ensures_of_apart hshipped rfl hspan hopened hhonest hholds hapart
    fun hcalm => (hfits hcalm).1

/-- **The output of a build, and nothing else.** Whatever is built where, whatever goes wrong and
however it ends: every file and every directory that is not at the path of the output is as it was
before. And if nothing goes wrong, a rule that comes with the tool makes of an image that fits its
whole container at the path of the output, which may have held anything or nothing. -/
theorem files_builds [Machine] (rule : Rule) (tree : FileTree) (plan : Disk.Plan)
    (sourcePath destPath : String) (scratch : Scratch) :
    (∀ location, tree.locateForWriting destPath ≠ .ok location →
      ((Disk.ofTree tree plan).run scratch (files rule sourcePath destPath)).2.tree.lookup location
        = tree.lookup location) ∧
    ∀ buffer image, rule.IsShipped → scratch.buffer = .ok buffer → 0 < buffer.length →
      tree.Holds sourcePath image → image.length ≤ rule.ceiling →
      (∃ location, tree.locateForWriting destPath = .ok location) →
      ¬ tree.SameFile sourcePath destPath →
      (Disk.ofTree tree plan).RunsWell scratch (files rule sourcePath destPath) →
      ∃ scratch' final, (Disk.ofTree tree plan).run scratch (files rule sourcePath destPath)
          = ((.ok (rule.report image.length), scratch'), final) ∧
        final.tree.Holds destPath (rule.spec.container rule.targetSize image) := by
  constructor
  · intro location hother
    have hspared := run_files_spares rule tree plan sourcePath destPath scratch
    obtain hsame | ⟨hlocate, -⟩ := hspared.lookup location
    · exact hsame
    · exact absurd hlocate hother
  · intro buffer image hshipped hbuffer hspan hholds hfits hplace hapart hwell
    have hbuilds : (files rule sourcePath destPath).Ensures (course True) scratch
        (.ofTree tree plan) _ _ := files_ensures_of_apart hshipped hbuffer hspan (.inl trivial)
      hholds hapart fun _ => ⟨hfits, hplace⟩
    obtain ⟨summary, scratch', final, hrun, rfl, -, houtput⟩ | ⟨_, _, _, -, hrefused⟩ :=
      Disk.run_course hbuilds fun _ => hwell
    · exact ⟨scratch', final, hrun, houtput⟩
    · exact absurd trivial hrefused

def longerOutput : FileTree :=
  ⟨[(["in.bin"], .file (.mk #[1, 2])), (["out.bin"], .file (.mk #[7, 7, 7, 7, 7, 7]))]⟩

/-- Nothing is left of a longer file where four bytes are built. -/
theorem files_builds_over_longer :
    ∃ scratch' final, (Disk.ofTree longerOutput .calm).run (.ready (.zeros 2))
        (files ⟨.padded, { Table.pad with targetSize := some 4 }, 4, rfl⟩ "in.bin" "out.bin")
        = ((.ok ⟨.pad, 2, 4, 2⟩, scratch'), final) ∧
      final.tree.Holds "out.bin" [1, 2, 0, 0] := by
  have hsource : longerOutput.locateForReading "in.bin" = .ok ["in.bin"] := rfl
  have hdest : longerOutput.locateForWriting "out.bin" = .ok ["out.bin"] := rfl
  refine (files_builds ⟨.padded, { Table.pad with targetSize := some 4 }, 4, rfl⟩ longerOutput .calm
    "in.bin" "out.bin" (.ready (.zeros 2))).2 (.zeros 2) [1, 2]
    (.pad (rfl : Rule.pad (.integer 4) = _)) rfl (by decide)
    ⟨["in.bin"], .mk #[1, 2], hsource, by decide, by decide⟩ (by decide) ⟨["out.bin"], hdest⟩ ?_ ?_
  · rintro ⟨location, hreading, hwriting⟩
    have hsame := Except.ok.inj (hsource.symm.trans hreading)
    rw [← hsame, hdest] at hwriting
    exact absurd (Except.ok.inj hwriting) (by decide)
  · decide +kernel

end Build

end RomImage
