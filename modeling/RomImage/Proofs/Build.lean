import RomImage.Build
import RomImage.Proofs.Disk.Run

/-!
# How a build ends

Once both files are open, three things decide how a build ends: how the rule ended, and which faults
the two files have when they are closed. `Build.destEnding` and `Build.sourceEnding` say how, and
`Build.run_files` that they do, for every rule and every schedule of mishaps.

The output is removed when the rule failed, unless an interruption then strikes the close, and when
the rule succeeded and the close has a system error. No other fault of a close removes it.
-/

namespace RomImage

namespace Build

open RomImage.Disk (closeFault? SameBut Frame)

variable {disk opened stopped : Disk} {side : Side} {scratch scratch' : Scratch}
  {location : Location} {schedule : Stream.Schedule} {path : String}

def openingFailure (path : String) (fault : Fault) : Failure :=
  if fault.isSystem then .build (.openFailure path fault.reason) else .fault fault

def closingFailure (path : String) (fault : Fault) : Failure :=
  if fault.isSystem then .build (.closeFailure path fault.reason) else .fault fault

theorem isCloseFailure_closingFailure (path : String) (fault : Fault) :
    isCloseFailure (closingFailure path fault) = fault.isSystem := by
  rw [closingFailure]
  cases fault.isSystem with
  | true => rfl
  | false => rfl

/-- How the destination ends: what is reported, and whether the output is removed. -/
def destEnding (path : String) :
    Except Failure Summary → Option Fault → Except Failure Summary × Bool
  | .error failure, fault? =>
    if fault? = some .interrupt then (.error (.fault .interrupt), false) else (.error failure, true)
  | .ok summary, none => (.ok summary, false)
  | .ok _, some fault => (.error (closingFailure path fault), fault.isSystem)

def sourceEnding (path : String) :
    Except Failure Summary → Option Fault → Except Failure Summary
  | .error failure, fault? =>
    if fault? = some .interrupt then .error (.fault .interrupt) else .error failure
  | .ok summary, none => .ok summary
  | .ok _, some fault => .error (closingFailure path fault)

def closingNotes (path : String) : Option Fault → List Note
  | none | some .interrupt => []
  | some fault => [.closeFailed path fault.reason]

def removalNotes (path : String) : Option Fault → List Note
  | none => [.removed path]
  | some fault => if fault.isMissingFile then [] else [.removalFailed path fault.reason]

/-- What closing the destination notes, and then removing it if it is removed; the last note is in
front. -/
def destNotes (path : String) (outcome : Except Failure Summary) (closing removal : Option Fault) :
    List Note :=
  (if (destEnding path outcome closing).2 then removalNotes path removal else []) ++
    if outcome.isOk then [] else closingNotes path closing

def sourceNotes (path : String) (outcome : Except Failure Summary) (closing : Option Fault) :
    List Note :=
  if outcome.isOk then [] else closingNotes path closing

theorem run_closeAt (scratch : Scratch) (path : String)
    (hopen : disk.IsOpen side location schedule) :
    ∃ after, SameBut side disk after ∧ after.notes = disk.notes ∧
      disk.run scratch (closeAt side path) =
        (((closeFault? schedule).elim (.ok ()) fun fault => .error (closingFailure path fault),
          scratch), after) := by
  obtain ⟨hanswer, hsame⟩ := Disk.close_of_isOpen hopen
  refine ⟨_, hsame, Disk.notes_close disk side, ?_⟩
  rw [closeAt, Disk.run_bind_ok (Disk.run_close disk scratch side), hanswer]
  cases closeFault? schedule with
  | none => rfl
  | some fault =>
      rw [Option.elim, Option.elim, closingFailure]
      dsimp only
      split
      · rfl
      · rfl

theorem run_closeAfterFailure (scratch : Scratch) (path : String)
    (hopen : disk.IsOpen side location schedule) :
    ∃ after, SameBut side disk after ∧
      after.notes = closingNotes path (closeFault? schedule) ++ disk.notes ∧
      disk.run scratch (closeAfterFailure side path) =
        ((if closeFault? schedule = some .interrupt then .error (.fault .interrupt) else .ok (),
          scratch), after) := by
  obtain ⟨hanswer, hsame⟩ := Disk.close_of_isOpen hopen
  have hnotes := Disk.notes_close disk side
  rw [closeAfterFailure, Disk.run_bind_ok (Disk.run_close disk scratch side), hanswer]
  revert hsame hnotes
  generalize (disk.close side).2 = closed
  intro hsame hnotes
  cases closeFault? schedule with
  | none => exact ⟨closed, hsame, hnotes, rfl⟩
  | some fault =>
      by_cases hinterrupt : fault = .interrupt
      · subst hinterrupt
        exact ⟨closed, hsame, hnotes, rfl⟩
      · have hnote : closed.run scratch (Files.note (.closeFailed path fault.reason))
            = ((.ok (), scratch),
              { closed with notes := .closeFailed path fault.reason :: closed.notes }) :=
          Disk.run_note rfl
        have hafter : SameBut side disk
            { closed with notes := .closeFailed path fault.reason :: closed.notes } :=
          ⟨hsame.tree, hsame.plan, fun other hother =>
            (by cases other <;> rfl : _ = closed.handle? other).trans (hsame.handle other hother)⟩
        rw [if_neg (by simpa using hinterrupt), ← hnotes]
        cases fault with
        | interrupt => exact absurd rfl hinterrupt
        | _ => exact ⟨_, hafter, rfl, hnote⟩

theorem run_openAt {file : Side} (hopened : disk.openFile side path = (.ok file, opened)) :
    disk.run scratch (openAt side path) = ((.ok file, scratch), opened) := by
  rw [openAt, Disk.run_bind_ok (Disk.run_openFile disk scratch side path), hopened]
  rfl

def OutputAt (tree : FileTree) (path : String) (location : Location) : Prop :=
  tree.Leads path location ∧ ∃ contents, tree.lookup location = some (.file contents)

/-- An output that was opened stays where it is while work is done. -/
theorem outputAt_of_opened (hopened : disk.openFile .dest path = (.ok .dest, opened))
    (hframe : Frame opened stopped) :
    ∃ location, OutputAt stopped.tree path location ∧
      stopped.IsOpen .dest location (disk.plan.schedule .dest) := by
  obtain ⟨-, location, hlocate, htree, -, hopen, -⟩ := Disk.openFile_dest hopened
  obtain ⟨hleads, hlookup⟩ := FileTree.locateForWriting_eq_ok hlocate
  have hput : opened.tree.lookup location = some (.file .empty) := by
    rw [htree, FileTree.lookup_put _ _ _ _ (FileTree.isOutward_eq_false hlookup), if_pos rfl]
  have hkeeps : FileTree.KeepsDirectories disk.tree stopped.tree := by
    refine FileTree.KeepsDirectories.trans ?_ hframe.shape.keepsDirectories
    rw [htree]
    exact FileTree.keepsDirectories_put hlookup
  exact ⟨location, ⟨hleads.mono hkeeps, hframe.shape.file hput⟩, hopen.frame hframe⟩

/-- Once it is closed, the output is removed from the place that its path leads to, unless the
removal has a fault. -/
theorem run_discard {closed : Disk} (scratch : Scratch)
    (houtput : OutputAt stopped.tree path location)
    (hremoval : ∀ fault ∈ stopped.plan.removal, fault.isSystem = true)
    (hsame : SameBut .dest stopped closed) :
    ∃ final,
      final.tree = (if stopped.plan.removal = none then stopped.tree.erase location
        else stopped.tree) ∧
      final.handle? .source = stopped.handle? .source ∧
      final.notes = removalNotes path stopped.plan.removal ++ closed.notes ∧
      closed.run scratch (discard path) = ((.ok (), scratch), final) := by
  obtain ⟨hleads, contents, hfile⟩ := houtput
  have hsource := hsame.handle .source (by decide)
  rw [discard, Disk.run_bind_ok (Disk.run_remove closed scratch path)]
  cases hplan : stopped.plan.removal with
  | none =>
      have hlocate : closed.tree.locateForRemoval path = .ok location := by
        rw [hsame.tree]
        exact hleads.locateForRemoval hfile
      have hanswer : closed.remove path
          = (.ok (), { closed with tree := closed.tree.erase location }) := by
        simp only [Disk.remove, hsame.plan, hplan, hlocate]
      rw [hanswer, hsame.tree]
      refine ⟨_, ?_, ?_, ?_, Disk.run_note rfl⟩
      · rfl
      · exact hsource
      · rfl
  | some fault =>
      have hanswer : closed.remove path = (.error fault, closed) := by
        simp only [Disk.remove, hsame.plan, hplan]
      rw [hanswer, removalNotes]
      dsimp only
      by_cases hmissing : fault.isMissingFile = true
      · rw [if_pos hmissing, if_pos hmissing]
        exact ⟨closed, hsame.tree, hsource, rfl, rfl⟩
      · rw [if_neg hmissing, if_neg hmissing, if_pos (hremoval fault hplan)]
        refine ⟨_, ?_, ?_, ?_, Disk.run_note rfl⟩
        · exact hsame.tree
        · exact hsource
        · rfl

/-- A build into an opened destination ends as its rule and its close say. -/
theorem run_into [Machine] {rule : Rule} {source : Stream.Channel Side}
    {outcome : Except Failure Summary}
    (hopened : disk.openFile .dest path = (.ok .dest, opened))
    (hremoval : ∀ fault ∈ disk.plan.removal, fault.isSystem = true)
    (happly : opened.run scratch (Files.onStreams (rule.apply source (Files.channel .dest path)))
      = ((outcome, scratch'), stopped)) :
    ∃ location final, OutputAt stopped.tree path location ∧
      final.handle? .source = stopped.handle? .source ∧
      disk.run scratch (into rule source path)
        = (((destEnding path outcome (closeFault? (disk.plan.schedule .dest))).1, scratch'),
          final) ∧
      final.tree = (if (destEnding path outcome (closeFault? (disk.plan.schedule .dest))).2 ∧
        disk.plan.removal = none then stopped.tree.erase location else stopped.tree) ∧
      final.notes = destNotes path outcome (closeFault? (disk.plan.schedule .dest))
        disk.plan.removal ++ stopped.notes := by
  have hframe : Frame opened stopped := by
    have hkept := Disk.frame_run (rule.apply source (Files.channel .dest path)) scratch opened
    rwa [happly] at hkept
  obtain ⟨location, houtput, hopen⟩ := outputAt_of_opened hopened hframe
  have hplan : stopped.plan.removal = disk.plan.removal := by
    obtain ⟨-, -, -, -, hplan, -⟩ := Disk.openFile_dest hopened
    rw [hframe.plan, hplan]
  rw [← hplan] at hremoval ⊢
  rw [into, Disk.run_bind_ok (run_openAt hopened), Disk.run_bind_ok (Disk.run_attempt happly)]
  cases outcome with
  | error failure =>
      obtain ⟨closed, hsame, hnotes, hclose⟩ := run_closeAfterFailure scratch' path hopen
      by_cases hinterrupt : closeFault? (disk.plan.schedule .dest) = some .interrupt
      · rw [if_pos hinterrupt] at hclose
        simp only [destNotes, destEnding, if_pos hinterrupt]
        exact ⟨location, closed, houtput, hsame.handle .source (by decide),
          Disk.run_bind_error hclose, hsame.tree, hnotes⟩
      · rw [if_neg hinterrupt] at hclose
        simp only [destNotes, destEnding, if_neg hinterrupt]
        obtain ⟨final, htree, hsource, hfinal, hrun⟩ :=
          run_discard scratch' houtput hremoval hsame
        refine ⟨location, final, houtput, hsource, ?_, ?_, ?_⟩
        · rw [Disk.run_bind_ok hclose, Disk.run_bind_ok hrun]
          rfl
        · simpa using htree
        · rw [hfinal, hnotes, List.append_assoc]
          rfl
  | ok summary =>
      obtain ⟨closed, hsame, hnotes, hclose⟩ := run_closeAt scratch' path hopen
      dsimp only
      rw [Disk.run_bind_ok (Disk.run_attempt hclose)]
      cases closeFault? (disk.plan.schedule .dest) with
      | none =>
          exact ⟨location, closed, houtput, hsame.handle .source (by decide), rfl,
            by simpa [destEnding] using hsame.tree, hnotes⟩
      | some fault =>
          have hcaught := isCloseFailure_closingFailure path fault
          by_cases hsystem : fault.isSystem = true
          · obtain ⟨final, htree, hsource, hfinal, hrun⟩ :=
              run_discard scratch' houtput hremoval hsame
            simp only [Option.elim, hcaught, destNotes, destEnding, hsystem, if_true]
            refine ⟨location, final, houtput, hsource, Disk.run_bind_ok hrun, ?_, ?_⟩
            · simpa using htree
            · simp [hfinal, hnotes, Except.isOk, Except.toBool]
          · simp only [Option.elim, hcaught, destNotes, destEnding, hsystem]
            exact ⟨location, closed, houtput, hsame.handle .source (by decide), rfl,
              by simpa using hsame.tree, hnotes⟩

def Opened (disk : Disk) (sourcePath destPath : String) (opened : Disk) : Prop :=
  ∃ first, disk.openFile .source sourcePath = (.ok .source, first) ∧
    first.openFile .dest destPath = (.ok .dest, opened)

section Files

variable {rule : Rule} {sourcePath destPath : String} {outcome : Except Failure Summary}

theorem run_withSource [Machine] (hopened : Opened disk sourcePath destPath opened)
    (hremoval : ∀ fault ∈ disk.plan.removal, fault.isSystem = true)
    (happly : opened.run scratch (Files.onStreams (rule.apply
      (Files.channel .source sourcePath) (Files.channel .dest destPath)))
      = ((outcome, scratch'), stopped)) :
    ∃ location final, OutputAt stopped.tree destPath location ∧
      disk.run scratch (withSource sourcePath fun source => into rule source destPath)
        = ((sourceEnding sourcePath
            (destEnding destPath outcome (closeFault? (disk.plan.schedule .dest))).1
            (closeFault? (disk.plan.schedule .source)), scratch'), final) ∧
      final.tree = (if (destEnding destPath outcome (closeFault? (disk.plan.schedule .dest))).2 ∧
        disk.plan.removal = none then stopped.tree.erase location else stopped.tree) ∧
      final.notes = sourceNotes sourcePath
          (destEnding destPath outcome (closeFault? (disk.plan.schedule .dest))).1
          (closeFault? (disk.plan.schedule .source)) ++
        (destNotes destPath outcome (closeFault? (disk.plan.schedule .dest)) disk.plan.removal ++
          stopped.notes) := by
  obtain ⟨first, hsource, hdest⟩ := hopened
  obtain ⟨-, place, -, -, hplan, hfirst⟩ := Disk.openFile_source hsource
  obtain ⟨-, -, -, -, -, -, hhandle⟩ := Disk.openFile_dest hdest
  rw [← hplan] at hremoval ⊢
  obtain ⟨location, closed, houtput, hclosed, hinto, htree, hnotes⟩ :=
    run_into hdest hremoval happly
  have hframe : Frame opened stopped := by
    have hkept := Disk.frame_run (rule.apply (Files.channel .source sourcePath)
      (Files.channel .dest destPath)) scratch opened
    rwa [happly] at hkept
  have hopen : closed.IsOpen .source place (first.plan.schedule .source) := by
    rw [Disk.IsOpen, hclosed, hframe.handle, hhandle, hplan]
    exact hfirst
  refine ⟨location, ?_⟩
  rw [← htree, ← hnotes]
  rw [withSource, Disk.run_bind_ok (run_openAt hsource), Disk.run_bind_ok (Disk.run_attempt hinto)]
  cases (destEnding destPath outcome (closeFault? (first.plan.schedule .dest))).1 with
  | error failure =>
      obtain ⟨final, hsame, hnotes, hclose⟩ := run_closeAfterFailure scratch' sourcePath hopen
      refine ⟨final, houtput, ?_, hsame.tree, hnotes⟩
      by_cases hinterrupt : closeFault? (first.plan.schedule .source) = some .interrupt
      · rw [if_pos hinterrupt] at hclose
        rw [sourceEnding, if_pos hinterrupt]
        exact Disk.run_bind_error hclose
      · rw [if_neg hinterrupt] at hclose
        rw [sourceEnding, if_neg hinterrupt]
        exact Disk.run_bind_ok hclose
  | ok summary =>
      obtain ⟨final, hsame, hnotes, hclose⟩ := run_closeAt scratch' sourcePath hopen
      refine ⟨final, houtput, ?_, hsame.tree, hnotes⟩
      cases hfault : closeFault? (first.plan.schedule .source) with
      | none =>
          rw [hfault] at hclose
          exact Disk.run_bind_ok hclose
      | some fault =>
          rw [hfault] at hclose
          exact Disk.run_bind_error hclose

theorem run_buffer [Machine] {buffer : Buffer} (hbuffer : scratch.buffer = .ok buffer) :
    disk.run scratch Task.buffer = ((.ok buffer, .ready buffer), disk) := by
  rw [Disk.run, Task.buffer, hbuffer]
  rfl

/-- A build that fails with both files open ends as its rule and the two closes say. -/
theorem run_files [Machine] {buffer : Buffer} {failure : Failure}
    (hbuffer : scratch.buffer = .ok buffer)
    (hopened : Opened disk sourcePath destPath opened) (hremoval : disk.plan.removal = none)
    (happly : opened.run (.ready buffer) (Files.onStreams (rule.apply
      (Files.channel .source sourcePath) (Files.channel .dest destPath)))
      = ((outcome, scratch'), stopped))
    (hending : sourceEnding sourcePath
      (destEnding destPath outcome (closeFault? (disk.plan.schedule .dest))).1
      (closeFault? (disk.plan.schedule .source)) = .error failure) :
    ∃ location final, OutputAt stopped.tree destPath location ∧
      disk.run scratch (files rule sourcePath destPath) = ((.error failure, scratch'), final) ∧
      final.tree = if (destEnding destPath outcome (closeFault? (disk.plan.schedule .dest))).2
        then stopped.tree.erase location else stopped.tree := by
  obtain ⟨location, final, houtput, hrun, htree, -⟩ :=
    run_withSource hopened (by simp [hremoval]) happly
  rw [hending] at hrun
  refine ⟨location, final, houtput, ?_, by simpa [hremoval] using htree⟩
  rw [files, Disk.run_bind_ok (run_buffer hbuffer)]
  exact Disk.run_bind_error hrun

/-- **No output after a failed rule.** Whatever made the rule fail and whatever either file has to
say when it is closed, unless the user interrupts that: the build reports the failure of the rule,
and nothing stands at the path of the output. -/
theorem files_of_apply_failed [Machine] {buffer : Buffer} {failure : Failure}
    (hbuffer : scratch.buffer = .ok buffer) (hopened : Opened disk sourcePath destPath opened)
    (hremoval : disk.plan.removal = none)
    (hcloses : ∀ side, disk.plan.schedule side .close 1 ≠ some (.raise .interrupt))
    (happly : opened.run (.ready buffer) (Files.onStreams (rule.apply
      (Files.channel .source sourcePath) (Files.channel .dest destPath)))
      = ((.error failure, scratch'), stopped)) :
    ∃ final, disk.run scratch (files rule sourcePath destPath)
        = ((.error failure, scratch'), final) ∧
      final.tree.locateForReading destPath = .error .missing := by
  have hcalm (side : Side) : closeFault? (disk.plan.schedule side) ≠ some .interrupt := by
    intro hfault
    exact hcloses side (Disk.closeFault?_eq_some.mp hfault)
  have hending : destEnding destPath (.error failure) (closeFault? (disk.plan.schedule .dest))
      = (.error failure, true) := by
    rw [destEnding, if_neg (hcalm .dest)]
  have hreported : sourceEnding sourcePath
      (destEnding destPath (.error failure) (closeFault? (disk.plan.schedule .dest))).1
      (closeFault? (disk.plan.schedule .source)) = .error failure := by
    simp only [hending, sourceEnding, if_neg (hcalm .source)]
  obtain ⟨location, final, ⟨hleads, contents, hfile⟩, hrun, htree⟩ :=
    run_files hbuffer hopened hremoval happly hreported
  rw [hending] at htree
  refine ⟨final, hrun, ?_⟩
  rw [htree]
  exact hleads.missing_erase hfile

def sampleDisk (mishaps : List Stream.Mishap) : Disk :=
  .ofTree ⟨[(["in.bin"], .file (.mk #[1, 2, 3])), (["out.bin"], .file (.mk #[7]))]⟩
    { Disk.Plan.calm with
      schedule := fun
        | .source => .calm
        | .dest => .ofList mishaps }

def sampleOpened (mishaps : List Stream.Mishap) : Disk :=
  (((sampleDisk mishaps).openFile .source "in.bin").2.openFile .dest "out.bin").2

theorem opened_sample (mishaps : List Stream.Mishap) :
    Opened (sampleDisk mishaps) "in.bin" "out.bin" (sampleOpened mishaps) :=
  ⟨_, rfl, rfl⟩

/-- The disk is full after two bytes of output and closing it breaks down: nothing stands at the
path of the output, not even the older container. -/
theorem files_of_apply_failed_full :
    ∃ failure scratch' final,
      (sampleDisk [⟨.write, .once 2, .raise (.system (some 28) "No space left on device")⟩,
          ⟨.close, .once 1, .raise (.breakdown "gone")⟩]).run (.ready (.zeros 2))
          (files .pak3 "in.bin" "out.bin") = ((.error failure, scratch'), final) ∧
        final.tree.locateForReading "out.bin" = .error .missing := by
  have hfailed : ((sampleOpened
      [⟨.write, .once 2, .raise (.system (some 28) "No space left on device")⟩,
        ⟨.close, .once 1, .raise (.breakdown "gone")⟩]).run (.ready (.zeros 2))
      (Files.onStreams (Rule.pak3.apply (Files.channel .source "in.bin")
        (Files.channel .dest "out.bin")))).1.1.toOption = none := by
    decide +kernel
  revert hfailed
  generalize happly : Disk.run _ _ (Files.onStreams _) = ended
  intro hfailed
  obtain ⟨⟨outcome, scratch'⟩, stopped⟩ := ended
  cases outcome with
  | ok summary => exact absurd hfailed (by simp [Except.toOption])
  | error failure =>
      refine ⟨failure, scratch', ?_⟩
      apply files_of_apply_failed rfl (opened_sample _) rfl ?_ happly
      intro side
      cases side with
      | source => decide
      | dest => decide

theorem exists_closingError (path : String) (outcome : Except Failure Summary) (fault : Fault) :
    ∃ failure, (destEnding path outcome (some fault)).1 = .error failure := by
  cases outcome with
  | ok summary => exact ⟨_, rfl⟩
  | error failure =>
      rw [destEnding]
      split
      · exact ⟨_, rfl⟩
      · exact ⟨_, rfl⟩

theorem exists_sourceError (path : String) (failure : Failure) (fault? : Option Fault) :
    ∃ reported, sourceEnding path (.error failure) fault? = .error reported := by
  rw [sourceEnding]
  split
  · exact ⟨_, rfl⟩
  · exact ⟨_, rfl⟩

/-- Which faults of closing the output remove it: with the rule done, a system error; after a
failure, anything but an interruption. -/
theorem removes_iff (path : String) (outcome : Except Failure Summary) (fault : Fault) :
    (destEnding path outcome (some fault)).2 = true ↔
      if outcome.isOk then fault.isSystem = true else fault ≠ .interrupt := by
  cases outcome with
  | ok summary => exact Iff.rfl
  | error failure =>
      by_cases hinterrupt : fault = .interrupt
      · simp [destEnding, Except.isOk, Except.toBool, hinterrupt]
      · simp [destEnding, Except.isOk, Except.toBool, hinterrupt]

/-- **What a fault of closing the output leaves behind.** The build fails, however the rule ended.
The output is gone if and only if the rule was done and the fault is a system error, or the rule had
failed and the fault is no interruption. -/
theorem files_of_close_failed [Machine] {buffer : Buffer} {fault : Fault}
    (hbuffer : scratch.buffer = .ok buffer) (hopened : Opened disk sourcePath destPath opened)
    (hremoval : disk.plan.removal = none)
    (hclose : disk.plan.schedule .dest .close 1 = some (.raise fault))
    (happly : opened.run (.ready buffer) (Files.onStreams (rule.apply
      (Files.channel .source sourcePath) (Files.channel .dest destPath)))
      = ((outcome, scratch'), stopped)) :
    ∃ failure final, disk.run scratch (files rule sourcePath destPath)
        = ((.error failure, scratch'), final) ∧
      (final.tree.locateForReading destPath = .error .missing ↔
        if outcome.isOk then fault.isSystem = true else fault ≠ .interrupt) := by
  have hfault : closeFault? (disk.plan.schedule .dest) = some fault :=
    Disk.closeFault?_eq_some.mpr hclose
  obtain ⟨failure, hdest⟩ := exists_closingError destPath outcome fault
  obtain ⟨reported, hsource⟩ :=
    exists_sourceError sourcePath failure (closeFault? (disk.plan.schedule .source))
  have hreported : sourceEnding sourcePath
      (destEnding destPath outcome (closeFault? (disk.plan.schedule .dest))).1
      (closeFault? (disk.plan.schedule .source)) = .error reported := by
    rw [hfault, hdest, hsource]
  obtain ⟨location, final, ⟨hleads, contents, hfile⟩, hrun, htree⟩ :=
    run_files hbuffer hopened hremoval happly hreported
  refine ⟨reported, final, hrun, ?_⟩
  rw [hfault] at htree
  rw [← removes_iff destPath, htree]
  cases (destEnding destPath outcome (some fault)).2 with
  | true =>
      rw [if_pos rfl]
      exact ⟨fun _ => rfl, fun _ => hleads.missing_erase hfile⟩
  | false =>
      rw [if_neg (by decide), hleads.locateForReading hfile]
      constructor
      · intro hmissing
        exact absurd hmissing (by simp)
      · intro hremoved
        exact absurd hremoved (by decide)

/-- Closing a finished container has a wrong value: the build fails, and the container stays. -/
theorem files_of_close_failed_wrongValue :
    ∃ failure scratch' final,
      (sampleDisk [⟨.close, .once 1, .raise (.wrongValue "gone")⟩]).run (.ready (.zeros 2))
          (files ⟨.padded, { Table.pad with targetSize := some 4 }, 4, rfl⟩ "in.bin" "out.bin")
        = ((.error failure, scratch'), final) ∧
      final.tree.locateForReading "out.bin" ≠ .error .missing := by
  have hdone : ((sampleOpened [⟨.close, .once 1, .raise (.wrongValue "gone")⟩]).run
      (.ready (.zeros 2)) (Files.onStreams (Rule.apply
        ⟨.padded, { Table.pad with targetSize := some 4 }, 4, rfl⟩ (Files.channel .source "in.bin")
        (Files.channel .dest "out.bin")))).1.1.isOk = true := by
    decide +kernel
  revert hdone
  generalize happly : Disk.run _ _ (Files.onStreams _) = ended
  intro hdone
  obtain ⟨⟨outcome, scratch'⟩, stopped⟩ := ended
  have hbuffer : (Scratch.ready (.zeros 2)).buffer = .ok (.zeros 2) := rfl
  have hclose : (sampleDisk [⟨.close, .once 1, .raise (.wrongValue "gone")⟩]).plan.schedule
      .dest .close 1 = some (.raise (.wrongValue "gone")) := by
    decide
  obtain ⟨failure, final, hrun, hgone⟩ :=
    files_of_close_failed hbuffer (opened_sample _) rfl hclose happly
  refine ⟨failure, scratch', final, hrun, ?_⟩
  intro hmissing
  have hsystem := hgone.mp hmissing
  rw [if_pos hdone] at hsystem
  exact absurd hsystem (by decide)

end Files

end Build

end RomImage
