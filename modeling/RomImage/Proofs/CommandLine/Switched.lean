import RomImage.Proofs.CommandLine.Forms
import RomImage.Proofs.CommandLine.Reportable
import RomImage.Proofs.CommandLine.Unopened

/-!
# What the switch for a report changes

A run with a report in JSON prints other texts for the user than a run with progress lines, and at
other times. Nothing else about it is different. A build does not go by what was printed before it
(`Terminal.build_printed`), and behind a finished build each of the two texts can be made, so that
neither run fails where the other goes on (`CommandLine.ending_made`).
-/

namespace RomImage

open CommandLine

namespace CommandLine

variable {invocation : Invocation} {made : Rule} {summary : Summary}

def Target.IsPrintable (target : Target) : Prop :=
  ∀ text size, target = .pad (some text) → readSize text = .ok size → (Text.decimal? size).isSome

/-- What may be printed before a build: nothing or, where no report will follow, its start. -/
inductive Announces (invocation : Invocation) : String → Prop
  | nothing : Announces invocation ""
  | start {made : Rule} {line : String} (hjson : invocation.json = false)
    (hrule : rule invocation.target = .ok made) (hline : startLine made invocation = .ok line) :
    Announces invocation line

/-- The line for the start does not go by the switch. -/
theorem startLine_switched (made : Rule) (invocation : Invocation) (json : Bool) :
    startLine made { invocation with json } = startLine made invocation := by
  unfold startLine
  cases Text.decimal? (made.targetSize / 1024 : Nat) with
  | none => rfl
  | some size => rfl

theorem targetSize_lt {target : Target} (hprintable : target.IsPrintable)
    (hrule : rule target = .ok made) : made.targetSize < Nat.pow 10 Text.digitLimit := by
  cases target with
  | pad size =>
      cases size with
      | none => exact absurd hrule (by simp [rule])
      | some text =>
          have hsome := hprintable text _ rfl (Terminal.rule_pad hrule)
          exact Nat.lt_of_le_of_lt made.targetSize_le ((Text.isSome_decimal? _).mp hsome)
  | stc =>
      obtain rfl := Except.ok.inj hrule
      decide +kernel
  | pak3 =>
      obtain rfl := Except.ok.inj hrule
      decide +kernel

theorem heading_made (hrule : rule invocation.target = .ok made)
    (hsize : made.targetSize < Nat.pow 10 Text.digitLimit) :
    ∃ text, heading made invocation = .ok text ∧ Announces invocation text := by
  cases hheading : heading made invocation with
  | error failure =>
      obtain ⟨-, -, hdigits⟩ := heading_eq_error.mp hheading
      exact absurd (Nat.div_le_self made.targetSize 1024) (by omega)
  | ok text =>
      refine ⟨text, rfl, ?_⟩
      rw [heading] at hheading
      split at hheading
      · exact Except.ok.inj hheading ▸ .nothing
      · rename_i hjson
        exact .start (Bool.not_eq_true _ ▸ hjson) hrule hheading

/-- Behind a finished build there is something to print, with a report and without. -/
theorem ending_made (hsize : made.targetSize < Nat.pow 10 Text.digitLimit)
    (hceiling : made.ceiling ≤ made.targetSize) (hsummary : summary.AddsUp made)
    (hcomplete : Build.Complete invocation.source invocation.destination) :
    ∃ text, ending summary invocation = .ok text := by
  obtain ⟨source, hsource⟩ := Option.isSome_iff_exists.mp hcomplete.1
  obtain ⟨dest, hdest⟩ := Option.isSome_iff_exists.mp hcomplete.2
  rw [ending]
  split
  · obtain ⟨report, hreport⟩ := hsummary.exists_report source dest
    rw [reportText, hsource, hdest]
    dsimp only
    rw [hreport]
    exact ⟨_, rfl⟩
  · cases hdone : doneLine summary invocation with
    | ok text => exact ⟨text, rfl⟩
    | error failure =>
        obtain ⟨-, hdigits⟩ := doneLine_eq_error.mp hdone
        have hleast := hsummary.sourceSize
        have hfree := hsummary.freeBytes
        have hadds := hsummary.ceiling
        omega

end CommandLine

namespace Terminal

open Console (onFiles)

variable {α : Type} {settings : Settings} {invocation : Invocation} {disk : Disk}

/-- What a build does and comes to does not depend on what was printed for the user before. -/
theorem run_onFiles_printed (threshold : Nat) (work : Files.Work Side α) (scratch : Scratch)
    (terminal : Terminal) (text : String) :
    (onFiles threshold (programLine ·.text) work scratch).run answer (terminal.printed text)
      = (((onFiles threshold (programLine ·.text) work scratch).run answer terminal).1,
        ((onFiles threshold (programLine ·.text) work scratch).run answer terminal).2.printed
          text) := by
  refine (onFiles_asksOnly threshold work scratch).run_comm (·.printed text) ?_ terminal
  rintro request ⟨disk, output, complaints⟩ hquiet
  cases request with
  | files request => rfl
  | print text => exact hquiet.elim
  | complain text => rfl

theorem build_printed [Machine] (terminal : Terminal) (settings : Settings) (job : Job) :
    terminal.build settings job
      = ((terminal.build settings { job with heading := "" }).1,
        (terminal.build settings { job with heading := "" }).2.printed job.heading) := by
  rw [build, build, run_onFiles_printed, printed_empty]

theorem printed_printed (terminal : Terminal) (text text' : String) :
    (terminal.printed text).printed text' = terminal.printed (text ++ text') := by
  rw [printed, printed, printed, String.append_assoc]

theorem tell_ok {summary : Summary} {built : Terminal} {line : String}
    (hending : ending summary invocation = .ok line) :
    tell invocation (.ok summary, built) = (.ok 0, built.printed line) := by
  rw [tell, hending]

/-- Only a result is told for the user. -/
theorem tell_printed {failure : Failure} (invocation : Invocation) (built : Terminal)
    (text : String) :
    tell invocation (.error failure, built.printed text)
      = ((tell invocation (.error failure, built)).1,
        (tell invocation (.error failure, built)).2.printed text) := by
  cases failure <;> rfl

/-- However the switch stands, the invocation comes to the outcome, and to the terminal but for a
text that is printed for the user, which is the announcement at most if no build is finished. -/
structure ComesTo [Machine] (disk : Disk) (settings : Settings) (invocation : Invocation)
    (outcome : Except Failure Nat) (after : Terminal) : Prop where
  output : after.output = ""
  run : ∀ json, ∃ scratch text,
    (execute (Settings.threshold settings.logLevel) { invocation with json }
        (.pending settings.bufferSize)).run answer (ofDisk disk)
      = ((outcome, scratch), after.printed text) ∧
    (outcome ≠ .ok 0 → Announces { invocation with json } text)

theorem comesTo_of_unprepared [Machine] {failure : Failure}
    (hprepared : prepared settings invocation.target = .error failure) :
    ∃ outcome after, ComesTo disk settings invocation outcome after := by
  by_cases hfault : ∃ fault, failure = .fault fault
  · obtain ⟨fault, rfl⟩ := hfault
    refine ⟨.error (.fault fault), ofDisk disk, rfl, fun json =>
      ⟨.pending settings.bufferSize, "", ?_, fun _ => .nothing⟩⟩
    rw [printed_empty]
    exact run_execute_struck _ _ hprepared
  · refine ⟨.ok 1, (ofDisk disk).complained (programLine failure.message), rfl, fun json =>
      ⟨.pending settings.bufferSize, "", ?_, fun _ => .nothing⟩⟩
    rw [printed_empty]
    exact run_execute_unprepared _ _ hprepared (not_exists.mp hfault)

theorem comesTo_of_prepared [Machine] {made : Rule} {buffer : Buffer}
    (hprintable : invocation.target.IsPrintable)
    (hprepared : prepared settings invocation.target = .ok (made, buffer)) :
    ∃ outcome after, ComesTo disk settings invocation outcome after := by
  have hrule := (prepared_eq_ok.mp hprepared).1
  have hsize := targetSize_lt hprintable hrule
  -- The build is looked at without its announcement, as it is for both positions of the switch.
  let bare : Job := ⟨invocation, made, buffer, ""⟩
  cases hbuilt : (ofDisk disk).build settings bare with
  | mk result built =>
  have houtput : built.output = "" := (build_prints (.inl rfl) hbuilt).1
  have hexecute (json : Bool) : ∃ scratch text, Announces { invocation with json } text ∧
      (execute (Settings.threshold settings.logLevel) { invocation with json }
        (.pending settings.bufferSize)).run answer (ofDisk disk)
      = (((tell { invocation with json } (result, built.printed text)).1, scratch),
        (tell { invocation with json } (result, built.printed text)).2) := by
    obtain ⟨text, hheading, hannounces⟩ :=
      heading_made (show rule { invocation with json }.target = .ok made from hrule) hsize
    let job : Job := ⟨{ invocation with json }, made, buffer, text⟩
    have hjob : (ofDisk disk).build settings job = (result, built.printed text) :=
      (build_printed (ofDisk disk) settings job).trans
        (congrArg (fun ended => (ended.1, ended.2.printed text)) hbuilt)
    obtain ⟨scratch, hrun⟩ := run_execute_prepared job hprepared hheading hjob
    exact ⟨scratch, text, hannounces, hrun⟩
  cases result with
  | ok summary =>
      obtain ⟨_, hyields, hsummary, hcomplete⟩ | ⟨_, hyields, -⟩ :=
        build_yields (ofDisk disk) settings bare
      · obtain rfl := Except.ok.inj ((congrArg Prod.fst hbuilt).symm.trans hyields)
        refine ⟨.ok 0, built, houtput, fun json => ?_⟩
        obtain ⟨scratch, text, -, hrun⟩ := hexecute json
        obtain ⟨line, hline⟩ : ∃ line, ending summary { invocation with json } = .ok line :=
          ending_made hsize (rule_isShipped hrule).matched.ceiling_le hsummary hcomplete
        rw [tell_ok hline, printed_printed] at hrun
        exact ⟨scratch, text ++ line, hrun, fun hother => absurd rfl hother⟩
      · exact absurd ((congrArg Prod.fst hbuilt).symm.trans hyields) (by simp)
  | error failure =>
      refine ⟨(tell invocation (.error failure, built)).1,
        (tell invocation (.error failure, built)).2, ?_, fun json => ?_⟩
      · cases failure <;> exact houtput
      · obtain ⟨scratch, text, hannounces, hrun⟩ := hexecute json
        rw [tell_printed] at hrun
        refine ⟨scratch, text, hrun.trans ?_, fun _ => hannounces⟩
        cases failure <;> rfl

/-- Two ends of a command, with a report and without: they differ in what was printed for the user
and in nothing else, and before anything but a finished build this is no report, and of the progress
lines no more than the first. -/
structure OutputOnly (done : α) (invocation : Invocation)
    (reporting plain : Except Failure α × Terminal) : Prop where
  outcome : reporting.1 = plain.1
  complaints : reporting.2.complaints = plain.2.complaints
  disk : reporting.2.disk = plain.2.disk
  unreported : reporting.1 ≠ .ok done → reporting.2.output = ""
  announced : plain.1 ≠ .ok done → plain.2.output = "" ∨ ∃ made,
    rule invocation.target = .ok made ∧ startLine made invocation = .ok plain.2.output

/-- What comes behind an invocation keeps this. -/
theorem OutputOnly.settle {reporting plain : Except Failure Nat × Terminal}
    (hends : OutputOnly 0 invocation reporting plain) :
    OutputOnly (.status 0) invocation (settle reporting) (settle plain) := by
  obtain ⟨outcome, reported⟩ := reporting
  obtain ⟨outcome', lined⟩ := plain
  obtain ⟨rfl : outcome = outcome', hcomplaints, hdisk, hunreported, hannounced⟩ := hends
  cases outcome with
  | ok code =>
      have hother (hcode : (.ok (.status code) : Except Failure Exit) ≠ .ok (.status 0)) :
          (.ok code : Except Failure Nat) ≠ .ok 0 := fun hzero =>
        hcode (congrArg (Except.ok ∘ Exit.status) (Except.ok.inj hzero))
      exact ⟨rfl, hcomplaints, hdisk, fun hcode => hunreported (hother hcode),
        fun hcode => hannounced (hother hcode)⟩
  | error failure =>
      have hfailed : (.error failure : Except Failure Nat) ≠ .ok 0 := by simp
      have hunreported := hunreported hfailed
      have hannounced := hannounced hfailed
      by_cases hinterrupt : failure = .fault .interrupt
      · subst hinterrupt
        exact ⟨rfl, congrArg (· ++ programLine "interrupted") hcomplaints, hdisk,
          fun _ => hunreported, fun _ => hannounced⟩
      · rw [settle_error hinterrupt, settle_error hinterrupt]
        exact ⟨rfl, hcomplaints, hdisk, fun _ => hunreported, fun _ => hannounced⟩

/-- **The switch for a report changes the output only.** Take any command whose size, if it has one,
can be printed, any settings, any file tree and whatever mishaps there are. With the switch and
without it the command has the same outcome, prints the same about the run and leaves the same disk,
by itself as well as from command lines that read so. If no build was finished, nothing was printed
for the user with the switch, and without it no more than the line for the start. -/
theorem run_output_only [Machine] {invocation : Invocation}
    (hprintable : invocation.target.IsPrintable)
    (settings : Settings) (tree : FileTree) (plan : Disk.Plan) :
    let terminal := ofDisk (.ofTree tree plan)
    let ended (json : Bool) := (execute (Settings.threshold settings.logLevel)
      { invocation with json } (.pending settings.bufferSize)).run answer terminal
    OutputOnly 0 invocation ((ended true).1.1, (ended true).2)
      ((ended false).1.1, (ended false).2) ∧
    ∀ reporting plain, readArguments reporting = .ok { invocation with json := true } →
      readArguments plain = .ok { invocation with json := false } →
      OutputOnly (.status 0) invocation (terminal.run settings reporting)
        (terminal.run settings plain) := by
  intro terminal ended
  obtain ⟨outcome, after, houtput, hrun⟩ :
      ∃ outcome after, ComesTo (.ofTree tree plan) settings invocation outcome after := by
    cases hprepared : prepared settings invocation.target with
    | error failure => exact comesTo_of_unprepared hprepared
    | ok made => exact comesTo_of_prepared hprintable hprepared
  obtain ⟨scratch, text, hreporting, hunreported⟩ := hrun true
  obtain ⟨scratch', text', hplain, hannounced⟩ := hrun false
  have hprinted (text : String) : (after.printed text).output = text := by
    rw [printed, houtput, String.empty_append]
  have honly : OutputOnly 0 invocation (outcome, after.printed text)
      (outcome, after.printed text') := by
    refine ⟨rfl, rfl, rfl, fun hother => ?_, fun hother => ?_⟩
    · rw [hprinted]
      cases hunreported hother with
      | nothing => rfl
      | start hjson hrule hline => exact absurd hjson (by simp)
    · rw [hprinted]
      cases hannounced hother with
      | nothing => exact .inl rfl
      | start hjson hrule hline => exact .inr ⟨_, hrule, startLine_switched _ _ _ ▸ hline⟩
  refine ⟨?_, fun reporting plain hread hread' => ?_⟩
  · rw [show ended true = _ from hreporting, show ended false = _ from hplain]
    exact honly
  · rw [run_settles hread hreporting, run_settles hread' hplain]
    exact honly.settle

/-- Where the output must not be written to, a line says so, whether the start was announced or
not. -/
theorem run_output_only_denied :
    let invocation : Invocation := ⟨.pad (some "4"), some "in.bin", some "out.bin", false⟩
    let terminal := ofDisk (.ofTree Build.longerOutput deniedOutput)
    let reporting := terminal.run ⟨some "3", none⟩ ["pad", "4", "--json", "in.bin", "out.bin"]
    let plain := terminal.run ⟨some "3", none⟩ ["pad", "4", "in.bin", "out.bin"]
    invocation.target.IsPrintable ∧ plain.1.toOption = some (.status 1) ∧
      plain.2.output = "# Padding in.bin to 0 KB image into out.bin\n" ∧
      plain.2.complaints = "mkrom: out.bin: Permission denied\n" ∧
      OutputOnly (.status 0) invocation reporting plain ∧ reporting.2.output = "" := by
  intro invocation terminal reporting plain
  have hprintable : invocation.target.IsPrintable := by
    rintro _ size ⟨rfl⟩ hread
    have hfour : (readSize "4").toOption = some 4 := by decide +kernel
    rw [hread] at hfour
    obtain rfl := Option.some.inj hfour
    decide +kernel
  have hform : Form ["pad", "4", "in.bin", "out.bin"] invocation.target "in.bin" "out.bin" :=
    .pad "4" "in.bin" "out.bin"
  have hstatus : plain.1.toOption = some (.status 1) := by decide +kernel
  have honly : OutputOnly (.status 0) invocation reporting plain :=
    (run_output_only hprintable ⟨some "3", none⟩ Build.longerOutput deniedOutput).2 _ _
      (readArguments_of_form (by decide) hform) (readArguments_of_form (by decide) hform)
  have hother : reporting.1 ≠ .ok (.status 0) := by
    rw [honly.outcome]
    intro hzero
    rw [hzero] at hstatus
    exact absurd hstatus (by decide)
  exact ⟨hprintable, hstatus, by decide +kernel, by decide +kernel, honly, honly.unreported hother⟩

end Terminal

end RomImage
