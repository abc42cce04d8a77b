import RomImage.Proofs.CommandLine.Arguments
import RomImage.Proofs.CommandLine.Run
import RomImage.Proofs.CommandLine.Terminal
import RomImage.Proofs.Report

/-!
# What a status says

The status 0 stands for a container, 130 for an interruption, and 1 for any other failure that is
reported. What is printed goes with the status: the size and the free bytes that a run tells are
those of the container, and a run that ends with another status has announced no more than the start
of the build (`Terminal.run_tells_truth`).
-/

namespace RomImage

open CommandLine

variable {settings : Settings} {arguments : List String} {invocation : Invocation} {job : Job}
  {rule : Rule} {source dest : String} {size : Nat}

theorem Scratch.buffer_pending [Machine] {setting : Option String} {buffer : Buffer}
    (hbuffer : (Scratch.pending setting).buffer = .ok buffer) :
    0 < buffer.length ∧ buffer.length < Machine.memory := by
  have husable : (Scratch.pending setting).IsUsable := trivial
  refine ⟨husable.length_pos hbuffer, ?_⟩
  have hallots := Scratch.allots_pending setting
  rw [hbuffer] at hallots
  cases hallots with
  | @buffer size hasks hcount hroom =>
      have hlength : (Buffer.zeros size).length = size := Nat.zero_add _
      rw [hlength]
      rw [Fault.ofAllocation?] at hroom
      split at hroom
      · exact absurd hroom (by simp)
      split at hroom
      · exact absurd hroom (by simp)
      · omega

namespace Report

/-- The report of a build tells what its rule reports. -/
theorem ofSummary_report (hfits : size ≤ rule.ceiling) (source dest : String) :
    ofSummary (rule.report size) source dest
      = .ok ⟨rule.spec.kind, source, dest, size, rule.containerSize, rule.ceiling - size⟩ :=
  ofSummary_eq_ok.mpr ⟨rfl, rfl, rfl, rfl, rfl, Int.ofNat_sub hfits⟩

end Report

namespace CommandLine

/-- Before a build its start is announced, or nothing. -/
theorem Job.IsFor.announced [Machine] (hjob : job.IsFor settings arguments) :
    job.heading = "" ∨ ∃ announced : Job, announced.IsFor settings arguments ∧
      announced.invocation.json = false ∧
      startLine announced.rule announced.invocation = .ok job.heading := by
  have hheading := hjob.heading
  rw [CommandLine.heading] at hheading
  cases hjson : job.invocation.json with
  | true =>
      rw [hjson, if_pos rfl] at hheading
      exact .inl (Except.ok.inj hheading).symm
  | false =>
      rw [hjson, if_neg Bool.false_ne_true] at hheading
      exact .inr ⟨job, hjob, hjson, hheading⟩

theorem ending_report (hfits : size ≤ rule.ceiling) (hsource : invocation.source = some source)
    (hdest : invocation.destination = some dest) :
    ending (rule.report size) invocation
      = if invocation.json then
          .ok ((Report.toJson ⟨rule.spec.kind, source, dest, size, rule.containerSize,
            rule.ceiling - size⟩).render (.indented 2) ++ "\n")
        else doneLine (rule.report size) invocation := by
  rw [ending, reportText, hsource, hdest]
  dsimp only
  rw [Report.ofSummary_report hfits]

end CommandLine

namespace Terminal

open Files (channel onStreams)
open RomImage.Disk (unnoted)

variable {tree : FileTree} {plan : Disk.Plan} {usual : Prop} {terminal after built : Terminal}
  {outcome : Except Failure Summary} {code : Nat}

/-- The build of a job comes to what its rule comes to, once the two files are open. -/
theorem build_ends [Machine] (good : Summary → FileTree → Prop) (husual : usual → plan.IsUsual)
    (hnul : usual → ∀ word ∈ arguments, '\x00' ∉ word.toList) (hjob : job.IsFor settings arguments)
    (happly : ∀ source dest, job.invocation.source = some source →
      job.invocation.destination = some dest → ∀ opened,
        Build.Opened (.ofTree tree plan) source dest opened →
        (onStreams (job.rule.apply (channel .source source) (channel .dest dest))).Ensures
          (unnoted usual) (.ready job.buffer) opened
          (fun summary _ after => good summary after.tree)
          (fun failure _ _ => usual → failure.IsReported))
    (hbuilt : (ofDisk (.ofTree tree plan)).build settings job = (outcome, built)) :
    (∃ summary, outcome = .ok summary ∧ good summary built.disk.tree ∧
        Build.Complete job.invocation.source job.invocation.destination) ∨
      ∃ failure, outcome = .error failure ∧ (usual → failure.IsReported ∨
        failure = .fault .noPath ∧
          ¬ Build.Complete job.invocation.source job.invocation.destination) := by
  have hsound := readArguments_sound hjob.read
  have hready : (Scratch.ready job.buffer).buffer = .ok job.buffer := rfl
  have hnamed := Build.named_unnoted good hready
    (fun hall path hpath => hnul hall path (hsound.source path hpath))
    (fun hall path hpath => hnul hall path (hsound.destination path hpath)) happly
  have hunder : ((ofDisk (.ofTree tree plan)).printed job.heading).disk.Under plan :=
    .ofTree tree plan
  obtain ⟨scratch, hrun⟩ := run_of_build hbuilt
  obtain ⟨summary, scratch', after, hended, hcomplete, hgood⟩ |
    ⟨failure, scratch', after, hended, hbad⟩ := run_onFiles hunder husual
      (Settings.threshold settings.logLevel) (programLine ·.text) hnamed
  · obtain ⟨houtcome, rfl⟩ := Prod.mk.inj (hrun.symm.trans hended)
    exact .inl ⟨summary, congrArg Prod.fst houtcome, hgood, hcomplete⟩
  · obtain ⟨houtcome, -⟩ := Prod.mk.inj (hrun.symm.trans hended)
    exact .inr ⟨failure, congrArg Prod.fst houtcome, hbad⟩

/-- Apart from its heading, a build prints nothing for the user. -/
theorem build_prints [Machine] (hlined : Lined terminal.complaints)
    (hbuilt : terminal.build settings job = (outcome, built)) :
    built.output = terminal.output ++ job.heading ∧ Lined built.complaints := by
  obtain ⟨scratch, hrun⟩ := run_of_build hbuilt
  have hprints := run_onFiles_prints (Settings.threshold settings.logLevel)
    (Build.named job.rule job.invocation.source job.invocation.destination) (.ready job.buffer)
    (terminal.printed job.heading) hlined
  rw [hrun] at hprints
  exact hprints

def Fulfils (job : Job) (before : FileTree) (summary : Summary) (after : FileTree) : Prop :=
  ∃ source dest image, job.invocation.source = some source ∧
    job.invocation.destination = some dest ∧ before.Holds source image ∧
    Build.Delivers job.rule dest image summary after

def Complains (terminal : Terminal) : Prop :=
  ∃ before text rest, Lined before ∧ terminal.complaints = before ++ programLine text ++ rest

theorem complains_of_complained {terminal : Terminal} {text : String}
    (hlined : Lined terminal.complaints) : (terminal.complained (programLine text)).Complains :=
  ⟨terminal.complaints, text, "", hlined, (String.append_empty ..).symm⟩

/-- A run that stops with a status before it has a job has printed nothing for the user. -/
theorem Stops.status [Machine] {exit : Except Failure Exit}
    (hstops : Stops terminal settings arguments exit after) (hlined : Lined terminal.complaints)
    (hexit : exit = .ok (.status code)) :
    code = 1 ∧ after.output = terminal.output ∧ after.Complains := by
  cases hstops with
  | misused hread =>
      obtain rfl := Exit.status.inj (Except.ok.inj hexit)
      exact ⟨rfl, rfl, terminal.complaints, _, usageText, hlined, rfl⟩
  | shown hread => exact absurd hexit (by simp)
  | unprepared hread hprepared hother =>
      obtain rfl := Exit.status.inj (Except.ok.inj hexit)
      exact ⟨rfl, rfl, complains_of_complained hlined⟩
  | struck hread hprepared => exact absurd hexit (by simp)
  | unannounced hread hprepared hheading => exact absurd hexit (by simp)

/-- A job is finished: the output is the full container of the image, and what is printed tells of
it and of nothing else. -/
structure Finished (job : Job) (source dest : String) (image : Bytes) (before : FileTree)
    (after : Terminal) : Prop where
  reads : job.invocation.source = some source
  writes : job.invocation.destination = some dest
  holds : before.Holds source image
  fits : image.length ≤ job.rule.ceiling
  container : after.disk.tree.Holds dest (job.rule.spec.container job.rule.targetSize image)
  padded : ∀ text, job.invocation.target = .pad (some text) →
    readSize text = .ok (job.rule.spec.container job.rule.targetSize image).length
  /-- Two lines are printed, the second with the bytes that were left below the ceiling. -/
  plain : job.invocation.json = false → ∃ size free,
    Text.decimal? (job.rule.targetSize / 1024 : Nat) = some size ∧
    Text.decimal? (job.rule.ceiling - image.length : Nat) = some free ∧
    after.output = s!"# Padding {source} to {size} KB {label job.rule} into {dest}\n" ++
      s!"# {dest} done ({free} bytes free)\n"
  /-- Or one report is printed, with the sizes of the image and of the container. -/
  report : job.invocation.json = true → after.output = (Report.toJson
    ⟨job.rule.spec.kind, source, dest, image.length,
      (job.rule.spec.container job.rule.targetSize image).length,
      job.rule.ceiling - image.length⟩).render (.indented 2) ++ "\n"

theorem rule_pad {text : String} {rule : Rule}
    (hrule : CommandLine.rule (.pad (some text)) = .ok rule) :
    readSize text = .ok rule.containerSize := by
  rw [CommandLine.rule] at hrule
  cases hsize : readSize text with
  | error failure =>
      rw [hsize] at hrule
      exact absurd hrule (by simp)
  | ok size =>
      rw [hsize] at hrule
      obtain ⟨made, hpad, hspec⟩ := Rule.pad_integer size
      obtain rfl := Except.ok.inj (hpad.symm.trans hrule)
      have htarget := made.targetSize_eq
      rw [hspec] at htarget
      obtain rfl := Option.some.inj htarget
      rw [Rule.containerSize, hspec]
      exact congrArg Except.ok (Nat.zero_add _).symm

theorem Fulfils.finished [Machine] {summary : Summary} {text : String}
    (hjob : job.IsFor settings arguments)
    (hfulfils : Fulfils job tree summary built.disk.tree)
    (hending : ending summary job.invocation = .ok text) (houtput : built.output = job.heading) :
    ∃ source dest image, Finished job source dest image tree (built.printed text) := by
  obtain ⟨source, dest, image, hsource, hdest, hholds, rfl, hfits, hcontainer⟩ := hfulfils
  have hrule := (prepared_eq_ok.mp hjob.prepared).1
  have hmatched := (rule_isShipped hrule).matched
  have hlength : (job.rule.spec.container job.rule.targetSize image).length
      = job.rule.containerSize :=
    Spec.length_container _ _ _ hmatched.wellFormed job.rule.targetSize_eq
      (Nat.le_trans hfits hmatched.ceiling_le)
  have hheading := hjob.heading
  rw [ending_report hfits hsource hdest] at hending
  rw [heading] at hheading
  refine ⟨source, dest, image, hsource, hdest, hholds, hfits, hcontainer, ?_, ?_, ?_⟩
  · intro size htarget
    rw [htarget] at hrule
    rw [hlength]
    exact rule_pad hrule
  · intro hjson
    rw [hjson, if_neg Bool.false_ne_true] at hending hheading
    unfold startLine at hheading
    unfold doneLine at hending
    split at hheading
    · exact absurd hheading (by simp)
    rename_i kilobytes hkilobytes
    split at hending
    · exact absurd hending (by simp)
    rename_i free hfree
    have hroom : (job.rule.report image.length).freeBytes
        = (job.rule.ceiling - image.length : Nat) := (Int.ofNat_sub hfits).symm
    rw [hroom] at hfree
    refine ⟨kilobytes, free, hkilobytes, hfree, ?_⟩
    rw [hsource, hdest] at hheading
    rw [hdest] at hending
    rw [printed, houtput, ← Except.ok.inj hheading, ← Except.ok.inj hending]
    rfl
  · intro hjson
    rw [hjson, if_pos rfl] at hending hheading
    rw [hlength]
    obtain rfl := Except.ok.inj hending
    rw [printed, houtput, ← Except.ok.inj hheading, String.empty_append]

end Terminal

end RomImage
