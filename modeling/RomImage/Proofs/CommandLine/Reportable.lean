import RomImage.Proofs.Build.Reported
import RomImage.Proofs.CommandLine.Status
import RomImage.Proofs.Rule.Gate

/-!
# Every finished build can be reported

A report admits only sizes that are not negative, and is made when the container is there already.
No rule comes to another summary: what is free is what the image leaves of the ceiling, whatever the
streams have answered (`Rule.apply_yields`). So a build ends with a summary that can be reported or
with a failure that is none of a report (`Build.named_yields`).
-/

namespace RomImage

structure Summary.AddsUp (rule : Rule) (summary : Summary) : Prop where
  kind : summary.kind = rule.spec.kind
  sourceSize : 0 ≤ summary.sourceSize
  containerSize : summary.containerSize = rule.containerSize
  freeBytes : 0 ≤ summary.freeBytes
  ceiling : summary.sourceSize + summary.freeBytes = rule.ceiling

def Failure.NotRejected (failure : Failure) : Prop := ∀ issues, failure ≠ .rejected issues

theorem Failure.OfTransfer.notRejected {sound : Prop} {failure : Failure}
    (hkind : failure.OfTransfer sound) : failure.NotRejected := by
  cases hkind <;> exact fun _ => by simp

theorem Task.FailsOnly.notRejected {I : Interface} {α : Type} {task : Task I α}
    (htask : task.FailsOnly (Failure.OfTransfer False)) : task.FailsOnly Failure.NotRejected :=
  htask.mono fun _ => Failure.OfTransfer.notRejected

namespace Rule

open RomImage.Stream

variable {ι σ : Type}

/-- A rule may find that an image is too large; else it fails as transfers do. -/
theorem apply_failsOnly [Machine] (rule : Rule) (source dest : Channel ι) :
    (rule.apply source dest).FailsOnly Failure.NotRejected := by
  rw [apply_eq_probe_bind]
  refine .bind (probe_failsOnly source).notRejected fun told => ?_
  cases told with
  | none => exact .fail fun _ => by simp
  | some size =>
      rw [proceed]
      split
      · refine .fail fun _ => ?_
        unfold Failure.imageTooLarge
        split <;> simp
      · refine .bind (note_failsOnly _).notRejected fun _ => ?_
        exact .bind (rule.lay_failsOnly source dest False.elim False.elim).notRejected
          fun _ => .pure _

/-- Whatever the streams answer, a rule ends with a summary that adds up, or with a failure that is
none of rejected values. -/
theorem apply_yields [Machine] (rule : Rule) (source dest : Channel ι) :
    (rule.apply source dest).Yields (Summary.AddsUp rule) Failure.NotRejected := by
  intro scratch
  refine ((rule.apply_reports (fun _ => True) fun _ _ _ _ => trivial).and
    (rule.apply_failsOnly source dest scratch)).mono ?_ fun _ _ _ hbad => hbad.2
  rintro _ _ _ ⟨⟨size, hsize, hfits, -, rfl⟩, -⟩
  exact ⟨rfl, hsize, rfl, Int.sub_nonneg.mpr hfits, by dsimp only; omega⟩

end Rule

namespace Build

open Files

variable {ι : Type} {good : Summary → Prop}

theorem openAt_failsOnly (side : Side) (path : String) :
    (openAt side path : Work ι ι).FailsOnly Failure.NotRejected := by
  refine .ask fun answer => ?_
  cases answer with
  | ok file => exact .pure file
  | error fault =>
      dsimp only
      split <;> exact .fail fun _ => by simp

theorem closeAt_failsOnly (file : ι) (path : String) :
    (closeAt file path).FailsOnly Failure.NotRejected := by
  refine .ask fun answer => ?_
  obtain fault | _ := answer
  · dsimp only
    split <;> exact .fail fun _ => by simp
  · exact .pure ()

theorem note_failsOnly (fact : Note) : (note fact : Work ι Unit).FailsOnly Failure.NotRejected :=
  Task.Yields.rephrase (Stream.note_failsOnly fact).notRejected

theorem closeAfterFailure_failsOnly (file : ι) (path : String) :
    (closeAfterFailure file path).FailsOnly Failure.NotRejected := by
  refine .ask fun answer => ?_
  obtain fault | _ := answer
  · cases fault with
    | interrupt => exact .fail fun _ => by simp
    | _ => exact note_failsOnly _
  · exact .pure ()

theorem discard_failsOnly (path : String) :
    (discard path : Work ι Unit).FailsOnly Failure.NotRejected := by
  refine .ask fun answer => ?_
  obtain fault | _ := answer
  · dsimp only
    split
    · exact .pure ()
    split
    · exact note_failsOnly _
    · exact .fail fun _ => by simp
  · exact note_failsOnly _

/-- A destination hands on the summary of its rule. -/
theorem into_yields [Machine] (rule : Rule) (source : Stream.Channel ι) (path : String) :
    (into rule source path).Yields (Summary.AddsUp rule) Failure.NotRejected := by
  refine .bind (openAt_failsOnly .dest path) fun dest _ => ?_
  refine .attempt_bind (.rephrase (rule.apply_yields source (channel dest path)))
    (fun summary hsummary => ?_) fun failure hfailure => ?_
  · refine .attempt_bind (closeAt_failsOnly dest path) (fun _ _ => .pure hsummary)
      fun failure hfailure => ?_
    dsimp only
    split
    · exact .bind (discard_failsOnly path) fun _ _ => .fail hfailure
    · exact .fail hfailure
  · refine .bind (closeAfterFailure_failsOnly dest path) fun _ _ => ?_
    exact .bind (discard_failsOnly path) fun _ _ => .fail hfailure

theorem withSource_yields {path : String} {body : Stream.Channel ι → Work ι Summary}
    (hbody : ∀ source, (body source).Yields good Failure.NotRejected) :
    (withSource path body).Yields good Failure.NotRejected := by
  refine .bind (openAt_failsOnly .source path) fun source _ => ?_
  refine .attempt_bind (hbody (channel source path)) (fun summary hsummary => ?_)
    fun failure hfailure => ?_
  · exact .bind (closeAt_failsOnly source path) fun _ _ => .pure hsummary
  · exact .bind (closeAfterFailure_failsOnly source path) fun _ _ => .fail hfailure

/-- And so does a build, but without a path it has no result. -/
theorem named_yields [Machine] (rule : Rule) (sourcePath destPath : Option String) :
    (named rule sourcePath destPath : Work ι Summary).Yields
      (fun summary => summary.AddsUp rule ∧ Complete sourcePath destPath) Failure.NotRejected := by
  have hrefuse (side : Side) {good : Summary → Prop} :
      (refuse side : Work ι Summary).Yields good Failure.NotRejected :=
    .ask fun _ => .fail fun _ => by simp
  cases sourcePath with
  | none => exact .bind Task.FailsOnly.buffer.notRejected fun _ _ => hrefuse .source
  | some sourcePath =>
      cases destPath with
      | none =>
          exact .bind Task.FailsOnly.buffer.notRejected fun _ _ =>
            withSource_yields fun _ => hrefuse .dest
      | some destPath =>
          refine .bind Task.FailsOnly.buffer.notRejected fun _ _ =>
            .bind (withSource_yields fun source => into_yields rule source destPath)
              fun summary hsummary => ?_
          exact .bind (note_failsOnly _) fun _ _ => .pure ⟨hsummary, rfl, rfl⟩

end Build

theorem Summary.AddsUp.exists_report {rule : Rule} {summary : Summary}
    (hsummary : summary.AddsUp rule) (source destination : String) :
    ∃ report, Report.ofSummary summary source destination = .ok report :=
  Report.exists_ofSummary hsummary.sourceSize
    (hsummary.containerSize ▸ Int.natCast_nonneg rule.containerSize) hsummary.freeBytes _ _

namespace Terminal

open CommandLine
open Console (onFiles)

variable {terminal after : Terminal} {settings : Settings} {arguments : List String}
  {exit : Except Failure Exit} {issues : List Issue}

theorem Stops.notRejected [Machine] (hstops : Stops terminal settings arguments exit after) :
    exit ≠ .error (.rejected issues) := by
  cases hstops with
  | misused hread | shown hread | unprepared hread hprepared hother
  | struck hread hprepared => simp
  | unannounced hread hprepared hheading => simp [(heading_eq_error.mp hheading).1]

/-- What is printed behind a build that adds up is no matter of rejected values. -/
theorem ending_notRejected {rule : Rule} {summary : Summary} (hsummary : summary.AddsUp rule)
    (invocation : Invocation) : ending summary invocation ≠ .error (.rejected issues) := by
  intro hending
  rw [ending] at hending
  split at hending
  · rw [reportText] at hending
    split at hending
    · rename_i source destination _ _
      obtain ⟨report, hreport⟩ := hsummary.exists_report source destination
      rw [hreport] at hending
      exact absurd hending (by simp)
    · exact absurd hending (by simp)
  · exact absurd (doneLine_eq_error.mp hending).1 (by simp)

/-- The build of a job ends as its work does. -/
theorem build_yields [Machine] (terminal : Terminal) (settings : Settings) (job : Job) :
    (∃ summary, (terminal.build settings job).1 = .ok summary ∧ summary.AddsUp job.rule ∧
        Build.Complete job.invocation.source job.invocation.destination) ∨
      ∃ failure, (terminal.build settings job).1 = .error failure ∧ failure.NotRejected := by
  have hyields : (onFiles (Settings.threshold settings.logLevel) (programLine ·.text)
      (Build.named job.rule job.invocation.source job.invocation.destination :
        Files.Work Side Summary)).Yields _ Failure.NotRejected :=
    .route (Build.named_yields _ _ _) ()
  exact hyields.run answer (.ready job.buffer) (terminal.printed job.heading)

/-- No run of the command line ends because values were rejected. -/
theorem run_notRejected [Machine] (terminal : Terminal) (settings : Settings)
    (arguments : List String)
    (issues : List Issue) : (terminal.run settings arguments).1 ≠ .error (.rejected issues) := by
  obtain hstops | ⟨job, -, hrun⟩ := run_ends terminal settings arguments
  · exact hstops.notRejected
  · rw [hrun, ← Prod.eta (terminal.build settings job)]
    obtain ⟨summary, hbuilt, hsummary, -⟩ | ⟨failure, hfailed, hother⟩ :=
      build_yields terminal settings job
    · rw [hbuilt, conclude]
      cases hending : ending summary job.invocation with
      | ok text => simp
      | error failure =>
          dsimp only
          rintro ⟨⟩
          exact ending_notRejected hsummary _ hending
    · rw [hfailed]
      cases failure with
      | fault fault => cases fault <;> simp [conclude]
      | rejected issues => exact absurd rfl (hother issues)
      | _ => simp [conclude]

end Terminal

namespace Rule

open RomImage.Stream

variable {ι σ : Type}

/-- A summary and every report of it, for a specification. -/
structure Reportable (spec : Spec) (summary : Summary) : Prop where
  ceiling : ∃ ceiling : Nat, spec.ceiling = some ceiling ∧
    summary.sourceSize + summary.freeBytes = ceiling
  nonneg : 0 ≤ summary.sourceSize ∧ 0 ≤ summary.containerSize ∧ 0 ≤ summary.freeBytes
  target : ∃ target : Nat, spec.targetSize = some target ∧ summary.sourceSize ≤ target ∧
    target ≤ summary.containerSize
  reported : ∀ {π : Type} (text : π → String) (source destination : π), ∃ report,
    Report.ofSummary summary (text source) (text destination) = .ok report ∧
      report.kind = summary.kind ∧ report.source = text source ∧
      report.destination = text destination ∧
      (report.sourceSize : Int) = summary.sourceSize ∧
      (report.containerSize : Int) = summary.containerSize ∧
      (report.freeBytes : Int) = summary.freeBytes

/-- **Every finished build can be reported.** Take any well-formed specification with a target size,
any layout, and streams that answer whatever they like. Where the rule comes to a summary, its sizes
add up to the ceiling, none is negative, and the image fits into the target size and this into the
container. So a report of it is admitted, with paths of any kind that have a text, and tells the
same kind, sizes and texts; and no run of the command line ends because a report was not admitted.
-/
theorem apply_reportable [Machine] {spec : Spec} (hspec : spec.WellFormed) {layout : Layout}
    {rule : Rule}
    (hrule : ofSpec layout spec = .ok rule) {world : World ι σ} {source dest : Channel ι}
    {scratch scratch' : Scratch} {state after : σ} {summary : Summary}
    (hrun : world.run scratch (rule.apply source dest) state = ((.ok summary, scratch'), after)) :
    Reportable spec summary ∧
      ∀ (terminal : Terminal) settings arguments issues,
        (terminal.run settings arguments).1 ≠ .error (.rejected issues) := by
  obtain ⟨rfl, rfl⟩ := ofSpec_eq_ok hrule
  obtain ⟨_, hended, hsummary⟩ | ⟨_, hended, -⟩ :=
    (rule.apply_yields source dest).run world.answer scratch state
  · obtain rfl := Except.ok.inj ((congrArg (·.1.1) hrun).symm.trans hended)
    have hfree := hsummary.freeBytes
    have hadds := hsummary.ceiling
    have hceiling : (rule.ceiling : Int) ≤ rule.targetSize := Int.ofNat_le.mpr (ceiling_le hspec)
    have htarget : (rule.targetSize : Int) ≤ summary.containerSize :=
      hsummary.containerSize ▸ Int.ofNat_le.mpr rule.targetSize_le
    refine ⟨⟨⟨_, rule.spec_ceiling, hadds⟩, ⟨hsummary.sourceSize, by omega, hfree⟩,
      ⟨_, rule.targetSize_eq, by omega, htarget⟩, fun text source destination => ?_⟩,
      Terminal.run_notRejected⟩
    obtain ⟨report, hreport⟩ := hsummary.exists_report (text source) (text destination)
    exact ⟨report, hreport, Report.ofSummary_eq_ok.mp hreport⟩
  · exact absurd ((congrArg (·.1.1) hrun).symm.trans hended) (by simp)

/-- Three bytes of five are built with two in front, in a container of eight. -/
theorem apply_reportable_led :
    let spec : Spec := ⟨.stc, "", some 6, some 5, some ⟨2, 0xff⟩, none⟩
    let rule : Rule := ⟨.led, spec, 6, rfl⟩
    let source : Channel Bool := ⟨false, "in.bin", true, true⟩
    let dest : Channel Bool := ⟨true, "out.bin", true, true⟩
    let tapes : Bool → Tape := fun stream => if stream then .empty else ⟨.ofBytes [1, 2, 3], 0⟩
    let ended := (World.plain 0).run (.ready (.zeros 2)) (rule.apply source dest) tapes
    spec.WellFormed ∧ ofSpec .led spec = .ok rule ∧ ended.1.1 = .ok ⟨.stc, 3, 8, 2⟩ ∧
      Reportable spec ⟨.stc, 3, 8, 2⟩ := by
  intro spec rule source dest tapes ended
  have hspec : spec.WellFormed := Spec.wellFormed_of_conflict (by decide) (by simp [spec])
  have hrule : ofSpec .led spec = .ok rule := rfl
  have hended : ended.1.1.toOption = some ⟨.stc, 3, 8, 2⟩ := by decide +kernel
  obtain ⟨result, hrun⟩ : ∃ result, ended = result := ⟨_, rfl⟩
  rw [hrun] at hended ⊢
  obtain ⟨⟨_ | summary, scratch'⟩, after⟩ := result
  · exact absurd hended (by simp [Except.toOption])
  · obtain rfl := Option.some.inj hended
    exact ⟨hspec, hrule, rfl, (apply_reportable hspec hrule hrun).1⟩

end Rule

end RomImage
