import RomImage.Proofs.Build.Unopened
import RomImage.Proofs.CommandLine.Run
import RomImage.Proofs.CommandLine.Terminal

/-!
# Runs that do not come to their destination

A run that ends before it has opened its destination has changed nothing, whatever it is that ended
it: the command line, its size, the size of the buffer, or one of the two files. This holds of the
command line as well as of a build that is run by itself (`Terminal.run_unopened`).
-/

namespace RomImage

open CommandLine

namespace Build

/-- A build that is run by itself and has a result has opened its destination. -/
theorem run_named_comes [Machine] (tree : FileTree) (plan : Disk.Plan) (rule : Rule)
    (scratch : Scratch)
    (source dest : Option String) {outcome : Except Failure Summary} {scratch' : Scratch}
    {after : Disk} (hrun : (Disk.ofTree tree plan).run scratch (named rule source dest)
      = ((outcome, scratch'), after)) :
    Comes (Provided (.ofTree tree plan) scratch source dest) (Disk.AsFound tree) after ∧
      ((∃ summary, outcome = .ok summary) → after.HasOpened .dest) := by
  have hcomes : (named rule source dest).Ensures (Disk.course False) scratch (.ofTree tree plan)
      _ _ :=
    (named_comes rule source dest (Disk.AsFound.ofTree tree plan)).narrow
      (.of_forall (fun _ => trivial) _) fun _ _ _ _ _ hanswer => .inl hanswer.1
  obtain ⟨summary, _, _, hended, hgood⟩ | ⟨failure, _, _, hended, hbad⟩ :=
    Disk.run_course hcomes False.elim
  · obtain ⟨-, rfl⟩ := Prod.mk.inj (hrun.symm.trans hended)
    exact ⟨.inl hgood, fun _ => hgood.2⟩
  · obtain ⟨hfailed, rfl⟩ := Prod.mk.inj (hrun.symm.trans hended)
    obtain rfl := congrArg Prod.fst hfailed
    exact ⟨hbad, by simp⟩

end Build

namespace Terminal

variable {tree : FileTree} {plan : Disk.Plan} {settings : Settings} {arguments : List String}
  {job : Job} {terminal after : Terminal} {exit : Except Failure Exit}

/-- A command line does not come to its destination on a disk. -/
inductive FallsShort [Machine] (disk : Disk) (settings : Settings) (arguments : List String) : Prop
  | unread {stop : Stop} (hread : readArguments arguments = .error stop)
  | unruled {invocation : Invocation} {failure : Failure}
    (hread : readArguments arguments = .ok invocation)
    (hrule : rule invocation.target = .error failure)
  | unbuffered {failure : Failure}
    (hbuffer : (Scratch.pending settings.bufferSize).buffer = .error failure)
  | unannounced {invocation : Invocation} {rule : Rule} {failure : Failure}
    (hread : readArguments arguments = .ok invocation)
    (hrule : CommandLine.rule invocation.target = .ok rule)
    (hheading : heading rule invocation = .error failure)
  | sourceless {invocation : Invocation} (hread : readArguments arguments = .ok invocation)
    (hsource : ¬ disk.CanOpen .source invocation.source)
  | destless {invocation : Invocation} (hread : readArguments arguments = .ok invocation)
    (hdest : ¬ disk.CanOpen .dest invocation.destination)

/-- A command line with a job falls short of its destination if its build is not provided for. -/
theorem fallsShort_iff [Machine] {disk : Disk} (hjob : job.IsFor settings arguments) :
    FallsShort disk settings arguments ↔ ¬ Build.Provided disk (.ready job.buffer)
      job.invocation.source job.invocation.destination := by
  obtain ⟨hmade, hallocated⟩ := prepared_eq_ok.mp hjob.prepared
  constructor
  · rintro hshort ⟨-, hopensSource, hopensDest⟩
    cases hshort with
    | unread hread => exact absurd (hjob.read.symm.trans hread) (by simp)
    | unruled hread hrule =>
        obtain rfl := Except.ok.inj (hjob.read.symm.trans hread)
        exact absurd (hmade.symm.trans hrule) (by simp)
    | unbuffered hbuffer => exact absurd (hallocated.symm.trans hbuffer) (by simp)
    | unannounced hread hrule hheading =>
        obtain rfl := Except.ok.inj (hjob.read.symm.trans hread)
        obtain rfl := Except.ok.inj (hmade.symm.trans hrule)
        exact absurd (hjob.heading.symm.trans hheading) (by simp)
    | sourceless hread hsource =>
        obtain rfl := Except.ok.inj (hjob.read.symm.trans hread)
        exact hsource hopensSource
    | destless hread hdest =>
        obtain rfl := Except.ok.inj (hjob.read.symm.trans hread)
        exact hdest hopensDest
  · intro hmissing
    by_cases hsource : disk.CanOpen .source job.invocation.source
    · by_cases hdest : disk.CanOpen .dest job.invocation.destination
      · exact absurd ⟨⟨job.buffer, rfl⟩, hsource, hdest⟩ hmissing
      · exact .destless hjob.read hdest
    · exact .sourceless hjob.read hsource

/-- A run that stops before it has a job has not touched the disk, and it falls short. -/
theorem Stops.fallsShort [Machine] (hstops : Stops terminal settings arguments exit after) :
    FallsShort terminal.disk settings arguments ∧ after.disk = terminal.disk ∧
      exit ≠ .ok (.status 0) := by
  cases hstops with
  | misused hread | shown hread => exact ⟨.unread hread, rfl, by simp⟩
  | unprepared hread hprepared hother =>
      obtain hrule | ⟨-, hbuffer⟩ := prepared_eq_error.mp hprepared
      · exact ⟨.unruled hread hrule, rfl, by simp⟩
      · exact ⟨.unbuffered hbuffer, rfl, by simp⟩
  | struck hread hprepared =>
      obtain hrule | ⟨-, hbuffer⟩ := prepared_eq_error.mp hprepared
      · exact ⟨.unruled hread hrule, rfl, by simp⟩
      · exact ⟨.unbuffered hbuffer, rfl, by simp⟩
  | unannounced hread hprepared hheading =>
      exact ⟨.unannounced hread (prepared_eq_ok.mp hprepared).1 hheading, rfl, by simp⟩

/-- The build of a job comes to its destination if it is provided for, and else to nothing. -/
theorem build_comes [Machine] {outcome : Except Failure Summary} {built : Terminal}
    (hbuilt : (ofDisk (.ofTree tree plan)).build settings job = (outcome, built)) :
    Build.Comes (Build.Provided (.ofTree tree plan) (.ready job.buffer) job.invocation.source
        job.invocation.destination) (Disk.AsFound tree) built.disk ∧
      ((∃ summary, outcome = .ok summary) → built.disk.HasOpened .dest) := by
  have hcomes : (Build.named job.rule job.invocation.source job.invocation.destination).Ensures
      (Disk.unnoted False) (.ready job.buffer) (.ofTree tree plan) _ _ :=
    (Build.named_comes job.rule _ _ (Disk.AsFound.ofTree tree plan)).narrow
      (.of_forall (fun _ => trivial) _) fun _ _ _ _ _ => Disk.apartFromNotes_of_unnoted
  have hunder : ((ofDisk (.ofTree tree plan)).printed job.heading).disk.Under plan :=
    .ofTree tree plan
  obtain ⟨scratch, hrun⟩ := run_of_build hbuilt
  obtain ⟨summary, _, after, hended, hgood⟩ | ⟨failure, _, after, hended, hbad⟩ :=
    run_onFiles hunder False.elim (Settings.threshold settings.logLevel) (programLine ·.text) hcomes
  · obtain ⟨-, rfl⟩ := Prod.mk.inj (hrun.symm.trans hended)
    exact ⟨.inl hgood, fun _ => hgood.2⟩
  · obtain ⟨hfailed, rfl⟩ := Prod.mk.inj (hrun.symm.trans hended)
    obtain rfl := congrArg Prod.fst hfailed
    exact ⟨hbad, by simp⟩

/-- What is printed after a build does not touch the disk, and the status 0 stands for a result. -/
theorem conclude_disk {invocation : Invocation} {outcome : Except Failure Summary}
    {built : Terminal} (hconclude : conclude invocation (outcome, built) = (exit, after)) :
    after.disk = built.disk ∧ (exit = .ok (.status 0) → ∃ summary, outcome = .ok summary) := by
  cases outcome with
  | ok summary =>
      refine ⟨?_, fun _ => ⟨summary, rfl⟩⟩
      rw [conclude] at hconclude
      split at hconclude
      all_goals
        obtain ⟨-, rfl⟩ := Prod.mk.inj hconclude
        rfl
  | error failure =>
      cases failure with
      | build error =>
          obtain ⟨rfl, rfl⟩ := Prod.mk.inj hconclude
          exact ⟨rfl, by simp⟩
      | fault fault =>
          cases fault with
          | interrupt =>
              obtain ⟨rfl, rfl⟩ := Prod.mk.inj hconclude
              exact ⟨rfl, by simp⟩
          | _ =>
              obtain ⟨rfl, rfl⟩ := Prod.mk.inj hconclude
              exact ⟨rfl, by simp⟩
      | _ =>
          obtain ⟨rfl, rfl⟩ := Prod.mk.inj hconclude
          exact ⟨rfl, by simp⟩

/-- **An early failure touches nothing.** A build has not opened its destination if and only if the
buffer, the source or the destination cannot be had; a run of the command line, if and only if one
of these or what comes before them is missing. Either has then failed, every file and every
directory is as it was before, an older file at the path of the output among them, and the source is
closed if it was opened. This holds for every tree and for all mishaps there may be. -/
theorem run_unopened [Machine] (tree : FileTree) (plan : Disk.Plan) :
    (∀ rule scratch source dest outcome scratch' after,
      (Disk.ofTree tree plan).run scratch (Build.named rule source dest)
          = ((outcome, scratch'), after) →
        (¬ after.HasOpened .dest ↔
          ¬ Build.Provided (.ofTree tree plan) scratch source dest) ∧
        (¬ after.HasOpened .dest →
          (∃ failure, outcome = .error failure) ∧ after.AsFound tree)) ∧
    ∀ settings arguments exit after,
      (ofDisk (.ofTree tree plan)).run settings arguments = (exit, after) →
        (¬ after.disk.HasOpened .dest ↔ FallsShort (.ofTree tree plan) settings arguments) ∧
        (¬ after.disk.HasOpened .dest → exit ≠ .ok (.status 0) ∧ after.disk.AsFound tree) := by
  constructor
  · intro rule scratch source dest outcome scratch' after hrun
    obtain ⟨hcomes, hresult⟩ := Build.run_named_comes tree plan rule scratch source dest hrun
    refine ⟨hcomes.unopened_iff, fun hunopened => ⟨?_, hcomes.asFound hunopened⟩⟩
    cases outcome with
    | ok summary => exact absurd (hresult ⟨summary, rfl⟩) hunopened
    | error failure => exact ⟨failure, rfl⟩
  · intro settings arguments exit after hrun
    obtain hstops | ⟨job, hjob, hconcludes⟩ :=
      run_ends (ofDisk (.ofTree tree plan)) settings arguments
    · rw [hrun] at hstops
      obtain ⟨hshort, hdisk, hstatus⟩ := hstops.fallsShort
      have hfound : after.disk.AsFound tree := hdisk ▸ Disk.AsFound.ofTree tree plan
      exact ⟨iff_of_true hfound.unopened hshort, fun _ => ⟨hstatus, hfound⟩⟩
    · cases hbuilt : (ofDisk (.ofTree tree plan)).build settings job with
      | mk outcome built =>
      rw [hbuilt, hrun] at hconcludes
      obtain ⟨hcomes, hresult⟩ := build_comes hbuilt
      obtain ⟨hdisk, hstatus⟩ := conclude_disk hconcludes.symm
      rw [hdisk]
      refine ⟨hcomes.unopened_iff.trans (fallsShort_iff hjob).symm, fun hunopened => ⟨?_, ?_⟩⟩
      · exact fun hzero => hunopened (hresult (hstatus hzero))
      · exact hcomes.asFound hunopened

def deniedOutput : Disk.Plan :=
  { Disk.Plan.calm with
    opening := fun side =>
      if side = .dest then some (.system (some 13) "Permission denied") else none }

/-- Where an older file must not be written to, it stays, and the source is closed again. -/
theorem run_unopened_denied :
    (∃ failure scratch after, (Disk.ofTree Build.longerOutput deniedOutput).run (.ready (.zeros 2))
        (Build.named Rule.pak3 (some "in.bin") (some "out.bin"))
          = ((.error failure, scratch), after) ∧
      after.HasOpened .source ∧ after.AsFound Build.longerOutput) ∧
    ∃ exit after, (ofDisk (.ofTree Build.longerOutput deniedOutput)).run ⟨some "3", none⟩
        ["pad", "4", "in.bin", "out.bin"] = (exit, after) ∧
      exit ≠ .ok (.status 0) ∧ after.disk.AsFound Build.longerOutput := by
  constructor
  · have hsource : ((Disk.ofTree Build.longerOutput deniedOutput).run (.ready (.zeros 2))
        (Build.named Rule.pak3 (some "in.bin") (some "out.bin"))).2.HasOpened .source := by
      decide +kernel
    have hdest : ¬ ((Disk.ofTree Build.longerOutput deniedOutput).run (.ready (.zeros 2))
        (Build.named Rule.pak3 (some "in.bin") (some "out.bin"))).2.HasOpened .dest := by
      decide +kernel
    cases hrun : (Disk.ofTree Build.longerOutput deniedOutput).run (.ready (.zeros 2))
        (Build.named Rule.pak3 (some "in.bin") (some "out.bin")) with
    | mk ended after =>
    obtain ⟨outcome, scratch⟩ := ended
    rw [hrun] at hsource hdest
    obtain ⟨⟨failure, rfl⟩, hfound⟩ :=
      ((run_unopened Build.longerOutput deniedOutput).1 _ _ _ _ outcome scratch after hrun).2 hdest
    exact ⟨failure, scratch, after, rfl, hsource, hfound⟩
  · have hdest : ¬ ((ofDisk (.ofTree Build.longerOutput deniedOutput)).run ⟨some "3", none⟩
        ["pad", "4", "in.bin", "out.bin"]).2.disk.HasOpened .dest := by
      decide +kernel
    cases hrun : (ofDisk (.ofTree Build.longerOutput deniedOutput)).run ⟨some "3", none⟩
        ["pad", "4", "in.bin", "out.bin"] with
    | mk exit after =>
    rw [hrun] at hdest
    obtain ⟨hstatus, hfound⟩ :=
      ((run_unopened Build.longerOutput deniedOutput).2 _ _ exit after hrun).2 hdest
    exact ⟨exit, after, rfl, hstatus, hfound⟩

end Terminal

end RomImage
