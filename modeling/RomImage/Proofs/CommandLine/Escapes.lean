import RomImage.Proofs.CommandLine.Status

/-!
# What escapes from a run

A run ends with a status, or it shows a text on request, unless one of three slips lets a failure
escape. Two of them are about lines with a number that has too many digits to be printed, and one
about a path that has no text. No fault of a file escapes, whenever it comes
(`Terminal.run_escapes_iff`).
-/

namespace RomImage

open CommandLine

namespace Terminal

variable {tree : FileTree} {plan : Disk.Plan} {settings : Settings} {arguments : List String}
  {job : Job} {terminal after built : Terminal} {outcome : Except Failure Summary}
  {failure : Failure}

inductive Slips [Machine] (terminal : Terminal) (settings : Settings) (arguments : List String) :
    Failure → Prop
  | start {invocation : Invocation} {rule : Rule} {buffer : Buffer}
    (hread : readArguments arguments = .ok invocation)
    (hprepared : prepared settings invocation.target = .ok (rule, buffer))
    (hjson : invocation.json = false)
    (hdigits : Nat.pow 10 Text.digitLimit ≤ rule.targetSize / 1024) :
    Slips terminal settings arguments (.misuse .unprintableNumber)
  | path {job : Job} (hjob : job.IsFor settings arguments)
    (hmissing : job.invocation.source = none ∨ job.invocation.destination = none)
    (hbuilt : (terminal.build settings job).1 = .error (.fault .noPath)) :
    Slips terminal settings arguments (.fault .noPath)
  | done {job : Job} {summary : Summary} (hjob : job.IsFor settings arguments)
    (hbuilt : (terminal.build settings job).1 = .ok summary)
    (hjson : job.invocation.json = false)
    (hdigits : Nat.pow 10 Text.digitLimit ≤ summary.freeBytes.natAbs) :
    Slips terminal settings arguments (.misuse .unprintableNumber)

/-- Where faults are usual, a build has the result that its rule reports, or it fails with a failure
that is reported, or it has come to a file without a path. -/
theorem build_reported [Machine] (hplan : plan.Honest) (husual : plan.IsUsual)
    (hnul : ∀ word ∈ arguments, '\x00' ∉ word.toList) (hjob : job.IsFor settings arguments)
    (hbuilt : (ofDisk (.ofTree tree plan)).build settings job = (outcome, built)) :
    (∃ size : Nat, outcome = .ok (job.rule.report size) ∧ size ≤ job.rule.ceiling ∧
        Build.Complete job.invocation.source job.invocation.destination) ∨
      ∃ failure, outcome = .error failure ∧ (failure.IsReported ∨ failure = .fault .noPath ∧
        ¬ Build.Complete job.invocation.source job.invocation.destination) := by
  obtain ⟨hrule, hbuffer⟩ := prepared_eq_ok.mp hjob.prepared
  obtain ⟨hspan, hmost⟩ := Scratch.buffer_pending hbuffer
  have hhonest : (Disk.ofTree tree plan).plan.Honest := hplan
  have hends := build_ends
    (fun summary _ => ∃ size : Nat, size ≤ job.rule.ceiling ∧ summary = job.rule.report size)
    (fun _ : True => husual) (fun _ => hnul) hjob
    (fun _ _ _ _ _ hopened => Build.apply_unnoted (rule_isShipped hrule) hspan
      (Nat.le_of_lt hmost) hhonest hopened) hbuilt
  obtain ⟨_, rfl, ⟨size, hfits, rfl⟩, hcomplete⟩ | ⟨failure, rfl, hbad⟩ := hends
  · exact .inl ⟨size, rfl, hfits, hcomplete⟩
  · exact .inr ⟨failure, rfl, hbad trivial⟩

/-- What has slipped escapes. -/
theorem Slips.run [Machine] (hslips : Slips terminal settings arguments failure) :
    (terminal.run settings arguments).1 = .error failure := by
  cases hslips with
  | start hread hprepared hjson hdigits =>
      rw [run_of_unannounced hread hprepared (heading_eq_error.mpr ⟨rfl, hjson, hdigits⟩)]
  | @path job hjob hmissing hbuilt =>
      rw [run_of_isFor hjob, ← Prod.eta (terminal.build settings job), hbuilt]
      rfl
  | @done job summary hjob hbuilt hjson hdigits =>
      have hending : ending summary job.invocation = .error (.misuse .unprintableNumber) := by
        rewrite [ending, hjson, if_neg Bool.false_ne_true]
        exact doneLine_eq_error.mpr ⟨rfl, hdigits⟩
      rw [run_of_isFor hjob, ← Prod.eta (terminal.build settings job), hbuilt, conclude, hending]

/-- What escapes before there is a job has slipped. -/
theorem Stops.slips [Machine] {exit : Except Failure Exit}
    (hstops : Stops terminal settings arguments exit after)
    (hbuffer : ∀ fault, (Scratch.pending settings.bufferSize).buffer ≠ .error (.fault fault))
    (hexit : exit = .error failure) : Slips terminal settings arguments failure := by
  cases hstops with
  | misused hread | shown hread | unprepared hread hprepared hother => exact absurd hexit (by simp)
  | struck hread hprepared =>
      obtain hrule | ⟨-, hnone⟩ := prepared_eq_error.mp hprepared
      · obtain ⟨hsizeless, -⟩ | ⟨text, -, hsize⟩ := rule_error hrule
        · exact absurd hsizeless (readArguments_sound hread).size
        · obtain hinvalid | ⟨run, -, -, -, hlong⟩ := readSize_error hsize
          · exact absurd hinvalid (by simp)
          · exact absurd hlong (by simp)
      · exact absurd hnone (hbuffer _)
  | unannounced hread hprepared hheading =>
      obtain rfl := Except.error.inj hexit
      obtain ⟨rfl, hjson, hdigits⟩ := heading_eq_error.mp hheading
      exact .start hread hprepared hjson hdigits

theorem slips_of_conclude [Machine] (hjob : job.IsFor settings arguments)
    (hbuilt : terminal.build settings job = (outcome, built))
    (houtcome : (∃ size : Nat, outcome = .ok (job.rule.report size) ∧ size ≤ job.rule.ceiling ∧
        Build.Complete job.invocation.source job.invocation.destination) ∨
      ∃ failure, outcome = .error failure ∧ (failure.IsReported ∨ failure = .fault .noPath ∧
        ¬ Build.Complete job.invocation.source job.invocation.destination))
    (hconclude : (conclude job.invocation (outcome, built)).1 = .error failure) :
    Slips terminal settings arguments failure := by
  obtain ⟨size, rfl, hfits, hsource, hdest⟩ | ⟨other, rfl, hother⟩ := houtcome
  · obtain ⟨source, hsource⟩ := Option.isSome_iff_exists.mp hsource
    obtain ⟨dest, hdest⟩ := Option.isSome_iff_exists.mp hdest
    rw [conclude, ending_report hfits hsource hdest] at hconclude
    cases hjson : job.invocation.json with
    | true =>
        rw [hjson, if_pos rfl] at hconclude
        exact absurd hconclude (by simp)
    | false =>
        rw [hjson, if_neg Bool.false_ne_true] at hconclude
        cases hdone : doneLine (job.rule.report size) job.invocation with
        | ok text =>
            rw [hdone] at hconclude
            exact absurd hconclude (by simp)
        | error cause =>
            rw [hdone] at hconclude
            obtain rfl := Except.error.inj hconclude
            obtain ⟨rfl, hdigits⟩ := doneLine_eq_error.mp hdone
            exact .done hjob (congrArg Prod.fst hbuilt) hjson hdigits
  · obtain (⟨error, rfl⟩ | rfl) | ⟨rfl, hincomplete⟩ := hother
    · exact absurd hconclude (by simp [conclude])
    · exact absurd hconclude (by simp [conclude])
    · obtain rfl := Except.error.inj hconclude
      refine .path hjob ?_ (congrArg Prod.fst hbuilt)
      rw [Build.Complete, not_and_or] at hincomplete
      simpa using hincomplete

/-- A run that stops before it has a job has the status 1, or it shows a text on request. -/
theorem Stops.exit [Machine] {exit : Exit}
    (hstops : Stops (ofDisk (.ofTree tree plan)) settings arguments (.ok exit) after) :
    exit = .status 1 ∨ exit = .shown ∧ IsOnRequest after.output := by
  cases hstops with
  | misused hread | unprepared hread hprepared hother => exact .inl rfl
  | @shown text hread =>
      have houtput : ((ofDisk (.ofTree tree plan)).printed text).output = text :=
        String.empty_append
      rw [houtput]
      exact .inr ⟨rfl, readArguments_shown hread⟩

theorem conclude_exit {invocation : Invocation} {exit : Exit}
    (hconclude : (conclude invocation (outcome, built)).1 = .ok exit) :
    exit ∈ [.status 0, .status 1, .status 130] := by
  cases outcome with
  | ok summary =>
      rw [conclude] at hconclude
      split at hconclude
      · exact Except.ok.inj hconclude ▸ by decide
      · exact absurd hconclude (by simp)
  | error failure =>
      cases failure with
      | build error => exact Except.ok.inj hconclude ▸ by decide
      | fault fault =>
          cases fault with
          | interrupt => exact Except.ok.inj hconclude ▸ by decide
          | _ => exact absurd hconclude (by simp [conclude])
      | _ => exact absurd hconclude (by simp [conclude])

/-- **No failure escapes from a run but by one of three slips.** If faults are system errors and
interruptions, no argument holds a NUL character, and there is memory for the buffer, then a failure
that no line is there for comes from a path without a text or from a number that has too many digits
to be printed. Any other run ends with the status 0, 1 or 130, or it shows a help or the version. -/
theorem run_escapes_iff [Machine] {tree : FileTree} {plan : Disk.Plan} {settings : Settings}
    {arguments : List String} (hplan : plan.Honest) (husual : plan.IsUsual)
    (hnul : ∀ word ∈ arguments, '\x00' ∉ word.toList)
    (hbuffer : ∀ fault, (Scratch.pending settings.bufferSize).buffer ≠ .error (.fault fault)) :
    (∀ failure, ((ofDisk (.ofTree tree plan)).run settings arguments).1 = .error failure ↔
      Slips (ofDisk (.ofTree tree plan)) settings arguments failure) ∧
    ∀ exit, ((ofDisk (.ofTree tree plan)).run settings arguments).1 = .ok exit →
      exit ∈ [.status 0, .status 1, .status 130] ∨ exit = .shown ∧
        IsOnRequest ((ofDisk (.ofTree tree plan)).run settings arguments).2.output := by
  obtain hstops | ⟨job, hjob, hrun⟩ := run_ends (ofDisk (.ofTree tree plan)) settings arguments
  · refine ⟨fun failure => ⟨fun hescapes => hstops.slips hbuffer hescapes, Slips.run⟩, ?_⟩
    intro exit hexit
    rw [hexit] at hstops
    obtain rfl | hshown := hstops.exit
    · exact .inl (by decide)
    · exact .inr hshown
  · cases hbuilt : (ofDisk (.ofTree tree plan)).build settings job with
    | mk outcome built =>
    have houtcome := build_reported hplan husual hnul hjob hbuilt
    rw [hbuilt] at hrun
    refine ⟨fun failure => ⟨fun hescapes => ?_, Slips.run⟩, fun exit hexit => ?_⟩
    · rw [hrun] at hescapes
      exact slips_of_conclude hjob hbuilt houtcome hescapes
    · rw [hrun] at hexit
      exact .inl (conclude_exit hexit)

def longestSize : String := String.ofList (List.replicate Text.digitLimit '9' ++ ['G'])

theorem readSize_longestSize : readSize longestSize = .ok (Text.valueOf 10
    ((List.replicate Text.digitLimit '9').map fun c => c.toNat - '0'.toNat) * gib) := by
  have hdigits : ∀ c ∈ List.replicate Text.digitLimit '9', c.isDigit = true := by
    intro c hc
    rw [List.eq_of_mem_replicate hc]
    decide
  have hsome : List.replicate Text.digitLimit '9' ≠ [] := by
    rw [Ne, List.replicate_eq_nil_iff]
    decide
  have hgib : 1024 * 1024 * 1024 = gib := rfl
  rw [Text.valueOf_digits]
  refine readSize_eq_ok.mpr ⟨⟨[], false, List.replicate Text.digitLimit '9',
    some ('G', 1024 * 1024 * 1024), by simp, hdigits, hsome, by decide⟩, ?_, by simp, ?_⟩
  · rw [longestSize, String.toList_ofList]
    rfl
  · simp only [SizeText.value, Option.map_some, Option.getD_some, hgib]

/-- The longest size is read, but the start of a build of that size cannot be announced. -/
theorem run_escapes_iff_longest :
    ((ofDisk (.ofTree Build.longerOutput .calm)).run ⟨none, none⟩
      ["pad", longestSize, "in.bin", "out.bin"]).1 = .error (.misuse .unprintableNumber) := by
  have hhead : longestSize.toList.head? ≠ some '-' := by
    rw [longestSize, String.toList_ofList]
    decide
  have hnul : '\x00' ∉ longestSize.toList := by
    rw [longestSize, String.toList_ofList]
    simp
  have hbuffer : (Scratch.pending none).buffer = .ok (.zeros Settings.defaultBufferSize) := rfl
  obtain ⟨made, hpad, hspec⟩ := Rule.pad_integer (Text.valueOf 10
    ((List.replicate Text.digitLimit '9').map fun c => c.toNat - '0'.toNat) * gib)
  have hrule : CommandLine.rule (.pad (some longestSize)) = .ok made := by
    rw [CommandLine.rule, readSize_longestSize]
    exact hpad
  have htarget := made.targetSize_eq
  rw [hspec] at htarget
  have hdigits : Nat.pow 10 Text.digitLimit ≤ made.targetSize / 1024 := by
    rw [← Option.some.inj htarget]
    decide +kernel
  have hread : readArguments ["pad", longestSize, "in.bin", "out.bin"]
      = .ok ⟨.pad (some longestSize), some "in.bin", some "out.bin", false⟩ :=
    readArguments_pad (by simp [hhead])
  refine ((run_escapes_iff Disk.Plan.honest_calm Disk.Plan.isUsual_calm (by simp [hnul])
    (by simp [hbuffer])).1 _).mpr ?_
  exact .start hread (prepared_eq_ok.mpr ⟨hrule, hbuffer⟩) rfl hdigits

end Terminal

end RomImage
