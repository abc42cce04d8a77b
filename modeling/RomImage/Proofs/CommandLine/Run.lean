import RomImage.CommandLine.Terminal
import RomImage.Proofs.Disk.Run
import RomImage.Proofs.Rule.Matched
import RomImage.Proofs.Scratch
import RomImage.Proofs.Size

/-!
# From arguments to a build and on to a status

A command line that comes to a build comes to a *job*: its arguments are read, the rule and the
buffer are there, and the start of the build can be announced (`Job.IsFor`). `Terminal.build` is
what the build does on the terminal, and `Terminal.conclude` how the run goes on from there. Every
run either stops before it has a job, or it concludes the build of its job (`Terminal.run_ends`).
-/

namespace RomImage

namespace CommandLine

def prepared [Machine] (settings : Settings) (target : Target) : Except Failure (Rule × Buffer) :=
  (rule target).bind fun rule =>
    (Scratch.pending settings.bufferSize).buffer.map fun buffer => (rule, buffer)

def heading (rule : Rule) (invocation : Invocation) : Except Failure String :=
  if invocation.json then .ok "" else startLine rule invocation

def ending (summary : Summary) (invocation : Invocation) : Except Failure String :=
  if invocation.json then reportText summary invocation else doneLine summary invocation

structure Job where
  invocation : Invocation
  rule : Rule
  buffer : Buffer
  heading : String

structure Job.IsFor [Machine] (settings : Settings) (arguments : List String) (job : Job)
    : Prop where
  read : readArguments arguments = .ok job.invocation
  prepared : prepared settings job.invocation.target = .ok (job.rule, job.buffer)
  heading : CommandLine.heading job.rule job.invocation = .ok job.heading

variable {settings : Settings} {target : Target} {invocation : Invocation} {summary : Summary}
  {failure : Failure}

theorem prepared_eq_ok [Machine] {made : Rule} {buffer : Buffer} :
    prepared settings target = .ok (made, buffer) ↔
      rule target = .ok made ∧ (Scratch.pending settings.bufferSize).buffer = .ok buffer := by
  rw [prepared]
  cases rule target with
  | error failure => simp [Except.bind]
  | ok rule => cases (Scratch.pending settings.bufferSize).buffer <;> simp [Except.bind, Except.map]

theorem prepared_eq_error [Machine] :
    prepared settings target = .error failure ↔ rule target = .error failure ∨
      (∃ made, rule target = .ok made) ∧
        (Scratch.pending settings.bufferSize).buffer = .error failure := by
  rw [prepared]
  cases rule target with
  | error failure => simp [Except.bind]
  | ok rule => cases (Scratch.pending settings.bufferSize).buffer <;> simp [Except.bind, Except.map]

/-- There is a rule unless a size has no text or cannot be read. -/
theorem rule_error (hrule : rule target = .error failure) :
    target = .pad none ∧ failure = .fault .noSizeText ∨
      ∃ text, target = .pad (some text) ∧ readSize text = .error failure := by
  cases target with
  | pad size =>
      cases size with
      | none => exact .inl ⟨rfl, (Except.error.inj hrule).symm⟩
      | some text =>
          rw [rule] at hrule
          cases hread : readSize text with
          | error other =>
              rw [hread] at hrule
              obtain rfl := Except.error.inj hrule
              exact .inr ⟨text, rfl, hread⟩
          | ok size =>
              rw [hread] at hrule
              obtain ⟨made, hpad, -⟩ := Rule.pad_integer size
              exact absurd (hpad.symm.trans hrule) (by simp)
  | stc | pak3 => exact absurd hrule (by simp [rule])

theorem rule_isShipped {made : Rule} (hrule : rule target = .ok made) : made.IsShipped := by
  cases target with
  | pad size =>
      cases size with
      | none => exact absurd hrule (by simp [rule])
      | some text =>
          rw [rule] at hrule
          split at hrule
          · exact .pad hrule
          · exact absurd hrule (by simp)
  | stc => exact Except.ok.inj hrule ▸ .stc
  | pak3 => exact Except.ok.inj hrule ▸ .pak3

theorem allocation_ne_interrupt [Machine] {size : Nat}
    : Fault.ofAllocation? size ≠ some .interrupt := by
  rw [Fault.ofAllocation?]
  split
  · simp
  split <;> simp

theorem buffer_ne_interrupt [Machine] {setting : Option String} :
    (Scratch.pending setting).buffer ≠ .error (.fault .interrupt) := by
  intro hbuffer
  have hallots := Scratch.allots_pending setting
  rw [hbuffer] at hallots
  cases hallots with
  | noRoom hasks hcount hfault => exact allocation_ne_interrupt hfault

theorem prepared_ne_interrupt [Machine] : prepared settings target ≠ .error
    (.fault .interrupt) := by
  intro hprepared
  obtain hrule | ⟨-, hbuffer⟩ := prepared_eq_error.mp hprepared
  · obtain ⟨-, hfault⟩ | ⟨text, -, hread⟩ := rule_error hrule
    · exact absurd hfault (by simp [Fault.noSizeText])
    · obtain hinvalid | ⟨run, -, -, -, hlong⟩ := readSize_error hread
      · exact absurd hinvalid (by simp)
      · exact absurd hlong (by simp)
  · exact buffer_ne_interrupt hbuffer

/-- A number cannot be printed if it has too many digits. -/
theorem decimal?_eq_none (number : Int) :
    Text.decimal? number = none ↔ Nat.pow 10 Text.digitLimit ≤ number.natAbs :=
  Option.not_isSome_iff_eq_none.symm.trans
    ((not_congr (Text.isSome_decimal? number)).trans Nat.not_lt)

theorem heading_eq_error {rule : Rule} :
    heading rule invocation = .error failure ↔ failure = .misuse .unprintableNumber ∧
      invocation.json = false ∧ Nat.pow 10 Text.digitLimit ≤ rule.targetSize / 1024 := by
  have hnumber : Text.decimal? (rule.targetSize / 1024 : Nat) = none ↔
      Nat.pow 10 Text.digitLimit ≤ rule.targetSize / 1024 := decimal?_eq_none _
  rewrite [← hnumber, heading]
  cases invocation.json with
  | true => simp
  | false =>
      unfold startLine
      cases Text.decimal? (rule.targetSize / 1024 : Nat) <;> simp [eq_comm]

theorem doneLine_eq_error :
    doneLine summary invocation = .error failure ↔ failure = .misuse .unprintableNumber ∧
      Nat.pow 10 Text.digitLimit ≤ summary.freeBytes.natAbs := by
  rewrite [← decimal?_eq_none]
  unfold doneLine
  cases Text.decimal? summary.freeBytes <;> simp [eq_comm]

theorem ending_ne_interrupt (hending : ending summary invocation = .error failure) :
    failure ≠ .fault .interrupt := by
  rintro rfl
  rw [ending] at hending
  split at hending
  · rw [reportText] at hending
    split at hending
    · split at hending
      · exact absurd (Except.error.inj hending) (by simp)
      · exact absurd hending (by simp)
    · exact absurd (Except.error.inj hending) (by simp [Fault.noPath])
  · exact absurd (doneLine_eq_error.mp hending).1 (by simp)

end CommandLine

namespace Terminal

open CommandLine
open Console (Work onFiles)

variable {settings : Settings} {arguments : List String} {invocation : Invocation} {job : Job}
  {terminal : Terminal} {scratch : Scratch}

def printed (terminal : Terminal) (text : String) : Terminal :=
  { terminal with output := terminal.output ++ text }

def complained (terminal : Terminal) (text : String) : Terminal :=
  { terminal with complaints := terminal.complaints ++ text }

def build [Machine] (terminal : Terminal) (settings : Settings) (job : Job) :
    Except Failure Summary × Terminal :=
  let work := Build.named job.rule job.invocation.source job.invocation.destination
  let ended := (onFiles (Settings.threshold settings.logLevel) (programLine ·.text) work
    (.ready job.buffer)).run answer (terminal.printed job.heading)
  (ended.1.1, ended.2)

def conclude (invocation : Invocation) :
    Except Failure Summary × Terminal → Except Failure Exit × Terminal
  | (.ok summary, built) =>
    match ending summary invocation with
    | .ok text => (.ok (.status 0), built.printed text)
    | .error failure => (.error failure, built)
  | (.error (.build error), built) =>
    (.ok (.status 1), built.complained (programLine error.message))
  | (.error (.fault .interrupt), built) =>
    (.ok (.status 130), built.complained (programLine "interrupted"))
  | (.error failure, built) => (.error failure, built)

def tell (invocation : Invocation) :
    Except Failure Summary × Terminal → Except Failure Nat × Terminal
  | (.ok summary, built) =>
    match ending summary invocation with
    | .ok text => (.ok 0, built.printed text)
    | .error failure => (.error failure, built)
  | (.error (.build error), built) => (.ok 1, built.complained (programLine error.message))
  | (.error failure, built) => (.error failure, built)

def settle : Except Failure Nat × Terminal → Except Failure Exit × Terminal
  | (.ok code, after) => (.ok (.status code), after)
  | (.error (.fault .interrupt), after) =>
    (.ok (.status 130), after.complained (programLine "interrupted"))
  | (.error failure, after) => (.error failure, after)

inductive Stops [Machine] (terminal : Terminal) (settings : Settings) (arguments : List String) :
    Except Failure Exit → Terminal → Prop
  | misused {detail : String} (hread : readArguments arguments = .error (.usage detail)) :
    Stops terminal settings arguments (.ok (.status 1))
      ((terminal.complained (programLine (BuildError.usage detail).message)).complained usageText)
  | shown {text : String} (hread : readArguments arguments = .error (.shown text)) :
    Stops terminal settings arguments (.ok .shown) (terminal.printed text)
  | unprepared {invocation : Invocation} {failure : Failure}
    (hread : readArguments arguments = .ok invocation)
    (hprepared : prepared settings invocation.target = .error failure)
    (hother : ∀ fault, failure ≠ .fault fault) :
    Stops terminal settings arguments (.ok (.status 1))
      (terminal.complained (programLine failure.message))
  | struck {invocation : Invocation} {fault : Fault}
    (hread : readArguments arguments = .ok invocation)
    (hprepared : prepared settings invocation.target = .error (.fault fault)) :
    Stops terminal settings arguments (.error (.fault fault)) terminal
  | unannounced {invocation : Invocation} {rule : Rule} {buffer : Buffer} {failure : Failure}
    (hread : readArguments arguments = .ok invocation)
    (hprepared : prepared settings invocation.target = .ok (rule, buffer))
    (hheading : heading rule invocation = .error failure) :
    Stops terminal settings arguments (.error failure) terminal

section Steps

theorem run_eq [Machine] (scratch : Scratch) {exit : Except Failure Exit} {after : Terminal}
    (hwork : (work settings arguments (.pending settings.bufferSize)).run answer terminal
      = ((exit, scratch), after)) :
    terminal.run settings arguments = (exit, after) := by
  have hrun := Dialogue.run_bind answer (work settings arguments (.pending settings.bufferSize))
    (fun result => .done result.1) terminal
  rw [hwork] at hrun
  exact hrun

theorem run_printMade_ok {made : Except Failure String} {text : String} (hmade : made = .ok text) :
    (printMade made scratch).run answer terminal = ((.ok (), scratch), terminal.printed text) := by
  rw [hmade]
  rfl

theorem run_printMade_error {made : Except Failure String} {failure : Failure}
    (hmade : made = .error failure) :
    (printMade made scratch).run answer terminal = ((.error failure, scratch), terminal) := by
  rw [hmade]
  rfl

theorem run_prepare [Machine] (terminal : Terminal) (target : Target) :
    (prepare target (.pending settings.bufferSize)).run answer terminal
      = match prepared settings target with
        | .ok (rule, buffer) => ((.ok rule, .ready buffer), terminal)
        | .error failure => ((.error failure, .pending settings.bufferSize), terminal) := by
  cases hrule : rule target with
  | error failure =>
      rw [prepared, hrule]
      exact Task.run_bind_error (by rw [hrule]; rfl)
  | ok made =>
      have hfirst : (Task.ofExcept (I := Console.interface Side) (rule target)
          (.pending settings.bufferSize)).run answer terminal
            = ((.ok made, .pending settings.bufferSize), terminal) := by
        rw [hrule]
        rfl
      refine (Task.run_bind_ok hfirst).trans ?_
      rw [prepared, hrule]
      cases hbuffer : (Scratch.pending settings.bufferSize).buffer with
      | error failure =>
          refine Task.run_bind_error ?_
          rw [Task.buffer, hbuffer]
          rfl
      | ok buffer =>
          have hsecond : ((Task.buffer : Work Side Buffer) (.pending settings.bufferSize)).run
              answer terminal = ((.ok buffer, .ready buffer), terminal) := by
            rw [Task.buffer, hbuffer]
            rfl
          exact (Task.run_bind_ok hsecond).trans rfl

theorem printed_empty : terminal.printed "" = terminal := by
  rw [printed, String.append_empty]

/-- The start of a build is announced. -/
theorem run_announced {α : Type} {rule : Rule} {text : String} (work : Work Side α)
    (hheading : heading rule invocation = .ok text) :
    ((do
      if !invocation.json then printMade (startLine rule invocation)
      work : Work Side α) scratch).run answer terminal
        = (work scratch).run answer (terminal.printed text) := by
  rw [heading] at hheading
  cases hjson : invocation.json with
  | true =>
      rw [hjson] at hheading
      obtain rfl := Except.ok.inj hheading
      rw [printed_empty]
      rfl
  | false =>
      rw [hjson] at hheading
      rw [if_neg Bool.false_ne_true] at hheading
      exact Task.run_bind_ok (run_printMade_ok hheading)

theorem run_unannounced {α : Type} {rule : Rule} {failure : Failure} (work : Work Side α)
    (hheading : heading rule invocation = .error failure) :
    ((do
      if !invocation.json then printMade (startLine rule invocation)
      work : Work Side α) scratch).run answer terminal
        = ((.error failure, scratch), terminal) := by
  rw [heading] at hheading
  cases hjson : invocation.json with
  | true =>
      rw [hjson] at hheading
      exact absurd hheading (by simp)
  | false =>
      rw [hjson] at hheading
      rw [if_neg Bool.false_ne_true] at hheading
      exact Task.run_bind_error (run_printMade_error hheading)

theorem run_of_build [Machine] {outcome : Except Failure Summary} {built : Terminal}
    (hbuilt : terminal.build settings job = (outcome, built)) :
    ∃ scratch', (onFiles (Settings.threshold settings.logLevel) (programLine ·.text)
        (Build.named job.rule job.invocation.source job.invocation.destination)
        (.ready job.buffer)).run answer (terminal.printed job.heading)
      = ((outcome, scratch'), built) := by
  obtain ⟨rfl, rfl⟩ := Prod.mk.inj hbuilt
  exact ⟨_, rfl⟩

/-- A build is told of, and its status is returned. -/
theorem run_execute_prepared [Machine] (job : Job)
    (hprepared : prepared settings job.invocation.target = .ok (job.rule, job.buffer))
    (hheading : heading job.rule job.invocation = .ok job.heading)
    {ended : Except Failure Summary × Terminal} (hbuilt : terminal.build settings job = ended) :
    ∃ scratch', (execute (Settings.threshold settings.logLevel) job.invocation
        (.pending settings.bufferSize)).run answer terminal
      = (((tell job.invocation ended).1, scratch'), (tell job.invocation ended).2) := by
  obtain ⟨outcome, built⟩ := ended
  have hattempt := Task.run_attempt
    ((run_prepare terminal job.invocation.target).trans (by rw [hprepared]))
  obtain ⟨scratch', hrun⟩ := run_of_build hbuilt
  refine ⟨scratch', ?_⟩
  rw [execute, Task.run_bind_ok hattempt]
  refine (run_announced _ hheading).trans ?_
  rw [Task.run_bind_ok (Task.run_attempt hrun)]
  cases outcome with
  | ok summary =>
      rw [tell]
      cases hending : ending summary job.invocation with
      | ok text => exact Task.run_bind_ok (run_printMade_ok hending)
      | error failure => exact Task.run_bind_error (run_printMade_error hending)
  | error failure =>
      cases failure with
      | build error => rfl
      | _ => rfl

/-- A fault that has struck while the rule and the buffer were made ends the run. -/
theorem run_execute_struck [Machine] (terminal : Terminal) (threshold : Nat) {fault : Fault}
    (hprepared : prepared settings invocation.target = .error (.fault fault)) :
    (execute threshold invocation (.pending settings.bufferSize)).run answer terminal
      = ((.error (.fault fault), .pending settings.bufferSize), terminal) := by
  have hattempt := Task.run_attempt
    ((run_prepare terminal invocation.target).trans (by rw [hprepared]))
  rw [execute, Task.run_bind_ok hattempt]
  rfl

/-- What else is wrong with them is told of. -/
theorem run_execute_unprepared [Machine] (terminal : Terminal) (threshold : Nat) {failure : Failure}
    (hprepared : prepared settings invocation.target = .error failure)
    (hother : ∀ fault, failure ≠ .fault fault) :
    (execute threshold invocation (.pending settings.bufferSize)).run answer terminal
      = ((.ok 1, .pending settings.bufferSize),
        terminal.complained (programLine failure.message)) := by
  have hattempt := Task.run_attempt
    ((run_prepare terminal invocation.target).trans (by rw [hprepared]))
  rw [execute, Task.run_bind_ok hattempt]
  cases failure with
  | fault fault => exact absurd rfl (hother fault)
  | build error | misuse cause | rejected issues => rfl

/-- The run of a command line goes on from what its invocation comes to. -/
theorem run_settles [Machine] (hread : readArguments arguments = .ok invocation)
    {outcome : Except Failure Nat} {scratch' : Scratch} {after : Terminal}
    (hexecute : (execute (Settings.threshold settings.logLevel) invocation
      (.pending settings.bufferSize)).run answer terminal = ((outcome, scratch'), after)) :
    terminal.run settings arguments = settle (outcome, after) := by
  refine run_eq scratch' ?_
  rw [work, hread]
  refine (Task.run_bind_ok (Task.run_attempt hexecute)).trans ?_
  cases outcome with
  | ok code => rfl
  | error failure =>
      cases failure with
      | fault fault => cases fault <;> rfl
      | _ => rfl

theorem settle_error {failure : Failure} {after : Terminal} (hother : failure ≠ .fault .interrupt) :
    settle (.error failure, after) = (.error failure, after) := by
  cases failure with
  | fault fault =>
      cases fault with
      | interrupt => exact absurd rfl hother
      | _ => rfl
  | _ => rfl

theorem settle_tell (invocation : Invocation) (ended : Except Failure Summary × Terminal) :
    settle (tell invocation ended) = conclude invocation ended := by
  obtain ⟨outcome, built⟩ := ended
  cases outcome with
  | ok summary =>
      rw [tell, conclude]
      cases hending : ending summary invocation with
      | ok text => rfl
      | error failure => exact settle_error (ending_ne_interrupt hending)
  | error failure =>
      cases failure with
      | fault fault => cases fault <;> rfl
      | _ => rfl

end Steps

/-- The run of a command line that comes to a job concludes its build. -/
theorem run_of_isFor [Machine] (hjob : job.IsFor settings arguments) :
    terminal.run settings arguments
      = conclude job.invocation (terminal.build settings job) := by
  obtain ⟨scratch', hexecute⟩ := run_execute_prepared job hjob.prepared hjob.heading rfl
  rw [run_settles hjob.read hexecute, settle_tell]

theorem run_of_struck [Machine] (hread : readArguments arguments = .ok invocation) {fault : Fault}
    (hprepared : prepared settings invocation.target = .error (.fault fault)) :
    terminal.run settings arguments = (.error (.fault fault), terminal) := by
  rw [run_settles hread (run_execute_struck terminal _ hprepared)]
  exact settle_error fun hinterrupt => prepared_ne_interrupt (hinterrupt ▸ hprepared)

theorem run_of_unprepared [Machine] (hread : readArguments arguments = .ok invocation)
    {failure : Failure}
    (hprepared : prepared settings invocation.target = .error failure)
    (hother : ∀ fault, failure ≠ .fault fault) :
    terminal.run settings arguments
      = (.ok (.status 1), terminal.complained (programLine failure.message)) :=
  run_settles hread (run_execute_unprepared terminal _ hprepared hother)

theorem run_of_unannounced [Machine] (hread : readArguments arguments = .ok invocation)
    {rule : Rule}
    {buffer : Buffer} {failure : Failure}
    (hprepared : prepared settings invocation.target = .ok (rule, buffer))
    (hheading : heading rule invocation = .error failure) :
    terminal.run settings arguments = (.error failure, terminal) := by
  have hattempt := Task.run_attempt
    ((run_prepare terminal invocation.target).trans (by rw [hprepared]))
  have hexecute : (execute (Settings.threshold settings.logLevel) invocation
      (.pending settings.bufferSize)).run answer terminal
        = ((.error failure, .ready buffer), terminal) := by
    rw [execute, Task.run_bind_ok hattempt]
    exact run_unannounced _ hheading
  rw [run_settles hread hexecute]
  exact settle_error (by simp [(heading_eq_error.mp hheading).1])

/-- A wrong command line is answered by what is wrong and the usage. -/
theorem run_of_misused [Machine] {detail : String}
    (hread : readArguments arguments = .error (.usage detail)) :
    terminal.run settings arguments = (.ok (.status 1),
      (terminal.complained (programLine (BuildError.usage detail).message)).complained
        usageText) := by
  refine run_eq (.pending settings.bufferSize) ?_
  rw [work, hread]
  rfl

/-- A run stops before it has a job, or it concludes the build of its job. -/
theorem run_ends [Machine] (terminal : Terminal) (settings : Settings) (arguments : List String) :
    Stops terminal settings arguments (terminal.run settings arguments).1
        (terminal.run settings arguments).2 ∨
      ∃ job, job.IsFor settings arguments ∧ terminal.run settings arguments
        = conclude job.invocation (terminal.build settings job) := by
  cases hread : readArguments arguments with
  | error stop =>
      left
      cases stop with
      | usage detail =>
          rw [run_of_misused hread]
          exact .misused hread
      | shown text =>
          have hrun : terminal.run settings arguments = (.ok .shown, terminal.printed text) := by
            refine run_eq (.pending settings.bufferSize) ?_
            rw [work, hread]
            rfl
          rw [hrun]
          exact .shown hread
  | ok invocation =>
      cases hprepared : prepared settings invocation.target with
      | error failure =>
          left
          by_cases hfault : ∃ fault, failure = .fault fault
          · obtain ⟨fault, rfl⟩ := hfault
            rw [run_of_struck hread hprepared]
            exact .struck hread hprepared
          · have hother := not_exists.mp hfault
            rw [run_of_unprepared hread hprepared hother]
            exact .unprepared hread hprepared hother
      | ok made =>
          obtain ⟨made, buffer⟩ := made
          cases hheading : heading made invocation with
          | error failure =>
              left
              rw [run_of_unannounced hread hprepared hheading]
              exact .unannounced hread hprepared hheading
          | ok text =>
              have hjob : Job.IsFor settings arguments ⟨invocation, made, buffer, text⟩ :=
                ⟨hread, hprepared, hheading⟩
              exact .inr ⟨_, hjob, run_of_isFor hjob⟩

end Terminal

end RomImage
