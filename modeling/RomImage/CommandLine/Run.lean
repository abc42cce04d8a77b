import RomImage.Build
import RomImage.CommandLine.Arguments
import RomImage.CommandLine.Console
import RomImage.Report
import RomImage.Settings

/-!
# Runs of the command line

A run reads its arguments, builds the container and tells how it went: progress lines or a JSON
report for the user, and one line for a failure.  It ends with the status 0 after a build, 130 after
an interruption, and 1 after any other failure that is reported.
-/

namespace RomImage

namespace CommandLine

open Console (Work print complain onFiles)

variable [Machine]

variable {ι : Type}

inductive Exit where
  | status (code : Nat)
  | shown
  deriving DecidableEq, Repr

def programLine (text : String) : String :=
  program ++ ": " ++ text ++ "\n"

def report (text : String) : Work ι Unit :=
  complain (programLine text)

def rule : Target → Except Failure Rule
  | .pad none => .error (.fault .noSizeText)
  | .pad (some size) =>
    match readSize size with
    | .ok size => Rule.pad (.integer size)
    | .error failure => .error failure
  | .stc => .ok Rule.stc
  | .pak3 => .ok Rule.pak3

def prepare (target : Target) : Work ι Rule := do
  let rule ← Task.ofExcept (rule target)
  let _ ← Task.buffer
  return rule

def label (rule : Rule) : String :=
  if rule.spec.title.isEmpty then "image" else rule.spec.title ++ " image"

def startLine (rule : Rule) (invocation : Invocation) : Except Failure String :=
  match Text.decimal? (rule.targetSize / 1024 : Nat) with
  | none => .error (.misuse .unprintableNumber)
  | some size =>
    .ok (s!"# Padding {invocation.source.shown} to {size} KB {label rule} into " ++
      invocation.destination.shown ++ "\n")

def doneLine (summary : Summary) (invocation : Invocation) : Except Failure String :=
  match Text.decimal? summary.freeBytes with
  | none => .error (.misuse .unprintableNumber)
  | some free => .ok s!"# {invocation.destination.shown} done ({free} bytes free)\n"

def reportText (summary : Summary) (invocation : Invocation) : Except Failure String :=
  match invocation.source, invocation.destination with
  | some source, some destination =>
    match Report.ofSummary summary source destination with
    | .error issues => .error (.rejected issues)
    | .ok report => .ok (report.toJson.render (.indented 2) ++ "\n")
  | _, _ => .error (.fault .noPath)

def printMade (made : Except Failure String) : Work ι Unit := do
  print (← Task.ofExcept made)

def execute (threshold : Nat) (invocation : Invocation) : Work ι Nat := do
  match ← (prepare invocation.target).attempt with
  | .error (.fault fault) => .fail (.fault fault)
  | .error failure =>
    report failure.message
    return 1
  | .ok rule =>
    if !invocation.json then printMade (startLine rule invocation)
    let build := Build.named rule invocation.source invocation.destination
    match ← (onFiles threshold (programLine ·.text) build).attempt with
    | .error (.build error) =>
      report error.message
      return 1
    | .error failure => .fail failure
    | .ok summary =>
      printMade <|
        if invocation.json then reportText summary invocation else doneLine summary invocation
      return 0

def work (settings : Settings) (arguments : List String) : Work ι Exit := do
  match readArguments arguments with
  | .error (.usage detail) =>
    report (BuildError.usage detail).message
    complain usageText
    return .status 1
  | .error (.shown text) =>
    print text
    return .shown
  | .ok invocation =>
    match ← (execute (Settings.threshold settings.logLevel) invocation).attempt with
    | .ok code => return .status code
    | .error (.fault .interrupt) =>
      report "interrupted"
      return .status 130
    | .error failure => .fail failure

def dialogue (settings : Settings) (arguments : List String) :
    Dialogue (Console.interface ι) (Except Failure Exit) :=
  (work settings arguments (.pending settings.bufferSize)).bind fun result => .done result.1

end CommandLine

end RomImage
