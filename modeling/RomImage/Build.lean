import RomImage.Files
import RomImage.Rule

/-!
# Builds

A build owns the files of one run: it opens the source, then the destination, lets the rule work,
and closes the destination before the source.  A failure after the destination was opened removes
the destination before it is reported.  A failed removal is noted and never reported, and so is a
failed close during a failure; the first failure is the one that is reported.

A file may be without a path: it cannot be opened, and the build fails when its turn comes.
-/

namespace RomImage

namespace Build

open Files

variable [Machine]

variable {ι : Type}

def openAt (side : Side) (path : String) : Work ι ι := do
  match ← openFile side path with
  | .ok file => return file
  | .error fault =>
    if fault.isSystem then .fail (.build (.openFailure path fault.reason))
    else .fail (.fault fault)

def closeAt (file : ι) (path : String) : Work ι Unit := do
  match ← close file with
  | .ok () => return ()
  | .error fault =>
    if fault.isSystem then .fail (.build (.closeFailure path fault.reason))
    else .fail (.fault fault)

/-- Closes a file of a build that has failed already: only an interruption is a further failure. -/
def closeAfterFailure (file : ι) (path : String) : Work ι Unit := do
  match ← close file with
  | .ok () => return ()
  | .error .interrupt => .fail (.fault .interrupt)
  | .error fault => note (.closeFailed path fault.reason)

def discard (path : String) : Work ι Unit := do
  match ← remove path with
  | .ok () => note (.removed path)
  | .error fault =>
    if fault.isMissingFile then return ()
    else if fault.isSystem then note (.removalFailed path fault.reason)
    else .fail (.fault fault)

/-- Whether a failure of closing the destination is one after which the output is removed. -/
def isCloseFailure : Failure → Bool
  | .build (.closeFailure _ _) => true
  | _ => false

def into (rule : Rule) (source : Stream.Channel ι) (path : String) : Work ι Summary := do
  let dest ← openAt .dest path
  match ← (onStreams (rule.apply source (channel dest path))).attempt with
  | .error failure =>
    closeAfterFailure dest path
    discard path
    .fail failure
  | .ok summary =>
    match ← (closeAt dest path).attempt with
    | .ok () => return summary
    | .error failure =>
      if isCloseFailure failure then discard path
      .fail failure

def withSource (path : String) (body : Stream.Channel ι → Work ι Summary) : Work ι Summary := do
  let source ← openAt .source path
  match ← (body (channel source path)).attempt with
  | .error failure =>
    closeAfterFailure source path
    .fail failure
  | .ok summary =>
    closeAt source path
    return summary

/-- Builds the container of the file at `sourcePath` into the file at `destPath`. -/
def files (rule : Rule) (sourcePath destPath : String) : Work ι Summary := do
  let _ ← Task.buffer
  let summary ← withSource sourcePath fun source => into rule source destPath
  note (.built summary.kind destPath summary.containerSize summary.freeBytes)
  return summary

def refuse (side : Side) : Work ι Summary := do
  let fault ← openUnnamed side
  .fail (.fault (if fault.isSystem then .noPath else fault))

/-- Builds from and into files of which either may be without a path: opening such a file fails. -/
def named (rule : Rule) (sourcePath destPath : Option String) : Work ι Summary :=
  match sourcePath, destPath with
  | some sourcePath, some destPath => files rule sourcePath destPath
  | some sourcePath, none => do
    let _ ← Task.buffer
    withSource sourcePath fun _ => refuse .dest
  | none, _ => do
    let _ ← Task.buffer
    refuse .source

end Build

end RomImage
