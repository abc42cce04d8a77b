import RomImage.Container.Table
import RomImage.Stream.Staging

/-!
# Rules

A rule builds the container of a specification.  The outer steps are the same for all: measure the
image, refuse it if it is too large, lay out the bytes, and report what was built.  The layouts
differ: an image with zeros behind it, the same with bytes in front, and the same with a patch.

The image is measured before a byte is written, and an image above the ceiling is never cut.  The
ceiling and the target size are two numbers, and the free space counts from the ceiling.
-/

namespace RomImage

variable [Machine]

inductive Layout where
  | padded
  | led
  | patched
  deriving DecidableEq, Repr

def Kind.layout : Kind → Layout
  | .pad => .padded
  | .pak3 => .patched
  | .stc => .led

/-- A layout for a specification that has a target size. -/
structure Rule where
  layout : Layout
  spec : Spec
  targetSize : Nat
  targetSize_eq : spec.targetSize = some targetSize

structure Summary where
  kind : Kind
  sourceSize : Int
  containerSize : Int
  freeBytes : Int
  deriving DecidableEq, Repr

namespace Rule

/-- The rule with a layout for a specification, which needs a target size. -/
def ofSpec (layout : Layout) (spec : Spec) : Except Failure Rule :=
  match h : spec.targetSize with
  | some targetSize => .ok ⟨layout, spec, targetSize, h⟩
  | none => .error (.misuse (.missingTarget spec.kind))

def pad (size : Datum) : Except Failure Rule :=
  match Table.pad.withTargetSize size with
  | .ok spec => ofSpec .padded spec
  | .error issues => .error (.rejected issues)

def pak3 : Rule := ⟨.patched, Table.pak3, 512 * kib, rfl⟩

def stc : Rule := ⟨.led, Table.stc, 128 * kib, rfl⟩

def ceiling (rule : Rule) : Nat :=
  rule.spec.maxInputSize.getD rule.targetSize

def containerSize (rule : Rule) : Nat :=
  rule.spec.leadSize + rule.targetSize

section Steps

open RomImage.Stream

variable {ι : Type}

def layImage (rule : Rule) (source dest : Channel ι) (size : Int) : Work ι Unit := do
  copy source dest size
  fill dest 0 (rule.targetSize - size)

/-- Writes the patch over the container and moves to the end of the stream. -/
def layPatch (rule : Rule) (dest : Channel ι) : Work ι Unit := do
  match rule.spec.patch with
  | none => .fail (.misuse .missingPatch)
  | some patch =>
    let _ ← moveTo dest patch.offset fromStart
    writeAll dest patch.data
    let _ ← moveTo dest 0 fromEnd
    note (.patched patch.data.length patch.offset)

def lay (rule : Rule) (source dest : Channel ι) (size : Int) : Work ι Unit := do
  match rule.layout with
  | .padded => rule.layImage source dest size
  | .led =>
    match rule.spec.lead with
    | none => .fail (.misuse .missingLead)
    | some lead =>
      fill dest lead.fill.toNat lead.count
      rule.layImage source dest size
  | .patched =>
    if ← canMove dest then
      rule.layImage source dest size
      rule.layPatch dest
    else
      note .staging
      staged do
        rule.layImage (source.mapHandle some) stagingChannel size
        rule.layPatch stagingChannel
        move stagingChannel 0 fromStart
        copy stagingChannel (dest.mapHandle some) rule.containerSize

/-- Builds the container of the image in `source` into `dest`. -/
def apply (rule : Rule) (source dest : Channel ι) : Work ι Summary := do
  let _ ← Task.buffer
  match ← measure source with
  | none => .fail (.misuse .unknownSize)
  | some size =>
    if rule.ceiling < size then .fail (.imageTooLarge source.name size rule.ceiling)
    else
      note (.building rule.spec.kind size rule.ceiling rule.containerSize)
      rule.lay source dest size
      return ⟨rule.spec.kind, size, rule.containerSize, rule.ceiling - size⟩

end Steps

end Rule

end RomImage
