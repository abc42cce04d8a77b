import RomImage.Datum

/-!
# Container specifications

A specification says how a container of one kind is laid out: how large the image area is, how large
an image may be, which bytes stand in front of the area, and which bytes are patched over it.

`Spec.WellFormed` states the rules that tie these numbers together, `Spec.conflict?` finds the rule
that is broken, and `Spec.read` takes unchecked data to a well-formed specification or to everything
that is wrong with them.
-/

namespace RomImage

/-- Bytes of one value in front of the image area. -/
structure Lead where
  count : Nat
  fill : UInt8
  deriving DecidableEq, Repr

/-- Bytes written over the finished container at an offset of it. -/
structure Patch where
  offset : Nat
  data : Bytes
  deriving DecidableEq, Repr

def Patch.stop (patch : Patch) : Nat :=
  patch.offset + patch.data.length

structure Spec where
  kind : Kind
  title : String
  targetSize : Option Nat
  /-- The size of the largest accepted image, where it is less than the area. -/
  maxInputSize : Option Nat
  lead : Option Lead
  patch : Option Patch
  deriving DecidableEq, Repr

namespace Spec

def leadSize (spec : Spec) : Nat :=
  match spec.lead with
  | some lead => lead.count
  | none => 0

def ceiling (spec : Spec) : Option Nat :=
  spec.maxInputSize.or spec.targetSize

def containerSize (spec : Spec) : Option Nat :=
  spec.targetSize.map (spec.leadSize + ·)

/-- The rules for the numbers of a specification. -/
structure WellFormed (spec : Spec) : Prop where
  limit_le_target : ∀ limit ∈ spec.maxInputSize, ∀ target ∈ spec.targetSize, limit ≤ target
  patch_nonempty : ∀ patch ∈ spec.patch, patch.data ≠ []
  patch_inside : ∀ patch ∈ spec.patch, ∃ target ∈ spec.targetSize,
    patch.stop ≤ spec.leadSize + target

/-- The first rule between the fields that is broken. -/
def conflict? (spec : Spec) : Option Conflict :=
  let limitConflict : Option Conflict :=
    match spec.maxInputSize, spec.targetSize with
    | some limit, some target =>
      if target < limit then some (.limitAboveTarget limit target) else none
    | _, _ => none
  let patchConflict : Option Conflict :=
    match spec.patch, spec.containerSize with
    | none, _ => none
    | some _, none => some .patchWithoutTarget
    | some patch, some container =>
      if container < patch.stop then some (.patchPastEnd patch.stop container) else none
  limitConflict.or patchConflict

def settle (spec : Spec) : Checked Spec :=
  match spec.conflict? with
  | none => .ok spec
  | some conflict => .refuse (.conflict conflict)

def readLead : Datum → Checked Lead
  | .fields entries =>
    ((Datum.required entries "count" Datum.readSize).both
      (Datum.optional entries "fill" 0 Datum.readByte)).map
        fun (count, fill) => ⟨count, fill⟩
  | _ => .refuse (.notARecord "PrefixSpec")

def readPatch : Datum → Checked Patch
  | .fields entries =>
    ((Datum.required entries "offset" Datum.readSize).both
      (Datum.required entries "data" Datum.readBytes)).map
        fun (offset, data) => ⟨offset, data⟩
  | _ => .refuse (.notARecord "PatchSpec")

/--
Reads a specification.  All issues of the fields are reported, in the order of the fields; the rules
between the fields are looked at when the fields have none.
-/
def read : Datum → Checked Spec
  | .fields entries =>
    ((Datum.required entries "kind" Datum.readKind).both <|
      (Datum.required entries "title" Datum.readText).both <|
      (Datum.optional entries "target_size" none (Datum.nullable Datum.readSize)).both <|
      (Datum.optional entries "max_input_size" none (Datum.nullable Datum.readSize)).both <|
      (Datum.optional entries "prefix" none (Datum.nullable readLead)).both
      (Datum.optional entries "patch" none (Datum.nullable readPatch))).bind
        fun (kind, title, target, limit, lead, patch) =>
          settle ⟨kind, title, target, limit, lead, patch⟩
  | _ => .refuse (.notARecord "TargetSpec")

/-- The specification with another target size, if it keeps the rules. -/
def withTargetSize (spec : Spec) (size : Datum) : Checked Spec :=
  (Checked.within "target_size" (Datum.nullable Datum.readSize size)).bind fun target =>
    settle { spec with targetSize := target }

/-- A specification cannot be changed in place: every attempt is refused at the field. -/
def assign (_ : Spec) (field : String) (_ : Datum) : Checked Spec :=
  Checked.within field (.refuse .frozen)

end Spec

end RomImage
