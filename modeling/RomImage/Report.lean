import RomImage.Json
import RomImage.Rule

/-!
# Build reports

A build report says in a fixed shape what a successful build made.  `Report.read` admits unchecked
values to a report, `Report.toJson` writes it, and `Report.schema` describes its shape.
-/

namespace RomImage

structure Report where
  kind : Kind
  source : String
  destination : String
  sourceSize : Nat
  containerSize : Nat
  freeBytes : Nat
  deriving DecidableEq, Repr

namespace Report

/-- Admits a kind and three sizes of unchecked shape, and the two paths; all issues are reported. -/
def read (kind : Datum) (source destination : String)
    (sourceSize containerSize freeBytes : Datum) : Checked Report :=
  ((Checked.within "kind" (Datum.readKind kind)).both <|
    (Checked.within "source_size" (Datum.readSize sourceSize)).both <|
    (Checked.within "container_size" (Datum.readSize containerSize)).both
    (Checked.within "free_bytes" (Datum.readSize freeBytes))).map
      fun (kind, sourceSize, containerSize, freeBytes) =>
        ⟨kind, source, destination, sourceSize, containerSize, freeBytes⟩

def ofSummary (summary : Summary) (source destination : String) : Checked Report :=
  read (.text summary.kind.name) source destination (.integer summary.sourceSize)
    (.integer summary.containerSize) (.integer summary.freeBytes)

def toJson (report : Report) : Json :=
  .object
    [("kind", .text report.kind.name),
     ("source", .text report.source),
     ("destination", .text report.destination),
     ("source_size", .number report.sourceSize),
     ("container_size", .number report.containerSize),
     ("free_bytes", .number report.freeBytes)]

/-- The style with lines indented by a width, or without lines; no width is negative. -/
def style (indent : Option Int) : Except Failure Json.Style :=
  match indent with
  | none => .ok .compact
  | some width =>
    if width < 0 then .error (.fault .negativeIndent) else .ok (.indented width.toNat)

def pathSchema (title description : String) : Json :=
  .object [("description", .text description), ("title", .text title), ("type", .text "string")]

def sizeSchema (title description : String) : Json :=
  .object
    [("description", .text description), ("minimum", .number 0), ("title", .text title),
     ("type", .text "integer")]

def schema : Json :=
  .object
    [("$defs", .object
      [("TargetKind", .object
        [("description", .text "Known container kinds. Values double as command names."),
         ("enum", .array (Kind.all.map fun kind => .text kind.name)),
         ("title", .text "TargetKind"),
         ("type", .text "string")])]),
     ("description", .text "Summary of one successful container build."),
     ("properties", .object
      [("kind", .object
        [("$ref", .text "#/$defs/TargetKind"),
         ("description", .text "Container kind that was built.")]),
       ("source", pathSchema "Source" "Path of the input image."),
       ("destination", pathSchema "Destination" "Path of the produced container."),
       ("source_size", sizeSchema "Source Size" "Size of the input image in bytes."),
       ("container_size",
        sizeSchema "Container Size" "Size of the produced container in bytes."),
       ("free_bytes", sizeSchema "Free Bytes" "Room left below the kind's size ceiling.")]),
     ("required", .array
      (["kind", "source", "destination", "source_size", "container_size", "free_bytes"].map .text)),
     ("title", .text "TransformReport"),
     ("type", .text "object")]

end Report

end RomImage
