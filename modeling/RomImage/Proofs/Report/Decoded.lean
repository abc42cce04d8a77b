import RomImage.Proofs.Json.Written
import RomImage.Proofs.Report

/-!
# What the text of a report tells

A report is written on one line, or over lines with any indent that is not negative. Whoever reads
that text as JSON gets the six members in order, each with the value that was reported
(`toJson_decodes`). The text alone thus tells the whole report, and no other report has it.
-/

namespace RomImage

theorem Kind.name_injective {kind other : Kind} (hname : kind.name = other.name) :
    kind = other := by
  have hkind := Kind.ofName?_name kind
  rw [hname, Kind.ofName?_name] at hkind
  exact (Option.some.inj hkind).symm

namespace Report

variable {summary : Summary} {source destination : String} {report : Report}

/-- Every indent but a negative one gives a style, and so does none at all. -/
theorem exists_style {indent : Option Int} :
    (∃ style, Report.style indent = .ok style) ↔ ∀ width ∈ indent, 0 ≤ width := by
  cases indent with
  | none => simp [style]
  | some width =>
    by_cases hwidth : width < 0
    · simp [style, hwidth]
    · simp [style, hwidth, Int.not_lt.mp hwidth]

/-- Two reports with the same members are the same report. -/
theorem toJson_injective {other : Report} (hsame : report.toJson = other.toJson) :
    report = other := by
  cases report
  cases other
  simp only [toJson, Json.object.injEq, List.cons.injEq, Prod.mk.injEq, Json.text.injEq,
    Json.number.injEq, Int.natCast_inj, true_and, and_true] at hsame
  obtain ⟨hname, rfl, rfl, rfl, rfl, rfl⟩ := hsame
  rw [Kind.name_injective hname]

/-- The members of an admitted report are those of the summary, with the two paths. -/
theorem toJson_of_admitted (hadmitted : ofSummary summary source destination = .ok report) :
    report.toJson = .object
      [("kind", .text summary.kind.name),
       ("source", .text source),
       ("destination", .text destination),
       ("source_size", .number summary.sourceSize),
       ("container_size", .number summary.containerSize),
       ("free_bytes", .number summary.freeBytes)] := by
  obtain ⟨hkind, hsource, hdestination, hsourceSize, hcontainer, hfree⟩ :=
    ofSummary_eq_ok.mp hadmitted
  rw [toJson, hkind, hsource, hdestination, hsourceSize, hcontainer, hfree]

/-- What the text of a report tells, whatever its style. -/
structure Decoded (summary : Summary) (source destination : String) (report : Report) : Prop where
  admitted : ofSummary summary source destination = .ok report
  styled : ∀ indent, (∃ style, Report.style indent = .ok style) ↔ ∀ width ∈ indent, 0 ≤ width
  /-- In every style the text is one object with six members in the order of declaration. -/
  read : ∀ style, Json.read? (report.toJson.render style) = some (.object
    [("kind", .text summary.kind.name),
     ("source", .text source),
     ("destination", .text destination),
     ("source_size", .number summary.sourceSize),
     ("container_size", .number summary.containerSize),
     ("free_bytes", .number summary.freeBytes)])
  /-- No other report has the text, even in another style. -/
  alone : ∀ style other otherStyle,
    report.toJson.render style = other.toJson.render otherStyle → report = other

/-- **The text of a report is read as what was reported.** A summary of any kind without negative
sizes, however large, is admitted to a report with any two paths, whatever characters these hold.
Its text is there on one line and with every indent that is not negative. Read as JSON it is one
object of the six members in order, with the kind, the paths and the sizes for their values; and
two reports that differ have no text in common. -/
theorem toJson_decodes (summary : Summary) (hsource : 0 ≤ summary.sourceSize)
    (hcontainer : 0 ≤ summary.containerSize) (hfree : 0 ≤ summary.freeBytes)
    (source destination : String) :
    ∃ report, Decoded summary source destination report := by
  obtain ⟨report, hadmitted⟩ := exists_ofSummary hsource hcontainer hfree source destination
  refine ⟨report, hadmitted, fun indent => exists_style, fun style => ?_, ?_⟩
  · rw [Json.read?_render, toJson_of_admitted hadmitted]
  · intro style other otherStyle hsame
    exact toJson_injective (Json.render_injective hsame)

/-- Quotes, a backslash, controls and characters beyond the first plane come back as they are. -/
theorem toJson_decodes_escaped :
    ∃ report, Decoded ⟨.pad, 1180591620717411303424, 1180591620717411303936, 512⟩
        "\"a\\b\"\n\x01" "é😀" report ∧
      report.toJson.render .compact =
        "\x7b\"kind\":\"pad\",\"source\":\"\\\"a\\\\b\\\"\\n\\u0001\",\"destination\":\"é😀\"," ++
          "\"source_size\":1180591620717411303424,\"container_size\":1180591620717411303936," ++
          "\"free_bytes\":512\x7d" := by
  obtain ⟨report, hdecoded⟩ :=
    toJson_decodes ⟨.pad, 1180591620717411303424, 1180591620717411303936, 512⟩ (by decide)
      (by decide) (by decide) "\"a\\b\"\n\x01" "é😀"
  refine ⟨report, hdecoded, ?_⟩
  rw [toJson_of_admitted hdecoded.admitted]
  cbv

end Report

end RomImage
