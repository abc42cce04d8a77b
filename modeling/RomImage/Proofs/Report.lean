import RomImage.Proofs.Container
import RomImage.Report

/-!
# Admission to a report

A report takes the kind and the paths as they are, and sizes that are not negative.
-/

namespace RomImage

namespace Report

variable {summary : Summary} {report : Report}

/-- A summary is admitted if and only if none of its sizes is negative, and the report tells what it
told. -/
theorem ofSummary_eq_ok {source destination : String} :
    ofSummary summary source destination = .ok report ↔
      report.kind = summary.kind ∧ report.source = source ∧ report.destination = destination ∧
        (report.sourceSize : Int) = summary.sourceSize ∧
        (report.containerSize : Int) = summary.containerSize ∧
        (report.freeBytes : Int) = summary.freeBytes := by
  have hkind {kind : Kind} :
      Datum.readKind (.text summary.kind.name) = .ok kind ↔ kind = summary.kind := by
    rw [Datum.readKind_name.mpr rfl, Except.ok.injEq, eq_comm]
  simp only [ofSummary, read, Checked.map_eq_ok, Checked.both_eq_ok, Checked.within_eq_ok, hkind,
    Datum.readSize_integer, Int.ofNat_eq_natCast]
  constructor
  · rintro ⟨⟨kind, sourceSize, containerSize, freeBytes⟩, ⟨rfl, hsizes⟩, rfl⟩
    exact ⟨rfl, rfl, rfl, hsizes⟩
  · rintro ⟨hkind, rfl, rfl, hsizes⟩
    exact ⟨(report.kind, report.sourceSize, report.containerSize, report.freeBytes),
      ⟨hkind, hsizes⟩, rfl⟩

/-- The report of a summary without negative sizes. -/
theorem exists_ofSummary (hsource : 0 ≤ summary.sourceSize)
    (hcontainer : 0 ≤ summary.containerSize) (hfree : 0 ≤ summary.freeBytes)
    (source destination : String) :
    ∃ report, ofSummary summary source destination = .ok report := by
  obtain ⟨sourceSize, hsource⟩ := Int.eq_ofNat_of_zero_le hsource
  obtain ⟨containerSize, hcontainer⟩ := Int.eq_ofNat_of_zero_le hcontainer
  obtain ⟨freeBytes, hfree⟩ := Int.eq_ofNat_of_zero_le hfree
  exact ⟨⟨summary.kind, source, destination, sourceSize, containerSize, freeBytes⟩,
    ofSummary_eq_ok.mpr ⟨rfl, rfl, rfl, hsource.symm, hcontainer.symm, hfree.symm⟩⟩

end Report

end RomImage
