import RomImage.Proofs.Container
import RomImage.Rule

/-!
# Rules that fit their specifications

A layout uses some parts of a specification and does not look at the others. A rule is *matched* if
its specification is well-formed and has just the parts that the layout uses. The rules that come
with the tool are matched, plain padding to every size among them.
-/

namespace RomImage

def Layout.Fits : Layout → Spec → Prop
  | .padded, spec => spec.lead = none ∧ spec.patch = none
  | .led, spec => spec.lead.isSome ∧ spec.patch = none
  | .patched, spec => spec.lead = none ∧ spec.patch.isSome

namespace Rule

/-- The specification keeps its own rules and has just the parts that the layout uses. -/
structure Matched (rule : Rule) : Prop where
  wellFormed : rule.spec.WellFormed
  fits : rule.layout.Fits rule.spec

inductive IsShipped : Rule → Prop
  | pad {size : Datum} {rule : Rule} (hpad : Rule.pad size = .ok rule) : IsShipped rule
  | pak3 : IsShipped Rule.pak3
  | stc : IsShipped Rule.stc

theorem ofSpec_eq_ok {layout : Layout} {spec : Spec} {rule : Rule}
    (hrule : ofSpec layout spec = .ok rule) : rule.layout = layout ∧ rule.spec = spec := by
  rw [ofSpec] at hrule
  split at hrule
  · obtain rfl := Except.ok.inj hrule
    exact ⟨rfl, rfl⟩
  · exact absurd hrule (by simp)

theorem pad_eq_ok {size : Datum} {rule : Rule} (hpad : pad size = .ok rule) :
    rule.layout = .padded ∧ Table.pad.withTargetSize size = .ok rule.spec := by
  rw [pad] at hpad
  cases hspec : Table.pad.withTargetSize size with
  | error issues =>
      rw [hspec] at hpad
      exact absurd hpad (by simp)
  | ok spec =>
      rw [hspec] at hpad
      obtain ⟨hlayout, rfl⟩ := ofSpec_eq_ok hpad
      exact ⟨hlayout, rfl⟩

/-- Plain padding can be had to every size. -/
theorem pad_integer (size : Nat) : ∃ rule, pad (.integer size) = .ok rule ∧
    rule.spec = { Table.pad with targetSize := some size } := by
  have hread : Datum.nullable Datum.readSize (.integer size) = .ok (some size) :=
    congrArg (Except.map some) (Datum.readSize_natCast size)
  have hspec : Table.pad.withTargetSize (.integer size)
      = .ok { Table.pad with targetSize := some size } := by
    rw [Spec.withTargetSize, hread]
    rfl
  rw [pad, hspec]
  exact ⟨⟨.padded, _, size, rfl⟩, rfl, rfl⟩

theorem IsShipped.matched {rule : Rule} (hshipped : rule.IsShipped) : rule.Matched := by
  cases hshipped with
  | pad hpad =>
      obtain ⟨hlayout, hspec⟩ := pad_eq_ok hpad
      obtain ⟨target, hresized, -⟩ := Spec.withTargetSize_eq_ok hspec
      refine ⟨(Kind.wellFormed_spec .pad).withTargetSize hspec, ?_⟩
      rw [hlayout, hresized]
      exact ⟨rfl, rfl⟩
  | pak3 => exact ⟨Kind.wellFormed_spec .pak3, rfl, rfl⟩
  | stc => exact ⟨Kind.wellFormed_spec .stc, rfl, rfl⟩

/-- There is memory for a container that may have to be staged. -/
theorem IsShipped.memory [Machine] {rule : Rule} (hshipped : rule.IsShipped)
    (hlayout : rule.layout = .patched) : rule.containerSize < Machine.memory := by
  cases hshipped with
  | pad hpad => exact absurd ((pad_eq_ok hpad).1.symm.trans hlayout) (by simp)
  | pak3 =>
      have hsize : Rule.pak3.containerSize < Nat.pow 2 20 := by decide
      exact Nat.lt_of_lt_of_le hsize Machine.mebibyte_le
  | stc => exact absurd hlayout (by decide)

/-- Where a patch is laid there is one, and nothing in front. -/
theorem Matched.of_patched {rule : Rule} (hmatched : rule.Matched)
    (hlayout : rule.layout = .patched) :
    rule.spec.lead = none ∧ ∃ patch, rule.spec.patch = some patch := by
  have hfits := hmatched.fits
  rw [hlayout] at hfits
  exact ⟨hfits.1, Option.isSome_iff_exists.mp hfits.2⟩

theorem Matched.patch_eq_none {rule : Rule} (hmatched : rule.Matched)
    (hlayout : rule.layout ≠ .patched) : rule.spec.patch = none := by
  have hfits := hmatched.fits
  cases hrule : rule.layout with
  | patched => exact absurd hrule hlayout
  | padded =>
      rw [hrule] at hfits
      exact hfits.2
  | led =>
      rw [hrule] at hfits
      exact hfits.2

theorem ceiling_le {rule : Rule} (hwellFormed : rule.spec.WellFormed) :
    rule.ceiling ≤ rule.targetSize := by
  obtain ⟨_, -, rfl, hle⟩ := hwellFormed.ceiling_le rule.targetSize_eq
  exact hle

theorem Matched.ceiling_le {rule : Rule} (hmatched : rule.Matched) :
    rule.ceiling ≤ rule.targetSize :=
  Rule.ceiling_le hmatched.wellFormed

end Rule

end RomImage
