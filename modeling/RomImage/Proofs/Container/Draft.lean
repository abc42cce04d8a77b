import Mathlib.Data.Option.Basic
import RomImage.Proofs.Container

/-!
# Which records are specifications

A record that gives a known kind, a title, and numbers and bytes for whatever else it gives shows a
draft (`Draft`): the same fields as a specification, with integers that nobody has checked. A draft
is lawful if each number has its range and the rules between the fields hold (`Draft.Lawful`).

A record is read as a specification with just the numbers of its draft, where these are well-formed
(`Draft.IsShownBy.read_eq_ok`). The drafts of well-formed specifications are the lawful ones
(`Draft.lawful_iff`), so the record of a draft is accepted if and only if the draft is lawful.
-/

namespace RomImage

structure LeadDraft where
  count : Int
  fill : Int

structure PatchDraft where
  offset : Int
  data : Bytes

structure Draft where
  kind : Kind
  title : String
  targetSize : Option Int
  maxInputSize : Option Int
  lead : Option LeadDraft
  patch : Option PatchDraft

namespace Draft

def leadCount (draft : Draft) : Int :=
  match draft.lead with
  | some lead => lead.count
  | none => 0

/-- Each number has its range, and the rules between the fields hold. -/
structure Lawful (draft : Draft) : Prop where
  target_nonneg : ∀ target ∈ draft.targetSize, 0 ≤ target
  limit_nonneg : ∀ limit ∈ draft.maxInputSize, 0 ≤ limit
  count_nonneg : ∀ lead ∈ draft.lead, 0 ≤ lead.count
  fill_byte : ∀ lead ∈ draft.lead, 0 ≤ lead.fill ∧ lead.fill ≤ 255
  offset_nonneg : ∀ patch ∈ draft.patch, 0 ≤ patch.offset
  data_nonempty : ∀ patch ∈ draft.patch, patch.data ≠ []
  limit_le_target : ∀ limit ∈ draft.maxInputSize, ∀ target ∈ draft.targetSize, limit ≤ target
  patch_inside : ∀ patch ∈ draft.patch, ∃ target ∈ draft.targetSize,
    patch.offset + patch.data.length ≤ draft.leadCount + target

end Draft

inductive Datum.IsInteger : Int → Datum → Prop
  | integer (value : Int) : IsInteger value (.integer value)

inductive LeadDraft.IsShownBy : LeadDraft → Datum → Prop
  | filled {entries : List (String × Datum)} {count fill : Int}
      (hcount : Datum.field? entries "count" = some (.integer count))
      (hfill : Datum.field? entries "fill" = some (.integer fill)) :
      IsShownBy ⟨count, fill⟩ (.fields entries)
  | zeros {entries : List (String × Datum)} {count : Int}
      (hcount : Datum.field? entries "count" = some (.integer count))
      (hfill : Datum.field? entries "fill" = none) :
      IsShownBy ⟨count, 0⟩ (.fields entries)

inductive PatchDraft.IsShownBy : PatchDraft → Datum → Prop
  | patched {entries : List (String × Datum)} {offset : Int} {data : Bytes}
      (hoffset : Datum.field? entries "offset" = some (.integer offset))
      (hdata : Datum.field? entries "data" = some (.bytes data)) :
      IsShownBy ⟨offset, data⟩ (.fields entries)

/-- A record gives a draft. A field for a part that the draft lacks may be absent or null, and there
may be other fields. -/
inductive Draft.IsShownBy (draft : Draft) : Datum → Prop
  | shown {entries : List (String × Datum)}
      (hkind : Datum.field? entries "kind" = some (.text draft.kind.name))
      (htitle : Datum.field? entries "title" = some (.text draft.title))
      (htarget : Option.Rel Datum.IsInteger draft.targetSize (Datum.given? entries "target_size"))
      (hlimit : Option.Rel Datum.IsInteger draft.maxInputSize
        (Datum.given? entries "max_input_size"))
      (hlead : Option.Rel LeadDraft.IsShownBy draft.lead (Datum.given? entries "prefix"))
      (hpatch : Option.Rel PatchDraft.IsShownBy draft.patch (Datum.given? entries "patch")) :
      IsShownBy draft (.fields entries)

def Lead.draft (lead : Lead) : LeadDraft := ⟨lead.count, lead.fill.toNat⟩

def Patch.draft (patch : Patch) : PatchDraft := ⟨patch.offset, patch.data⟩

def Spec.draft (spec : Spec) : Draft :=
  ⟨spec.kind, spec.title, spec.targetSize.map Int.ofNat, spec.maxInputSize.map Int.ofNat,
    spec.lead.map Lead.draft, spec.patch.map Patch.draft⟩

theorem rel_iff_map_eq {α β : Type} {f : β → α} {given : Option α} {value : Option β} :
    Option.Rel (fun a b => f b = a) given value ↔ value.map f = given := by
  cases given <;> cases value <;> simp

theorem rel_iff_map_eq_and {α β : Type} {f : β → α} {P : β → Prop} {given : Option α}
    {value : Option β} : Option.Rel (fun a b => f b = a ∧ P b) given value ↔
      value.map f = given ∧ ∀ b ∈ value, P b := by
  cases given <;> cases value <;> simp

namespace Datum

theorem IsInteger.readSize_eq_ok {value : Int} {datum : Datum} {size : Nat}
    (hvalue : IsInteger value datum) : readSize datum = .ok size ↔ Int.ofNat size = value := by
  cases hvalue
  exact readSize_integer

/-- A field is read as what it shows becomes. -/
theorem nullable_eq_ok_iff {α β : Type} {IsShownBy : α → Datum → Prop} {read : Datum → Checked β}
    {Becomes : α → β → Prop} {entries : List (String × Datum)} {name : String} {shown : Option α}
    (hshown : Option.Rel IsShownBy shown (given? entries name)) {value : Option β}
    (hread : ∀ shown datum value, IsShownBy shown datum →
      (read datum = .ok value ↔ Becomes shown value)) :
    optional entries name none (nullable read) = .ok value ↔ Option.Rel Becomes shown value := by
  rw [nullable_eq_ok]
  generalize given? entries name = given at hshown
  cases hshown with
  | none => cases value <;> simp
  | some hpresent => cases value <;> simp [hread _ _ _ hpresent]

end Datum

theorem LeadDraft.IsShownBy.readLead_eq_ok {shown : LeadDraft} {datum : Datum} {lead : Lead}
    (hshown : shown.IsShownBy datum) :
    Spec.readLead datum = .ok lead ↔ lead.draft = shown := by
  rw [Spec.readLead_eq_ok]
  cases hshown with
  | filled hcount hfill =>
      simp [Datum.required_eq_ok, Datum.optional_eq_ok, hcount, hfill, Datum.readSize_integer,
        Datum.readByte_integer, Lead.draft]
  | zeros hcount hfill =>
      have hzero : 0 = lead.fill ↔ Int.ofNat lead.fill.toNat = 0 := by
        rw [← UInt8.toNat_inj, eq_comm]
        exact Int.natCast_eq_zero.symm
      simp [Datum.required_eq_ok, Datum.optional_eq_ok, hcount, hfill, Datum.readSize_integer,
        Lead.draft, hzero]

theorem PatchDraft.IsShownBy.readPatch_eq_ok {shown : PatchDraft} {datum : Datum} {patch : Patch}
    (hshown : shown.IsShownBy datum) :
    Spec.readPatch datum = .ok patch ↔ patch.draft = shown ∧ patch.data ≠ [] := by
  rw [Spec.readPatch_eq_ok]
  cases hshown with
  | patched hoffset hdata =>
      simp [Datum.required_eq_ok, hoffset, hdata, Datum.readSize_integer, Datum.readBytes_bytes,
        Patch.draft, and_assoc]

/-- A record is read as a specification with the numbers that it shows, where these are
well-formed. -/
theorem Draft.IsShownBy.read_eq_ok {draft : Draft} {datum : Datum} {spec : Spec}
    (hshown : draft.IsShownBy datum) :
    Spec.read datum = .ok spec ↔ spec.draft = draft ∧ spec.WellFormed := by
  obtain ⟨hkind, htitle, htarget, hlimit, hlead, hpatch⟩ := hshown
  rw [Spec.read_eq_ok, Spec.wellFormed_iff, Spec.draft, Draft.mk.injEq]
  simp only [Datum.fields.injEq, exists_eq_left', Datum.required_eq_ok, hkind, htitle,
    Option.some.injEq, Datum.readKind_name, Datum.readText, Except.ok.injEq,
    Datum.nullable_eq_ok_iff htarget fun _ _ _ h => h.readSize_eq_ok,
    Datum.nullable_eq_ok_iff hlimit fun _ _ _ h => h.readSize_eq_ok,
    Datum.nullable_eq_ok_iff hlead fun _ _ _ h => h.readLead_eq_ok,
    Datum.nullable_eq_ok_iff hpatch fun _ _ _ h => h.readPatch_eq_ok,
    rel_iff_map_eq, rel_iff_map_eq_and]
  constructor
  · rintro ⟨hkind, htitle, htarget, hlimit, hlead, ⟨hpatch, hnonempty⟩, hconflict⟩
    exact ⟨⟨hkind, htitle.symm, htarget, hlimit, hlead, hpatch⟩, hconflict, hnonempty⟩
  · rintro ⟨⟨hkind, htitle, htarget, hlimit, hlead, hpatch⟩, hconflict, hnonempty⟩
    exact ⟨hkind, htitle.symm, htarget, hlimit, hlead, ⟨hpatch, hnonempty⟩, hconflict⟩

theorem Spec.leadCount_draft (spec : Spec) : spec.draft.leadCount = spec.leadSize := by
  rw [Draft.leadCount, draft, leadSize]
  cases spec.lead <;> rfl

/-- What would be given for a specification is lawful if and only if the specification is
well-formed. -/
theorem Spec.lawful_draft {spec : Spec} : spec.draft.Lawful ↔ spec.WellFormed := by
  constructor
  · intro hlawful
    have hlimit := hlawful.limit_le_target
    have hnonempty := hlawful.data_nonempty
    have hinside := hlawful.patch_inside
    rw [leadCount_draft] at hinside
    simp only [draft, Option.forall_mem_map, Option.exists_mem_map, Patch.draft]
      at hlimit hnonempty hinside
    refine ⟨fun limit hpresent target htarget => ?_, hnonempty, fun patch hpatch => ?_⟩
    · exact Int.ofNat_le.mp (hlimit limit hpresent target htarget)
    · obtain ⟨target, htarget, hstop⟩ := hinside patch hpatch
      exact ⟨target, htarget, Int.ofNat_le.mp hstop⟩
  · intro hwell
    constructor
    case target_nonneg => exact Option.forall_mem_map.mpr fun size _ => Int.natCast_nonneg size
    case limit_nonneg => exact Option.forall_mem_map.mpr fun size _ => Int.natCast_nonneg size
    case count_nonneg => exact Option.forall_mem_map.mpr fun lead _ => Int.natCast_nonneg lead.count
    case fill_byte =>
      refine Option.forall_mem_map.mpr fun lead _ => ⟨Int.natCast_nonneg _, ?_⟩
      exact Int.ofNat_le.mpr (Nat.le_of_lt_succ lead.fill.toNat_lt)
    case offset_nonneg =>
      exact Option.forall_mem_map.mpr fun patch _ => Int.natCast_nonneg patch.offset
    case data_nonempty => exact Option.forall_mem_map.mpr hwell.patch_nonempty
    case limit_le_target =>
      refine Option.forall_mem_map.mpr fun limit hlimit => Option.forall_mem_map.mpr ?_
      intro target htarget
      exact Int.ofNat_le.mpr (hwell.limit_le_target limit hlimit target htarget)
    case patch_inside =>
      refine Option.forall_mem_map.mpr fun patch hpatch => Option.exists_mem_map.mpr ?_
      obtain ⟨target, htarget, hstop⟩ := hwell.patch_inside patch hpatch
      rw [leadCount_draft]
      exact ⟨target, htarget, Int.ofNat_le.mpr hstop⟩

theorem exists_map_eq {α β : Type} {f : β → α} {given : Option α}
    (hgiven : ∀ a ∈ given, ∃ b, f b = a) : ∃ value : Option β, value.map f = given := by
  cases given with
  | none => exact ⟨none, rfl⟩
  | some a =>
      obtain ⟨b, rfl⟩ := hgiven a rfl
      exact ⟨some b, rfl⟩

/-- A draft whose numbers have their ranges is what would be given for a specification. -/
theorem Draft.Lawful.exists_spec {draft : Draft} (hlawful : draft.Lawful) :
    ∃ spec : Spec, spec.draft = draft := by
  have hnat {value : Int} (hvalue : 0 ≤ value) : ∃ size, Int.ofNat size = value :=
    ⟨value.toNat, Int.toNat_of_nonneg hvalue⟩
  obtain ⟨target, htarget⟩ := exists_map_eq fun size h => hnat (hlawful.target_nonneg size h)
  obtain ⟨limit, hlimit⟩ := exists_map_eq fun size h => hnat (hlawful.limit_nonneg size h)
  obtain ⟨lead, hlead⟩ : ∃ lead : Option Lead, lead.map Lead.draft = draft.lead := by
    refine exists_map_eq fun given hgiven => ?_
    obtain ⟨count, hcount⟩ := hnat (hlawful.count_nonneg given hgiven)
    obtain ⟨hfill, hbyte⟩ := hlawful.fill_byte given hgiven
    refine ⟨⟨count, UInt8.ofNat given.fill.toNat⟩, ?_⟩
    rw [Lead.draft, UInt8.toNat_ofNat', Nat.mod_eq_of_lt (by omega), Int.toNat_of_nonneg hfill,
      ← Int.ofNat_eq_natCast, hcount]
  obtain ⟨patch, hpatch⟩ : ∃ patch : Option Patch, patch.map Patch.draft = draft.patch := by
    refine exists_map_eq fun given hgiven => ?_
    obtain ⟨offset, hoffset⟩ := hnat (hlawful.offset_nonneg given hgiven)
    exact ⟨⟨offset, given.data⟩, by rw [Patch.draft, ← Int.ofNat_eq_natCast, hoffset]⟩
  refine ⟨⟨draft.kind, draft.title, target, limit, lead, patch⟩, ?_⟩
  simp only [Spec.draft, htarget, hlimit, hlead, hpatch]

/-- The lawful drafts are what would be given for the well-formed specifications. -/
theorem Draft.lawful_iff {draft : Draft} :
    draft.Lawful ↔ ∃ spec : Spec, spec.draft = draft ∧ spec.WellFormed := by
  constructor
  · intro hlawful
    obtain ⟨spec, rfl⟩ := hlawful.exists_spec
    exact ⟨spec, rfl, Spec.lawful_draft.mp hlawful⟩
  · rintro ⟨spec, rfl, hwell⟩
    exact Spec.lawful_draft.mpr hwell

namespace Spec

/-- **Which records are specifications.** A record that gives a known kind, a title, and integers
and bytes for whatever else it gives is accepted if and only if all its sizes, counts and offsets
are at least zero, its fill is a byte, its patch has bytes, its limit is at most its target size
where both are given, and its patch comes with a target size and ends inside the container. It is
then read as the numbers that it gives.

Whatever record is accepted with a target size has a ceiling, which is the limit where there is one,
zero or not, and the target size elsewhere. The ceiling is at most the target size, and the target
size at most the size of the container, which is that of the bytes in front more. -/
theorem read_accepts :
    (∀ (draft : Draft) (datum : Datum), draft.IsShownBy datum →
      ((∃ spec, read datum = .ok spec) ↔ draft.Lawful) ∧
        ∀ spec, read datum = .ok spec → spec.draft = draft) ∧
    ∀ (datum : Datum) (spec : Spec) (target : Nat),
      read datum = .ok spec → spec.targetSize = some target →
        ∃ ceiling container, spec.ceiling = some ceiling ∧ spec.containerSize = some container ∧
          (∀ limit, spec.maxInputSize = some limit → ceiling = limit) ∧
          (spec.maxInputSize = none → ceiling = target) ∧
          0 ≤ ceiling ∧ ceiling ≤ target ∧ target ≤ container ∧
          container = spec.leadSize + target := by
  constructor
  · intro draft datum hshown
    refine ⟨?_, fun spec hread => (hshown.read_eq_ok.mp hread).1⟩
    rw [Draft.lawful_iff]
    exact exists_congr fun spec => hshown.read_eq_ok
  · intro datum spec target hread htarget
    obtain ⟨ceiling, hceiling, hlimit, hle⟩ := (wellFormed_of_read hread).ceiling_le htarget
    refine ⟨ceiling, spec.leadSize + target, hceiling, ?_, ?_, ?_, Nat.zero_le _, hle,
      Nat.le_add_left _ _, rfl⟩
    · rw [containerSize, htarget]
      rfl
    · intro limit hsome
      rw [hlimit, hsome, Option.getD_some]
    · intro hnone
      rw [hlimit, hnone, Option.getD_none]

def patchedAt (offset : Int) : Draft :=
  ⟨.pak3, "", some 16, some 0, some ⟨4, 0⟩, some ⟨offset, [1, 2]⟩⟩

def patchedAtRecord (offset : Int) : Datum :=
  .fields [("patch", .fields [("data", .bytes [1, 2]), ("offset", .integer offset)]),
    ("prefix", .fields [("count", .integer 4)]), ("max_input_size", .integer 0),
    ("target_size", .integer 16), ("title", .text ""), ("kind", .text "pak3")]

theorem isShownBy_patchedAtRecord (offset : Int) :
    (patchedAt offset).IsShownBy (patchedAtRecord offset) :=
  .shown rfl rfl (.some (.integer 16)) (.some (.integer 0)) (.some (.zeros rfl rfl))
    (.some (.patched rfl rfl))

/-- A patch may end at the last byte of the container and not behind it, and a limit of zero is
one. -/
theorem read_accepts_last :
    (∃ spec, read (patchedAtRecord 18) = .ok spec ∧ spec.ceiling = some 0 ∧
      spec.containerSize = some 20) ∧ ¬ ∃ spec, read (patchedAtRecord 19) = .ok spec := by
  obtain ⟨hshown, hsized⟩ := read_accepts
  constructor
  · have hread : read (patchedAtRecord 18)
        = .ok ⟨.pak3, "", some 16, some 0, some ⟨4, 0⟩, some ⟨18, [1, 2]⟩⟩ := rfl
    obtain ⟨ceiling, container, hceiling, hcontainer, hlimit, -, -, -, -, rfl⟩ :=
      hsized _ _ 16 hread rfl
    obtain rfl := hlimit 0 rfl
    exact ⟨_, hread, hceiling, hcontainer⟩
  · obtain ⟨hlawful, -⟩ := hshown (patchedAt 19) _ (isShownBy_patchedAtRecord 19)
    rw [hlawful]
    intro hlaw
    obtain ⟨target, htarget, hinside⟩ := hlaw.patch_inside ⟨19, [1, 2]⟩ rfl
    obtain rfl : 16 = target := Option.some.inj htarget
    exact absurd hinside (by decide)

end Spec

end RomImage
