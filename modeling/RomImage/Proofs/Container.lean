import RomImage.Container.Table

/-!
# Specifications read from data

Whatever is read from data is well-formed (`Spec.wellFormed_of_read`), a copy with another target
size is well-formed again, and so are the specifications of the known kinds.
-/

namespace RomImage

namespace Checked

variable {α β : Type}

theorem both_eq_ok {first : Checked α} {second : Checked β} {pair : α × β} :
    both first second = .ok pair ↔ first = .ok pair.1 ∧ second = .ok pair.2 := by
  cases first with
  | error issues => simp [both]
  | ok a =>
      cases second with
      | error issues => simp [both]
      | ok b => simp [both, Prod.ext_iff]

theorem bind_eq_ok {reading : Checked α} {f : α → Checked β} {value : β} :
    reading.bind f = .ok value ↔ ∃ middle, reading = .ok middle ∧ f middle = .ok value := by
  cases reading <;> simp [Except.bind]

theorem map_eq_ok {reading : Checked α} {f : α → β} {value : β} :
    reading.map f = .ok value ↔ ∃ middle, reading = .ok middle ∧ f middle = value := by
  cases reading <;> simp [Except.map]

theorem within_eq_ok {field : String} {reading : Checked α} {value : α} :
    within field reading = .ok value ↔ reading = .ok value := by
  cases reading with
  | error issues =>
      have hwithin : within field (.error issues)
          = (.error (issues.map (·.within field)) : Checked α) := rfl
      simp [hwithin]
  | ok present => rfl

end Checked

namespace Datum

variable {α : Type}

theorem required_eq_ok {entries : List (String × Datum)} {name : String}
    {read : Datum → Checked α} {value : α} : required entries name read = .ok value ↔
      ∃ datum, field? entries name = some datum ∧ read datum = .ok value := by
  rw [required, Checked.within_eq_ok]
  cases field? entries name <;> simp [Checked.refuse]

theorem optional_eq_ok {entries : List (String × Datum)} {name : String} {fallback value : α}
    {read : Datum → Checked α} : optional entries name fallback read = .ok value ↔
      (field? entries name = none ∧ fallback = value) ∨
        ∃ datum, field? entries name = some datum ∧ read datum = .ok value := by
  rw [optional]
  cases field? entries name <;> simp [Checked.within_eq_ok]

def given? (entries : List (String × Datum)) (name : String) : Option Datum :=
  match field? entries name with
  | some .null => none
  | found => found

/-- A field that may be absent or null is read where nothing is given or what is given is read. -/
theorem nullable_eq_ok {entries : List (String × Datum)} {name : String}
    {read : Datum → Checked α} {value : Option α} :
    optional entries name none (nullable read) = .ok value ↔
      Option.Rel (fun datum present => read datum = .ok present) (given? entries name) value := by
  rw [optional_eq_ok, given?]
  cases field? entries name with
  | none => cases value <;> simp
  | some datum => cases datum <;> cases value <;> simp [nullable, Checked.map_eq_ok]

theorem readBytes_eq_ok {datum : Datum} {data : Bytes} : readBytes datum = .ok data ↔
    data ≠ [] ∧ (datum = .bytes data ∨ ∃ text, datum = .text text ∧ Bytes.ofText text = data) := by
  have hsome (bytes : Bytes) :
      (if bytes.isEmpty then .refuse .noBytes else .ok bytes : Checked Bytes) = .ok data ↔
        data ≠ [] ∧ bytes = data := by
    cases bytes with
    | nil => simp [Checked.refuse, eq_comm]
    | cons byte bytes =>
        have hnonempty : byte :: bytes = data → data ≠ [] := fun h => h ▸ List.cons_ne_nil _ _
        simpa using hnonempty
  cases datum with
  | text value =>
      rw [readBytes, hsome]
      simp
  | bytes value =>
      rw [readBytes, hsome]
      simp
  | _ => simp [readBytes, Checked.refuse]

theorem readSize_integer {value : Int} {size : Nat} :
    readSize (.integer value) = .ok size ↔ Int.ofNat size = value := by
  change (if value < 0 then Checked.refuse (.tooSmall 0) else .ok value.toNat) = .ok size ↔ _
  split
  · simp only [Checked.refuse, reduceCtorEq, false_iff, Int.ofNat_eq_natCast]
    omega
  · simp only [Except.ok.injEq, Int.ofNat_eq_natCast]
    omega

theorem readSize_natCast (size : Nat) : readSize (.integer size) = .ok size :=
  readSize_integer.mpr rfl

theorem readByte_integer {value : Int} {byte : UInt8} :
    readByte (.integer value) = .ok byte ↔ Int.ofNat byte.toNat = value := by
  have hbyte := byte.toNat_lt
  change (if value < 0 then Checked.refuse (.tooSmall 0)
    else if 255 < value then Checked.refuse (.tooLarge 255)
    else .ok (UInt8.ofNat value.toNat)) = .ok byte ↔ _
  split
  · simp only [Checked.refuse, reduceCtorEq, false_iff, Int.ofNat_eq_natCast]
    omega
  split
  · simp only [Checked.refuse, reduceCtorEq, false_iff, Int.ofNat_eq_natCast]
    omega
  · simp only [Except.ok.injEq, ← UInt8.toNat_inj, UInt8.toNat_ofNat', Int.ofNat_eq_natCast]
    omega

theorem readBytes_bytes {given data : Bytes} :
    readBytes (.bytes given) = .ok data ↔ data = given ∧ data ≠ [] := by
  rw [readBytes_eq_ok]
  simp [and_comm, eq_comm]

theorem readKind_name {known kind : Kind} :
    readKind (.text known.name) = .ok kind ↔ kind = known := by
  simp [readKind, eq_comm]

end Datum

namespace Spec

/-- A specification without a conflict keeps the rules between its fields. -/
theorem conflict?_eq_none {spec : Spec} : spec.conflict? = none ↔
    (∀ limit ∈ spec.maxInputSize, ∀ target ∈ spec.targetSize, limit ≤ target) ∧
      ∀ patch ∈ spec.patch, ∃ target ∈ spec.targetSize, patch.stop ≤ spec.leadSize + target := by
  obtain ⟨kind, title, target, limit, lead, patch⟩ := spec
  cases target with
  | none => cases patch <;> simp [conflict?, containerSize]
  | some target =>
      cases limit <;> cases patch <;> simp [conflict?, containerSize, leadSize]

theorem wellFormed_iff {spec : Spec} : spec.WellFormed ↔
    spec.conflict? = none ∧ ∀ patch ∈ spec.patch, patch.data ≠ [] := by
  rw [conflict?_eq_none]
  constructor
  · rintro ⟨hlimit, hnonempty, hinside⟩
    exact ⟨⟨hlimit, hinside⟩, hnonempty⟩
  · rintro ⟨⟨hlimit, hinside⟩, hnonempty⟩
    exact ⟨hlimit, hnonempty, hinside⟩

theorem wellFormed_of_conflict {spec : Spec} (hconflict : spec.conflict? = none)
    (hpatch : ∀ patch ∈ spec.patch, patch.data ≠ []) : spec.WellFormed :=
  wellFormed_iff.mpr ⟨hconflict, hpatch⟩

/-- The ceiling of a specification with a target size is at most this size. -/
theorem WellFormed.ceiling_le {spec : Spec} (hspec : spec.WellFormed) {target : Nat}
    (htarget : spec.targetSize = some target) :
    ∃ ceiling, spec.ceiling = some ceiling ∧ ceiling = spec.maxInputSize.getD target ∧
      ceiling ≤ target := by
  rw [ceiling, htarget]
  cases hlimit : spec.maxInputSize with
  | none => exact ⟨target, rfl, rfl, Nat.le_refl _⟩
  | some limit => exact ⟨limit, rfl, rfl, hspec.limit_le_target limit hlimit target htarget⟩

theorem settle_eq_ok {spec settled : Spec} :
    spec.settle = .ok settled ↔ settled = spec ∧ spec.conflict? = none := by
  rw [settle]
  cases spec.conflict? <;> simp [Checked.refuse, eq_comm]

theorem readLead_eq_ok {datum : Datum} {lead : Lead} : readLead datum = .ok lead ↔
    ∃ entries, datum = .fields entries ∧
      Datum.required entries "count" Datum.readSize = .ok lead.count ∧
      Datum.optional entries "fill" 0 Datum.readByte = .ok lead.fill := by
  cases datum with
  | fields entries =>
      simp only [readLead, Checked.map_eq_ok, Checked.both_eq_ok, Datum.fields.injEq,
        exists_eq_left']
      constructor
      · rintro ⟨⟨count, fill⟩, hfields, rfl⟩
        exact hfields
      · intro hfields
        exact ⟨(lead.count, lead.fill), hfields, rfl⟩
  | _ => simp [readLead, Checked.refuse]

theorem readPatch_eq_ok {datum : Datum} {patch : Patch} : readPatch datum = .ok patch ↔
    ∃ entries, datum = .fields entries ∧
      Datum.required entries "offset" Datum.readSize = .ok patch.offset ∧
      Datum.required entries "data" Datum.readBytes = .ok patch.data := by
  cases datum with
  | fields entries =>
      simp only [readPatch, Checked.map_eq_ok, Checked.both_eq_ok, Datum.fields.injEq,
        exists_eq_left']
      constructor
      · rintro ⟨⟨offset, data⟩, hfields, rfl⟩
        exact hfields
      · intro hfields
        exact ⟨(patch.offset, patch.data), hfields, rfl⟩
  | _ => simp [readPatch, Checked.refuse]

/-- A record is read where all its fields are and none of the rules between them is broken. -/
theorem read_eq_ok {datum : Datum} {spec : Spec} : read datum = .ok spec ↔
    ∃ entries, datum = .fields entries ∧
      Datum.required entries "kind" Datum.readKind = .ok spec.kind ∧
      Datum.required entries "title" Datum.readText = .ok spec.title ∧
      Datum.optional entries "target_size" none (Datum.nullable Datum.readSize)
        = .ok spec.targetSize ∧
      Datum.optional entries "max_input_size" none (Datum.nullable Datum.readSize)
        = .ok spec.maxInputSize ∧
      Datum.optional entries "prefix" none (Datum.nullable readLead) = .ok spec.lead ∧
      Datum.optional entries "patch" none (Datum.nullable readPatch) = .ok spec.patch ∧
      spec.conflict? = none := by
  cases datum with
  | fields entries =>
      simp only [read, Checked.bind_eq_ok, Checked.both_eq_ok, settle_eq_ok, Datum.fields.injEq,
        exists_eq_left']
      constructor
      · rintro ⟨⟨kind, title, target, limit, lead, patch⟩, hfields, rfl, hconflict⟩
        obtain ⟨hkind, htitle, htarget, hlimit, hlead, hpatch⟩ := hfields
        exact ⟨hkind, htitle, htarget, hlimit, hlead, hpatch, hconflict⟩
      · rintro ⟨hkind, htitle, htarget, hlimit, hlead, hpatch, hconflict⟩
        exact ⟨(spec.kind, spec.title, spec.targetSize, spec.maxInputSize, spec.lead, spec.patch),
          ⟨hkind, htitle, htarget, hlimit, hlead, hpatch⟩, rfl, hconflict⟩
  | _ => simp [read, Checked.refuse]

/-- What is read from data is well-formed. -/
theorem wellFormed_of_read {datum : Datum} {spec : Spec} (hread : read datum = .ok spec) :
    spec.WellFormed := by
  obtain ⟨entries, -, -, -, -, -, -, hpatch, hconflict⟩ := read_eq_ok.mp hread
  refine wellFormed_of_conflict hconflict fun patch hpresent => ?_
  rw [Datum.nullable_eq_ok, Option.mem_def.mp hpresent] at hpatch
  cases hgiven : Datum.given? entries "patch" with
  | none =>
      rw [hgiven] at hpatch
      exact absurd hpatch Option.not_rel_none_some
  | some datum =>
      rw [hgiven, Option.rel_some_some] at hpatch
      obtain ⟨_, -, -, hdata⟩ := readPatch_eq_ok.mp hpatch
      obtain ⟨_, -, hbytes⟩ := Datum.required_eq_ok.mp hdata
      exact (Datum.readBytes_eq_ok.mp hbytes).1

theorem withTargetSize_eq_ok {spec resized : Spec} {size : Datum}
    (hresized : spec.withTargetSize size = .ok resized) :
    ∃ target, resized = { spec with targetSize := target } ∧ resized.conflict? = none := by
  obtain ⟨target, -, hsettle⟩ := Checked.bind_eq_ok.mp hresized
  obtain ⟨rfl, hconflict⟩ := settle_eq_ok.mp hsettle
  exact ⟨target, rfl, hconflict⟩

/-- A copy with another target size is well-formed again. -/
theorem WellFormed.withTargetSize {spec resized : Spec} {size : Datum}
    (hspec : spec.WellFormed) (hresized : spec.withTargetSize size = .ok resized) :
    resized.WellFormed := by
  obtain ⟨target, rfl, hconflict⟩ := withTargetSize_eq_ok hresized
  exact wellFormed_of_conflict hconflict hspec.patch_nonempty

end Spec

theorem Kind.wellFormed_spec (kind : Kind) : kind.spec.WellFormed := by
  apply Spec.wellFormed_of_conflict
  · cases kind <;> decide
  · intro patch hpatch
    cases kind with
    | pad => exact absurd hpatch (by simp [spec, Table.pad])
    | stc => exact absurd hpatch (by simp [spec, Table.stc])
    | pak3 =>
        obtain rfl : ⟨Table.jumpOffset, Table.jumpInstruction⟩ = patch := Option.some.inj hpatch
        exact List.cons_ne_nil _ _

end RomImage
