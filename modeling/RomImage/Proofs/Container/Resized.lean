import RomImage.Proofs.Container.Draft

/-!
# Other target sizes

A specification can be written as a plain record (`Spec.dump`), and the record of a well-formed one
is read as the specification itself (`Spec.read_dump`).

A copy with another target size is what is read when this one field of the record is replaced
(`Spec.withTargetSize_eq_read`). So a copy is had if and only if the specification is lawful with
the new size, it differs in nothing but this size, and a further copy does not depend on the size
that was there before (`Spec.withTargetSize_updates`).
-/

namespace RomImage

namespace Datum

def orNull (given : Option Datum) : Datum :=
  given.getD .null

def ofSize (size : Option Int) : Datum :=
  orNull (size.map .integer)

def replace (entries : List (String × Datum)) (name : String) (datum : Datum) :
    List (String × Datum) :=
  entries.map fun entry => if entry.1 = name then (name, datum) else entry

theorem field?_cons (entry : String × Datum) (entries : List (String × Datum)) (name : String) :
    field? (entry :: entries) name =
      if entry.1 = name then some entry.2 else field? entries name := by
  rw [field?, List.find?_cons]
  by_cases hname : entry.1 = name
  · simp [hname]
  · simp [hname, field?]

theorem replace_cons (entry : String × Datum) (entries : List (String × Datum)) (name : String)
    (datum : Datum) : replace (entry :: entries) name datum =
      (if entry.1 = name then (name, datum) else entry) :: replace entries name datum :=
  List.map_cons

theorem field?_replace_self {entries : List (String × Datum)} {name : String} {old : Datum}
    (hfield : field? entries name = some old) (datum : Datum) :
    field? (replace entries name datum) name = some datum := by
  induction entries with
  | nil => exact absurd hfield (by simp [field?])
  | cons entry entries ih =>
      rw [replace_cons, field?_cons]
      by_cases hname : entry.1 = name
      · rw [if_pos hname, if_pos rfl]
      · rw [field?_cons, if_neg hname] at hfield
        rw [if_neg hname, if_neg hname, ih hfield]

theorem field?_replace_of_ne {name other : String} (hother : other ≠ name)
    (entries : List (String × Datum)) (datum : Datum) :
    field? (replace entries name datum) other = field? entries other := by
  induction entries with
  | nil => rfl
  | cons entry entries ih =>
      rw [replace_cons, field?_cons, field?_cons, ih]
      by_cases hname : entry.1 = name
      · rw [if_pos hname, if_neg hother.symm, if_neg (hname ▸ hother.symm)]
      · rw [if_neg hname]

theorem required_congr {α : Type} {entries others : List (String × Datum)} {name : String}
    {read : Datum → Checked α} (hfield : field? entries name = field? others name) :
    required entries name read = required others name read := by
  rw [required, required, hfield]

theorem optional_congr {α : Type} {entries others : List (String × Datum)} {name : String}
    {fallback : α} {read : Datum → Checked α} (hfield : field? entries name = field? others name) :
    optional entries name fallback read = optional others name fallback read := by
  rw [optional, optional, hfield]

theorem optional_eq_within {α : Type} {entries : List (String × Datum)} {name : String}
    {datum : Datum} {fallback : α} {read : Datum → Checked α}
    (hfield : field? entries name = some datum) :
    optional entries name fallback read = Checked.within name (read datum) := by
  rw [optional, hfield]

theorem given?_orNull {entries : List (String × Datum)} {name : String} {given : Option Datum}
    (hfield : field? entries name = some (orNull given)) (hgiven : .null ∉ given) :
    given? entries name = given := by
  rw [given?, hfield]
  cases given with
  | none => rfl
  | some datum =>
      cases datum with
      | null => exact absurd rfl hgiven
      | _ => rfl

end Datum

def Lead.dump (lead : Lead) : Datum :=
  .fields [("count", .integer lead.count), ("fill", .integer lead.fill.toNat)]

def Patch.dump (patch : Patch) : Datum :=
  .fields [("offset", .integer patch.offset), ("data", .bytes patch.data)]

def Spec.dump (spec : Spec) : List (String × Datum) :=
  [("kind", .text spec.kind.name), ("title", .text spec.title),
    ("target_size", Datum.ofSize (spec.targetSize.map Int.ofNat)),
    ("max_input_size", Datum.ofSize (spec.maxInputSize.map Int.ofNat)),
    ("prefix", Datum.orNull (spec.lead.map Lead.dump)),
    ("patch", Datum.orNull (spec.patch.map Patch.dump))]

theorem LeadDraft.isShownBy_dump (lead : Lead) : lead.draft.IsShownBy lead.dump :=
  .filled rfl rfl

theorem PatchDraft.isShownBy_dump (patch : Patch) : patch.draft.IsShownBy patch.dump :=
  .patched rfl rfl

theorem rel_map_map {α β γ : Type} {R : α → β → Prop} {f : γ → α} {g : γ → β}
    (hrel : ∀ c, R (f c) (g c)) (given : Option γ) : Option.Rel R (given.map f) (given.map g) := by
  cases given with
  | none => exact .none
  | some c => exact .some (hrel c)

namespace Spec

/-- The plain record with another target size shows what would be given for the specification, with
this size. -/
theorem isShownBy_dump (spec : Spec) (size : Option Int) :
    { spec.draft with targetSize := size }.IsShownBy
      (.fields (Datum.replace spec.dump "target_size" (Datum.ofSize size))) := by
  have hsize {name : String} {size : Option Int} {entries : List (String × Datum)}
      (hfield : Datum.field? entries name = some (Datum.ofSize size)) :
      Option.Rel Datum.IsInteger size (Datum.given? entries name) := by
    rw [Datum.given?_orNull hfield (by simp)]
    cases size with
    | none => exact .none
    | some value => exact .some (.integer value)
  refine .shown rfl rfl (hsize rfl) (hsize rfl) ?_ ?_
  · have hlead : Datum.given? (Datum.replace spec.dump "target_size" (Datum.ofSize size)) "prefix"
        = spec.lead.map Lead.dump := Datum.given?_orNull rfl (by simp [Lead.dump])
    exact hlead ▸ rel_map_map LeadDraft.isShownBy_dump spec.lead
  · have hpatch : Datum.given? (Datum.replace spec.dump "target_size" (Datum.ofSize size)) "patch"
        = spec.patch.map Patch.dump := Datum.given?_orNull rfl (by simp [Patch.dump])
    exact hpatch ▸ rel_map_map PatchDraft.isShownBy_dump spec.patch

theorem replace_dump_self (spec : Spec) : Datum.replace spec.dump "target_size"
    (Datum.ofSize (spec.targetSize.map Int.ofNat)) = spec.dump := rfl

/-- The plain record of a well-formed specification is read as the specification. -/
theorem read_dump {spec : Spec} (hspec : spec.WellFormed) :
    read (.fields spec.dump) = .ok spec := by
  have hshown := spec.isShownBy_dump (spec.targetSize.map Int.ofNat)
  rw [replace_dump_self] at hshown
  exact hshown.read_eq_ok.mpr ⟨rfl, hspec⟩

/-- The well-formed specifications are those that can be read. -/
theorem wellFormed_iff_read {spec : Spec} :
    spec.WellFormed ↔ ∃ datum, read datum = .ok spec :=
  ⟨fun hspec => ⟨_, read_dump hspec⟩, fun ⟨_, hread⟩ => wellFormed_of_read hread⟩

/-- A copy with another target size is read from the plain record with this size in it. -/
theorem withTargetSize_eq_read {spec : Spec} (hspec : spec.WellFormed) (size : Datum) :
    spec.withTargetSize size =
      read (.fields (Datum.replace spec.dump "target_size" size)) := by
  obtain ⟨_, hentries, hkind, htitle, -, hlimit, hlead, hpatch, -⟩ :=
    read_eq_ok.mp (read_dump hspec)
  obtain rfl := Datum.fields.inj hentries
  have hrest {name : String} (hname : name ≠ "target_size") :=
    Datum.field?_replace_of_ne hname spec.dump size
  have hthere : Datum.field? spec.dump "target_size" =
      some (Datum.ofSize (spec.targetSize.map Int.ofNat)) := rfl
  rw [read, Datum.required_congr (hrest (by decide)), hkind,
    Datum.required_congr (hrest (by decide)), htitle,
    Datum.optional_eq_within (Datum.field?_replace_self hthere size),
    Datum.optional_congr (hrest (by decide)), hlimit,
    Datum.optional_congr (hrest (by decide)), hlead,
    Datum.optional_congr (hrest (by decide)), hpatch, withTargetSize]
  cases Checked.within "target_size" (Datum.nullable Datum.readSize size) with
  | error issues => simp [Checked.both, Checked.issues, Except.bind]
  | ok target => rfl

/-- **Other target sizes.** A copy of a specification that was read is what is read from its plain
record with another target size, with the same issues where it is refused. For every size, and for
none, it is had if and only if the specification is lawful with this size in place of its own. It
has this size then and is the same in everything else.

With its own size the copy is the specification again. A specification is a value that no copy
changes, and a copy of a copy comes out, or is refused, just as that of the specification itself. -/
theorem withTargetSize_updates {datum : Datum} {spec : Spec} (hread : read datum = .ok spec) :
    (∀ size : Datum, spec.withTargetSize size
      = read (.fields (Datum.replace spec.dump "target_size" size))) ∧
    (∀ size : Option Int,
      ((∃ resized, spec.withTargetSize (Datum.ofSize size) = .ok resized) ↔
        { spec.draft with targetSize := size }.Lawful) ∧
      ∀ resized, spec.withTargetSize (Datum.ofSize size) = .ok resized →
        ∃ target : Option Nat, target.map Int.ofNat = size ∧
          resized = { spec with targetSize := target }) ∧
    spec.withTargetSize (Datum.ofSize (spec.targetSize.map Int.ofNat)) = .ok spec ∧
    ∀ (first second : Datum) (resized : Spec), spec.withTargetSize first = .ok resized →
      resized.withTargetSize second = spec.withTargetSize second := by
  have hspec := wellFormed_of_read hread
  refine ⟨withTargetSize_eq_read hspec, fun size => ⟨?_, fun resized hresized => ?_⟩, ?_, ?_⟩
  · rw [withTargetSize_eq_read hspec, Draft.lawful_iff]
    exact exists_congr fun resized => (spec.isShownBy_dump size).read_eq_ok
  · obtain ⟨target, rfl, -⟩ := withTargetSize_eq_ok hresized
    rw [withTargetSize_eq_read hspec, (spec.isShownBy_dump size).read_eq_ok] at hresized
    exact ⟨target, congrArg Draft.targetSize hresized.1, rfl⟩
  · rw [withTargetSize_eq_read hspec, replace_dump_self]
    exact read_dump hspec
  · intro first second resized hresized
    obtain ⟨target, rfl, -⟩ := withTargetSize_eq_ok hresized
    rfl

/-- The area of the PAK/3 container can be made smaller and as large as before, but it cannot do
without a size, since there is a patch. -/
theorem withTargetSize_updates_pak3 :
    ∃ resized, Table.pak3.withTargetSize (.integer 300000) = .ok resized ∧
      resized.withTargetSize (.integer 524288) = .ok Table.pak3 ∧
      ¬ ∃ unsized, resized.withTargetSize .null = .ok unsized := by
  obtain ⟨-, hlawful, hown, htwice⟩ :=
    withTargetSize_updates (read_dump (Kind.wellFormed_spec .pak3))
  have hsmaller : Table.pak3.withTargetSize (.integer 300000)
      = .ok { Table.pak3 with targetSize := some 300000 } := rfl
  refine ⟨_, hsmaller, ?_, ?_⟩
  · rw [htwice _ _ _ hsmaller]
    exact hown
  · rw [htwice _ _ _ hsmaller]
    intro hunsized
    have hlaw := (hlawful none).1.mp hunsized
    obtain ⟨target, htarget, -⟩ :=
      hlaw.patch_inside ⟨Table.jumpOffset, Table.jumpInstruction⟩ rfl
    exact absurd htarget (by simp)

end Spec

end RomImage
