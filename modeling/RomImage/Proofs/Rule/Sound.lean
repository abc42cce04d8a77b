import RomImage.Proofs.Rule.Gate
import RomImage.Proofs.Rule.Layout

/-!
# Rules never ask for what is not there

A specification that was read has a ceiling, a target size and a container size in this order, and
an image gets through the gate only up to the ceiling. So what is left of the target size and of the
ceiling is at least zero, and where the specification has the part that the layout uses, no step of
a rule is given a negative count, a value that is no byte, or something missing (`Rule.apply_safe`).
Only the source has to be truthful for this.
-/

namespace RomImage

namespace Stream

def Request.Announces {ι : Type} (start : Note) : Request ι → Prop
  | .note fact => fact.origin = .rule → fact = start
  | _ => True

end Stream

open RomImage.Stream

namespace Rule

variable {ι σ : Type}

def start (rule : Rule) (size : Int) : Note :=
  .building rule.spec.kind size rule.ceiling rule.containerSize

def summary (rule : Rule) (size : Int) : Summary :=
  ⟨rule.spec.kind, size, rule.containerSize, rule.ceiling - size⟩

theorem lay_announces [Machine] (rule : Rule) (source dest : Channel ι) (size : Int) (start : Note)
    :
    (rule.lay source dest size).AsksOnly (Request.Announces start) :=
  rule.lay_asksOnly (fun _ => ⟨fun _ => trivial, fun _ => trivial⟩) (fun _ => trivial)
    ⟨trivial, fun _ _ => trivial, trivial⟩ (fun _ => trivial)
    fun _ _ hother horigin => absurd horigin hother

/-- A rule whose image got through the gate notes the numbers that it reports. -/
theorem proceed_ensures [Machine] {rule : Rule} {source dest : Channel ι} {size : Int}
    (hfits : ¬ rule.ceiling < size) {scratch : Scratch} {calls : List (Exchange ι)}
    (hcalls : ∀ call ∈ calls, call.1.Announces (rule.start size)) :
    (rule.proceed source dest (some size)).Ensures recorded scratch calls
      (fun value _ after => value = rule.summary size ∧
        ∀ call ∈ after, call.1.Announces (rule.start size))
      (fun _ _ after => ∀ call ∈ after, call.1.Announces (rule.start size)) := by
  have hkeeps (request : Request ι) (calls : List (Exchange ι)) (answer : request.Answer)
      (after : List (Exchange ι)) (hrequest : request.Announces (rule.start size))
      (hcalls : ∀ call ∈ calls, call.1.Announces (rule.start size))
      (hafter : after = ⟨request, answer⟩ :: calls) :
      ∀ call ∈ after, call.1.Announces (rule.start size) := by
    rw [hafter]
    exact List.forall_mem_cons.mpr ⟨hrequest, hcalls⟩
  rw [proceed, if_neg hfits]
  refine ((note_asksOnly fun _ => rfl).ensures hkeeps hcalls).bind fun _ _ _ hcalls => ?_
  refine ((rule.lay_announces source dest size _).ensures hkeeps hcalls).bind ?_
  exact fun _ _ _ hcalls => Task.ensures_pure ⟨rfl, hcalls⟩

/-- What the run of a rule is like that asks for nothing that is not there. -/
structure Safe (spec : Spec) (size ceiling target container : Nat)
    (ended : (Except Failure Summary × Scratch) × (σ × List (Exchange ι))) : Prop where
  /-- No step is given a negative count or a value that is no byte, and nothing is missing. -/
  given : ∀ cause, ended.1.1 = .error (.misuse cause) → ¬ cause.OfGiven
  /-- A build starts with the size of the source and the numbers of the specification, and there is
  room for the image in the target size and below the ceiling. -/
  started : ∀ call ∈ ended.2.2, ∀ fact : Note, call.1 = .note fact → fact.origin = .rule →
    fact = .building spec.kind size ceiling container ∧
      0 ≤ (target : Int) - size ∧ 0 ≤ (ceiling : Int) - size
  finished : ∀ summary, ended.1.1 = .ok summary →
    summary = ⟨spec.kind, size, container, ceiling - size⟩ ∧ 0 ≤ summary.freeBytes

section Run

variable {rule : Rule} {source dest : Channel ι} {world : World ι σ} {scratch scratch' : Scratch}
  {state : σ} {after : σ × List (Exchange ι)} {size : Nat}

/-- Measuring is noted nowhere. -/
theorem unnoted_of_probe [Machine] {outcome : Except Failure (Option Int)}
    (hprobed : world.logged.run scratch (probe source) (state, []) = ((outcome, scratch'), after)) :
    ∀ call ∈ after.2, ∀ fact : Note, call.1 ≠ .note fact := by
  intro call hcall fact hfact
  have hprobes : call.1.Probes source.handle :=
    (probe_asksOnly (moves_probes source.handle)).run_recording hprobed call hcall
  rw [hfact] at hprobes
  exact hprobes

theorem safe_of_unmeasured [Machine] {failure : Failure}
    (hprobed : world.logged.run scratch (probe source)
    (state, []) = ((.error failure, scratch'), after)) :
    Safe rule.spec size rule.ceiling rule.targetSize rule.containerSize
      (world.logged.run scratch (rule.apply source dest) (state, [])) := by
  have hkind : failure.OfTransfer True := (probe_failsOnly source).run (congrArg (·.1.1) hprobed)
  rw [run_of_unmeasured hprobed]
  refine ⟨?_, fun call hcall fact hfact => ?_, ?_⟩
  · rintro cause ⟨⟩ hgiven
    cases hkind with
    | misuse hcause => exact hcause hgiven trivial
  · exact absurd hfact (unnoted_of_probe hprobed call hcall fact)
  · rintro summary ⟨⟩

theorem safe_of_large [Machine] (hprobed : world.logged.run scratch (probe source) (state, [])
      = ((.ok (some (size : Int)), scratch'), after)) (hlarge : rule.ceiling < size) :
    Safe rule.spec size rule.ceiling rule.targetSize rule.containerSize
      (world.logged.run scratch (rule.apply source dest) (state, [])) := by
  rw [run_of_large hprobed (Int.ofNat_lt.mpr hlarge)]
  refine ⟨?_, fun call hcall fact hfact => ?_, ?_⟩
  · intro cause hfailed hgiven
    have hcause := Except.error.inj hfailed
    unfold Failure.imageTooLarge at hcause
    split at hcause
    · exact absurd hcause (by simp)
    · obtain rfl := Failure.misuse.inj hcause
      cases hgiven
  · exact absurd hfact (unnoted_of_probe hprobed call hcall fact)
  · rintro summary ⟨⟩

theorem safe_of_fits [Machine] (hwellFormed : rule.spec.WellFormed)
    (hfinds : rule.layout.Finds rule.spec)
    (hprobed : world.logged.run scratch (probe source) (state, [])
      = ((.ok (some (size : Int)), scratch'), after)) (hfits : size ≤ rule.ceiling) :
    Safe rule.spec size rule.ceiling rule.targetSize rule.containerSize
      (world.logged.run scratch (rule.apply source dest) (state, [])) := by
  have hgate : ¬ (rule.ceiling : Int) < size := by omega
  have htarget : size ≤ rule.targetSize := Nat.le_trans hfits (ceiling_le hwellFormed)
  have hstarted {calls : List (Exchange ι)}
      (hcalls : ∀ call ∈ calls, call.1.Announces (rule.start size)) :
      ∀ call ∈ calls, ∀ fact : Note, call.1 = .note fact → fact.origin = .rule →
        fact = .building rule.spec.kind size rule.ceiling rule.containerSize ∧
          0 ≤ (rule.targetSize : Int) - size ∧ 0 ≤ (rule.ceiling : Int) - size := by
    intro call hcall fact hfact horigin
    have hannounces := hcalls call hcall
    rw [hfact] at hannounces
    exact ⟨hannounces horigin, by omega, by omega⟩
  have hsilent : ∀ call ∈ after.2, call.1.Announces (rule.start size) := by
    intro call hcall
    have hunnoted := unnoted_of_probe hprobed call hcall
    cases hrequest : call.1 with
    | note fact => exact absurd hrequest (hunnoted fact)
    | _ => trivial
  have hrest : world.logged.run scratch (rule.apply source dest) (state, [])
      = (rule.proceed source dest (some size) scratch').run world.logged.answer after := by
    rw [World.run, apply_eq_probe_bind, Task.run_bind_ok hprobed]
  have hlogged (request : Request ι) (between : σ × List (Exchange ι)) (_ : True) :
      (recorded : Conduct (interface ι) (List (Exchange ι))) request between.2
        (world.logged.answer request between).1 (world.logged.answer request between).2.2 ∧ True :=
    ⟨rfl, trivial⟩
  obtain ⟨value, scratch'', final, hrun, rfl, hcalls⟩ | ⟨failure, scratch'', final, hrun, hcalls⟩ :=
    (proceed_ensures hgate hsilent).run Prod.snd (fun _ => True) hlogged after trivial
  · rw [hrest, hrun]
    refine ⟨?_, hstarted hcalls, ?_⟩
    · rintro cause ⟨⟩
    · rintro _ ⟨⟩
      exact ⟨rfl, Int.sub_nonneg.mpr (Int.ofNat_le.mpr hfits)⟩
  · have hkind : failure.OfTransfer True :=
      ofTransfer_of_fits (fun _ => hfinds)
        (fun _ => ⟨Int.natCast_nonneg size, Int.ofNat_le.mpr htarget⟩) hprobed hgate
        (congrArg (·.1.1) (hrest.trans hrun))
    rw [hrest, hrun]
    refine ⟨?_, hstarted hcalls, ?_⟩
    · rintro cause ⟨⟩ hgiven
      cases hkind with
      | misuse hcause => exact hcause hgiven trivial
    · rintro summary ⟨⟩

end Run

/-- **Nothing is asked for that is not there.** Take any specification that was read from data and
has a target size, with the part that its layout uses, a truthful source, a destination that does
whatever it likes, and any buffer. The specification has a ceiling, a target size and a container
size, each at least as large as the one before.

No run of the rule fails because a count is negative, a value is no byte, or a size, the bytes in
front or the patch is missing. When it starts to build, it knows the size of the source, and what
this leaves of the target size, which is the count of the zeros behind the image, is at least zero;
so is what it leaves of the ceiling, which is reported as free. -/
theorem apply_safe [Machine] [DecidableEq ι] {datum : Datum} {spec : Spec}
    (hread : Spec.read datum = .ok spec) {layout : Layout} (hfinds : layout.Finds spec)
    {rule : Rule} (hrule : ofSpec layout spec = .ok rule) {world : World ι σ} {source : Channel ι}
    (htruthful : world.IsTruthfulAt source.handle) (dest : Channel ι) (scratch : Scratch)
    (state : σ) :
    ∃ ceiling target container, spec.ceiling = some ceiling ∧ spec.targetSize = some target ∧
      spec.containerSize = some container ∧ ceiling ≤ target ∧ target ≤ container ∧
      Safe spec (world.tape state source.handle).contents.size ceiling target container
        (world.logged.run scratch (rule.apply source dest) (state, [])) := by
  obtain ⟨rfl, rfl⟩ := ofSpec_eq_ok hrule
  have hwellFormed := Spec.wellFormed_of_read hread
  have hcontainer : rule.spec.containerSize = some rule.containerSize := by
    rw [Spec.containerSize, rule.targetSize_eq]
    rfl
  refine ⟨rule.ceiling, rule.targetSize, rule.containerSize, rule.spec_ceiling, rule.targetSize_eq,
    hcontainer, ceiling_le hwellFormed, rule.targetSize_le, ?_⟩
  obtain ⟨_, scratch', after, hprobed, rfl, -⟩ | ⟨failure, scratch', after, hprobed, -⟩ :=
    htruthful.run_logged (probe_asksOnly ⟨rfl, fun _ _ => rfl, rfl⟩)
      (fun _ => ⟨false, false, false, none⟩) (probe_ensures _ source scratch (world.tape state))
  · obtain hlarge | hfits :=
      Nat.lt_or_ge rule.ceiling (world.tape state source.handle).contents.size
    · exact safe_of_large hprobed hlarge
    · exact safe_of_fits hwellFormed hfinds hprobed hfits
  · exact safe_of_unmeasured hprobed

/-- An image may be as large as the ceiling, so that nothing of it is free, and a patch may be all
that stands behind it. -/
theorem apply_safe_filled :
    let datum : Datum := .fields [("kind", .text "pak3"), ("title", .text ""),
      ("target_size", .integer 4), ("max_input_size", .integer 3),
      ("patch", .fields [("offset", .integer 3), ("data", .bytes [9])])]
    let spec : Spec := ⟨.pak3, "", some 4, some 3, none, some ⟨3, [9]⟩⟩
    let rule : Rule := ⟨.patched, spec, 4, rfl⟩
    let source : Channel Bool := ⟨false, "in.bin", true, true⟩
    let dest : Channel Bool := ⟨true, "out.bin", true, true⟩
    let tapes : Bool → Tape := fun stream => if stream then .empty else ⟨.ofBytes [1, 2, 3], 0⟩
    let ended :=
      (World.plain 0).logged.run (.ready (.zeros 2)) (rule.apply source dest) (tapes, [])
    Spec.read datum = .ok spec ∧ Layout.patched.Finds spec ∧
      ofSpec .patched spec = .ok rule ∧ ended.1.1 = .ok ⟨.pak3, 3, 4, 0⟩ := by
  intro datum spec rule source dest tapes ended
  have hread : Spec.read datum = .ok spec := rfl
  have hfinds : Layout.patched.Finds spec := rfl
  have hrule : ofSpec .patched spec = .ok rule := rfl
  have hbuilt : ended.1.1.isOk = true := by decide +kernel
  obtain ⟨ceiling, target, container, hceiling, -, hcontainer, -, -, hsafe⟩ :
      ∃ ceiling target container, spec.ceiling = some ceiling ∧ spec.targetSize = some target ∧
        spec.containerSize = some container ∧ ceiling ≤ target ∧ target ≤ container ∧
        Safe spec 3 ceiling target container ended :=
    apply_safe hread hfinds hrule ((World.plain_isTruthful 0).at source.handle) dest
      (.ready (.zeros 2)) tapes
  obtain rfl : 3 = ceiling := Option.some.inj hceiling
  have hfour : spec.containerSize = some 4 := rfl
  obtain rfl : 4 = container := Option.some.inj (hfour.symm.trans hcontainer)
  refine ⟨hread, hfinds, hrule, ?_⟩
  -- From here on the run is whatever it is, lest it be computed again.
  clear_value ended
  cases houtcome : ended.1.1 with
  | ok summary =>
      obtain ⟨rfl, -⟩ := hsafe.finished summary houtcome
      rfl
  | error failure =>
      rw [houtcome] at hbuilt
      exact absurd hbuilt Bool.false_ne_true

end Rule

end RomImage
