import RomImage.Proofs.Container
import RomImage.Proofs.Stream.Alone
import RomImage.Proofs.Stream.Failing
import RomImage.Proofs.Stream.Granted
import RomImage.Proofs.Stream.Position

/-!
# The gate before the first byte

A rule first finds out how large its image is, and only an image up to the ceiling gets further. So
far it has asked for positions of the source and moved it, and done nothing else; the rest of its
work never fails over a size. Hence an image is refused exactly where it is too large
(`Rule.apply_refuses_too_large`), and until then nothing has been read and nothing written. Only
the source has to be truthful for this.
-/

namespace RomImage

namespace Stream

variable {ι : Type}

def Request.Probes (stream : ι) : Request ι → Prop
  | .tell other | .seek other _ _ | .seekUnknown other => other = stream
  | _ => False

theorem moves_probes (stream : ι) : Moves (Request.Probes stream) stream :=
  ⟨rfl, fun _ _ => rfl, rfl⟩

variable {stream : ι} {request : Request ι}

theorem Request.Probes.stream_eq (hprobes : request.Probes stream) :
    request.stream? = some stream := by
  cases request with
  | tell other | seek other offset whence | seekUnknown other => exact congrArg some hprobes
  | _ => exact hprobes.elim

theorem Request.Probes.within (hprobes : request.Probes stream) (answer : request.Answer) :
    Within request answer := by
  cases request with
  | tell other | seek other offset whence | seekUnknown other => exact trivial
  | _ => exact hprobes.elim

end Stream

/-- An excess that can be written is reported with the name, the size and the ceiling. -/
theorem Failure.imageTooLarge_eq_build {name name' : String} {size size' ceiling ceiling' : Int} :
    Failure.imageTooLarge name size ceiling = .build (.imageTooLarge name' size' ceiling') ↔
      (name = name' ∧ size = size' ∧ ceiling = ceiling') ∧
        (BuildError.excess size ceiling).natAbs < Nat.pow 10 Text.digitLimit := by
  rw [← Text.isSome_decimal?]
  unfold Failure.imageTooLarge
  cases Text.decimal? (BuildError.excess size ceiling) with
  | some digits => simp
  | none => simp

open RomImage.Stream

namespace Rule

variable {ι σ : Type}

def probe [Machine] (source : Channel ι) : Work ι (Option Int) := do
  let _ ← Task.buffer
  measure source

def proceed [Machine] (rule : Rule) (source dest : Channel ι) : Option Int → Work ι Summary
  | none => .fail (.misuse .unknownSize)
  | some size =>
    if rule.ceiling < size then .fail (.imageTooLarge source.name size rule.ceiling)
    else do
      note (.building rule.spec.kind size rule.ceiling rule.containerSize)
      rule.lay source dest size
      return ⟨rule.spec.kind, size, rule.containerSize, rule.ceiling - size⟩

theorem apply_eq_probe_bind [Machine] (rule : Rule) (source dest : Channel ι) :
    rule.apply source dest = probe source >>= rule.proceed source dest := by
  rw [apply, probe, bind_assoc]
  rfl

/-- A rule takes the ceiling of its specification. -/
theorem spec_ceiling (rule : Rule) : rule.spec.ceiling = some rule.ceiling := by
  rw [Spec.ceiling, ceiling, rule.targetSize_eq]
  cases rule.spec.maxInputSize with
  | none => rfl
  | some limit => rfl

theorem probe_asksOnly [Machine] {kind : Request ι → Prop} {source : Channel ι}
    (hmove : Moves kind source.handle) : (probe source).AsksOnly kind :=
  .bind .buffer fun _ => measure_asksOnly hmove

theorem probe_failsOnly [Machine] {sound : Prop} (source : Channel ι) :
    (probe source).FailsOnly (Failure.OfTransfer sound) :=
  .bind .buffer fun _ => measure_failsOnly source

/-- Where a truthful source lets itself be measured, the size is its own and nothing has moved. -/
theorem probe_ensures [Machine] [DecidableEq ι] (ability : ι → Ability) (source : Channel ι)
    (scratch : Scratch) (tapes : ι → Tape) :
    (probe source).Ensures (conduct ability False) scratch tapes
      (fun told _ after => told = some ((tapes source.handle).contents.size : Int) ∧ after = tapes)
      (fun _ _ _ => True) := by
  have hbuffer : (Task.buffer : Work ι Buffer).Ensures (conduct ability False) scratch tapes
      (fun _ _ after => after = tapes) (fun _ _ _ => True) := by
    rw [Task.Ensures, Task.buffer]
    split
    · rfl
    · trivial
  refine hbuffer.bind ?_
  rintro _ scratch _ rfl
  refine (measure_ensures source False.elim).mono ?_ fun _ _ _ _ => trivial
  rintro told _ after ⟨htold, -, hsame⟩
  exact ⟨htold, hsame⟩

section Run

variable {rule : Rule} {source dest : Channel ι} {world : World ι σ} {scratch scratch' : Scratch}
  {state : σ} {after : σ × List (Exchange ι)} {failure : Failure} {size : Int}

/-- A source that cannot be measured has refused a call, unless there is no buffer. -/
theorem refused_of_probe [Machine] (hrun : world.logged.run scratch (probe source) (state, [])
      = ((.error failure, scratch'), after)) :
    scratch.buffer = .error failure ∨ ∃ call earlier, after.2 = call :: earlier ∧
      call.1.failure? (fun _ => source.name) call.2 = some failure := by
  obtain ⟨after, calls⟩ := after
  cases hbuffer : scratch.buffer with
  | error cause =>
      have hnone : world.logged.run scratch Task.buffer (state, [])
          = ((.error cause, scratch), (state, [])) := by
        rw [World.run, Task.buffer, hbuffer]
        rfl
      rw [World.run, probe, Task.run_bind_error hnone] at hrun
      obtain ⟨⟨⟨⟩, -⟩, -⟩ := by simpa only [Prod.mk.injEq] using hrun
      exact .inl rfl
  | ok buffer =>
      have hheeds : (probe source scratch).Heeds (verdict fun _ name => name = source.name) :=
        Task.Heeds.buffer_bind (fun _ => measure_heeds rfl) scratch
      obtain hnone | ⟨call, earlier, failure', rfl, hfailed, -, houtcome⟩ :=
        hheeds.decided_by_last hrun
      · -- Where no call is refused, measuring comes to its end.
        have hgranted : (probe source).Ensures (granted fun _ => source.name) scratch []
            (fun _ _ _ => True) (fun _ _ _ => False) :=
          (Task.ensures_buffer hbuffer).bind fun _ _ _ _ =>
            measure_granted.mono (fun _ _ _ _ => trivial) fun _ _ _ hbad => hbad
        have hasks := (probe_asksOnly (moves_probes source.handle)).run_recording hrun
        refine (hgranted.run_recording (fun _ _ _ hfine => ⟨rfl, hfine⟩) hrun ?_).elim
        intro call hcall
        refine ⟨?_, (hasks call hcall).within _⟩
        refine Option.eq_none_iff_forall_ne_some.mpr fun failure hfailed => ?_
        exact hnone call hcall failure (verdict_iff.mpr hfailed)
      · obtain rfl := Except.error.inj houtcome
        exact .inr ⟨call, earlier, rfl, verdict_iff.mp hfailed⟩

theorem run_of_unmeasured [Machine] {start : σ × List (Exchange ι)}
    (hprobed : world.logged.run scratch (probe source) start
      = ((.error failure, scratch'), after)) :
    world.logged.run scratch (rule.apply source dest) start
      = ((.error failure, scratch'), after) := by
  rw [World.run, apply_eq_probe_bind]
  exact Task.run_bind_error hprobed

theorem run_of_large [Machine] {start : σ × List (Exchange ι)}
    (hprobed : world.logged.run scratch (probe source) start
      = ((.ok (some size), scratch'), after)) (hlarge : rule.ceiling < size) :
    world.logged.run scratch (rule.apply source dest) start
      = ((.error (.imageTooLarge source.name size rule.ceiling), scratch'), after) := by
  rw [World.run, apply_eq_probe_bind, Task.run_bind_ok hprobed, proceed, if_pos hlarge]
  rfl

/-- An image up to the ceiling is not refused later. -/
theorem ofTransfer_of_fits [Machine] {sound : Prop} (hfinds : sound → rule.layout.Finds rule.spec)
    (hsize : sound → 0 ≤ size ∧ size ≤ rule.targetSize) {start : σ × List (Exchange ι)}
    (hprobed : world.logged.run scratch (probe source) start
      = ((.ok (some size), scratch'), after)) (hfits : ¬ rule.ceiling < size)
    (hfailed : (world.logged.run scratch (rule.apply source dest) start).1.1 = .error failure) :
    failure.OfTransfer sound := by
  rw [World.run, apply_eq_probe_bind, Task.run_bind_ok hprobed, proceed, if_neg hfits] at hfailed
  have hrest : (do
      note (.building rule.spec.kind size rule.ceiling rule.containerSize)
      rule.lay source dest size
      return ⟨rule.spec.kind, size, rule.containerSize, rule.ceiling - size⟩ :
        Work ι Summary).FailsOnly (Failure.OfTransfer sound) :=
    .bind (note_failsOnly _) fun _ =>
      .bind (rule.lay_failsOnly source dest hfinds hsize) fun _ => .pure _
  exact hrest.run hfailed

end Run

def IsTooLarge {α : Type} (outcome : Except Failure α) : Prop :=
  ∃ name size ceiling, outcome = .error (.build (.imageTooLarge name size ceiling))

theorem natAbs_excess {size ceiling : Nat} (hlarge : ceiling < size) :
    (BuildError.excess size ceiling).natAbs = size - ceiling := by
  rw [BuildError.excess]
  omega

/-- The refusal of an image is that error, unless the excess has too many digits to be written. -/
theorem isTooLarge_refusal {α : Type} {name : String} {size ceiling : Nat}
    (hlarge : ceiling < size) :
    IsTooLarge (.error (.imageTooLarge name size ceiling) : Except Failure α) ↔
      size - ceiling < Nat.pow 10 Text.digitLimit := by
  rw [← natAbs_excess hlarge]
  constructor
  · rintro ⟨name', size', ceiling', hbuild⟩
    exact (Failure.imageTooLarge_eq_build.mp (Except.error.inj hbuild)).2
  · intro hprintable
    refine ⟨name, size, ceiling, congrArg Except.error ?_⟩
    exact Failure.imageTooLarge_eq_build.mpr ⟨⟨rfl, rfl, rfl⟩, hprintable⟩

theorem refusal_eq_misuse {name : String} {size ceiling : Nat} (hlarge : ceiling < size)
    (hlong : Nat.pow 10 Text.digitLimit ≤ size - ceiling) :
    Failure.imageTooLarge name size ceiling = .misuse .unprintableNumber := by
  rw [← natAbs_excess hlarge] at hlong
  unfold Failure.imageTooLarge
  rw [Text.decimal?_eq_none hlong]

/-- What a run of a rule is like beside a run of what comes before its gate, for a source with such
a tape and such a ceiling. -/
structure Gated [Machine] (world : World ι σ) (source dest : Channel ι) (scratch : Scratch)
    (start : Tape) (ceiling : Nat)
    (probed : (Except Failure (Option Int) × Scratch) × (σ × List (Exchange ι)))
    (ended : (Except Failure Summary × Scratch) × (σ × List (Exchange ι))) : Prop where
  measured : ∀ told, probed.1.1 = .ok told →
    told = some (start.contents.size : Int) ∧ world.tape probed.2.1 source.handle = start
  /-- Measuring fails if there is no buffer or the source refuses a call, and the rule fails so. -/
  unmeasured : ∀ failure, probed.1.1 = .error failure → ended.1.1 = .error failure ∧
    (scratch.buffer = .error failure ∨ ∃ call earlier, probed.2.2 = call :: earlier ∧
      call.1.failure? (fun _ => source.name) call.2 = some failure)
  tooLarge_iff : IsTooLarge ended.1.1 ↔ probed.1.1.isOk = true ∧
    ceiling < start.contents.size ∧
    start.contents.size - ceiling < Nat.pow 10 Text.digitLimit
  /-- An excess of more digits than are written is refused over its digits. -/
  unwritable : probed.1.1.isOk = true → ceiling < start.contents.size →
    Nat.pow 10 Text.digitLimit ≤ start.contents.size - ceiling →
      ended.1.1 = .error (.misuse .unprintableNumber)
  /-- The error has the name, the size and the ceiling, and the source is back where it was. -/
  reported : ∀ name size ceiling', ended.1.1 = .error (.build (.imageTooLarge name size ceiling')) →
    name = source.name ∧ size = start.contents.size ∧ ceiling' = ceiling ∧
      0 < BuildError.excess size ceiling' ∧ world.tape ended.2.1 source.handle = start
  /-- Until the image has passed, no call is about anything but the position of the source. -/
  untouched : ceiling < start.contents.size ∨ probed.1.1.isOk = false →
    ended.1.1.isOk = false ∧ ended.2 = probed.2 ∧ ∀ call ∈ ended.2.2,
      call.1.Probes source.handle ∧
        (source.handle ≠ dest.handle → call.1.stream? ≠ some dest.handle)

section Gated

variable {rule : Rule} {source dest : Channel ι} {world : World ι σ} {scratch scratch' : Scratch}
  {state : σ} {after : σ × List (Exchange ι)} {start : Tape}

/-- All that happens before the gate is about the position of the source. -/
theorem probes_of_probe [Machine] {outcome : Except Failure (Option Int)}
    (hprobed : world.logged.run scratch (probe source) (state, []) = ((outcome, scratch'), after)) :
    ∀ call ∈ after.2, call.1.Probes source.handle ∧
      (source.handle ≠ dest.handle → call.1.stream? ≠ some dest.handle) := by
  intro call hcall
  have hcalled : call.1.Probes source.handle :=
    (probe_asksOnly (moves_probes source.handle)).run_recording hprobed call hcall
  refine ⟨hcalled, fun hapart hto => hapart ?_⟩
  exact Option.some.inj (hcalled.stream_eq.symm.trans hto)

theorem gated_of_unmeasured [Machine] {failure : Failure} (ceiling : Nat)
    (hprobed : world.logged.run scratch (probe source) (state, [])
      = ((.error failure, scratch'), after)) :
    Gated world source dest scratch start ceiling ((.error failure, scratch'), after)
      (world.logged.run scratch (rule.apply source dest) (state, [])) := by
  have hkind : failure.OfTransfer False := (probe_failsOnly source).run (congrArg (·.1.1) hprobed)
  rw [run_of_unmeasured hprobed]
  refine ⟨?_, ?_, ?_, fun hok => absurd hok (by simp [Except.isOk, Except.toBool]), ?_,
    fun _ => ⟨rfl, rfl, probes_of_probe hprobed⟩⟩
  · rintro told ⟨⟩
  · rintro _ ⟨⟩
    exact ⟨rfl, refused_of_probe hprobed⟩
  · constructor
    · rintro ⟨name, size, ceiling', ⟨⟩⟩
      cases hkind
    · rintro ⟨⟨⟩, -⟩
  · rintro name size ceiling' ⟨⟩
    cases hkind

theorem gated_of_measured [Machine]
    (hprobed : world.logged.run scratch (probe source) (state, [])
      = ((.ok (some (start.contents.size : Int)), scratch'), after))
    (hback : world.tape after.1 source.handle = start) :
    Gated world source dest scratch start rule.ceiling
      ((.ok (some (start.contents.size : Int)), scratch'), after)
      (world.logged.run scratch (rule.apply source dest) (state, [])) := by
  by_cases hlarge : rule.ceiling < start.contents.size
  · rw [run_of_large hprobed (Int.ofNat_lt.mpr hlarge)]
    refine ⟨?_, ?_, ?_, fun _ _ hlong => congrArg Except.error (refusal_eq_misuse hlarge hlong), ?_,
      fun _ => ⟨rfl, rfl, probes_of_probe hprobed⟩⟩
    · rintro told ⟨⟩
      exact ⟨rfl, hback⟩
    · rintro failure ⟨⟩
    · rw [isTooLarge_refusal hlarge]
      exact ⟨fun hprintable => ⟨rfl, hlarge, hprintable⟩, fun hall => hall.2.2⟩
    · intro name size ceiling' hbuild
      obtain ⟨⟨rfl, rfl, rfl⟩, -⟩ := Failure.imageTooLarge_eq_build.mp (Except.error.inj hbuild)
      refine ⟨rfl, rfl, rfl, ?_, hback⟩
      rw [BuildError.excess]
      omega
  · have hnever {name : String} {size ceiling' : Int}
        (hbuild : (world.logged.run scratch (rule.apply source dest) (state, [])).1.1
          = .error (.build (.imageTooLarge name size ceiling'))) : False := by
      have hkind : (Failure.build (.imageTooLarge name size ceiling')).OfTransfer False :=
        ofTransfer_of_fits False.elim False.elim hprobed (mt Int.ofNat_lt.mp hlarge) hbuild
      cases hkind
    refine ⟨?_, ?_, ⟨?_, ?_⟩, fun _ hover => absurd hover hlarge,
      fun _ _ _ hbuild => (hnever hbuild).elim, ?_⟩
    · rintro told ⟨⟩
      exact ⟨rfl, hback⟩
    · rintro failure ⟨⟩
    · rintro ⟨name, size, ceiling', hbuild⟩
      exact (hnever hbuild).elim
    · rintro ⟨-, hover, -⟩
      exact absurd hover hlarge
    · rintro (hover | ⟨⟨⟩⟩)
      exact absurd hover hlarge

end Gated

/-- **The gate is before the first byte, and exact.** Take any rule, a truthful source that stands
anywhere, even behind its end, and a destination that does whatever it likes. The ceiling is the
largest accepted size of the specification where it has one, be it zero, and the target size
otherwise.

The rule ends with the error of an image that is too large if and only if the source was measured
and its size is above the ceiling. This has one amendment: the message tells the excess, and with
more digits than are written it cannot be made, so that the rule ends with the error of that. The
error has that size, the ceiling and an excess above zero, and the source is back where it was. If
the image is too large, or could not be measured because the source refused a call, each call was
about the position of the source: nothing has been read, and nothing was asked of the
destination. -/
theorem apply_refuses_too_large [Machine] [DecidableEq ι] (rule : Rule) {world : World ι σ}
    {source : Channel ι} (htruthful : world.IsTruthfulAt source.handle) (dest : Channel ι)
    (scratch : Scratch) (state : σ) :
    ∃ ceiling, rule.spec.ceiling = some ceiling ∧
      Gated world source dest scratch (world.tape state source.handle) ceiling
        (world.logged.run scratch (probe source) (state, []))
        (world.logged.run scratch (rule.apply source dest) (state, [])) := by
  refine ⟨rule.ceiling, rule.spec_ceiling, ?_⟩
  obtain ⟨_, scratch', after, hprobed, rfl, htape⟩ | ⟨failure, scratch', after, hprobed, -⟩ :=
    htruthful.run_logged (probe_asksOnly ⟨rfl, fun _ _ => rfl, rfl⟩)
      (fun _ => ⟨false, false, false, none⟩) (probe_ensures _ source scratch (world.tape state))
  · rw [hprobed]
    exact gated_of_measured hprobed (Function.update_eq_self_iff.mp htape)
  · rw [hprobed]
    exact gated_of_unmeasured rule.ceiling hprobed

/-- The container has room for four bytes, but no image that has any is accepted; one of three is
refused, and the source stays behind its end. -/
theorem apply_refuses_too_large_behind :
    let spec : Spec := { Table.pad with targetSize := some 4, maxInputSize := some 0 }
    let rule : Rule := ⟨.padded, spec, 4, rfl⟩
    let source : Channel Bool := ⟨false, "in.bin", true, true⟩
    let dest : Channel Bool := ⟨true, "out.bin", true, true⟩
    let tape : Tape := ⟨.ofBytes [1, 2, 3], 7⟩
    let tapes : Bool → Tape := fun stream => if stream then .empty else tape
    let ended :=
      (World.plain 0).logged.run (.ready (.zeros 2)) (rule.apply source dest) (tapes, [])
    spec.WellFormed ∧ ended.1.1 = .error (.build (.imageTooLarge "in.bin" 3 0)) ∧
      ended.2.1 false = tape ∧
      ∀ call ∈ ended.2.2, call.1.Probes false ∧ call.1.stream? ≠ some true := by
  intro spec rule source dest tape tapes ended
  obtain ⟨ceiling, hceiling, hgated⟩ := apply_refuses_too_large rule
    ((World.plain_isTruthful 0).at source.handle) dest (.ready (.zeros 2)) tapes
  obtain rfl : 0 = ceiling := Option.some.inj hceiling
  have hlarge : 0 < (tapes source.handle).contents.size := by decide
  obtain ⟨name, size, ceiling, hrefused⟩ :=
    hgated.tooLarge_iff.mpr ⟨by decide +kernel, hlarge, by decide +kernel⟩
  obtain ⟨rfl, rfl, rfl, -, hback⟩ := hgated.reported _ _ _ hrefused
  obtain ⟨-, -, hcalls⟩ := hgated.untouched (.inl hlarge)
  have hspec : spec.WellFormed :=
    Spec.wellFormed_of_conflict (by decide) (by simp [spec, Table.pad])
  refine ⟨hspec, hrefused, hback, fun call hcall => ?_⟩
  obtain ⟨hprobes, hspared⟩ := hcalls call hcall
  exact ⟨hprobes, hspared (by decide)⟩

end Rule

end RomImage
