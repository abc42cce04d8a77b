import RomImage.Proofs.Stream.Copied
import RomImage.Proofs.Stream.Verdict

/-!
# What a fill has done when it ends

However a fill ends, the destination has got copies of the byte and nothing else, and the buffer,
which later transfers share, has copies of it at its front and is as it was behind them (`Filled`).
The last chunk may be shorter than the one that was prepared, so the front of the buffer may hold
more copies than the destination took from it in the end.

Nothing stops a fill before its end but a write. A fill also fails if its note is refused, and then
everything was written.
-/

namespace RomImage

namespace Stream

variable {ι σ : Type} [DecidableEq ι]

/-- What a fill with `count` copies of a byte through a buffer has done when it ends so: `given` of
them have been written. -/
structure Filled [Machine] (dest : Channel ι) (value : UInt8) (count : Nat) (buffer : Buffer)
    (noted : Prop)
    (before : ι → Tape) (outcome : Except Failure Unit) (scratch : Scratch) (after : ι → Tape)
    (given : Nat) : Prop where
  given_le : given ≤ count
  wrote : after = written dest.handle (List.replicate given value) before
  returned : outcome = .ok () → given = count
  returns : noted → given = count → outcome = .ok ()
  /-- A fill that stops reports a short write or a fault that is no system error. Buffers in memory
  are below the bound. -/
  stopped : given < count → buffer.length < Fault.sizeBound →
    (∃ detail, outcome = .error (.build (.shortWrite dest.name detail))) ∨
      ∃ fault, fault.isSystem = false ∧ outcome = .error (.fault fault)
  front : ∃ filled, scratch.buffer = .ok filled ∧ HasFront value count buffer filled

section Fill

variable {dest : Channel ι} {value : UInt8} {count given : Nat} {noted : Prop} {buffer : Buffer}
  {scratch : Scratch} {tapes : ι → Tape}

theorem hasFront_zero (value : UInt8) (buffer : Buffer) : HasFront value 0 buffer buffer := by
  refine ⟨rfl, ?_⟩
  rw [Nat.min_zero, List.replicate_zero, List.drop_zero, List.nil_append]

omit [DecidableEq ι] in
/-- A write that stops is a short write or passes its fault on. -/
theorem WriteStopped.reported {most : Nat} {failure : Failure}
    (hstopped : WriteStopped dest most failure) (hmost : most < Fault.sizeBound) :
    (∃ detail, failure = .build (.shortWrite dest.name detail)) ∨
      ∃ fault, fault.isSystem = false ∧ failure = .fault fault := by
  cases hstopped with
  | refused fault =>
      unfold writeFailure
      by_cases hsystem : fault.isSystem = true
      · rw [if_pos hsystem]
        exact .inl ⟨_, rfl⟩
      · rw [if_neg hsystem]
        exact .inr ⟨fault, Bool.eq_false_iff.mpr hsystem, rfl⟩
  | @short given offered hgiven hoffered =>
      have hprintable : Fault.sizeBound < Nat.pow 10 Text.digitLimit := by decide +kernel
      rw [shortWrite_eq]
      exact .inl (ofCount_eq offered (by rw [Int.natAbs_natCast]; omega))

/-- A fill that got everything written ends well, unless its note is refused. -/
theorem filled_of_all [Machine] {outcome : Except Failure Unit} {filled : Buffer}
    (hfront : HasFront value count buffer filled) (hnote : noted → outcome = .ok ()) :
    Filled dest value count buffer noted tapes outcome (.ready filled)
      (written dest.handle (List.replicate count value) tapes) count where
  given_le := Nat.le_refl count
  wrote := rfl
  returned _ := rfl
  returns hnoted _ := hnote hnoted
  stopped hless := absurd hless (Nat.lt_irrefl count)
  front := ⟨filled, rfl, hfront⟩

/-- A fill that a write stopped has given less. -/
theorem filled_of_stopped [Machine] {failure : Failure} {filled : Buffer}
    (hfront : HasFront value count buffer filled)
    (hstopped : WriteStopped dest buffer.length failure) (hless : given < count) :
    Filled dest value count buffer noted tapes (.error failure) (.ready filled)
      (written dest.handle (List.replicate given value) tapes) given where
  given_le := Nat.le_of_lt hless
  wrote := rfl
  returned hok := absurd hok (by simp)
  returns _ hall := absurd hall (Nat.ne_of_lt hless)
  stopped _ hspan := by simpa only [Except.error.injEq] using hstopped.reported hspan
  front := ⟨filled, rfl, hfront⟩

/-- However a fill ends between truthful streams, it has done what `Filled` says. -/
theorem fill_listened [Machine] (hbuffer : scratch.buffer = .ok buffer) (hspan : 0 < buffer.length)
    :
    (fill dest value.toNat count).Ensures (listened noted) scratch tapes
      (fun _ scratch' after => ∃ given,
        Filled dest value count buffer noted tapes (.ok ()) scratch' after given)
      (fun failure scratch' after => ∃ given,
        Filled dest value count buffer noted tapes (.error failure) scratch' after given) := by
  obtain rfl | hcount := Nat.eq_zero_or_pos count
  · rw [Int.natCast_zero, fill_zero]
    refine Task.ensures_pure ⟨0, Nat.le_refl 0, ?_, fun _ => rfl, fun _ _ => rfl,
      fun hless => absurd hless (Nat.lt_irrefl 0), buffer, hbuffer, hasFront_zero value buffer⟩
    rw [List.replicate_zero, written_nil]
  have htruthful (request : Request ι) (before : ι → Tape) (answer : request.Answer)
      (after : ι → Tape) (hanswer : listened noted request before answer after) :
      conduct (fun _ => ⟨false, false, false, none⟩) False request before answer after :=
    ⟨hanswer.1, False.elim⟩
  refine fill_ensures_of_note htruthful dest value hspan hcount hbuffer False.elim
    (fun filled hfront => ?_) fun failure filled given hfront _ hstopped hless => ?_
  · refine (note_listened _).mono ?_ ?_
    · rintro _ _ _ ⟨hscratch, rfl⟩
      rw [hscratch]
      exact ⟨count, filled_of_all hfront fun _ => rfl⟩
    · rintro failure _ _ ⟨hrefused, hscratch, rfl, -⟩
      rw [hscratch]
      exact ⟨count, filled_of_all hfront fun hnoted => absurd hnoted hrefused⟩
  · exact ⟨given, filled_of_stopped hfront hstopped hless⟩

/-- **A fill gives copies of its byte.** To a truthful destination, whatever it refuses or cuts
short, a fill with a byte and a count has done what `Filled` says when it ends. One with a value
that is no byte, or with a count below zero, fails before the first request and leaves the buffer as
it is. -/
theorem fill_gives_copies [Machine] {world : World ι σ} (htruthful : world.IsTruthful)
    (dest : Channel ι)
    {scratch : Scratch} {buffer : Buffer} (hbuffer : scratch.buffer = .ok buffer)
    (hspan : 0 < buffer.length) (value count : Int) (state : σ) :
    let ended := world.run scratch (fill dest value count) state
    (value < 0 ∨ 255 < value → fill dest value count scratch
      = .done (.error (.misuse (.fillOutOfRange value)), scratch)) ∧
    (0 ≤ value → value ≤ 255 → count < 0 → fill dest value count scratch
      = .done (.error (.misuse (.negativeCount count)), scratch)) ∧
    (0 ≤ value → value ≤ 255 → 0 ≤ count → ∃ given,
      Filled dest (UInt8.ofNat value.toNat) count.toNat buffer world.TakesNotes (world.tape state)
        ended.1.1 ended.1.2 (world.tape ended.2) given) := by
  refine ⟨fun houtside => ?_, fun hleast hmost hnegative => ?_, fun hleast hmost hcount => ?_⟩
  · rw [fill, if_pos houtside, Task.fail_apply]
  · rw [fill, if_neg (by omega), if_pos hnegative, Task.fail_apply]
  · obtain ⟨count, rfl⟩ := Int.eq_ofNat_of_zero_le hcount
    obtain ⟨byte, rfl⟩ : ∃ byte : UInt8, value = byte.toNat := by
      have hbyte : value.toNat < UInt8.size := by
        rw [UInt8.size]
        omega
      refine ⟨UInt8.ofNat value.toNat, ?_⟩
      rw [UInt8.toNat_ofNat_of_lt' hbyte, Int.toNat_of_nonneg hleast]
    rw [Int.toNat_natCast, Int.toNat_natCast, UInt8.ofNat_toNat]
    exact run_listened htruthful (fun outcome scratch' after => ∃ given, Filled dest byte count
      buffer world.TakesNotes (world.tape state) outcome scratch' after given)
      (fill_listened hbuffer hspan)

/-- Two of four copies are taken, and all four are in the buffer. -/
theorem fill_gives_copies_stingy :
    let world : World Unit (Unit → Tape) := .stingy 0 2
    let ended := world.run (.ready (.ofBytes [1, 2, 3, 4, 5])) (fill ⟨(), "dest", true, true⟩ 255 4)
      fun _ => .empty
    ended.1.1.isOk = false ∧ (ended.2 ()).contents.bytes = [255, 255] ∧
      ended.1.2 = .ready ⟨[255, 255, 255, 255, 5], 0⟩ ∧
      ∃ given, Filled ⟨(), "dest", true, true⟩ 255 4 (.ofBytes [1, 2, 3, 4, 5]) world.TakesNotes
        (fun _ => .empty) ended.1.1 ended.1.2 ended.2 given :=
  ⟨by decide +kernel, by decide +kernel, by decide +kernel,
    (fill_gives_copies (World.stingy_isTruthful 0 2) ⟨(), "dest", true, true⟩
      (rfl : Scratch.buffer (.ready (.ofBytes [1, 2, 3, 4, 5])) = .ok (.ofBytes [1, 2, 3, 4, 5]))
      (by decide) 255 4 _).2.2 (by decide) (by decide) (by decide)⟩

end Fill

end Stream

end RomImage
