import RomImage.Proofs.Rule.Matched
import RomImage.Proofs.Stream.Budget

/-!
# What rules spend

A rule reads no more often than its largest image has bytes, and writes no more often than its
container has, but for the patch, which may be one write more. The reads and writes of a container
that is staged in memory are not among them; only what goes to the destination in the end is.

So a rule ends, whatever the streams do, as long as no read delivers less than nothing or more than
was asked for (`chunk_loops_end`).
-/

namespace RomImage

open RomImage.Stream

namespace Rule

variable {κ τ : Type} {meter : Meter κ τ} {span : Nat} {source dest : Channel κ} {size : Int}

/-- The image is read and written, and the zeros behind it are written. -/
theorem layImage_spends [Machine] (rule : Rule) (hspan : 0 < span) (hsize : size ≤ rule.targetSize)
    :
    Spends meter span (rule.layImage source dest size)
      (size.toNat * meter.tariff.read source.handle
        + rule.targetSize * meter.tariff.write dest.handle + 2 * meter.tariff.other)
      fun _ => True := by
  rw [layImage]
  by_cases hsign : size < 0
  · rw [copy, if_pos hsign]
    exact .failed (by simp)
  obtain ⟨rest, hrest⟩ : ∃ rest, (rule.targetSize - size).toNat = rest := ⟨_, rfl⟩
  have htarget : rule.targetSize = size.toNat + rest := by omega
  refine Spends.le ((copy_spends size).bind fun _ _ => fill_spends_each hspan 0 _) ?_
  rw [hrest, htarget, Nat.mul_add, Nat.add_mul]
  omega

theorem layPatch_spends [Machine] (rule : Rule) :
    Spends meter span (rule.layPatch dest)
      (meter.tariff.write dest.handle + 5 * meter.tariff.other) fun _ => True := by
  rw [layPatch]
  split
  · exact .failed (by simp)
  · refine Spends.le ((moveTo_spends _ _).bind fun _ _ => (writeAll_spends _).bind fun _ _ =>
      (moveTo_spends _ _).bind fun _ _ => note_spends _) ?_
    omega

/-- What is staged in memory is read from the source, and written to the destination once. -/
theorem layStaged_spends [Machine] (rule : Rule) (hspan : 0 < span) (hsize : size ≤ rule.targetSize)
    :
    Spends meter span
      (staged do
        rule.layImage (source.mapHandle some) stagingChannel size
        rule.layPatch stagingChannel
        move stagingChannel 0 fromStart
        copy stagingChannel (dest.mapHandle some) rule.containerSize)
      (size.toNat * meter.tariff.read source.handle
        + rule.containerSize * meter.tariff.write dest.handle + 9 * meter.tariff.other)
      fun _ => True := by
  have hsource : meter.beside.tariff.read (source.mapHandle some).handle
      = meter.tariff.read source.handle := rfl
  have hdest : meter.beside.tariff.write (dest.mapHandle some).handle
      = meter.tariff.write dest.handle := rfl
  have hread : meter.beside.tariff.read (stagingChannel (ι := κ)).handle = 0 := rfl
  have hwrite : meter.beside.tariff.write (stagingChannel (ι := κ)).handle = 0 := rfl
  have hother : meter.beside.tariff.other = meter.tariff.other := rfl
  refine Spends.staged (Spends.le ((rule.layImage_spends hspan hsize).bind fun _ _ =>
    rule.layPatch_spends.bind fun _ _ => (move_spends _ _).bind fun _ _ => copy_spends _) ?_)
  rw [hsource, hdest, hread, hwrite, hother, Int.toNat_natCast,
    Nat.zero_add (meter.tariff.write dest.handle)]
  omega

theorem lay_spends [Machine] (rule : Rule) (hspan : 0 < span) (hsize : size ≤ rule.targetSize) :
    Spends meter span (rule.lay source dest size)
      (size.toNat * meter.tariff.read source.handle
        + (rule.containerSize + 1) * meter.tariff.write dest.handle + 11 * meter.tariff.other)
      fun _ => True := by
  have htotal : (rule.containerSize + 1) * meter.tariff.write dest.handle
      = rule.spec.leadSize * meter.tariff.write dest.handle
        + rule.targetSize * meter.tariff.write dest.handle + meter.tariff.write dest.handle := by
    rw [containerSize, Nat.add_mul, Nat.add_mul, Nat.one_mul]
  rw [lay]
  split
  · exact (rule.layImage_spends hspan hsize).le (by omega)
  · split
    · exact .failed (by simp)
    · rename_i lead hlead
      have hcount : rule.spec.leadSize = lead.count := by rw [Spec.leadSize, hlead]
      refine Spends.le ((fill_spends_each hspan _ _).bind fun _ _ =>
        rule.layImage_spends hspan hsize) ?_
      rw [htotal, hcount, Int.toNat_natCast]
      omega
  · have htarget : rule.targetSize * meter.tariff.write dest.handle
        ≤ rule.containerSize * meter.tariff.write dest.handle :=
      Nat.mul_le_mul_right _ (Nat.le_add_left _ _)
    have hbudget : meter.tariff.other + (size.toNat * meter.tariff.read source.handle
          + (rule.containerSize + 1) * meter.tariff.write dest.handle + 10 * meter.tariff.other)
        ≤ size.toNat * meter.tariff.read source.handle
          + (rule.containerSize + 1) * meter.tariff.write dest.handle
          + 11 * meter.tariff.other := by
      omega
    rw [Nat.add_mul, Nat.one_mul] at hbudget ⊢
    refine Spends.le (canMove_spends.bind fun moves _ => ?_) hbudget
    split
    · refine Spends.le ((rule.layImage_spends hspan hsize).bind fun _ _ => rule.layPatch_spends) ?_
      omega
    · refine Spends.le ((note_spends _).bind fun _ _ => rule.layStaged_spends hspan hsize) ?_
      omega

theorem imageTooLarge_ne_noProgress (name : String) (size ceiling : Int) :
    Failure.imageTooLarge name size ceiling ≠ .misuse .noProgress := by
  unfold Failure.imageTooLarge
  cases Text.decimal? (BuildError.excess size ceiling) with
  | some digits => simp
  | none => simp

theorem apply_spends [Machine] (rule : Rule) (hspan : 0 < span)
    (hceiling : rule.ceiling ≤ rule.targetSize) :
    Spends meter span (rule.apply source dest)
      (rule.ceiling * meter.tariff.read source.handle
        + (rule.containerSize + 1) * meter.tariff.write dest.handle + 16 * meter.tariff.other)
      fun _ => True := by
  have hbudget : 4 * meter.tariff.other + (meter.tariff.other
        + (rule.ceiling * meter.tariff.read source.handle
          + (rule.containerSize + 1) * meter.tariff.write dest.handle + 11 * meter.tariff.other))
      ≤ rule.ceiling * meter.tariff.read source.handle
        + (rule.containerSize + 1) * meter.tariff.write dest.handle + 16 * meter.tariff.other := by
    omega
  rw [apply]
  refine Spends.buffer.free_bind fun _ _ => Spends.le (measure_spends.bind fun size _ => ?_) hbudget
  cases size with
  | none => exact .failed (by simp)
  | some size =>
      dsimp only
      split
      · exact .failed (imageTooLarge_ne_noProgress _ _ _)
      · rename_i hfits
        have hsize : size.toNat ≤ rule.ceiling := by omega
        refine (note_spends _).bind fun _ _ => Spends.bind_free (Spends.le
          (rule.lay_spends hspan (by omega)) ?_) fun _ _ => .pure trivial
        have hread := Nat.mul_le_mul_right (meter.tariff.read source.handle) hsize
        omega

end Rule

section End

variable {ι σ : Type} (world : World ι σ) {scratch : Scratch} (husable : scratch.IsUsable)
  (state : σ) (dest : Channel ι)

theorem atHand_of_isUsable [Machine] {scratch : Scratch} (husable : scratch.IsUsable) :
    ∃ span, 0 < span ∧ AtHand span scratch := by
  cases hbuffer : scratch.buffer with
  | ok buffer => exact ⟨buffer.length, husable.length_pos hbuffer, atHand_of_buffer hbuffer⟩
  | error failure => exact ⟨1, Nat.one_pos, fun other hother => nomatch hbuffer.symm.trans hother⟩

include husable

/-- A fill ends, and it writes no more often than there are chunks in its count. -/
theorem fill_ends [Machine] (value : Int) (count : Nat) :
    let ended := world.logged.run scratch (fill dest value count) (state, [])
    ended.1.1 ≠ .error (.misuse .noProgress) ∧
    ∀ buffer, scratch.buffer = .ok buffer →
      ended.2.2.countP (fun call => call.1.isWrite) ≤ count ⌈/⌉ min buffer.length count := by
  have hwithin := fill_within world dest value count scratch state
  have hspends {span : Nat} (hspan : 0 < span) (read write other : Nat) :
      Spends (.logged ⟨fun _ => read, fun _ => write, other⟩) span (fill dest value count)
        (0 * read + (count ⌈/⌉ min span count) * write + 1 * other) fun _ => True := by
    refine (fill_spends hspan value count).le ?_
    rw [Int.toNat_natCast, Nat.zero_mul, Nat.zero_add, Nat.one_mul]
    exact Nat.le_refl _
  constructor
  · obtain ⟨span, hspan, hscratch⟩ := atHand_of_isUsable husable
    exact (world.run_counts hscratch (hspends hspan) hwithin).1
  · intro buffer hbuffer
    exact (world.run_counts (atHand_of_buffer hbuffer) (hspends (husable.length_pos hbuffer))
      hwithin).2.2.1

/-- A copy ends, and it reads and writes no more often than it has bytes to copy. -/
theorem copy_ends [Machine] (source : Channel ι) (count : Nat)
    (hwithin : ∀ call ∈ (world.logged.run scratch (copy source dest count) (state, [])).2.2,
      Within call.1 call.2) :
    let ended := world.logged.run scratch (copy source dest count) (state, [])
    ended.1.1 ≠ .error (.misuse .noProgress) ∧
    ended.2.2.countP (fun call => call.1.isRead) ≤ count ∧
    ended.2.2.countP (fun call => call.1.isWrite) ≤ count := by
  obtain ⟨span, -, hscratch⟩ := atHand_of_isUsable husable
  have hspends (read write other : Nat) :
      Spends (.logged ⟨fun _ => read, fun _ => write, other⟩) span (copy source dest count)
        (count * read + count * write + 1 * other) fun _ => True := by
    refine (copy_spends count).le ?_
    rw [Int.toNat_natCast, Nat.mul_add, Nat.one_mul]
    exact Nat.le_refl _
  obtain ⟨hends, hreads, hwrites, -⟩ := world.run_counts hscratch hspends hwithin
  exact ⟨hends, hreads, hwrites⟩

/-- A rule ends after as many calls as its sizes allow. -/
theorem apply_ends [Machine] {rule : Rule} (hceiling : rule.ceiling ≤ rule.targetSize)
    (source : Channel ι)
    (hwithin : ∀ call ∈ (world.logged.run scratch (rule.apply source dest) (state, [])).2.2,
      Within call.1 call.2) :
    let ended := world.logged.run scratch (rule.apply source dest) (state, [])
    ended.1.1 ≠ .error (.misuse .noProgress) ∧
    ended.2.2.countP (fun call => call.1.isRead) ≤ rule.ceiling ∧
    ended.2.2.countP (fun call => call.1.isWrite) ≤ rule.containerSize + 1 ∧
    ended.2.2.length ≤ rule.ceiling + (rule.containerSize + 1) + 16 := by
  obtain ⟨span, hspan, hscratch⟩ := atHand_of_isUsable husable
  exact world.run_counts hscratch (fun _ _ _ => rule.apply_spends hspan hceiling) hwithin

omit husable

/-- **The chunk loops end.** A buffer that is asked for is refused, or it has at least one byte, or
there is no memory for it. Whatever the destination answers, a fill of `count` bytes makes no more
writes than there are chunks in it. Where no read delivers less than nothing or more than was asked
for, a copy of `count` bytes makes no more than `count` reads and `count` writes, and a rule that
comes with the tool makes no more calls than its sizes allow. None of them ever fails because it
came no nearer to its end. -/
theorem chunk_loops_end [Machine] (world : World ι σ) (state : σ) :
    (∀ size setting, Scratch.Allots size setting (Scratch.allocateOr size setting)) ∧
    ∀ scratch : Scratch, scratch.IsUsable →
      (∀ (dest : Channel ι) (count : Nat), 0 < count →
        (∀ value : Int,
          let ended := world.logged.run scratch (fill dest value count) (state, [])
          ended.1.1 ≠ .error (.misuse .noProgress) ∧
          ∀ buffer, scratch.buffer = .ok buffer →
            ended.2.2.countP (fun call => call.1.isWrite) ≤ count ⌈/⌉ min buffer.length count) ∧
        ∀ source : Channel ι,
          let ended := world.logged.run scratch (copy source dest count) (state, [])
          (∀ call ∈ ended.2.2, Within call.1 call.2) →
            ended.1.1 ≠ .error (.misuse .noProgress) ∧
            ended.2.2.countP (fun call => call.1.isRead) ≤ count ∧
            ended.2.2.countP (fun call => call.1.isWrite) ≤ count) ∧
      ∀ rule : Rule, rule.IsShipped → ∀ source dest : Channel ι,
        let ended := world.logged.run scratch (rule.apply source dest) (state, [])
        (∀ call ∈ ended.2.2, Within call.1 call.2) →
          ended.1.1 ≠ .error (.misuse .noProgress) ∧
          ended.2.2.countP (fun call => call.1.isRead) ≤ rule.ceiling ∧
          ended.2.2.countP (fun call => call.1.isWrite) ≤ rule.containerSize + 1 ∧
          ended.2.2.length ≤ rule.ceiling + (rule.containerSize + 1) + 16 :=
  ⟨Scratch.allots_allocateOr, fun _ husable =>
    ⟨fun dest count _ => ⟨fun value => fill_ends world husable state dest value count,
      fun source => copy_ends world husable state dest source count⟩,
    fun _ hshipped source dest =>
      apply_ends world husable state dest hshipped.matched.ceiling_le source⟩⟩

/-- Reads of at most two bytes through a buffer of three, which is as many as the setting says: a
fill of five bytes makes two writes, and a copy of five three reads. A pad rule for eight bytes
writes three times for the image and once for the zeros. -/
theorem chunk_loops_end_plain :
    let source : Channel Bool := ⟨false, "source", true, true⟩
    let dest : Channel Bool := ⟨true, "dest", true, true⟩
    let tapes : Bool → Tape := fun stream => cond stream .empty ⟨⟨#[1, 2, 3, 4, 5]⟩, 0⟩
    let scratch : Scratch := .ready (.zeros 3)
    let rule : Rule := ⟨.padded, { Table.pad with targetSize := some 8 }, 8, rfl⟩
    let filled := (World.plain 1).logged.run scratch (fill dest 0 (5 : Nat)) (tapes, [])
    let copied := (World.plain 1).logged.run scratch (copy source dest (5 : Nat)) (tapes, [])
    let built := (World.plain 1).logged.run scratch (rule.apply source dest) (tapes, [])
    Scratch.Allots none (some "3") (Scratch.allocateOr none (some "3")) ∧
    (filled.2.2.countP (fun call => call.1.isWrite) = 2 ∧
      filled.2.2.countP (fun call => call.1.isWrite) ≤ 5 ⌈/⌉ min (Buffer.zeros 3).length 5) ∧
    (copied.2.2.countP (fun call => call.1.isRead) = 3 ∧
      copied.2.2.countP (fun call => call.1.isRead) ≤ 5) ∧
    rule.IsShipped ∧ built.2.2.countP (fun call => call.1.isWrite) = 4 ∧
      built.1.1 ≠ .error (.misuse .noProgress) ∧
      built.2.2.countP (fun call => call.1.isWrite) ≤ rule.containerSize + 1 := by
  intro source dest tapes scratch rule
  have hshipped : rule.IsShipped := .pad (show Rule.pad (.integer 8) = .ok rule from rfl)
  have husable : scratch.IsUsable := Nat.succ_pos 2
  obtain ⟨hallots, hends⟩ := chunk_loops_end (World.plain 1) tapes
  obtain ⟨htransfers, hrule⟩ := hends scratch husable
  obtain ⟨hfill, hcopy⟩ := htransfers dest 5 (by decide)
  have hcopied := hcopy source (by decide +kernel)
  have hbuilt := hrule rule hshipped source dest (by decide +kernel)
  exact ⟨hallots none (some "3"), ⟨by decide +kernel, (hfill 0).2 _ rfl⟩,
    ⟨by decide +kernel, hcopied.2.1⟩, hshipped, by decide +kernel, hbuilt.1, hbuilt.2.2.1⟩

end End

end RomImage
