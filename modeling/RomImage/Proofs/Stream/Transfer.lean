import RomImage.Proofs.Stream.Conduct
import RomImage.Proofs.Stream.Evenly
import RomImage.Stream.Transfer

/-!
# Transfers between truthful streams

A copy takes bytes from the source and gives them to the destination, and one round of it takes and
gives at most a buffer of them. What has been given is always a beginning of what has been taken: a
copy that ends gives all that was asked for (`copy_ensures`), and one that stops has lost no more
than the chunk in the buffer (`CopyStopped`). A fill gives so many copies of a byte, or fewer.

A transfer fails only where the streams do not oblige, which every failure here says as `¬ obliged`.
-/

namespace RomImage

namespace Stream

open Function (update)

variable {ι : Type} [DecidableEq ι] {ability : ι → Ability} {obliged : Prop}

def HasBuffer (span : Nat) (scratch : Scratch) : Prop :=
  ∃ buffer, scratch = .ready buffer ∧ buffer.length = span

def written (dest : ι) (data : Bytes) (tapes : ι → Tape) : ι → Tape :=
  update tapes dest ((tapes dest).write data)

def transferred (source dest : ι) (taken given : Nat) (tapes : ι → Tape) : ι → Tape :=
  written dest ((tapes source).ahead.take given)
    (update tapes source ((tapes source).advance taken))

def IsWriteFailure (dest : Channel ι) (failure : Failure) : Prop :=
  (∃ fault, failure = writeFailure dest fault) ∨
    ∃ written offered, failure = shortWrite dest written offered

/-- How a write of at most so many bytes can stop: it is refused, or it takes less than is
offered. -/
inductive WriteStopped (dest : Channel ι) (most : Nat) : Failure → Prop
  | refused (fault : Fault) : WriteStopped dest most (writeFailure dest fault)
  | short {given offered : Nat} (hgiven : given ≤ offered) (hoffered : offered ≤ most) :
      WriteStopped dest most (shortWrite dest given offered)

omit [DecidableEq ι] in
theorem WriteStopped.isWriteFailure {dest : Channel ι} {most : Nat} {failure : Failure}
    (hstopped : WriteStopped dest most failure) : IsWriteFailure dest failure := by
  cases hstopped with
  | refused fault => exact .inl ⟨fault, rfl⟩
  | short => exact .inr ⟨_, _, rfl⟩

omit [DecidableEq ι] in
theorem WriteStopped.mono {dest : Channel ι} {least most : Nat} {failure : Failure}
    (hstopped : WriteStopped dest least failure) (hle : least ≤ most) :
    WriteStopped dest most failure := by
  cases hstopped with
  | refused fault => exact .refused fault
  | short hgiven hoffered => exact .short hgiven (Nat.le_trans hoffered hle)

@[simp] theorem written_self (dest : ι) (data : Bytes) (tapes : ι → Tape) :
    written dest data tapes dest = (tapes dest).write data :=
  Function.update_self _ _ _

theorem written_of_ne {dest other : ι} (hne : other ≠ dest) (data : Bytes) (tapes : ι → Tape) :
    written dest data tapes other = tapes other :=
  Function.update_of_ne hne _ _

@[simp] theorem written_nil (dest : ι) (tapes : ι → Tape) : written dest [] tapes = tapes := by
  rw [written, Tape.write_nil, Function.update_eq_self]

theorem written_written (dest : ι) (first second : Bytes) (tapes : ι → Tape) :
    written dest second (written dest first tapes) = written dest (first ++ second) tapes := by
  rw [written, written_self, Tape.write_append, written, Function.update_idem, written]

theorem writeAll_ensures (dest : Channel ι) (data : Bytes) {scratch : Scratch} {tapes : ι → Tape}
    (hready : obliged →
      (ability dest.handle).takes ((tapes dest.handle).position + data.length)) :
    (writeAll dest data).Ensures (conduct ability obliged) scratch tapes
      (fun _ scratch' after => scratch' = scratch ∧
        after = written dest.handle data tapes)
      (fun failure scratch' after => ¬ obliged ∧ scratch' = scratch ∧
        WriteStopped dest data.length failure ∧
        ∃ given ≤ data.length, (data ≠ [] → given < data.length) ∧
        after = written dest.handle (data.take given) tapes) := by
  rw [writeAll]
  refine Task.Ensures.bind (Task.ensures_request _) ?_
  rintro answer scratch' after ⟨rfl, htruthful, hobliging⟩
  have hgranted : obliged → answer = .ok (some (data.length : Int)) :=
    fun hobliged => hobliging hobliged (hready hobliged)
  obtain fault | reported := answer
  · refine Task.ensures_fail ⟨fun hobliged => ?_, rfl, .refused fault, 0, Nat.zero_le _,
      List.length_pos_iff.mpr, ?_⟩
    · exact absurd (hgranted hobliged) (by simp)
    · have hafter : after = tapes := htruthful
      rw [hafter, List.take_zero, written_nil]
  · obtain ⟨count, hcount, hreported, hafter⟩ := htruthful
    obtain rfl | ⟨rfl, rfl⟩ := hreported
    · by_cases hshort : (count : Int) < data.length
      · dsimp only
        rw [if_pos hshort]
        refine Task.ensures_fail ⟨fun hobliged => ?_, rfl, .short hcount (Nat.le_refl _), count,
          hcount, fun _ => by omega, hafter⟩
        have hwhole := hgranted hobliged
        simp only [Except.ok.injEq, Option.some.injEq] at hwhole
        omega
      · have hwhole : count = data.length := by omega
        dsimp only
        rw [if_neg hshort]
        refine Task.ensures_pure ⟨rfl, ?_⟩
        rw [hafter, hwhole, List.take_length, written]
    · refine Task.ensures_fail ⟨fun hobliged => ?_, rfl, .short hcount (Nat.le_refl _), 0, hcount,
        List.length_pos_iff.mpr, hafter⟩
      exact absurd (hgranted hobliged) (by simp)

omit [DecidableEq ι] in
/-- Storing bytes that fit leaves a buffer of the same length, under any conduct. -/
theorem storeFront_ensures [Machine] {σ : Type} {conduct : Conduct (interface ι) σ} (data : Bytes)
    {buffer : Buffer} {state : σ} {bad : Failure → Scratch → σ → Prop}
    (hfits : data.length ≤ buffer.length) :
    (storeFront data).Ensures conduct (.ready buffer) state
      (fun _ scratch' after => after = state ∧ ∃ filled, scratch' = .ready filled ∧
        filled.length = buffer.length ∧ filled.bytes = buffer.bytes.overwrite data) bad := by
  rw [storeFront]
  refine Task.Ensures.bind (Task.ensures_buffer rfl) ?_
  rintro buffer _ _ ⟨rfl, rfl, rfl⟩
  refine Task.ensures_setBuffer ⟨rfl, _, rfl, ?_, Buffer.bytes_overwrite buffer data⟩
  rw [Buffer.length_overwrite, Nat.max_eq_left hfits]

def Arrived (source : ι) (tapes : ι → Tape) (span count : Nat) (scratch : Scratch)
    (after : ι → Tape) : Prop :=
  count ≤ (tapes source).ahead.length ∧
    after = update tapes source ((tapes source).advance count) ∧
    ∃ filled, scratch = .ready filled ∧ filled.length = span ∧
      filled.upTo count = (tapes source).ahead.take count

/-- A read has reported how much has arrived; where streams oblige, that is something if anything
was asked for and anything is ahead. -/
def Delivered (obliged : Prop) (source : ι) (tapes : ι → Tape) (span want : Nat) (got : Int)
    (scratch : Scratch) (after : ι → Tape) : Prop :=
  ∃ count ≤ want, got = (count : Int) ∧
    (obliged → 0 < want → (tapes source).ahead ≠ [] → 0 < count) ∧
    Arrived source tapes span count scratch after

/-- What a granted read hands over arrives at the front of the buffer. -/
theorem storeFront_delivers [Machine] {source : ι} {tapes after : ι → Tape} {buffer : Buffer}
    {want asked : Nat} {data : Bytes} {bad : Failure → Scratch → (ι → Tape) → Prop}
    (hfits : want ≤ buffer.length) (hasked : asked ≤ want)
    (hdata : data = ((tapes source).read asked).1)
    (hafter : after = update tapes source ((tapes source).read asked).2)
    (hsome : obliged → 0 < want → (tapes source).ahead ≠ [] → data ≠ []) :
    (do storeFront data; return (data.length : Int) : Work ι Int).Ensures
      (conduct ability obliged) (.ready buffer) after
      (Delivered obliged source tapes buffer.length want) bad := by
  obtain ⟨count, hcount, hthere, hread⟩ := (tapes source).read_eq asked
  rw [hread] at hdata hafter
  dsimp only at hdata hafter
  have hlength : data.length = count := by rw [hdata, List.length_take_of_le hthere]
  refine Task.Ensures.bind (storeFront_ensures data (by omega)) ?_
  intro _ scratch' after' ⟨hsame, filled, hscratch', hspan, hfilled⟩
  have hfront : filled.upTo count = (tapes source).ahead.take count := by
    rw [Buffer.upTo_eq, hfilled, Bytes.upTo, if_neg (by omega), Bytes.overwrite,
      Int.toNat_natCast, List.take_left' hlength, hdata]
  rw [hlength]
  refine Task.ensures_pure ⟨count, by omega, rfl, fun hobliged hwant hahead => ?_, hthere,
    hsame.trans hafter, filled, hscratch', hspan, hfront⟩
  rw [← hlength]
  exact List.length_pos_iff.mpr (hsome hobliged hwant hahead)

theorem readChunk_ensures [Machine] (source : Channel ι) {want : Nat} {buffer : Buffer}
    {tapes : ι → Tape}
    (hfits : want ≤ buffer.length)
    (hready : obliged → (ability source.handle).readable = true) :
    (readChunk source want).Ensures (conduct ability obliged) (.ready buffer) tapes
      (Delivered obliged source.handle tapes buffer.length want)
      (fun failure scratch' after => ¬ obliged ∧ scratch' = .ready buffer ∧ after = tapes ∧
        ∃ fault, failure = readFailure source fault) := by
  rw [readChunk]
  by_cases hinto : source.readsInto = true
  · rw [if_pos hinto]
    refine Task.Ensures.bind (Task.ensures_request _) ?_
    rintro answer scratch' after ⟨rfl, htruthful, hobliging⟩
    obtain fault | delivery := answer
    · have hafter : after = tapes := htruthful
      refine Task.ensures_fail ⟨fun hobliged => ?_, rfl, hafter, fault, rfl⟩
      obtain ⟨_, hgranted, _⟩ := hobliging hobliged (hready hobliged)
      exact absurd hgranted (by simp)
    · obtain ⟨asked, hasked, hstored, hreported, hafter⟩ := htruthful
      have hlength : delivery.stored.length ≤ want := by
        rw [hstored]
        exact Nat.le_trans ((tapes source.handle).length_read_le asked) hasked
      have hgot : delivery.reported.getD 0 = (delivery.stored.length : Int) := by
        obtain hsome | ⟨hnone, hzero⟩ := hreported
        · rw [hsome, Option.getD_some]
        · rw [hnone, hzero, Option.getD_none, Int.natCast_zero]
      dsimp only
      rw [Bytes.first_eq, List.take_of_length_le hlength, hgot]
      refine storeFront_delivers hfits hasked hstored hafter fun hobliged hwant hahead => ?_
      obtain ⟨_, hgranted, hnonempty⟩ := hobliging hobliged (hready hobliged)
      obtain rfl := Except.ok.inj hgranted
      exact hnonempty hwant hahead
  · rw [if_neg hinto]
    refine Task.Ensures.bind (Task.ensures_request _) ?_
    rintro answer scratch' after ⟨rfl, htruthful, hobliging⟩
    obtain fault | _ | data := answer
    · have hafter : after = tapes := htruthful
      refine Task.ensures_fail ⟨fun hobliged => ?_, rfl, hafter, fault, rfl⟩
      obtain ⟨_, hgranted, _⟩ := hobliging hobliged (hready hobliged)
      exact absurd hgranted (by simp)
    · have hafter : after = tapes := htruthful
      refine Task.ensures_pure ⟨0, Nat.zero_le _, rfl, fun hobliged hwant hahead => ?_,
        Nat.zero_le _, ?_, buffer, rfl, rfl, ?_⟩
      · obtain ⟨_, hgranted, hnonempty⟩ := hobliging hobliged (hready hobliged)
        obtain rfl := Except.ok.inj hgranted
        exact absurd rfl (hnonempty hwant hahead)
      · rw [hafter, Tape.advance_zero, Function.update_eq_self]
      · rw [Buffer.upTo_eq, List.take_zero]
        rfl
    · obtain ⟨asked, hasked, hdata, hafter⟩ := htruthful
      have hlength : data.length ≤ want := by
        rw [hdata]
        exact Nat.le_trans ((tapes source.handle).length_read_le asked) hasked
      dsimp only
      rw [if_neg (by omega)]
      refine storeFront_delivers hfits hasked hdata hafter fun hobliged hwant hahead => ?_
      obtain ⟨_, hgranted, hnonempty⟩ := hobliging hobliged (hready hobliged)
      obtain rfl := Except.ok.inj hgranted
      exact hnonempty hwant hahead

theorem transferred_zero (source dest : ι) (tapes : ι → Tape) :
    transferred source dest 0 0 tapes = tapes := by
  rw [transferred, Tape.advance_zero, Function.update_eq_self, List.take_zero, written_nil]

/-- How a copy can stop. After a read that fails or delivers nothing, or when only the note is
refused, all that was taken has been given; after a write that fails, the destination lacks some of
the chunk in the buffer. -/
inductive CopyStopped (source dest : Channel ι) (span : Nat) : Failure → Nat → Nat → Prop
  | unread (fault : Fault) (count : Nat) :
      CopyStopped source dest span (readFailure source fault) count count
  | dry (count : Nat) :
      CopyStopped source dest span
        (.build (.shortRead source.name "premature end of file.")) count count
  | unwritten {failure : Failure} {taken given : Nat} (hfailure : IsWriteFailure dest failure)
      (hless : given < taken) (hspan : taken ≤ given + span) :
      CopyStopped source dest span failure taken given
  | unnoted (fault : Fault) (count : Nat) :
      CopyStopped source dest span (.fault fault) count count

def CanCopy (ability : ι → Ability) (source dest : ι) (count : Nat) (tapes : ι → Tape) : Prop :=
  (ability source).readable = true ∧ count ≤ (tapes source).ahead.length ∧
    (ability dest).takes ((tapes dest).position + count)

theorem copyChunk_ensures [Machine] (source dest : Channel ι) {want span : Nat} {scratch : Scratch}
    {tapes : ι → Tape} (hapart : source.handle ≠ dest.handle) (hwant : 0 < want)
    (hfits : want ≤ span) (hscratch : HasBuffer span scratch)
    (hready : obliged → CanCopy ability source.handle dest.handle want tapes) :
    (copyChunk source dest want).Ensures (conduct ability obliged) scratch tapes
      (fun got scratch' after => ∃ count : Nat, got = (count : Int) ∧ 0 < count ∧ count ≤ want ∧
        count ≤ (tapes source.handle).ahead.length ∧ HasBuffer span scratch' ∧
        after = transferred source.handle dest.handle count count tapes)
      (fun failure scratch' after => ¬ obliged ∧ HasBuffer span scratch' ∧
        ∃ taken given, taken ≤ want ∧ given < want ∧
          taken ≤ (tapes source.handle).ahead.length ∧
          CopyStopped source dest span failure taken given ∧
          after = transferred source.handle dest.handle taken given tapes) := by
  obtain ⟨buffer, rfl, rfl⟩ := hscratch
  rw [copyChunk]
  have hreadable (hobliged : obliged) : (ability source.handle).readable = true :=
    (hready hobliged).1
  refine Task.Ensures.bind ((readChunk_ensures source hfits hreadable).bad_mono ?_) ?_
  · rintro failure scratch' after ⟨hrefused, rfl, rfl, fault, rfl⟩
    exact ⟨hrefused, ⟨buffer, rfl, rfl⟩, 0, 0, Nat.zero_le _, hwant, Nat.zero_le _,
      .unread fault 0, (transferred_zero _ _ _).symm⟩
  rintro got scratch' after ⟨count, hcount, rfl, hsome, hthere, rfl, filled, rfl, hspan, hfront⟩
  by_cases hnone : count = 0
  · subst hnone
    refine Task.ensures_fail ⟨fun hobliged => ?_, ⟨filled, rfl, hspan⟩, 0, 0, Nat.zero_le _,
      hwant, Nat.zero_le _, .dry 0, ?_⟩
    · obtain ⟨-, hahead, -⟩ := hready hobliged
      exact Nat.lt_irrefl 0 (hsome hobliged hwant (List.ne_nil_of_length_pos (by omega)))
    · rw [transferred_zero, Tape.advance_zero, Function.update_eq_self]
  · have hlength : ((tapes source.handle).ahead.take count).length = count :=
      List.length_take_of_le hthere
    rw [if_neg (by omega)]
    refine Task.Ensures.bind (Task.ensures_buffer rfl) ?_
    rintro filled _ _ ⟨rfl, rfl, rfl⟩
    rw [hfront]
    have hdest : update tapes source.handle ((tapes source.handle).advance count) dest.handle
        = tapes dest.handle := Function.update_of_ne hapart.symm _ _
    refine Task.Ensures.bind ((writeAll_ensures dest _ fun hobliged => ?_).bad_mono ?_) ?_
    · rw [hdest, hlength]
      exact (hready hobliged).2.2.of_le (by omega)
    · rintro failure scratch' after ⟨hrefused, rfl, hfailure, given, hgiven, hless, rfl⟩
      have hnonempty : (tapes source.handle).ahead.take count ≠ [] :=
        List.ne_nil_of_length_pos (by omega)
      have hgiven := hless hnonempty
      rw [hlength] at hgiven
      refine ⟨hrefused, ⟨filled, rfl, hspan⟩, count, given, hcount, by omega, hthere,
        .unwritten hfailure.isWriteFailure hgiven (by omega), ?_⟩
      rw [List.take_take, Nat.min_eq_left (by omega), transferred]
    · rintro _ scratch' after ⟨rfl, rfl⟩
      exact Task.ensures_pure ⟨count, rfl, by omega, hcount, hthere, ⟨filled, rfl, hspan⟩, rfl⟩

/-- Two transfers in sequence are one, if the first gave all that it took. -/
theorem transferred_transferred {source dest : ι} (hapart : source ≠ dest) (count taken given : Nat)
    (tapes : ι → Tape) :
    transferred source dest taken given (transferred source dest count count tapes)
      = transferred source dest (count + taken) (count + given) tapes := by
  have hsource : transferred source dest count count tapes source
      = (tapes source).advance count := by
    rw [transferred, written_of_ne hapart, Function.update_self]
  have hcommute (tape : Tape) : update (transferred source dest count count tapes) source tape
      = written dest ((tapes source).ahead.take count) (update tapes source tape) := by
    rw [transferred, written, written, Function.update_comm hapart.symm, Function.update_idem,
      Function.update_of_ne hapart.symm, Function.update_of_ne hapart.symm]
  rw [transferred, hsource, hcommute, written_written, Tape.ahead_advance, ← List.take_add,
    Tape.advance_advance, transferred]

omit [DecidableEq ι] in
theorem CopyStopped.shift {source dest : Channel ι} {span : Nat} {failure : Failure}
    {taken given : Nat} (count : Nat)
    (hstopped : CopyStopped source dest span failure taken given) :
    CopyStopped source dest span failure (count + taken) (count + given) := by
  cases hstopped with
  | unread fault => exact .unread fault _
  | dry => exact .dry _
  | unwritten hfailure hless hspan => exact .unwritten hfailure (by omega) (by omega)
  | unnoted fault => exact .unnoted fault _

omit [DecidableEq ι] in
theorem CopyStopped.given_le {source dest : Channel ι} {span : Nat} {failure : Failure}
    {taken given : Nat} (hstopped : CopyStopped source dest span failure taken given) :
    given ≤ taken := by
  cases hstopped with
  | unread => exact Nat.le_refl _
  | dry => exact Nat.le_refl _
  | unwritten hfailure hless hspan => exact Nat.le_of_lt hless
  | unnoted => exact Nat.le_refl _

theorem copyRounds_ensures [Machine] (source dest : Channel ι) {span : Nat}
    (hapart : source.handle ≠ dest.handle) (hspan : 0 < span) (rounds remaining : Nat)
    {scratch : Scratch} {tapes : ι → Tape} (hrounds : remaining ≤ rounds)
    (hscratch : HasBuffer span scratch)
    (hready : obliged → CanCopy ability source.handle dest.handle remaining tapes) :
    (copyRounds source dest span rounds remaining).Ensures (conduct ability obliged) scratch tapes
      (fun _ scratch' after => remaining ≤ (tapes source.handle).ahead.length ∧
        HasBuffer span scratch' ∧
        after = transferred source.handle dest.handle remaining remaining tapes)
      (fun failure scratch' after => ¬ obliged ∧ HasBuffer span scratch' ∧
        ∃ taken given, taken ≤ remaining ∧ given < remaining ∧
          taken ≤ (tapes source.handle).ahead.length ∧
          CopyStopped source dest span failure taken given ∧
          after = transferred source.handle dest.handle taken given tapes) := by
  induction rounds generalizing remaining scratch tapes with
  | zero =>
      obtain rfl : remaining = 0 := by omega
      rw [copyRounds, if_pos (by omega)]
      exact Task.ensures_pure ⟨Nat.zero_le _, hscratch, (transferred_zero _ _ _).symm⟩
  | succ rounds ih =>
      by_cases hdone : remaining = 0
      · subst hdone
        rw [copyRounds, if_pos (by omega)]
        exact Task.ensures_pure ⟨Nat.zero_le _, hscratch, (transferred_zero _ _ _).symm⟩
      rw [copyRounds, if_neg (by omega), Int.toNat_natCast]
      have hwant : 0 < min span remaining := by omega
      refine Task.Ensures.bind ((copyChunk_ensures source dest hapart hwant (Nat.min_le_left _ _)
        hscratch fun hobliged => ?_).bad_mono ?_) ?_
      · obtain ⟨hreadable, hthere, hroom⟩ := hready hobliged
        exact ⟨hreadable, by omega, hroom.of_le (by omega)⟩
      · rintro failure scratch' after ⟨hrefused, hscratch', taken, given, htaken, hgiven, hthere,
          hstopped, hafter⟩
        exact ⟨hrefused, hscratch', taken, given, by omega, by omega, hthere, hstopped, hafter⟩
      rintro got scratch' after ⟨count, rfl, hcount, hwant, hthere, hscratch', rfl⟩
      have hahead : (transferred source.handle dest.handle count count tapes source.handle).ahead
          = (tapes source.handle).ahead.drop count := by
        rw [transferred, written_of_ne hapart, Function.update_self, Tape.ahead_advance]
      have hposition : (transferred source.handle dest.handle count count tapes
          dest.handle).position = (tapes dest.handle).position + count := by
        rw [transferred, written_self, Tape.position_write, List.length_take_of_le hthere,
          Function.update_of_ne hapart.symm]
      have hrest : (remaining : Int) - count = ((remaining - count : Nat) : Int) := by omega
      rw [hrest]
      refine (ih (remaining - count) (by omega) hscratch' fun hobliged => ?_).mono ?_ ?_
      · obtain ⟨hreadable, hthere, hroom⟩ := hready hobliged
        rw [CanCopy, hahead, hposition, List.length_drop]
        exact ⟨hreadable, by omega, hroom.of_le (by omega)⟩
      · rintro _ scratch'' after ⟨hmore, hscratch'', rfl⟩
        rw [hahead, List.length_drop] at hmore
        refine ⟨by omega, hscratch'', ?_⟩
        rw [transferred_transferred hapart, Nat.add_sub_cancel' (by omega)]
      · rintro failure scratch'' after ⟨hrefused, hscratch'', taken, given, htaken, hgiven, hmore,
          hstopped, rfl⟩
        rw [hahead, List.length_drop] at hmore
        exact ⟨hrefused, hscratch'', count + taken, count + given, by omega, by omega, by omega,
          hstopped.shift count, transferred_transferred hapart _ _ _ _⟩

theorem note_ensures (fact : Note) {scratch : Scratch} {tapes : ι → Tape} :
    (note fact : Work ι Unit).Ensures (conduct ability obliged) scratch tapes
      (fun _ scratch' after => scratch' = scratch ∧ after = tapes)
      (fun failure scratch' after => ¬ obliged ∧ scratch' = scratch ∧ after = tapes ∧
        ∃ fault, failure = .fault fault) := by
  rw [note]
  refine Task.Ensures.bind (Task.ensures_request _) ?_
  rintro answer scratch' after ⟨rfl, htruthful, hobliging⟩
  have hafter : after = tapes := htruthful
  obtain fault | _ := answer
  · refine Task.ensures_fail ⟨fun hobliged => ?_, rfl, hafter, fault, rfl⟩
    have hkept : Except.error fault = Except.ok () := hobliging hobliged
    exact absurd hkept (by simp)
  · exact Task.ensures_pure ⟨rfl, hafter⟩

/-- A copy gives exactly what was asked for, or stops at a beginning of it. -/
theorem copy_ensures [Machine] (source dest : Channel ι) {span count : Nat}
    (hapart : source.handle ≠ dest.handle) (hspan : 0 < span) {scratch : Scratch}
    {tapes : ι → Tape} (hscratch : HasBuffer span scratch)
    (hready : obliged → CanCopy ability source.handle dest.handle count tapes) :
    (copy source dest count).Ensures (conduct ability obliged) scratch tapes
      (fun _ scratch' after => count ≤ (tapes source.handle).ahead.length ∧
        HasBuffer span scratch' ∧
        after = transferred source.handle dest.handle count count tapes)
      (fun failure scratch' after => ¬ obliged ∧ HasBuffer span scratch' ∧
        ∃ taken given, taken ≤ count ∧ taken ≤ (tapes source.handle).ahead.length ∧
          CopyStopped source dest span failure taken given ∧
          after = transferred source.handle dest.handle taken given tapes) := by
  rw [copy, if_neg (by omega)]
  by_cases hzero : count = 0
  · subst hzero
    exact Task.ensures_pure ⟨Nat.zero_le _, hscratch, (transferred_zero _ _ _).symm⟩
  obtain ⟨buffer, rfl, rfl⟩ := hscratch
  rw [if_neg (by omega)]
  refine Task.Ensures.bind (Task.ensures_buffer rfl) ?_
  rintro buffer _ _ ⟨rfl, rfl, rfl⟩
  refine Task.Ensures.bind ((copyRounds_ensures source dest hapart hspan _ count (by omega)
    ⟨buffer, rfl, rfl⟩ hready).bad_mono ?_) ?_
  · rintro failure scratch' after ⟨hrefused, hscratch', taken, given, htaken, -, hstopped⟩
    exact ⟨hrefused, hscratch', taken, given, htaken, hstopped⟩
  rintro _ scratch' after ⟨hthere, hscratch', rfl⟩
  refine (note_ensures _).mono ?_ ?_
  · rintro _ _ _ ⟨rfl, rfl⟩
    exact ⟨hthere, hscratch', rfl⟩
  · rintro _ _ _ ⟨hrefused, rfl, rfl, fault, rfl⟩
    exact ⟨hrefused, hscratch', count, count, Nat.le_refl _, hthere, .unnoted fault count, rfl⟩

/-- How a fill can stop: a write failed, or the note was refused. -/
def IsFillFailure (dest : Channel ι) (failure : Failure) : Prop :=
  IsWriteFailure dest failure ∨ ∃ fault, failure = .fault fault

theorem writeTimes_ensures (dest : Channel ι) (value : UInt8) {span : Nat} (hspan : 0 < span)
    (times : Nat) {scratch : Scratch} {tapes : ι → Tape}
    (hready : obliged →
      (ability dest.handle).takes ((tapes dest.handle).position + times * span)) :
    (writeTimes dest (List.replicate span value) times).Ensures (conduct ability obliged) scratch
      tapes
      (fun _ scratch' after => scratch' = scratch ∧
        after = written dest.handle (List.replicate (times * span) value) tapes)
      (fun failure scratch' after => ¬ obliged ∧ scratch' = scratch ∧
        WriteStopped dest span failure ∧ ∃ given < times * span,
          after = written dest.handle (List.replicate given value) tapes) := by
  induction times generalizing tapes with
  | zero =>
      rw [writeTimes]
      refine Task.ensures_pure ⟨rfl, ?_⟩
      rw [Nat.zero_mul, List.replicate_zero, written_nil]
  | succ times ih =>
      have hsplit : (times + 1) * span = span + times * span := by
        rw [Nat.add_mul, Nat.one_mul, Nat.add_comm]
      have hlength : (List.replicate span value).length = span := List.length_replicate
      rw [hsplit] at hready ⊢
      rw [writeTimes]
      refine Task.Ensures.bind ((writeAll_ensures dest _ fun hobliged => ?_).bad_mono ?_) ?_
      · rw [hlength]
        exact (hready hobliged).of_le (by omega)
      · rintro failure scratch' after ⟨hrefused, rfl, hstopped, given, -, hless, rfl⟩
        have hgiven := hless (List.ne_nil_of_length_pos (hlength.symm ▸ hspan))
        rw [hlength] at hstopped hgiven
        refine ⟨hrefused, rfl, hstopped, given, by omega, ?_⟩
        rw [List.take_replicate, Nat.min_eq_left (Nat.le_of_lt hgiven)]
      rintro _ scratch' after ⟨rfl, rfl⟩
      refine (ih fun hobliged => ?_).mono ?_ ?_
      · rw [written_self, Tape.position_write, hlength]
        exact (hready hobliged).of_le (by omega)
      · rintro _ _ _ ⟨rfl, rfl⟩
        rw [written_written, List.replicate_append_replicate]
        exact ⟨rfl, rfl⟩
      · rintro failure _ _ ⟨hrefused, rfl, hstopped, given, hgiven, rfl⟩
        rw [written_written, List.replicate_append_replicate]
        exact ⟨hrefused, rfl, hstopped, span + given, by omega, rfl⟩

/-- A buffer whose front was stored over with copies of a byte, as many as fit into the count. -/
structure HasFront (value : UInt8) (count : Nat) (before after : Buffer) : Prop where
  length_eq : after.length = before.length
  bytes_eq : after.bytes = List.replicate (min before.length count) value
    ++ before.bytes.drop (min before.length count)

/-- A fill ends as its note does once all is written, unless a write stops it before that. -/
theorem fill_ensures_of_note [Machine] {sort : Conduct (interface ι) (ι → Tape)}
    (hsort : ∀ request tapes answer after, sort request tapes answer after →
      conduct ability obliged request tapes answer after)
    (dest : Channel ι) (value : UInt8) {buffer : Buffer} {count : Nat} (hspan : 0 < buffer.length)
    (hcount : 0 < count) {scratch : Scratch} (hbuffer : scratch.buffer = .ok buffer)
    {tapes : ι → Tape}
    (hready : obliged → (ability dest.handle).takes ((tapes dest.handle).position + count))
    {good : Unit → Scratch → (ι → Tape) → Prop} {bad : Failure → Scratch → (ι → Tape) → Prop}
    (hnote : ∀ filled, HasFront value count buffer filled →
      (note (.filled count value dest.name) : Work ι Unit).Ensures sort (.ready filled)
        (written dest.handle (List.replicate count value) tapes) good bad)
    (hstop : ∀ failure filled given, HasFront value count buffer filled → ¬ obliged →
      WriteStopped dest buffer.length failure → given < count →
      bad failure (.ready filled) (written dest.handle (List.replicate given value) tapes)) :
    (fill dest value.toNat count).Ensures sort scratch tapes good bad := by
  have hbyte := value.toNat_lt
  rw [fill_eq_fillEvenly, fillEvenly, if_neg (by omega), if_neg (by omega), if_neg (by omega)]
  refine Task.Ensures.bind (Task.ensures_buffer hbuffer) ?_
  rintro buffer _ _ ⟨rfl, rfl, rfl⟩
  dsimp only
  rw [Int.toNat_natCast, Int.toNat_natCast, UInt8.ofNat_toNat]
  obtain ⟨chunk, hchunk⟩ : ∃ chunk, chunk = min buffer.length count := ⟨_, rfl⟩
  rw [← hchunk, if_neg (by omega)]
  have hparts : count / chunk * chunk + count % chunk = count := Nat.div_add_mod' count chunk
  refine Task.Ensures.bind (storeFront_ensures _ (by rw [List.length_replicate]; omega)) ?_
  rintro _ _ tapes ⟨rfl, filled, rfl, hlength, hbytes⟩
  have hfront : HasFront value count buffer filled := by
    refine ⟨hlength, ?_⟩
    rw [hbytes, Bytes.overwrite, List.length_replicate, hchunk]
  refine Task.Ensures.bind (((writeTimes_ensures dest value (by omega : 0 < chunk)
    (count / chunk) fun hobliged => ?_).under hsort).bad_mono ?_) ?_
  · exact (hready hobliged).of_le (by omega)
  · rintro failure _ _ ⟨hrefused, rfl, hstopped, given, hgiven, rfl⟩
    exact hstop failure filled given hfront hrefused (hstopped.mono (by omega)) (by omega)
  rintro _ _ _ ⟨rfl, rfl⟩
  by_cases hrest : count % chunk = 0
  · rw [if_neg (by omega), show count / chunk * chunk = count by omega]
    exact hnote filled hfront
  · have hmod : count % chunk < chunk := Nat.mod_lt count (by omega)
    rw [if_pos hrest]
    refine Task.Ensures.bind
      (((writeAll_ensures dest _ fun hobliged => ?_).under hsort).bad_mono ?_) ?_
    · rw [written_self, Tape.position_write, List.length_replicate, List.length_replicate,
        Nat.add_assoc, hparts]
      exact hready hobliged
    · rintro failure _ _ ⟨hrefused, rfl, hstopped, given, -, hless, rfl⟩
      have hgiven := hless (by rwa [Ne, List.replicate_eq_nil_iff])
      rw [List.length_replicate] at hstopped hgiven
      rw [written_written, List.take_replicate, Nat.min_eq_left (Nat.le_of_lt hgiven),
        List.replicate_append_replicate]
      exact hstop failure filled _ hfront hrefused (hstopped.mono (by omega)) (by omega)
    · rintro _ _ _ ⟨rfl, rfl⟩
      rw [written_written, List.replicate_append_replicate, hparts]
      exact hnote filled hfront

omit [DecidableEq ι] in
/-- A fill of no bytes ends at once. -/
theorem fill_zero [Machine] (dest : Channel ι) (value : UInt8) :
    fill dest value.toNat 0 = (pure () : Work ι Unit) := by
  have hbyte := value.toNat_lt
  rw [fill, if_neg (by omega), if_neg (by omega), if_pos rfl]

/-- A fill writes exactly so many copies of the byte, or stops at fewer. -/
theorem fill_ensures [Machine] (dest : Channel ι) (value : UInt8) {span count : Nat}
    (hspan : 0 < span)
    {scratch : Scratch} {tapes : ι → Tape} (hscratch : HasBuffer span scratch)
    (hready : obliged →
      (ability dest.handle).takes ((tapes dest.handle).position + count)) :
    (fill dest value.toNat count).Ensures (conduct ability obliged) scratch tapes
      (fun _ scratch' after => HasBuffer span scratch' ∧
        after = written dest.handle (List.replicate count value) tapes)
      (fun failure scratch' after => ¬ obliged ∧ HasBuffer span scratch' ∧
        IsFillFailure dest failure ∧ ∃ given ≤ count,
          after = written dest.handle (List.replicate given value) tapes) := by
  obtain ⟨buffer, rfl, rfl⟩ := hscratch
  obtain rfl | hcount := Nat.eq_zero_or_pos count
  · rw [Int.natCast_zero, fill_zero]
    refine Task.ensures_pure ⟨⟨buffer, rfl, rfl⟩, ?_⟩
    rw [List.replicate_zero, written_nil]
  refine fill_ensures_of_note (fun _ _ _ _ hanswer => hanswer) dest value hspan hcount rfl hready
    (fun filled hfront => ?_) fun failure filled given hfront hrefused hstopped hgiven => ?_
  · refine (note_ensures _).mono ?_ ?_
    · rintro _ _ _ ⟨rfl, rfl⟩
      exact ⟨⟨filled, rfl, hfront.length_eq⟩, rfl⟩
    · rintro _ _ _ ⟨hrefused, rfl, rfl, hfault⟩
      exact ⟨hrefused, ⟨filled, rfl, hfront.length_eq⟩, .inr hfault, count, Nat.le_refl _, rfl⟩
  · exact ⟨hrefused, ⟨filled, rfl, hfront.length_eq⟩, .inl hstopped.isWriteFailure, given,
      Nat.le_of_lt hgiven, rfl⟩

end Stream

end RomImage
