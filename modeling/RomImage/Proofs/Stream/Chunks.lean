import RomImage.Proofs.Stream.Handed

/-!
# Transfers chunk by chunk

What a transfer asks for follows from what it has done so far. A copy reads as much as fits into the
buffer of what is still to be copied, and then offers what that read delivered; a fill offers as
much as fits of what is still to be written. `InCopy` and `InFill` say so of one call and the calls
before it, and a run keeps to them at every call, however the streams answer, as long as no read
delivers more than was asked for.

The bounds follow from the last call alone: so much has been offered before it, and it asks for no
more than what is left.
-/

namespace RomImage

namespace Stream

variable {ι σ : Type}

def EachAfter (may : List (Exchange ι) → Exchange ι → Prop) (calls : List (Exchange ι)) : Prop :=
  ∀ call earlier, call :: earlier <:+ calls → may earlier call

section EachAfter

variable {may : List (Exchange ι) → Exchange ι → Prop} {call : Exchange ι}
  {calls : List (Exchange ι)}

theorem eachAfter_nil : EachAfter may [] := by
  intro call earlier hsuffix
  exact absurd (List.suffix_nil.mp hsuffix) (List.cons_ne_nil call earlier)

theorem EachAfter.cons (hcalls : EachAfter may calls) (hcall : may calls call) :
    EachAfter may (call :: calls) := by
  intro last earlier hsuffix
  obtain hall | hless := List.suffix_cons_iff.mp hsuffix
  · obtain ⟨rfl, rfl⟩ := List.cons.inj hall
    exact hcall
  · exact hcalls last earlier hless

/-- What holds at each call holds of every call in the list. -/
theorem EachAfter.forall_mem (hcalls : EachAfter may calls) {fine : Exchange ι → Prop}
    (hfine : ∀ call earlier, call :: earlier <:+ calls → may earlier call → fine call) :
    ∀ call ∈ calls, fine call := by
  intro call hcall
  obtain ⟨later, earlier, hsplit⟩ := List.append_of_mem hcall
  have hsuffix : call :: earlier <:+ calls := ⟨later, hsplit.symm⟩
  exact hfine call earlier hsuffix (hcalls call earlier hsuffix)

end EachAfter

def Request.amount : Request ι → Nat
  | readInto _ size | read _ size => size
  | write _ data => data.length
  | _ => 0

def Request.brought : (request : Request ι) → request.Answer → Bytes
  | .readInto _ _, .ok delivery => delivery.stored
  | .read _ _, .ok (some data) => data
  | _, _ => []

/-- A chunk is what a read has delivered: as many bytes as it reports, and just those that it
brought. A read may report more bytes than it brought; then it says nothing about the others. -/
structure Delivers (read : Exchange ι) (data : Bytes) : Prop where
  length_eq : (data.length : Int) = read.1.report read.2
  brought : data.length ≤ (read.1.brought read.2).length →
    data = (read.1.brought read.2).take data.length

theorem Channel.ReadsUpTo.amount_eq {source : Channel ι} {want : Nat} {request : Request ι}
    (hreads : source.ReadsUpTo want request) : request.amount = want := by
  obtain ⟨-, rfl⟩ | rfl := hreads
  · rfl
  · rfl

theorem NoneFailed.cons {call : Exchange ι} {calls : List (Exchange ι)} (hfine : NoneFailed calls)
    (hcall : ¬ call.Failed) : NoneFailed (call :: calls) :=
  List.forall_mem_cons.mpr ⟨hcall, hfine⟩

theorem noneFailed_nil : NoneFailed ([] : List (Exchange ι)) := by simp [NoneFailed]

variable [DecidableEq ι] {source dest : Channel ι} {span count : Nat} {scratch : Scratch}
  {calls earlier : List (Exchange ι)}

/-- No call has failed, so that all that was offered to the destination was taken, and it was all
that was reported. -/
structure Settled (dest : ι) (calls : List (Exchange ι)) : Prop where
  fine : NoneFailed calls
  copied : reportedIn calls = (offeredTo dest calls).length

def due (dest : ι) (span count : Nat) (calls : List (Exchange ι)) : Nat :=
  min span (count - (offeredTo dest calls).length)

structure ReadsOn (source dest : Channel ι) (span count : Nat) (earlier : List (Exchange ι))
    (call : Exchange ι) : Prop where
  settled : Settled dest.handle earlier
  some : 0 < due dest.handle span count earlier
  asks : source.ReadsUpTo (due dest.handle span count earlier) call.1

/-- A call of a copy of `count` bytes through a buffer of `span`, and the calls before it. -/
inductive InCopy (source dest : Channel ι) (span count : Nat) :
    List (Exchange ι) → Exchange ι → Prop
  | read {earlier : List (Exchange ι)} {call : Exchange ι}
      (hreads : ReadsOn source dest span count earlier call) :
      InCopy source dest span count earlier call
  /-- What was read just now is offered. -/
  | write {earlier : List (Exchange ι)} {read : Exchange ι} {data : Bytes}
      {answer : Except Fault (Option Int)} (hreads : ReadsOn source dest span count earlier read)
      (hdata : Delivers read data) :
      InCopy source dest span count (read :: earlier) ⟨.write dest.handle data, answer⟩
  | note {earlier : List (Exchange ι)} {answer : Except Fault Unit}
      (hsettled : Settled dest.handle earlier)
      (hall : (offeredTo dest.handle earlier).length = count) :
      InCopy source dest span count earlier
        ⟨.note (.copied count source.name dest.name), answer⟩

/-- A call of a fill with `count` copies of a byte through a buffer of `span`, and the calls before
it. -/
inductive InFill (dest : Channel ι) (value : UInt8) (span count : Nat) :
    List (Exchange ι) → Exchange ι → Prop
  /-- As much is offered as fits into the buffer of what is still to be written. -/
  | write {earlier : List (Exchange ι)} {answer : Except Fault (Option Int)}
      (hfine : NoneFailed earlier) (hsome : 0 < due dest.handle span count earlier) :
      InFill dest value span count earlier
        ⟨.write dest.handle (List.replicate (due dest.handle span count earlier) value), answer⟩
  | note {earlier : List (Exchange ι)} {answer : Except Fault Unit} (hfine : NoneFailed earlier)
      (hall : (offeredTo dest.handle earlier).length = count) :
      InFill dest value span count earlier ⟨.note (.filled count value dest.name), answer⟩

theorem offeredTo_write (stream : ι) (data : Bytes) (answer : Except Fault (Option Int))
    (calls : List (Exchange ι)) :
    offeredTo stream (⟨.write stream data, answer⟩ :: calls) = offeredTo stream calls ++ data := by
  rw [offeredTo_cons, Request.dataTo, if_pos rfl]

theorem offeredTo_note (stream : ι) (fact : Note) (answer : Except Fault Unit)
    (calls : List (Exchange ι)) :
    offeredTo stream (⟨.note fact, answer⟩ :: calls) = offeredTo stream calls := by
  rw [offeredTo_cons]
  exact List.append_nil _

theorem offeredTo_read {want : Nat} {read : Exchange ι} (hreads : source.ReadsUpTo want read.1)
    (stream : ι) : offeredTo stream (read :: calls) = offeredTo stream calls := by
  rw [offeredTo_cons, hreads.dataTo, List.append_nil]

/-! ### Bounds, from the last call -/

structure CopyBounds (dest : Channel ι) (span count : Nat) (call : Exchange ι)
    (earlier : List (Exchange ι)) : Prop where
  amount : call.1.amount ≤ span
  offered : (offeredTo dest.handle (call :: earlier)).length ≤ count
  reported : reportedIn (call :: earlier) ≤ count

theorem InCopy.bounds {call : Exchange ι} (hcall : InCopy source dest span count earlier call)
    (hwithin : ∀ each ∈ call :: earlier, Within each.1 each.2) :
    CopyBounds dest span count call earlier := by
  obtain ⟨hlast, hearlier⟩ := List.forall_mem_cons.mp hwithin
  cases hcall with
  | read hreads =>
      obtain ⟨-, hmost⟩ := hreads.asks.report_le fun _ => hlast
      have hcopied := hreads.settled.copied
      have hsome := hreads.some
      unfold due at hmost hsome
      refine ⟨?_, ?_, ?_⟩
      · rw [hreads.asks.amount_eq]
        exact Nat.min_le_left _ _
      · rw [offeredTo_read hreads.asks]
        omega
      · rw [reportedIn]
        omega
  | @write earlier read data answer hreads hdata =>
      obtain ⟨-, hmost⟩ :=
        hreads.asks.report_le fun _ => hearlier read (List.mem_cons_self ..)
      have hcopied := hreads.settled.copied
      have hsome := hreads.some
      have hlength := hdata.length_eq
      unfold due at hmost hsome
      refine ⟨?_, ?_, ?_⟩
      · rw [Request.amount]
        omega
      · rw [offeredTo_write, List.length_append, offeredTo_read hreads.asks]
        omega
      · have hnothing : (Request.write dest.handle data).report answer = 0 := rfl
        rw [reportedIn, reportedIn, hnothing]
        omega
  | @note _ answer hsettled hall =>
      have hnothing : (Request.note (ι := ι) (.copied count source.name dest.name)).report answer
          = 0 := rfl
      refine ⟨Nat.zero_le _, ?_, ?_⟩
      · rw [offeredTo_note]
        exact Nat.le_of_eq hall
      · rw [reportedIn, hnothing, hsettled.copied, hall]
        omega

theorem InFill.bounds {value : UInt8} {call : Exchange ι}
    (hcall : InFill dest value span count earlier call) :
    call.1.amount ≤ span ∧ (offeredTo dest.handle (call :: earlier)).length ≤ count := by
  cases hcall with
  | write hfine hsome =>
      unfold due at hsome
      rw [Request.amount, offeredTo_write, List.length_append, List.length_replicate, due]
      omega
  | note hfine hall =>
      refine ⟨Nat.zero_le _, ?_⟩
      rw [offeredTo_note]
      exact Nat.le_of_eq hall

/-! ### Runs of a copy -/

omit [DecidableEq ι] in
theorem writeAll_moderate (data : Bytes) :
    (writeAll dest data).Ensures moderate scratch calls
      (fun _ scratch' after => scratch' = scratch ∧ ∃ answer : Except Fault (Option Int),
        ¬ Failed (.write dest.handle data) answer ∧
        after = ⟨.write dest.handle data, answer⟩ :: calls)
      (fun _ _ after => ∃ answer : Except Fault (Option Int),
        after = ⟨.write dest.handle data, answer⟩ :: calls) := by
  refine Task.Ensures.bind (Task.ensures_request _) ?_
  rintro answer _ _ ⟨rfl, rfl, -⟩
  obtain fault | _ | taken := answer
  · exact Task.ensures_fail ⟨_, rfl⟩
  · exact Task.ensures_fail ⟨_, rfl⟩
  · dsimp only
    split
    · exact Task.ensures_fail ⟨_, rfl⟩
    · rename_i hwhole
      refine Task.ensures_pure ⟨rfl, _, ?_, rfl⟩
      rintro (hnone | ⟨_, hcount, hless⟩)
      · exact absurd hnone (by simp)
      · obtain rfl := Option.some.inj hcount
        exact hwhole hless

omit [DecidableEq ι] in
theorem note_moderate (fact : Note) :
    (note fact : Work ι Unit).Ensures moderate scratch calls
      (fun _ scratch' after => scratch' = scratch ∧
        ∃ answer : Except Fault Unit, after = ⟨.note fact, answer⟩ :: calls)
      (fun _ _ after => ∃ answer : Except Fault Unit, after = ⟨.note fact, answer⟩ :: calls) := by
  refine Task.Ensures.bind (Task.ensures_request _) ?_
  rintro answer _ _ ⟨rfl, rfl, -⟩
  cases answer with
  | ok _ => exact Task.ensures_pure ⟨rfl, _, rfl⟩
  | error fault => exact Task.ensures_fail ⟨_, rfl⟩

omit [DecidableEq ι] in
/-- The front of a buffer, up to what a read reports, is what the read has delivered. -/
theorem delivers_upTo {read : Exchange ι} {buffer filled : Buffer} {data : Bytes} {got : Int}
    (hgot : 0 ≤ got) (hmost : got ≤ filled.length) (hreport : read.1.report read.2 = got)
    (hfilled : filled.bytes = buffer.bytes.overwrite data)
    (hdata : got ≤ (read.1.brought read.2).length →
      got ≤ data.length ∧ data.take got.toNat = (read.1.brought read.2).take got.toNat) :
    Delivers read (filled.upTo got) := by
  have hlength : ((filled.upTo got).length : Int) = got := by
    rw [length_upTo, portion_of_le hgot hmost]
  refine ⟨hlength.trans hreport.symm, fun hbrought => ?_⟩
  obtain ⟨hstored, hsame⟩ := hdata (by omega)
  have htoNat : (filled.upTo got).length = got.toNat := by omega
  rw [htoNat, ← hsame, Buffer.upTo_eq, Bytes.upTo, if_neg (by omega), hfilled, Bytes.overwrite,
    List.take_append_of_le_length (by omega)]

/-- A read of at most `want` bytes has reported `got` of them; if there are any, they are at the
front of the buffer. -/
structure ChunkRead (source : Channel ι) (want : Nat) (got : Int) (filled : Buffer)
    (read : Exchange ι) : Prop where
  asks : source.ReadsUpTo want read.1
  report : read.1.report read.2 = got
  within : 0 ≤ got ∧ got ≤ want
  some : got ≠ 0 → ¬ read.Failed ∧ Delivers read (filled.upTo got)

omit [DecidableEq ι] in
theorem readChunk_moderate [Machine] {want : Nat} (hfits : want ≤ span)
    (hscratch : HasBuffer span scratch) :
    (readChunk source want).Ensures moderate scratch calls
      (fun got scratch' after => ∃ filled read, scratch' = .ready filled ∧ filled.length = span ∧
        ChunkRead source want got filled read ∧ after = read :: calls)
      (fun _ _ after => ∃ read, source.ReadsUpTo want read.1 ∧ after = read :: calls) := by
  obtain ⟨buffer, rfl, rfl⟩ := hscratch
  rw [readChunk]
  split
  · rename_i hinto
    refine Task.Ensures.bind (Task.ensures_request _) ?_
    rintro answer _ _ ⟨rfl, rfl, hwithin⟩
    have hreads : source.ReadsUpTo want (.readInto source.handle want) := .inl ⟨hinto, rfl⟩
    cases answer with
    | error fault => exact Task.ensures_fail ⟨_, hreads, rfl⟩
    | ok delivery =>
        obtain ⟨hleast, hmost⟩ :
            0 ≤ delivery.reported.getD 0 ∧ delivery.reported.getD 0 ≤ want :=
          hreads.report_le fun _ => hwithin
        have hlength : (Bytes.first delivery.stored want).length ≤ buffer.length := by
          rw [Bytes.first_eq, List.length_take]
          omega
        refine Task.Ensures.bind (storeFront_ensures _ hlength) ?_
        rintro _ _ _ ⟨rfl, filled, rfl, hspan, hfilled⟩
        refine Task.ensures_pure ⟨filled, ⟨.readInto source.handle want, .ok delivery⟩, rfl, hspan,
          ⟨hreads, rfl, ⟨hleast, hmost⟩, fun hsome => ⟨hsome, ?_⟩⟩, rfl⟩
        refine delivers_upTo hleast (by omega) rfl hfilled fun hbrought => ?_
        have hstored : delivery.reported.getD 0 ≤ delivery.stored.length := hbrought
        rw [Bytes.first_eq, List.length_take, List.take_take]
        refine ⟨by omega, ?_⟩
        rw [Nat.min_eq_left (by omega)]
        rfl
  · refine Task.Ensures.bind (Task.ensures_request _) ?_
    rintro answer _ _ ⟨rfl, rfl, hwithin⟩
    have hreads : source.ReadsUpTo want (.read source.handle want) := .inr rfl
    obtain fault | _ | data := answer
    · exact Task.ensures_fail ⟨_, hreads, rfl⟩
    · exact Task.ensures_pure ⟨buffer, _, rfl, rfl, ⟨hreads, rfl, ⟨Int.le_refl 0, by omega⟩,
        fun hsome => absurd rfl hsome⟩, rfl⟩
    · have hshort : data.length ≤ want := hwithin
      have hreport : (Request.read source.handle want).report (.ok (some data))
          = (data.length : Int) := if_neg (by omega)
      dsimp only
      rw [if_neg (by omega)]
      refine Task.Ensures.bind (storeFront_ensures _ (by omega)) ?_
      rintro _ _ _ ⟨rfl, filled, rfl, hspan, hfilled⟩
      refine Task.ensures_pure ⟨filled, _, rfl, hspan, ⟨hreads, hreport, ⟨by omega, by omega⟩,
        fun hsome => ⟨fun hfailed => ?_, ?_⟩⟩, rfl⟩
      · have hnothing : data = [] := hfailed
        exact hsome (by rw [hnothing]; rfl)
      · exact delivers_upTo (by omega) (by omega) hreport hfilled fun _ => ⟨by omega, rfl⟩

structure CopyRound (source dest : Channel ι) (span count : Nat) (calls : List (Exchange ι))
    (remaining : Int) : Prop where
  each : EachAfter (InCopy source dest span count) calls
  settled : Settled dest.handle calls
  rest : (offeredTo dest.handle calls).length + remaining = count
  least : 0 ≤ remaining

theorem CopyRound.reads {remaining : Int} {want : Nat} {read : Exchange ι}
    (hround : CopyRound source dest span count calls remaining) (hspan : 0 < span)
    (hsome : 0 < remaining) (hwant : want = min span remaining.toNat)
    (hreads : source.ReadsUpTo want read.1) : ReadsOn source dest span count calls read := by
  have hrest := hround.rest
  have hdue : due dest.handle span count calls = want := by
    rw [hwant, due]
    omega
  refine ⟨hround.settled, ?_, hdue ▸ hreads⟩
  rw [hdue]
  omega

/-- One round makes a read and a write of what it has delivered. -/
theorem copyChunk_moderate [Machine] {remaining : Int} (hspan : 0 < span) (hsome : 0 < remaining)
    (hscratch : HasBuffer span scratch)
    (hround : CopyRound source dest span count calls remaining) :
    (copyChunk source dest (min span remaining.toNat)).Ensures moderate scratch calls
      (fun got scratch' after => HasBuffer span scratch' ∧
        CopyRound source dest span count after (remaining - got))
      (fun _ _ after => EachAfter (InCopy source dest span count) after) := by
  rw [copyChunk]
  refine Task.Ensures.bind ((readChunk_moderate (Nat.min_le_left _ _) hscratch).bad_mono ?_) ?_
  · rintro _ _ _ ⟨read, hreads, rfl⟩
    exact hround.each.cons (.read (hround.reads hspan hsome rfl hreads))
  rintro got _ _ ⟨filled, read, rfl, hlength, ⟨hreads, hreport, ⟨hleast, hmost⟩, hgot⟩, rfl⟩
  have hread := hround.reads hspan hsome rfl hreads
  have heach := hround.each.cons (.read hread)
  by_cases hnothing : got = 0
  · rw [if_pos hnothing]
    exact Task.ensures_fail heach
  obtain ⟨hfine, hdelivers⟩ := hgot hnothing
  rw [if_neg hnothing]
  refine Task.Ensures.bind (Task.ensures_buffer rfl) ?_
  rintro filled _ _ ⟨rfl, rfl, rfl⟩
  refine Task.Ensures.bind ((writeAll_moderate _).bad_mono ?_) ?_
  · rintro _ _ _ ⟨answer, rfl⟩
    exact heach.cons (.write hread hdelivers)
  rintro _ _ _ ⟨rfl, answer, htaken, rfl⟩
  have hchunk := hdelivers.length_eq
  have hrest := hround.rest
  have hcopied := hround.settled.copied
  refine Task.ensures_pure ⟨⟨filled, rfl, hlength⟩, heach.cons (.write hread hdelivers),
    ⟨(hround.settled.fine.cons hfine).cons htaken, ?_⟩, ?_, ?_⟩
  · have hnone : (Request.write dest.handle (filled.upTo got)).report answer = 0 := rfl
    rw [reportedIn, reportedIn, hnone, offeredTo_write, offeredTo_read hreads, List.length_append]
    omega
  · rw [offeredTo_write, offeredTo_read hreads, List.length_append]
    omega
  · omega

theorem copyRounds_moderate [Machine] (hspan : 0 < span) (rounds : Nat) {remaining : Int}
    (hscratch : HasBuffer span scratch)
    (hround : CopyRound source dest span count calls remaining) :
    (copyRounds source dest span rounds remaining).Ensures moderate scratch calls
      (fun _ _ after => CopyRound source dest span count after 0)
      (fun _ _ after => EachAfter (InCopy source dest span count) after) := by
  induction rounds generalizing remaining scratch calls with
  | zero =>
      rw [copyRounds]
      split
      · rename_i hdone
        obtain rfl : remaining = 0 := Int.le_antisymm hdone hround.least
        exact Task.ensures_pure hround
      · exact Task.ensures_fail hround.each
  | succ rounds ih =>
      rw [copyRounds]
      split
      · rename_i hdone
        obtain rfl : remaining = 0 := Int.le_antisymm hdone hround.least
        exact Task.ensures_pure hround
      · refine Task.Ensures.bind (copyChunk_moderate hspan (by omega) hscratch hround) ?_
        rintro got _ _ ⟨hscratch, hround⟩
        exact ih hscratch hround

theorem copy_moderate [Machine] {buffer : Buffer} (hbuffer : scratch.buffer = .ok buffer)
    (hspan : 0 < buffer.length) (count : Nat) :
    (copy source dest count).Ensures moderate scratch []
      (fun _ _ after => EachAfter (InCopy source dest buffer.length count) after)
      (fun _ _ after => EachAfter (InCopy source dest buffer.length count) after) := by
  rw [copy, if_neg (by omega)]
  split
  · exact Task.ensures_pure eachAfter_nil
  have hstart : CopyRound source dest buffer.length count [] (count : Int) :=
    ⟨eachAfter_nil, ⟨noneFailed_nil, rfl⟩, by simp [offeredTo], by omega⟩
  refine Task.Ensures.bind (Task.ensures_buffer hbuffer) ?_
  rintro buffer _ _ ⟨rfl, rfl, rfl⟩
  refine Task.Ensures.bind (copyRounds_moderate hspan _ ⟨buffer, rfl, rfl⟩ hstart) ?_
  rintro _ _ calls hround
  have hall : (offeredTo dest.handle calls).length = count := by
    have hrest := hround.rest
    omega
  refine (note_moderate _).mono ?_ ?_
  · rintro _ _ _ ⟨-, answer, rfl⟩
    exact hround.each.cons (.note hround.settled hall)
  · rintro _ _ _ ⟨answer, rfl⟩
    exact hround.each.cons (.note hround.settled hall)

/-! ### Runs of a fill -/

structure FillRound (dest : Channel ι) (value : UInt8) (span count : Nat)
    (calls : List (Exchange ι)) (given : Nat) : Prop where
  each : EachAfter (InFill dest value span count) calls
  fine : NoneFailed calls
  given_eq : (offeredTo dest.handle calls).length = given

variable {value : UInt8} {given chunk : Nat}

theorem writeAll_fills (hround : FillRound dest value span count calls given) (hsome : 0 < chunk)
    (hchunk : chunk = min span (count - given)) :
    (writeAll dest (List.replicate chunk value)).Ensures moderate scratch calls
      (fun _ _ after => FillRound dest value span count after (given + chunk))
      (fun _ _ after => EachAfter (InFill dest value span count) after) := by
  obtain rfl : chunk = due dest.handle span count calls := by rw [hchunk, due, hround.given_eq]
  have heach (answer : Except Fault (Option Int)) : EachAfter (InFill dest value span count)
      (⟨.write dest.handle (List.replicate (due dest.handle span count calls) value), answer⟩
        :: calls) := hround.each.cons (.write hround.fine hsome)
  refine (writeAll_moderate _).mono ?_ ?_
  · rintro _ _ _ ⟨-, answer, htaken, rfl⟩
    refine ⟨heach answer, hround.fine.cons htaken, ?_⟩
    rw [offeredTo_write, List.length_append, List.length_replicate, hround.given_eq]
  · rintro _ _ _ ⟨answer, rfl⟩
    exact heach answer

theorem writeTimes_fills (times : Nat) (hround : FillRound dest value span count calls given)
    (hsome : 0 < chunk) (hchunk : chunk = min span count) (hfits : given + times * chunk ≤ count) :
    (writeTimes dest (List.replicate chunk value) times).Ensures moderate scratch calls
      (fun _ _ after => FillRound dest value span count after (given + times * chunk))
      (fun _ _ after => EachAfter (InFill dest value span count) after) := by
  induction times generalizing scratch calls given with
  | zero =>
      rw [Nat.zero_mul]
      exact Task.ensures_pure hround
  | succ times ih =>
      have hsplit : given + (times + 1) * chunk = given + chunk + times * chunk := by
        rw [Nat.add_mul, Nat.one_mul, Nat.add_comm (times * chunk), Nat.add_assoc]
      rw [hsplit] at hfits ⊢
      rw [writeTimes]
      refine Task.Ensures.bind (writeAll_fills hround hsome (by omega)) ?_
      rintro _ _ _ hround
      exact ih hround hfits

theorem fill_moderate [Machine] {buffer : Buffer} (hbuffer : scratch.buffer = .ok buffer)
    (hspan : 0 < buffer.length) (value : Int) (count : Nat) :
    (fill dest value count).Ensures moderate scratch []
      (fun _ _ after => EachAfter (InFill dest (UInt8.ofNat value.toNat) buffer.length count) after)
      (fun _ _ after =>
        EachAfter (InFill dest (UInt8.ofNat value.toNat) buffer.length count) after) := by
  rw [fill_eq_fillEvenly, fillEvenly]
  split
  · exact Task.ensures_fail eachAfter_nil
  rw [if_neg (by omega)]
  split
  · exact Task.ensures_pure eachAfter_nil
  rename_i hcount
  refine Task.Ensures.bind (Task.ensures_buffer hbuffer) ?_
  rintro buffer _ _ ⟨rfl, rfl, rfl⟩
  dsimp only
  rw [Int.toNat_natCast]
  generalize UInt8.ofNat value.toNat = byte
  obtain ⟨chunk, hchunk⟩ : ∃ chunk, chunk = min buffer.length count := ⟨_, rfl⟩
  have hparts : count / chunk * chunk + count % chunk = count := Nat.div_add_mod' count chunk
  have hstart : FillRound dest byte buffer.length count [] 0 :=
    ⟨eachAfter_nil, noneFailed_nil, rfl⟩
  have hnoted {scratch : Scratch} {calls : List (Exchange ι)}
      (hround : FillRound dest byte buffer.length count calls count) :
      (note (.filled count byte dest.name) : Work ι Unit).Ensures moderate scratch calls
        (fun _ _ after => EachAfter (InFill dest byte buffer.length count) after)
        (fun _ _ after => EachAfter (InFill dest byte buffer.length count) after) := by
    refine (note_moderate _).mono ?_ ?_
    · rintro _ _ _ ⟨-, answer, rfl⟩
      exact hround.each.cons (.note hround.fine hround.given_eq)
    · rintro _ _ _ ⟨answer, rfl⟩
      exact hround.each.cons (.note hround.fine hround.given_eq)
  rw [← hchunk, if_neg (by omega)]
  refine Task.Ensures.bind (storeFront_ensures _ (by rw [List.length_replicate]; omega)) ?_
  rintro _ _ _ ⟨rfl, -⟩
  refine Task.Ensures.bind
    (writeTimes_fills (count / chunk) hstart (by omega) hchunk (by omega)) ?_
  rintro _ _ _ hround
  rw [Nat.zero_add] at hround
  by_cases hrest : count % chunk = 0
  · rw [if_neg (by omega)]
    have hwritten : count / chunk * chunk = count := by omega
    rw [hwritten] at hround
    exact hnoted hround
  · have hless : count % chunk < chunk := Nat.mod_lt count (by omega)
    rw [if_pos hrest]
    refine Task.Ensures.bind (writeAll_fills hround (by omega) (by omega)) ?_
    rintro _ _ _ hround
    rw [hparts] at hround
    exact hnoted hround

/-- **Transfers go by chunks.** However the streams answer, through a buffer that is not empty, each
call of a copy is as `InCopy` says and each call of a fill as `InFill` says, given the calls before
it; for a copy no read may deliver more than was asked for. So no call is about more bytes than the
buffer has, and in all no more is offered than should be transferred; nor is more read. -/
theorem transfers_by_chunks [Machine] (world : World ι σ) {scratch : Scratch} {buffer : Buffer}
    (hbuffer : scratch.buffer = .ok buffer) (hspan : 0 < buffer.length) (dest : Channel ι)
    (count : Nat) (state : σ) :
    (∀ source : Channel ι,
      let calls := (world.logged.run scratch (copy source dest count) (state, [])).2.2
      (∀ call ∈ calls, Within call.1 call.2) →
        EachAfter (InCopy source dest buffer.length count) calls ∧
        (∀ call ∈ calls, call.1.amount ≤ buffer.length) ∧
        (offeredTo dest.handle calls).length ≤ count ∧ reportedIn calls ≤ count) ∧
    ∀ value : Int,
      let calls := (world.logged.run scratch (fill dest value count) (state, [])).2.2
      EachAfter (InFill dest (UInt8.ofNat value.toNat) buffer.length count) calls ∧
      (∀ call ∈ calls, call.1.amount ≤ buffer.length) ∧
      (offeredTo dest.handle calls).length ≤ count := by
  constructor
  · intro source calls hwithin
    have heach : EachAfter (InCopy source dest buffer.length count) calls :=
      world.run_moderate (fun _ _ calls => EachAfter (InCopy source dest buffer.length count) calls)
        (copy_moderate hbuffer hspan count) hwithin
    have hbounds (call : Exchange ι) (earlier : List (Exchange ι))
        (hsuffix : call :: earlier <:+ calls) :
        CopyBounds dest buffer.length count call earlier :=
      (heach call earlier hsuffix).bounds fun each hmem => hwithin each (hsuffix.mem hmem)
    refine ⟨heach, heach.forall_mem fun call earlier hsuffix _ =>
      (hbounds call earlier hsuffix).amount, ?_⟩
    clear_value calls
    cases calls with
    | nil => exact ⟨Nat.zero_le _, by rw [reportedIn]; omega⟩
    | cons call earlier =>
        have hlast := hbounds call earlier List.suffix_rfl
        exact ⟨hlast.offered, hlast.reported⟩
  · intro value calls
    have heach : EachAfter (InFill dest (UInt8.ofNat value.toNat) buffer.length count) calls :=
      world.run_moderate (fun _ _ calls =>
        EachAfter (InFill dest (UInt8.ofNat value.toNat) buffer.length count) calls)
        (fill_moderate hbuffer hspan value count) (fill_within world dest value count scratch state)
    refine ⟨heach, heach.forall_mem fun _ _ _ hcall => hcall.bounds.1, ?_⟩
    clear_value calls
    cases calls with
    | nil => exact Nat.zero_le _
    | cons call earlier => exact (heach call earlier List.suffix_rfl).bounds.2

/-- Reads of at most two bytes through a buffer of three: the copy asks for three, for three and for
one, and offers two, two and one. The fill offers three and two. -/
theorem transfers_by_chunks_plain :
    let source : Channel Bool := ⟨false, "source", true, true⟩
    let dest : Channel Bool := ⟨true, "dest", true, true⟩
    let tapes : Bool → Tape := fun stream => cond stream .empty ⟨⟨#[1, 2, 3, 4, 5, 6, 7, 8]⟩, 0⟩
    let calls (work : Work Bool Unit) :=
      ((World.plain 1).logged.run (.ready (.zeros 3)) work (tapes, [])).2.2
    ((calls (copy source dest (5 : Nat))).map (·.1.amount) = [0, 1, 1, 2, 3, 2, 3] ∧
      EachAfter (InCopy source dest 3 5) (calls (copy source dest (5 : Nat)))) ∧
    (calls (fill dest 0 (5 : Nat))).map (·.1.amount) = [0, 2, 3] ∧
      EachAfter (InFill dest 0 3 5) (calls (fill dest 0 (5 : Nat))) := by
  intro source dest tapes calls
  have hwithin : ∀ call ∈ calls (copy source dest (5 : Nat)), Within call.1 call.2 := by
    decide +kernel
  have hchunks := transfers_by_chunks (World.plain 1) (rfl : Scratch.buffer (.ready (.zeros 3)) = _)
    (by decide) dest 5 tapes
  exact ⟨⟨by decide +kernel, (hchunks.1 source hwithin).1⟩, by decide +kernel, (hchunks.2 0).1⟩

end Stream

end RomImage
