import RomImage.Proofs.Stream.Transfer
import RomImage.Proofs.Stream.Verdict

/-!
# What a transfer carries

A transfer has bytes in hand, from a read or from its own making, until it has offered them; and a
number of bytes is still to come. `Gives` and `Carries` say of the calls what becomes of the two:
a read takes bytes in hand, a write puts them down, and a call that fails ends the transfer. So a
transfer ends with nothing in hand and as much less to come as it was asked for, or as its first
failed call leaves it (`copy_carries`, `fill_gives`), however it is cut into chunks.

What is held may be anything that a conduct tells of: amounts alone, or the bytes themselves.
-/

namespace RomImage

namespace Stream

variable {κ τ : Type}

/-- What a call amounts to: something good, or a failure under the name of its stream. -/
def Request.Comes (name : String) (request : Request κ) (answer : request.Answer) (good : Prop)
    (bad : Failure → Prop) : Prop :=
  match request.failure? (fun _ => name) answer with
  | none => good
  | some failure => bad failure

theorem Request.Comes.of_cases {name : String} {request : Request κ} {answer : request.Answer}
    {good : Prop} {bad : Failure → Prop}
    (hgood : request.failure? (fun _ => name) answer = none → good)
    (hbad : ∀ failure, request.failure? (fun _ => name) answer = some failure → bad failure) :
    request.Comes name answer good bad := by
  rw [Comes.eq_def]
  split
  · rename_i hnone
    exact hgood hnone
  · rename_i failure hfailed
    exact hbad failure hfailed

theorem Request.Comes.of_none {name : String} {request : Request κ} {answer : request.Answer}
    {good : Prop} {bad : Failure → Prop} (hgood : good)
    (hnone : request.failure? (fun _ => name) answer = none) :
    request.Comes name answer good bad := by
  rwa [Comes.eq_def, hnone]

theorem Request.Comes.of_some {name : String} {request : Request κ} {answer : request.Answer}
    {good : Prop} {bad : Failure → Prop} {failure : Failure} (hbad : bad failure)
    (hfailed : request.failure? (fun _ => name) answer = some failure) :
    request.Comes name answer good bad := by
  rwa [Comes.eq_def, hfailed]

theorem Request.Comes.mono {name : String} {request : Request κ} {answer : request.Answer}
    {good good' : Prop} {bad bad' : Failure → Prop} (hcomes : request.Comes name answer good bad)
    (hgood : good → good') (hbad : ∀ failure, bad failure → bad' failure) :
    request.Comes name answer good' bad' := by
  rw [Comes.eq_def] at hcomes ⊢
  split
  · rename_i hnone
    rw [hnone] at hcomes
    exact hgood hcomes
  · rename_i failure hfailed
    rw [hfailed] at hcomes
    exact hbad failure hcomes

theorem Request.Comes.good {name : String} {request : Request κ} {answer : request.Answer}
    {good : Prop} {bad : Failure → Prop} (hcomes : request.Comes name answer good bad)
    (hnone : request.failure? (fun _ => name) answer = none) : good := by
  rwa [Comes.eq_def, hnone] at hcomes

theorem Request.Comes.bad {name : String} {request : Request κ} {answer : request.Answer}
    {good : Prop} {bad : Failure → Prop} {failure : Failure}
    (hcomes : request.Comes name answer good bad)
    (hfailed : request.failure? (fun _ => name) answer = some failure) : bad failure := by
  rwa [Comes.eq_def, hfailed] at hcomes

/-- The destination takes what is in hand, or the call fails. Held are the bytes in hand, of which
there are no more than the span, and how many are still to come. -/
structure Gives (conduct : Conduct (interface κ) τ) (dest : Channel κ) (span : Nat)
    (held : Bytes → Nat → τ → Prop) (bad : Failure → τ → Prop) : Prop where
  write : ∀ data left state (answer : Except Fault (Option Int)) after, data.length ≤ span →
    held data left state → conduct (.write dest.handle data) state answer after →
    Request.Comes dest.name (.write dest.handle data) answer (held [] left after) (bad · after)
  note : ∀ fact left state (answer : Except Fault Unit) after,
    held [] left state → conduct (.note fact) state answer after →
    Request.Comes dest.name (.note fact : Request κ) answer (held [] left after) (bad · after)

/-- And the source hands over some bytes, no more than were asked for, or the call fails. What a
read into a chunk has stored is followed there by remains of the buffer. -/
structure Carries (conduct : Conduct (interface κ) τ) (source dest : Channel κ) (span : Nat)
    (held : Bytes → Nat → τ → Prop) (bad : Failure → τ → Prop) : Prop
    extends Gives conduct dest span held bad where
  into : ∀ size left state (answer : Except Fault Delivery) after, 0 < size → size ≤ left →
    held [] left state → conduct (.readInto source.handle size) state answer after →
    Request.Comes source.name (.readInto source.handle size) answer
      (∃ delivery, answer = .ok delivery ∧ ∃ count ≤ size, 0 < count ∧
        delivery.reported = some (count : Int) ∧ ∀ remains : Bytes,
          count ≤ (Bytes.first delivery.stored size ++ remains).length →
          held ((Bytes.first delivery.stored size ++ remains).take count) (left - count) after)
      (bad · after)
  plain : ∀ size left state (answer : Except Fault (Option Bytes)) after, 0 < size → size ≤ left →
    held [] left state → conduct (.read source.handle size) state answer after →
    Request.Comes source.name (.read source.handle size) answer
      (∃ data, answer = .ok (some data) ∧ data.length ≤ size ∧
        held data (left - data.length) after)
      (bad · after)

variable {conduct : Conduct (interface κ) τ} {held : Bytes → Nat → τ → Prop}
  {bad : Failure → τ → Prop} {source dest : Channel κ} {span left rest : Nat} {scratch : Scratch}
  {state : τ}

section Gives

variable (hgives : Gives conduct dest span held bad)

include hgives

theorem note_gives (fact : Note) (left : Nat) (hheld : held [] left state) :
    (note fact : Work κ Unit).Ensures conduct scratch state
      (fun _ scratch' after => scratch' = scratch ∧ held [] left after)
      (fun failure _ after => bad failure after) := by
  rw [note]
  refine Task.Ensures.bind (Task.ensures_request _) ?_
  rintro answer _ after ⟨rfl, hanswer⟩
  have hcomes := hgives.note fact left state answer after hheld hanswer
  cases answer with
  | error fault => exact Task.ensures_fail hcomes
  | ok _ => exact Task.ensures_pure ⟨rfl, hcomes⟩

theorem writeAll_gives {data : Bytes} (left : Nat) (hfits : data.length ≤ span)
    (hheld : held data left state) :
    (writeAll dest data).Ensures conduct scratch state
      (fun _ scratch' after => scratch' = scratch ∧ held [] left after)
      (fun failure _ after => bad failure after) := by
  rw [writeAll]
  refine Task.Ensures.bind (Task.ensures_request _) ?_
  rintro answer _ after ⟨rfl, hanswer⟩
  have hcomes := hgives.write data left state answer after hfits hheld hanswer
  obtain fault | _ | count := answer
  · exact Task.ensures_fail hcomes
  · dsimp only
    rw [shortWrite_eq]
    exact Task.ensures_fail hcomes
  · dsimp only
    by_cases hless : count < data.length
    · rw [if_pos hless, shortWrite_eq]
      exact Task.ensures_fail (hcomes.bad (if_pos hless))
    · rw [if_neg hless]
      exact Task.ensures_pure ⟨rfl, hcomes.good (if_neg hless)⟩

theorem writeTimes_gives {value : UInt8} {chunk : Nat} (hfits : chunk ≤ span)
    (hspend : ∀ left state, held [] (chunk + left) state →
      held (List.replicate chunk value) left state)
    (times : Nat) (hheld : held [] (times * chunk + rest) state) :
    (writeTimes dest (List.replicate chunk value) times).Ensures conduct scratch state
      (fun _ scratch' after => scratch' = scratch ∧ held [] rest after)
      (fun failure _ after => bad failure after) := by
  induction times generalizing scratch state with
  | zero =>
      rw [Nat.zero_mul, Nat.zero_add] at hheld
      exact Task.ensures_pure ⟨rfl, hheld⟩
  | succ times ih =>
      rw [Nat.add_mul, Nat.one_mul, Nat.add_comm (times * chunk), Nat.add_assoc] at hheld
      rw [writeTimes]
      have hlength : (List.replicate chunk value).length ≤ span := by rwa [List.length_replicate]
      refine Task.Ensures.bind (writeAll_gives hgives _ hlength (hspend _ _ hheld)) ?_
      rintro _ _ _ ⟨rfl, hheld⟩
      exact ih hheld

/-- A fill puts down what it makes, chunk by chunk. -/
theorem fill_gives [Machine] {value : UInt8} (hspend : ∀ chunk ≤ span, ∀ left state,
      held [] (chunk + left) state → held (List.replicate chunk value) left state)
    (count rest : Nat) (hspan : 0 < span) (hscratch : HasBuffer span scratch)
    (hheld : held [] (count + rest) state) :
    (fill dest value.toNat count).Ensures conduct scratch state
      (fun _ scratch' after => HasBuffer span scratch' ∧ held [] rest after)
      (fun failure _ after => bad failure after) := by
  have hbyte := value.toNat_lt
  obtain ⟨buffer, rfl, rfl⟩ := hscratch
  rw [fill_eq_fillEvenly, fillEvenly, if_neg (by omega), if_neg (by omega)]
  by_cases hzero : count = 0
  · rw [hzero, Nat.zero_add] at hheld
    rw [if_pos (by omega)]
    exact Task.ensures_pure ⟨⟨buffer, rfl, rfl⟩, hheld⟩
  rw [if_neg (by omega)]
  refine Task.Ensures.bind (Task.ensures_buffer rfl) ?_
  rintro buffer _ _ ⟨rfl, rfl, rfl⟩
  dsimp only
  rw [Int.toNat_natCast, Int.toNat_natCast, UInt8.ofNat_toNat]
  obtain ⟨chunk, hchunk⟩ : ∃ chunk, chunk = min buffer.length count := ⟨_, rfl⟩
  rw [← hchunk, if_neg (by omega)]
  have hcount : count / chunk * chunk + count % chunk = count := Nat.div_add_mod' count chunk
  have hlast : count % chunk < chunk := Nat.mod_lt _ (by omega)
  refine Task.Ensures.bind (storeFront_ensures _ (by rw [List.length_replicate]; omega)) ?_
  rintro _ _ state ⟨rfl, filled, rfl, hfilled, -⟩
  have hwhole : held [] (count / chunk * chunk + (count % chunk + rest)) state := by
    rwa [← Nat.add_assoc, hcount]
  refine Task.Ensures.bind
    (writeTimes_gives hgives (by omega) (hspend chunk (by omega)) _ hwhole) ?_
  rintro _ _ state ⟨rfl, hheld⟩
  have hnote {state : τ} (hheld : held [] rest state) :
      (note (.filled count value dest.name) : Work κ Unit).Ensures conduct (.ready filled) state
        (fun _ scratch' after => HasBuffer buffer.length scratch' ∧ held [] rest after)
        (fun failure _ after => bad failure after) := by
    refine (note_gives hgives _ _ hheld).mono ?_ fun _ _ _ hbad => hbad
    rintro _ _ _ ⟨rfl, hheld⟩
    exact ⟨⟨filled, rfl, hfilled⟩, hheld⟩
  by_cases hrest : count % chunk = 0
  · rw [hrest, Nat.zero_add] at hheld
    rw [if_neg (not_not_intro hrest)]
    exact hnote hheld
  · rw [if_pos hrest]
    have hlength : (List.replicate (count % chunk) value).length ≤ buffer.length := by
      rw [List.length_replicate]
      omega
    refine Task.Ensures.bind
      (writeAll_gives hgives _ hlength (hspend _ (by omega) _ _ hheld)) ?_
    rintro _ _ _ ⟨rfl, hheld⟩
    exact hnote hheld

end Gives

section Carries

variable (hcarries : Carries conduct source dest span held bad)

include hcarries

/-- A read takes in hand what is then at the front of the buffer. -/
theorem readChunk_carries [Machine] {want : Nat} (hwant : 0 < want) (hfits : want ≤ span)
    (hleft : want ≤ left) (hscratch : HasBuffer span scratch) (hheld : held [] left state) :
    (readChunk source want).Ensures conduct scratch state
      (fun got scratch' after => got = 0 ∧ bad (ofNothing source.name) after ∨
        ∃ count ≤ want, got = (count : Int) ∧ 0 < count ∧ ∃ buffer, scratch' = .ready buffer ∧
          buffer.length = span ∧ (buffer.upTo count).length = count ∧
          held (buffer.upTo count) (left - count) after)
      (fun failure _ after => bad failure after) := by
  obtain ⟨buffer, rfl, rfl⟩ := hscratch
  have hfront {filled : Buffer} {count : Nat} (hcount : count ≤ want)
      (hfilled : filled.length = buffer.length) {data : Bytes}
      (hbytes : filled.bytes = buffer.bytes.overwrite data) :
      (filled.upTo count).length = count ∧ filled.upTo count
        = (data ++ buffer.bytes.drop data.length).take count := by
    rw [Buffer.upTo_eq, Bytes.upTo, if_neg (by omega), Int.toNat_natCast]
    refine ⟨List.length_take_of_le ?_, ?_⟩
    · rw [Buffer.length_bytes]
      omega
    · rw [hbytes, Bytes.overwrite]
  rw [readChunk]
  split
  · refine Task.Ensures.bind (Task.ensures_request _) ?_
    rintro answer _ after ⟨rfl, hanswer⟩
    have hcomes := hcarries.into want left state answer after hwant hleft hheld hanswer
    obtain fault | delivery := answer
    · exact Task.ensures_fail hcomes
    have hstored : (Bytes.first delivery.stored want).length ≤ buffer.length := by
      rw [Bytes.first_eq, List.length_take]
      omega
    refine Task.Ensures.bind (storeFront_ensures _ hstored) ?_
    rintro _ _ _ ⟨rfl, filled, rfl, hfilled, hbytes⟩
    by_cases hnone : delivery.reported.getD 0 = 0
    · have hdry := hcomes.bad (if_pos hnone)
      exact Task.ensures_pure (.inl ⟨hnone, hdry⟩)
    · obtain ⟨_, hsame, count, hcount, hsome, hreported, hheld⟩ :=
        hcomes.good (if_neg hnone)
      obtain rfl := Except.ok.inj hsame
      obtain ⟨hlength, hthere⟩ := hfront hcount hfilled hbytes
      rw [hreported, Option.getD_some]
      refine Task.ensures_pure (.inr ⟨count, hcount, rfl, hsome, filled, rfl, hfilled, hlength, ?_⟩)
      rw [hthere] at hlength ⊢
      refine hheld _ ?_
      rw [List.length_take] at hlength
      omega
  · refine Task.Ensures.bind (Task.ensures_request _) ?_
    rintro answer _ after ⟨rfl, hanswer⟩
    have hcomes := hcarries.plain want left state answer after hwant hleft hheld hanswer
    obtain fault | _ | data := answer
    · exact Task.ensures_fail hcomes
    · exact Task.ensures_pure (.inl ⟨rfl, hcomes⟩)
    dsimp only
    by_cases hnone : data = []
    · have hdry := hcomes.bad (if_pos hnone)
      have hnever : ¬ want < ([] : Bytes).length := Nat.not_lt_zero want
      rw [hnone, if_neg hnever]
      refine Task.Ensures.bind (storeFront_ensures _ (Nat.zero_le _)) ?_
      rintro _ _ _ ⟨rfl, -⟩
      exact Task.ensures_pure (.inl ⟨rfl, hdry⟩)
    · obtain ⟨_, hsame, hcount, hheld⟩ := hcomes.good (if_neg hnone)
      obtain rfl := Option.some.inj (Except.ok.inj hsame)
      rw [if_neg (by omega)]
      refine Task.Ensures.bind (storeFront_ensures _ (Nat.le_trans hcount hfits)) ?_
      rintro _ _ _ ⟨rfl, filled, rfl, hfilled, hbytes⟩
      obtain ⟨hlength, hthere⟩ := hfront hcount hfilled hbytes
      rw [List.take_left] at hthere
      refine Task.ensures_pure (.inr ⟨_, hcount, rfl, List.length_pos_iff.mpr hnone, filled, rfl,
        hfilled, hlength, ?_⟩)
      rwa [hthere]

theorem copyChunk_carries [Machine] {want : Nat} (hwant : 0 < want) (hfits : want ≤ span)
    (hleft : want ≤ left) (hscratch : HasBuffer span scratch) (hheld : held [] left state) :
    (copyChunk source dest want).Ensures conduct scratch state
      (fun got scratch' after => ∃ count ≤ want, got = (count : Int) ∧ 0 < count ∧
        HasBuffer span scratch' ∧ held [] (left - count) after)
      (fun failure _ after => bad failure after) := by
  rw [copyChunk]
  refine Task.Ensures.bind (readChunk_carries hcarries hwant hfits hleft hscratch hheld) ?_
  rintro got _ after (⟨rfl, hdry⟩ | ⟨count, hcount, rfl, hsome, buffer, rfl, hbuffer, hlength,
    hheld⟩)
  · exact Task.ensures_fail hdry
  rw [if_neg (by omega)]
  refine Task.Ensures.bind (Task.ensures_buffer rfl) ?_
  rintro buffer _ _ ⟨rfl, rfl, rfl⟩
  refine Task.Ensures.bind (writeAll_gives hcarries.toGives _ (by omega) hheld) ?_
  rintro _ _ _ ⟨rfl, hheld⟩
  exact Task.ensures_pure ⟨count, hcount, rfl, hsome, ⟨buffer, rfl, hbuffer⟩, hheld⟩

theorem copyRounds_carries [Machine] (hspan : 0 < span) {rounds remaining : Nat}
    (hrounds : remaining ≤ rounds) (hscratch : HasBuffer span scratch)
    (hheld : held [] (remaining + rest) state) :
    (copyRounds source dest span rounds remaining).Ensures conduct scratch state
      (fun _ scratch' after => HasBuffer span scratch' ∧ held [] rest after)
      (fun failure _ after => bad failure after) := by
  -- Every round brings the copy nearer to its end, so that a round for each byte is enough.
  induction rounds generalizing remaining scratch state with
  | zero =>
      obtain rfl : remaining = 0 := Nat.le_zero.mp hrounds
      rw [Nat.zero_add] at hheld
      rw [copyRounds, if_pos (by omega)]
      exact Task.ensures_pure ⟨hscratch, hheld⟩
  | succ rounds ih =>
      by_cases hzero : remaining = 0
      · rw [hzero, Nat.zero_add] at hheld
        rw [copyRounds, if_pos (by omega)]
        exact Task.ensures_pure ⟨hscratch, hheld⟩
      rw [copyRounds, if_neg (by omega), Int.toNat_natCast]
      refine Task.Ensures.bind (copyChunk_carries hcarries (by omega) (Nat.min_le_left _ _)
        (by omega) hscratch hheld) ?_
      rintro _ scratch after ⟨count, hcount, rfl, hsome, hscratch, hheld⟩
      have hless : count ≤ remaining := Nat.le_trans hcount (Nat.min_le_right _ _)
      rw [← Int.natCast_sub hless]
      rw [Nat.sub_add_comm hless] at hheld
      exact ih (by omega) hscratch hheld

/-- A copy puts down what it takes in hand, chunk by chunk. -/
theorem copy_carries [Machine] (hspan : 0 < span) (count : Nat) (hscratch : HasBuffer span scratch)
    (hheld : held [] (count + rest) state) :
    (copy source dest count).Ensures conduct scratch state
      (fun _ scratch' after => HasBuffer span scratch' ∧ held [] rest after)
      (fun failure _ after => bad failure after) := by
  rw [copy, if_neg (by omega)]
  by_cases hzero : count = 0
  · rw [hzero, Nat.zero_add] at hheld
    rw [if_pos (by omega)]
    exact Task.ensures_pure ⟨hscratch, hheld⟩
  obtain ⟨buffer, rfl, rfl⟩ := hscratch
  rw [if_neg (by omega), Int.toNat_natCast]
  refine Task.Ensures.bind (Task.ensures_buffer rfl) ?_
  rintro buffer _ _ ⟨rfl, rfl, rfl⟩
  refine Task.Ensures.bind (copyRounds_carries hcarries hspan (Nat.le_add_right _ _)
    ⟨buffer, rfl, rfl⟩ hheld) ?_
  rintro _ scratch after ⟨hscratch, hheld⟩
  refine (note_gives hcarries.toGives _ _ hheld).mono ?_ fun _ _ _ hbad => hbad
  rintro _ _ _ ⟨rfl, hheld⟩
  exact ⟨hscratch, hheld⟩

end Carries

end Stream

end RomImage
