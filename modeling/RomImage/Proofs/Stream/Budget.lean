import Mathlib.Algebra.Order.Floor.Div
import RomImage.Proofs.Scratch
import RomImage.Proofs.Stream.Granted

/-!
# What transfers spend

A tariff gives every call a price. A task that keeps to a budget never spends more, however its run
ends, and it never ends because it came no nearer to its end (`Spends`). Budgets add up along a
sequence, so that the budget of a loop is that of a round as often as there can be rounds.

What ends the loops is different in the two. A copy goes on by what the source reports, which is at
least one byte in a round that does not fail, since no read reports less than nothing. A fill goes
on by the length of its chunk, which is more than nothing since the buffer is not empty. What a
destination answers matters to neither.

The tape in memory costs nothing: work beside it spends what it spends on the streams
(`Spends.staged`).
-/

namespace RomImage

namespace Stream

variable {ι κ σ τ α β : Type}

/-- What calls cost: a read or a write what is asked for it at its stream, and any other call the
same everywhere. -/
structure Tariff (κ : Type) where
  read : κ → Nat
  write : κ → Nat
  other : Nat

def Tariff.price (tariff : Tariff κ) : Request κ → Nat
  | .readInto stream _ | .read stream _ => tariff.read stream
  | .write stream _ => tariff.write stream
  | .seek _ _ _ | .seekUnknown _ | .tell _ | .seekable _ | .note _ => tariff.other

def Tariff.beside (tariff : Tariff κ) : Tariff (Option κ) where
  read stream := stream.elim 0 tariff.read
  write stream := stream.elim 0 tariff.write
  other := tariff.other

/-- A conduct under which no read delivers more than was asked for, and what is spent in each state,
which grows by the price of a call at most. -/
structure Meter (κ τ : Type) where
  conduct : Conduct (interface κ) τ
  tariff : Tariff κ
  spent : τ → Nat
  within : ∀ request state answer after, conduct request state answer after →
    Within request answer
  spent_le : ∀ request state answer after, conduct request state answer after →
    spent after ≤ spent state + tariff.price request

def Meter.logged (tariff : Tariff ι) : Meter ι (List (Exchange ι)) where
  conduct := moderate
  tariff := tariff
  spent calls := (calls.map fun call => tariff.price call.1).sum
  within _ _ _ _ hanswer := hanswer.2
  spent_le := by
    rintro request calls answer _ ⟨rfl, -⟩
    rw [List.map_cons, List.sum_cons, Nat.add_comm]

theorem within_beside [Machine] {conduct : Conduct (interface ι) τ}
    (hwithin : ∀ request state answer after, conduct request state answer after →
      Within request answer)
    (request : Request (Option ι)) (between : Tape × τ) (answer : request.Answer)
    (after : Tape × τ) (hanswer : (steer request between.1).Leads conduct between.2 answer after) :
    Within request answer := by
  obtain ⟨tape, state⟩ := between
  cases request with
  | readInto stream size =>
      cases stream with
      | none =>
          obtain ⟨rfl, -⟩ := hanswer
          rintro _ ⟨rfl⟩
          exact ⟨Int.natCast_nonneg _, Int.ofNat_le.mpr (tape.length_read_le size)⟩
      | some stream =>
          obtain ⟨_, later, hgiven, rfl, -⟩ := hanswer
          have hasked := hwithin _ _ _ _ hgiven
          cases answer with
          | error fault => trivial
          | ok delivery => exact hasked
  | read stream size =>
      cases stream with
      | none =>
          obtain ⟨rfl, -⟩ := hanswer
          exact tape.length_read_le size
      | some stream =>
          obtain ⟨_, later, hgiven, rfl, -⟩ := hanswer
          have hasked := hwithin _ _ _ _ hgiven
          obtain fault | _ | data := answer
          · trivial
          · trivial
          · exact hasked
  | _ => trivial

/-- A call that is passed on costs what it costs beyond. -/
theorem Tariff.price_beside [Machine] (tariff : Tariff ι) (request : Request (Option ι))
    (tape : Tape) :
    (steer request tape).Within
      fun passed => tariff.price passed ≤ tariff.beside.price request := by
  refine steer_within request tape ?_
  cases request with
  | note fact => exact Nat.le_refl _
  | readInto stream _ | read stream _ | write stream _ | seek stream _ _ | seekUnknown stream
  | tell stream | seekable stream =>
      cases stream with
      | none => trivial
      | some stream => exact Nat.le_refl _

def Meter.beside [Machine] (meter : Meter ι τ) : Meter (Option ι) (Tape × τ) where
  conduct := .steered steer meter.conduct
  tariff := meter.tariff.beside
  spent between := meter.spent between.2
  within := within_beside meter.within
  spent_le := by
    rintro request ⟨tape, state⟩ answer after hanswer
    have hprice := meter.tariff.price_beside request tape
    have hanswer : (steer request tape).Leads meter.conduct state answer after := hanswer
    revert hprice hanswer
    cases steer request tape with
    | kept given tape' =>
        rintro - ⟨rfl, rfl⟩
        exact Nat.le_add_right _ _
    | passed passed back tape' =>
        rintro hprice ⟨given, later, hgiven, rfl, rfl⟩
        have hpassed : meter.tariff.price passed ≤ meter.tariff.beside.price request := hprice
        have hspent := meter.spent_le passed state given later hgiven
        dsimp only
        omega

/-- If there is a buffer, at hand or still to be allocated, it has so many bytes. -/
def AtHand [Machine] (span : Nat) (scratch : Scratch) : Prop :=
  ∀ buffer, scratch.buffer = .ok buffer → buffer.length = span

theorem atHand_ready [Machine] {buffer : Buffer} {span : Nat} (hlength : buffer.length = span) :
    AtHand span (.ready buffer) :=
  fun _ hbuffer => Except.ok.inj hbuffer ▸ hlength

theorem atHand_of_buffer [Machine] {scratch : Scratch} {buffer : Buffer}
    (hbuffer : scratch.buffer = .ok buffer) : AtHand buffer.length scratch :=
  fun _ hother => Except.ok.inj (hbuffer.symm.trans hother) ▸ rfl

/-- With a buffer of some size at hand, a task spends no more than its budget, and it comes to such
a value or fails for some other reason than that it makes no progress. -/
def Spends [Machine] (meter : Meter κ τ) (span : Nat) (task : Work κ α) (budget : Nat)
    (good : α → Prop) :
    Prop :=
  ∀ scratch state, AtHand span scratch → task.Ensures meter.conduct scratch state
    (fun value scratch' after => AtHand span scratch' ∧ good value ∧
      meter.spent after ≤ meter.spent state + budget)
    (fun failure _ after => failure ≠ .misuse .noProgress ∧
      meter.spent after ≤ meter.spent state + budget)

namespace Spends

variable {meter : Meter κ τ} {span : Nat} {task : Work κ α} {f : α → Work κ β} {budget rest : Nat}
  {good good' : α → Prop}

theorem pure [Machine] {value : α} (hgood : good value) : Spends meter span (pure value) 0 good :=
  fun _ _ hscratch => Task.ensures_pure ⟨hscratch, hgood, Nat.le_refl _⟩

theorem fail [Machine] {failure : Failure} (hother : failure ≠ .misuse .noProgress) :
    Spends meter span (Task.fail failure) 0 good :=
  fun _ _ _ => Task.ensures_fail ⟨hother, Nat.le_refl _⟩

theorem mono [Machine] (htask : Spends meter span task budget good) (hle : budget ≤ rest)
    (hgood : ∀ value, good value → good' value) : Spends meter span task rest good' := by
  intro scratch state hscratch
  refine (htask scratch state hscratch).mono ?_ ?_
  · rintro value _ _ ⟨hscratch, hvalue, hspent⟩
    exact ⟨hscratch, hgood value hvalue, Nat.le_trans hspent (Nat.add_le_add_left hle _)⟩
  · rintro _ _ _ ⟨hother, hspent⟩
    exact ⟨hother, Nat.le_trans hspent (Nat.add_le_add_left hle _)⟩

theorem le [Machine] (htask : Spends meter span task budget good) (hle : budget ≤ rest) :
    Spends meter span task rest good :=
  htask.mono hle fun _ hvalue => hvalue

/-- To do nothing is within any budget. -/
theorem done [Machine] {value : Unit} : Spends meter span (Pure.pure value) budget fun _ => True :=
  (pure trivial).le (Nat.zero_le budget)

/-- To fail is within any budget. -/
theorem failed [Machine] {failure : Failure} (hother : failure ≠ .misuse .noProgress) :
    Spends meter span (Task.fail failure) budget good :=
  (fail hother).le (Nat.zero_le budget)

theorem bind [Machine] {good' : β → Prop} (htask : Spends meter span task budget good)
    (hnext : ∀ value, good value → Spends meter span (f value) rest good') :
    Spends meter span (task >>= f) (budget + rest) good' := by
  intro scratch state hscratch
  refine Task.Ensures.bind ((htask scratch state hscratch).bad_mono ?_) ?_
  · rintro _ _ _ ⟨hother, hspent⟩
    exact ⟨hother, by omega⟩
  rintro value _ after ⟨hscratch, hvalue, hspent⟩
  refine (hnext value hvalue _ after hscratch).mono ?_ ?_
  · rintro _ _ _ ⟨hscratch, hvalue, hrest⟩
    exact ⟨hscratch, hvalue, by omega⟩
  · rintro _ _ _ ⟨hother, hrest⟩
    exact ⟨hother, by omega⟩

/-- What comes after is free. -/
theorem bind_free [Machine] {good' : β → Prop} (htask : Spends meter span task budget good)
    (hnext : ∀ value, good value → Spends meter span (f value) 0 good') :
    Spends meter span (task >>= f) budget good' :=
  htask.bind hnext

/-- What comes before is free. -/
theorem free_bind [Machine] {good' : β → Prop} (htask : Spends meter span task 0 good)
    (hnext : ∀ value, good value → Spends meter span (f value) budget good') :
    Spends meter span (task >>= f) budget good' :=
  (htask.bind hnext).le (Nat.le_of_eq (Nat.zero_add budget))

theorem request [Machine] (r : Request κ) : Spends meter span (Task.request (I := interface κ) r)
    (meter.tariff.price r) fun answer => Within r answer := by
  intro scratch state hscratch
  refine (Task.ensures_request _).mono ?_ fun _ _ _ hbad => hbad
  rintro answer _ after ⟨rfl, hanswer⟩
  exact ⟨hscratch, meter.within _ _ _ _ hanswer, meter.spent_le _ _ _ _ hanswer⟩

/-- An answer, or its fault as a failure. -/
theorem ofExcept [Machine] (answer : Except Fault α) {f : Fault → Failure}
    (hother : ∀ fault, f fault ≠ .misuse .noProgress) :
    Spends meter span (Task.ofExcept (answer.mapError f)) 0 fun _ => True := by
  cases answer with
  | ok value => exact pure trivial
  | error fault => exact fail (hother fault)

theorem buffer [Machine] :
    Spends meter span Task.buffer 0 fun buffer => buffer.length = span := by
  intro scratch state hscratch
  cases hbuffer : scratch.buffer with
  | ok buffer =>
      refine (Task.ensures_buffer hbuffer).mono ?_ fun _ _ _ hbad => hbad
      rintro _ _ _ ⟨rfl, rfl, rfl⟩
      exact ⟨atHand_ready (hscratch _ hbuffer), hscratch _ hbuffer, Nat.le_refl _⟩
  | error failure =>
      have hother : failure ≠ .misuse .noProgress := by
        rintro rfl
        exact nomatch Scratch.isBufferSize_of_buffer hbuffer
      simp only [Task.Ensures, Task.buffer, hbuffer]
      exact ⟨hother, Nat.le_refl _⟩

theorem setBuffer [Machine] {buffer : Buffer} (hlength : buffer.length = span) :
    Spends meter span (Task.setBuffer buffer) 0 fun _ => True :=
  fun _ _ _ => Task.ensures_setBuffer ⟨atHand_ready hlength, trivial, Nat.le_refl _⟩

theorem storeFront [Machine] {data : Bytes} (hfits : data.length ≤ span) :
    Spends meter span (storeFront data) 0 fun _ => True := by
  refine buffer.bind_free fun buffer hlength => setBuffer ?_
  rw [Buffer.length_overwrite, hlength, Nat.max_eq_left hfits]

/-- Work beside a tape in memory spends what it spends on the streams. -/
theorem staged [Machine] {meter : Meter ι τ} {work : Work (Option ι) α}
    (hwork : Spends meter.beside span work budget good) :
    Spends meter span (staged work) budget good := by
  intro scratch state hscratch
  refine (Task.Ensures.route Prod.mk Conduct.follows_steered
    (hwork scratch (.empty, state) hscratch)).mono ?_ ?_
  · rintro _ _ _ ⟨_, hdone⟩
    exact hdone
  · rintro _ _ _ ⟨_, hbad⟩
    exact hbad

end Spends

section Transfers

variable {meter : Meter κ τ} {span : Nat} {source dest stream : Channel κ}

/-- A fault that is given a name, or comes through, is no lack of progress. -/
theorem named_ne_noProgress {caught : Prop} [Decidable caught] (error : BuildError)
    (fault : Fault) :
    (if caught then Failure.build error else .fault fault) ≠ .misuse .noProgress := by
  split
  · simp
  · simp

theorem shortWrite_ne_noProgress (dest : Channel κ) (written : Int) (offered : Nat) :
    shortWrite dest written offered ≠ .misuse .noProgress := by
  unfold shortWrite
  cases Text.decimal? written with
  | some digits => simp
  | none => simp

theorem note_spends [Machine] (fact : Note) :
    Spends meter span (note fact) meter.tariff.other fun _ => True :=
  (Spends.request (.note fact)).bind_free fun answer _ => .ofExcept answer fun _ => by simp

theorem writeAll_spends [Machine] (data : Bytes) :
    Spends meter span (writeAll dest data) (meter.tariff.write dest.handle) fun _ => True := by
  refine (Spends.request (.write dest.handle data)).bind_free fun answer _ => ?_
  obtain fault | _ | written := answer
  · exact .fail (named_ne_noProgress _ _)
  · exact .fail (shortWrite_ne_noProgress _ _ _)
  · dsimp only
    split
    · exact .fail (shortWrite_ne_noProgress _ _ _)
    · exact .pure trivial

theorem readChunk_spends [Machine] {want : Nat} (hfits : want ≤ span) :
    Spends meter span (readChunk source want) (meter.tariff.read source.handle)
      fun got => 0 ≤ got ∧ got ≤ want := by
  rw [readChunk]
  split
  · refine (Spends.request (.readInto source.handle want)).bind_free fun answer hwithin => ?_
    cases answer with
    | error fault => exact .fail (named_ne_noProgress _ _)
    | ok delivery =>
        have hlength : (Bytes.first delivery.stored want).length ≤ span := by
          rw [Bytes.first_eq, List.length_take]
          omega
        refine (Spends.storeFront hlength).bind_free fun _ _ => .pure ?_
        cases hreported : delivery.reported with
        | none => exact ⟨Int.le_refl 0, Int.natCast_nonneg want⟩
        | some count => exact hwithin count hreported
  · refine (Spends.request (.read source.handle want)).bind_free fun answer hwithin => ?_
    obtain fault | _ | data := answer
    · exact .fail (named_ne_noProgress _ _)
    · exact .pure ⟨Int.le_refl 0, Int.natCast_nonneg want⟩
    · have hshort : data.length ≤ want := hwithin
      dsimp only
      rw [if_neg (by omega)]
      exact (Spends.storeFront (Nat.le_trans hshort hfits)).bind_free fun _ _ =>
        .pure ⟨by omega, by omega⟩

/-- A round takes some of what remains, and not more than was asked for. -/
theorem copyChunk_spends [Machine] {want : Nat} (hfits : want ≤ span) :
    Spends meter span (copyChunk source dest want)
      (meter.tariff.read source.handle + meter.tariff.write dest.handle)
      fun got => 0 < got ∧ got ≤ want := by
  refine (readChunk_spends hfits).bind fun got hgot => ?_
  split
  · exact .failed (by simp)
  · exact Spends.buffer.free_bind fun buffer _ => (writeAll_spends _).bind_free fun _ _ =>
      .pure ⟨by omega, hgot.2⟩

/-- As many rounds as there are bytes are enough. -/
theorem copyRounds_spends [Machine] (rounds : Nat) {remaining : Int}
    (henough : remaining.toNat ≤ rounds) :
    Spends meter span (copyRounds source dest span rounds remaining)
      (remaining.toNat * (meter.tariff.read source.handle + meter.tariff.write dest.handle))
      fun _ => True := by
  induction rounds generalizing remaining with
  | zero =>
      rw [copyRounds, if_pos (by omega)]
      exact .done
  | succ rounds ih =>
      rw [copyRounds]
      split
      · exact .done
      · obtain ⟨left, hleft⟩ : ∃ left, remaining.toNat = left + 1 :=
          ⟨remaining.toNat - 1, by omega⟩
        refine Spends.le ((copyChunk_spends (Nat.min_le_left _ _)).bind fun got hgot =>
          (ih (by omega)).le (Nat.mul_le_mul_right _ (by omega : _ ≤ left))) ?_
        rw [hleft, Nat.add_mul, Nat.one_mul, Nat.add_comm]

theorem copy_spends [Machine] (count : Int) :
    Spends meter span (copy source dest count)
      (count.toNat * (meter.tariff.read source.handle + meter.tariff.write dest.handle)
        + meter.tariff.other) fun _ => True := by
  rw [copy]
  split
  · exact .failed (by simp)
  split
  · exact .done
  · refine Spends.buffer.free_bind fun buffer hlength => ?_
    rw [hlength]
    exact (copyRounds_spends _ (Nat.le_add_right _ _)).bind fun _ _ => note_spends _

theorem writeTimes_spends [Machine] (chunk : Bytes) (times : Nat) :
    Spends meter span (writeTimes dest chunk times) (times * meter.tariff.write dest.handle)
      fun _ => True := by
  induction times with
  | zero => exact .done
  | succ times ih =>
      rw [writeTimes]
      refine Spends.le ((writeAll_spends chunk).bind fun _ _ => ih) ?_
      rw [Nat.add_mul, Nat.one_mul, Nat.add_comm]

/-- What is left over takes one chunk more. -/
theorem div_lt_ceilDiv {count chunk : Nat} (hchunk : 0 < chunk) (hrest : count % chunk ≠ 0) :
    count / chunk < count ⌈/⌉ chunk := by
  rw [← Nat.not_le, ceilDiv_le_iff_le_mul hchunk]
  have hparts := Nat.div_add_mod count chunk
  omega

/-- A fill writes no more often than there are chunks in the count, the last of which may be
short. -/
theorem fill_spends [Machine] (hspan : 0 < span) (value count : Int) :
    Spends meter span (fill dest value count)
      ((count.toNat ⌈/⌉ min span count.toNat) * meter.tariff.write dest.handle
        + meter.tariff.other) fun _ => True := by
  rw [fill_eq_fillEvenly, fillEvenly]
  split
  · exact .failed (by simp)
  split
  · exact .failed (by simp)
  split
  · exact .done
  refine Spends.buffer.free_bind fun buffer hlength => ?_
  dsimp only
  rw [hlength]
  obtain ⟨chunk, hchunk⟩ : ∃ chunk, chunk = min span count.toNat := ⟨_, rfl⟩
  rw [← hchunk, if_neg (by omega)]
  generalize UInt8.ofNat value.toNat = byte
  have hfits : (List.replicate chunk byte).length ≤ span := by
    rw [List.length_replicate]
    omega
  refine (Spends.storeFront hfits).free_bind fun _ _ => ?_
  by_cases hrest : count.toNat % chunk = 0
  · have hwhole : count.toNat / chunk ≤ count.toNat ⌈/⌉ chunk := by
      rw [← Nat.floorDiv_eq_div]
      exact floorDiv_le_ceilDiv
    rw [if_neg (by omega)]
    exact ((writeTimes_spends _ _).bind fun _ _ => note_spends _).le
      (Nat.add_le_add_right (Nat.mul_le_mul_right _ hwhole) _)
  · have hmore : count.toNat / chunk < count.toNat ⌈/⌉ chunk := div_lt_ceilDiv (by omega) hrest
    rw [if_pos hrest]
    refine Spends.le ((writeTimes_spends _ _).bind fun _ _ =>
      (writeAll_spends _).bind fun _ _ => note_spends _) ?_
    rw [← Nat.add_assoc, ← Nat.succ_mul]
    exact Nat.add_le_add_right (Nat.mul_le_mul_right _ hmore) _

/-- A fill writes no more often than there are bytes. -/
theorem fill_spends_each [Machine] (hspan : 0 < span) (value count : Int) :
    Spends meter span (fill dest value count)
      (count.toNat * meter.tariff.write dest.handle + meter.tariff.other) fun _ => True := by
  refine (fill_spends hspan value count).le (Nat.add_le_add_right (Nat.mul_le_mul_right _ ?_) _)
  obtain hnone | hsome := Nat.eq_zero_or_pos count.toNat
  · rw [hnone, zero_ceilDiv]
  · have hchunk : 0 < min span count.toNat := by omega
    rw [ceilDiv_le_iff_le_mul hchunk]
    exact Nat.le_mul_of_pos_left _ hchunk

theorem position_spends [Machine] :
    Spends meter span (position stream) meter.tariff.other fun _ => True :=
  (Spends.request (.tell stream.handle)).bind_free fun answer _ =>
    .ofExcept answer fun _ => named_ne_noProgress _ _

theorem move_spends [Machine] (offset whence : Int) :
    Spends meter span (move stream offset whence) meter.tariff.other fun _ => True :=
  (Spends.request (.seek stream.handle offset whence)).bind_free fun answer _ =>
    .ofExcept answer fun _ => named_ne_noProgress _ _

theorem moveTo_spends [Machine] (offset whence : Int) :
    Spends meter span (moveTo stream offset whence) (meter.tariff.other + meter.tariff.other)
      fun _ => True :=
  (move_spends offset whence).bind fun _ _ => position_spends

theorem moveBack_spends [Machine] (start : Option Int) :
    Spends meter span (moveBack stream start) meter.tariff.other fun _ => True := by
  cases start with
  | some start => exact move_spends start fromStart
  | none =>
      exact (Spends.request (.seekUnknown stream.handle)).bind_free fun answer _ =>
        .ofExcept answer fun _ => named_ne_noProgress _ _

theorem measure_spends [Machine] :
    Spends meter span (measure stream) (4 * meter.tariff.other) fun _ => True := by
  refine Spends.le (position_spends.bind fun start _ => (move_spends 0 fromEnd).bind fun _ _ =>
    position_spends.bind fun size _ => (moveBack_spends start).bind_free fun _ _ =>
      .pure trivial) ?_
  omega

theorem canMove_spends [Machine] :
    Spends meter span (canMove stream) meter.tariff.other fun _ => True := by
  rw [canMove]
  split
  · refine (Spends.request (.seekable stream.handle)).bind_free fun answer _ => ?_
    cases answer with
    | ok yes => exact .pure trivial
    | error fault =>
        dsimp only
        split
        · exact .pure trivial
        · exact .fail (by simp)
  · exact (Spends.pure trivial).le (Nat.zero_le _)

end Transfers

def Request.isRead : Request κ → Bool
  | readInto _ _ | read _ _ => true
  | write _ _ | seek _ _ _ | seekUnknown _ | tell _ | seekable _ | note _ => false

def Request.isWrite : Request κ → Bool
  | write _ _ => true
  | readInto _ _ | read _ _ | seek _ _ _ | seekUnknown _ | tell _ | seekable _ | note _ => false

section Calls

variable {tariff : Tariff ι} {calls : List (Exchange ι)}

/-- Calls at the price of one are counted by what they cost. -/
theorem spent_eq_countP (kind : Request ι → Bool)
    (hprice : ∀ request, tariff.price request = (kind request).toNat)
    (calls : List (Exchange ι)) :
    (Meter.logged tariff).spent calls = calls.countP fun call => kind call.1 := by
  have hspent (calls : List (Exchange ι)) :
      (Meter.logged tariff).spent calls = (calls.map fun call => tariff.price call.1).sum := rfl
  rw [hspent]
  induction calls with
  | nil => rfl
  | cons call calls ih =>
      rw [List.map_cons, List.sum_cons, List.countP_cons, ih, hprice]
      cases kind call.1 with
      | true => exact Nat.add_comm _ _
      | false => exact Nat.zero_add _

theorem spent_reads (calls : List (Exchange ι)) :
    (Meter.logged ⟨fun _ => 1, fun _ => 0, 0⟩).spent calls
      = calls.countP fun call => call.1.isRead :=
  spent_eq_countP Request.isRead (fun request => by cases request <;> rfl) calls

theorem spent_writes (calls : List (Exchange ι)) :
    (Meter.logged ⟨fun _ => 0, fun _ => 1, 0⟩).spent calls
      = calls.countP fun call => call.1.isWrite :=
  spent_eq_countP Request.isWrite (fun request => by cases request <;> rfl) calls

theorem spent_all (calls : List (Exchange ι)) :
    (Meter.logged ⟨fun _ => 1, fun _ => 1, 1⟩).spent calls = calls.length := by
  rw [← List.countP_true]
  exact spent_eq_countP (fun _ => true) (fun request => by cases request <;> rfl) calls

variable (world : World ι σ) {work : Work ι α} {scratch : Scratch} {state : σ} {span : Nat}

/-- A logged run in which no read delivers more than was asked for keeps to the budget. -/
theorem World.run_spends [Machine] {budget : Nat} {good : α → Prop} (hscratch : AtHand span scratch)
    (hwork : Spends (.logged tariff) span work budget good)
    (hwithin : ∀ call ∈ (world.logged.run scratch work (state, [])).2.2, Within call.1 call.2) :
    (world.logged.run scratch work (state, [])).1.1 ≠ .error (.misuse .noProgress) ∧
      (Meter.logged tariff).spent (world.logged.run scratch work (state, [])).2.2 ≤ budget := by
  refine world.run_moderate (fun outcome _ calls => outcome ≠ .error (.misuse .noProgress) ∧
    (Meter.logged tariff).spent calls ≤ budget) ((hwork scratch [] hscratch).mono ?_ ?_) hwithin
  · rintro value _ _ ⟨-, -, hspent⟩
    exact ⟨by simp, Nat.le_trans hspent (Nat.le_of_eq (Nat.zero_add budget))⟩
  · rintro failure _ _ ⟨hother, hspent⟩
    exact ⟨fun hsame => hother (Except.error.inj hsame),
      Nat.le_trans hspent (Nat.le_of_eq (Nat.zero_add budget))⟩

/-- What keeps to a budget at every tariff makes so many reads, writes and calls at most. -/
theorem World.run_counts [Machine] {reads writes others : Nat} {good : α → Prop}
    (hscratch : AtHand span scratch)
    (hwork : ∀ read write other, Spends (.logged ⟨fun _ => read, fun _ => write, other⟩) span work
      (reads * read + writes * write + others * other) good)
    (hwithin : ∀ call ∈ (world.logged.run scratch work (state, [])).2.2, Within call.1 call.2) :
    (world.logged.run scratch work (state, [])).1.1 ≠ .error (.misuse .noProgress) ∧
    (world.logged.run scratch work (state, [])).2.2.countP (fun call => call.1.isRead) ≤ reads ∧
    (world.logged.run scratch work (state, [])).2.2.countP (fun call => call.1.isWrite) ≤ writes ∧
    (world.logged.run scratch work (state, [])).2.2.length ≤ reads + writes + others := by
  obtain ⟨hends, hreads⟩ := world.run_spends hscratch (hwork 1 0 0) hwithin
  have hwrites := (world.run_spends hscratch (hwork 0 1 0) hwithin).2
  have hcalls := (world.run_spends hscratch (hwork 1 1 1) hwithin).2
  rw [spent_reads] at hreads
  rw [spent_writes] at hwrites
  rw [spent_all] at hcalls
  exact ⟨hends, by omega, by omega, by omega⟩

end Calls

end Stream

end RomImage
