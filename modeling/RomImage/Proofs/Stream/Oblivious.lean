import RomImage.Proofs.Oblivious
import RomImage.Proofs.Stream.Conduct
import RomImage.Proofs.Stream.Evenly
import RomImage.Stream.Staging

/-!
# Transfers do not see what the buffer held

A read into a chunk of the buffer reports how many of its bytes count. If it stored that many, then
what a copy passes on is what was just read, and nothing of what the buffer held before; a fill
passes on bytes that it has stored itself. So every transfer is oblivious as long as no read reports
bytes that it did not store.

Nothing else is assumed about the streams: they may refuse calls, do less than they are asked, or
tell wrong positions.
-/

namespace RomImage

namespace Buffer

/-- What stands before a mark within the bytes just stored is theirs. -/
theorem upTo_overwrite (buffer : Buffer) {data : Bytes} {mark : Int} (hmark : 0 ≤ mark)
    (hstored : mark ≤ data.length) :
    (buffer.overwrite data).upTo mark = data.take mark.toNat := by
  have hwithin : mark.toNat ≤ data.length := by omega
  rw [upTo, if_neg (by omega), take_eq, bytes_overwrite, Bytes.overwrite,
    List.take_append_of_le_length hwithin]

end Buffer

namespace Stream

variable {ι σ : Type}

/-- A read into a chunk reports no more bytes than it stored there. -/
def ReportsStored : (interface ι).Fairness
  | .readInto _ size, .ok delivery =>
    0 ≤ delivery.reported.getD 0 ∧
      delivery.reported.getD 0 ≤ (Bytes.first delivery.stored size).length
  | _, _ => True

def World.IsStored (world : World ι σ) : Prop :=
  ∀ request state, ReportsStored request (world.answer request state).1

section Truthful

variable [DecidableEq ι]

/-- The reads of truthful streams report the bytes that they stored. -/
theorem Truthful.reportsStored {request : Request ι} {tapes after : ι → Tape}
    {answer : request.Answer} (htruthful : Truthful request tapes answer after) :
    ReportsStored request answer := by
  cases request with
  | readInto stream size =>
      obtain fault | ⟨stored, reported⟩ := answer
      · trivial
      obtain ⟨count, hcount, hstored, hreported, -⟩ := htruthful
      dsimp only at hstored hreported
      have hlength : stored.length ≤ size := by
        rw [hstored]
        exact Nat.le_trans ((tapes stream).length_read_le count) hcount
      have hfirst : (Bytes.first stored size).length = stored.length := by
        rw [Bytes.first_eq, List.length_take, Nat.min_eq_right hlength]
      rw [ReportsStored, hfirst]
      obtain rfl | ⟨rfl, hnone⟩ := hreported
      · exact ⟨Int.natCast_nonneg _, Int.le_refl _⟩
      · exact ⟨Int.le_refl _, Int.natCast_nonneg _⟩
  | read stream size | write stream data | seek stream offset whence | seekUnknown stream
  | tell stream | seekable stream | note fact => trivial

theorem World.IsTruthful.isStored {world : World ι σ} (htruthful : world.IsTruthful) :
    world.IsStored :=
  fun request state => (htruthful request state).reportsStored

end Truthful

theorem note_oblivious (fact : Note) : (note fact : Work ι Unit).Oblivious ReportsStored :=
  .bind (.request _) fun _ => .ofExcept _

theorem writeAll_oblivious (dest : Channel ι) (data : Bytes) :
    (writeAll dest data).Oblivious ReportsStored := by
  refine .bind (.request _) fun answer => ?_
  obtain fault | _ | written := answer
  · exact .fail _
  · exact .fail _
  · dsimp only
    split
    · exact .fail _
    · exact .pure ()

theorem storeFront_oblivious [Machine] (data : Bytes) :
    (storeFront data : Work ι Unit).Oblivious ReportsStored := by
  refine .buffer_bind fun buffer buffer' hlength => .done ⟨rfl, ?_⟩
  refine ⟨buffer.overwrite data, buffer'.overwrite data, rfl, rfl, ?_⟩
  rw [Buffer.length_overwrite, Buffer.length_overwrite, hlength]

def ReadAlike (result result' : Except Failure Int × Scratch) : Prop :=
  result.1 = result'.1 ∧ ∃ buffer buffer', result.2 = .ready buffer ∧ result'.2 = .ready buffer' ∧
    buffer.length = buffer'.length ∧ ∀ got, result.1 = .ok got → buffer.upTo got = buffer'.upTo got

/-- Two buffers agree on the bytes that were just stored at their front. -/
theorem storeFront_inStep [Machine] {data : Bytes} {got : Int} {buffer buffer' : Buffer}
    (hlength : buffer.length = buffer'.length) (hgot : 0 ≤ got) (hstored : got ≤ data.length) :
    ((do storeFront data; return got : Work ι Int) (.ready buffer)).InStep ReportsStored ReadAlike
      ((do storeFront data; return got : Work ι Int) (.ready buffer')) := by
  refine .done ⟨rfl, buffer.overwrite data, buffer'.overwrite data, rfl, rfl, ?_, ?_⟩
  · rw [Buffer.length_overwrite, Buffer.length_overwrite, hlength]
  · rintro _ ⟨⟩
    rw [buffer.upTo_overwrite hgot hstored, buffer'.upTo_overwrite hgot hstored]

theorem readChunk_inStep [Machine] (source : Channel ι) (want : Nat) {buffer buffer' : Buffer}
    (hlength : buffer.length = buffer'.length) :
    (readChunk source want (.ready buffer)).InStep ReportsStored ReadAlike
      (readChunk source want (.ready buffer')) := by
  have hfail (failure : Failure) : ((Task.fail failure : Work ι Int) (.ready buffer)).InStep
      ReportsStored ReadAlike ((Task.fail failure : Work ι Int) (.ready buffer')) :=
    .done ⟨rfl, buffer, buffer', rfl, rfl, hlength, by simp⟩
  rw [readChunk]
  split
  · refine Task.inStep_request_bind fun answer hfair => ?_
    cases answer with
    | error fault => exact hfail _
    | ok delivery => exact storeFront_inStep hlength hfair.1 hfair.2
  · refine Task.inStep_request_bind fun answer _ => ?_
    obtain fault | _ | data := answer
    · exact hfail _
    · refine .done ⟨rfl, buffer, buffer', rfl, rfl, hlength, ?_⟩
      rintro _ ⟨⟩
      simp [Buffer.upTo, Buffer.take_eq]
    · dsimp only
      split
      · exact hfail _
      · exact storeFront_inStep hlength (Int.natCast_nonneg _) (Int.le_refl _)

/-- A copy passes on what it has just read. -/
theorem copyChunk_oblivious [Machine] (source dest : Channel ι) (want : Nat) :
    (copyChunk source dest want).Oblivious ReportsStored := by
  rintro _ _ ⟨buffer, buffer', rfl, rfl, hlength⟩
  rw [copyChunk, Task.bind_apply, Task.bind_apply]
  refine (readChunk_inStep source want hlength).bind ?_
  rintro ⟨outcome, _⟩ ⟨_, _⟩ ⟨rfl, buffer, buffer', rfl, rfl, hlength, hfront⟩
  cases outcome with
  | error failure => exact .done ⟨rfl, buffer, buffer', rfl, rfl, hlength⟩
  | ok got =>
      dsimp only
      split
      · exact Task.Oblivious.fail _ _ _ ⟨buffer, buffer', rfl, rfl, hlength⟩
      · have hsame : buffer.upTo got = buffer'.upTo got := hfront got rfl
        have hpass := Task.Oblivious.bind (writeAll_oblivious dest (buffer.upTo got))
          fun _ => Task.Oblivious.pure got
        have hstep := hpass (.ready buffer) (.ready buffer') ⟨_, _, rfl, rfl, hlength⟩
        refine (?_ : Dialogue.InStep _ _ _
          ((writeAll dest (buffer'.upTo got) >>= fun _ => pure got) (.ready buffer')))
        rwa [← hsame]

theorem copyRounds_oblivious [Machine] (source dest : Channel ι) (span rounds : Nat)
    (remaining : Int) :
    (copyRounds source dest span rounds remaining).Oblivious ReportsStored := by
  induction rounds generalizing remaining with
  | zero =>
      rw [copyRounds]
      split
      · exact .pure ()
      · exact .fail _
  | succ rounds ih =>
      rw [copyRounds]
      split
      · exact .pure ()
      · exact .bind (copyChunk_oblivious source dest _) fun got => ih _

theorem copy_oblivious [Machine] (source dest : Channel ι) (count : Int) :
    (copy source dest count).Oblivious ReportsStored := by
  rw [copy]
  split
  · exact .fail _
  split
  · exact .pure ()
  · refine .length_bind (fun buffer buffer' hlength => by rw [hlength]) fun buffer => ?_
    exact .bind (copyRounds_oblivious source dest _ _ _) fun _ => note_oblivious _

theorem writeTimes_oblivious (dest : Channel ι) (chunk : Bytes) (times : Nat) :
    (writeTimes dest chunk times).Oblivious ReportsStored := by
  induction times with
  | zero => exact .pure ()
  | succ times ih => exact .bind (writeAll_oblivious dest chunk) fun _ => ih

theorem fill_oblivious [Machine] (dest : Channel ι) (value count : Int) :
    (fill dest value count).Oblivious ReportsStored := by
  rw [fill_eq_fillEvenly, fillEvenly]
  split
  · exact .fail _
  split
  · exact .fail _
  split
  · exact .pure ()
  refine .length_bind (fun buffer buffer' hlength => by rw [hlength]) fun buffer => ?_
  dsimp only
  split
  · exact .bind (writeTimes_oblivious dest _ _) fun _ => .fail _
  · refine .bind (storeFront_oblivious _) fun _ => .bind (writeTimes_oblivious dest _ _) fun _ => ?_
    split
    · exact .bind (writeAll_oblivious dest _) fun _ => note_oblivious _
    · exact note_oblivious _

theorem position_oblivious (stream : Channel ι) : (position stream).Oblivious ReportsStored :=
  .bind (.request _) fun _ => .ofExcept _

theorem move_oblivious (stream : Channel ι) (offset whence : Int) :
    (move stream offset whence).Oblivious ReportsStored :=
  .bind (.request _) fun _ => .ofExcept _

theorem moveTo_oblivious (stream : Channel ι) (offset whence : Int) :
    (moveTo stream offset whence).Oblivious ReportsStored :=
  .bind (move_oblivious stream offset whence) fun _ => position_oblivious stream

theorem moveBack_oblivious (stream : Channel ι) (start : Option Int) :
    (moveBack stream start).Oblivious ReportsStored := by
  cases start with
  | some start => exact move_oblivious stream start fromStart
  | none => exact .bind (.request _) fun _ => .ofExcept _

theorem measure_oblivious (stream : Channel ι) : (measure stream).Oblivious ReportsStored := by
  refine .bind (position_oblivious stream) fun start => ?_
  refine .bind (move_oblivious stream 0 fromEnd) fun _ => ?_
  refine .bind (position_oblivious stream) fun size => ?_
  exact .bind (moveBack_oblivious stream start) fun _ => .pure size

theorem canMove_oblivious (stream : Channel ι) : (canMove stream).Oblivious ReportsStored := by
  rw [canMove]
  split
  · refine .bind (.request _) fun answer => ?_
    cases answer with
    | ok yes => exact .pure yes
    | error fault =>
        dsimp only
        split
        · exact .pure false
        · exact .fail _
  · exact .pure false

/-- The tape in memory reports what it stored. -/
theorem steer_fair [Machine] (request : Request (Option ι)) (memory : Tape) :
    (steer request memory).Fair (@ReportsStored ι) ReportsStored := by
  cases request with
  | readInto stream size =>
      cases stream with
      | none =>
          have hall : Bytes.first (memory.read size).1 size = (memory.read size).1 := by
            rw [Bytes.first_eq, List.take_of_length_le (memory.length_read_le size)]
          exact ⟨Int.natCast_nonneg _,
            Int.le_of_eq (congrArg (fun data => (data.length : Int)) hall.symm)⟩
      | some stream =>
          intro answer hanswer
          cases answer with
          | error fault => trivial
          | ok delivery => exact hanswer
  | write stream data =>
      cases stream with
      | none =>
          rw [steer]
          split
          · trivial
          · trivial
      | some stream => exact fun _ _ => trivial
  | seek stream offset whence =>
      cases stream with
      | none =>
          obtain ⟨contents, position⟩ := memory
          rw [steer]
          split
          · trivial
          · trivial
      | some stream => exact fun _ _ => trivial
  | note fact => exact fun _ _ => trivial
  | read stream size | seekUnknown stream | tell stream | seekable stream =>
      cases stream with
      | none => trivial
      | some stream => exact fun _ _ => trivial

theorem staged_oblivious [Machine] {α : Type} {work : Work (Option ι) α}
    (hwork : work.Oblivious ReportsStored) : (staged work).Oblivious ReportsStored :=
  .route steer_fair hwork .empty

end Stream

end RomImage
