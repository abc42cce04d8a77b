import RomImage.Proofs.Alike
import RomImage.Proofs.Stream.Calls

/-!
# Two ways of reading

A stream can read into a chunk, or it hands over bytes. Where both ways deliver the same, a copy
goes the same way by either: the calls are as long and come in the same order, and the buffer is
left the same. What has to be seen for that is one chunk (`readChunk_alike`): bytes that are stored
in place and bytes that are carried into the buffer are the same front of it, and a read that
delivers nothing leaves the buffer, whatever it says in place of a count.
-/

namespace RomImage

namespace Stream

variable {ι σ : Type}

/-- A read into a chunk and one that hands over bytes deliver the same: the same fault, nothing, or
the same bytes, no more than were asked for. -/
inductive SameDelivery (size : Nat) : Except Fault Delivery → Except Fault (Option Bytes) → Prop
  | refused (fault : Fault) : SameDelivery size (.error fault) (.error fault)
  | nothing {reported : Option Int} {data : Option Bytes} (hreported : reported.getD 0 = 0)
    (hdata : data.getD [] = []) : SameDelivery size (.ok ⟨[], reported⟩) (.ok data)
  | bytes {data : Bytes} (hnonempty : data ≠ []) (hsize : data.length ≤ size) :
    SameDelivery size (.ok ⟨data, some (data.length : Int)⟩) (.ok (some data))

/-- Bytes may be none. -/
theorem SameDelivery.of_data {size : Nat} {data : Bytes} (hsize : data.length ≤ size) :
    SameDelivery size (.ok ⟨data, some (data.length : Int)⟩) (.ok (some data)) := by
  by_cases hnothing : data = []
  · rw [hnothing]
    exact .nothing rfl rfl
  · exact .bytes hnothing hsize

def readings (stream : ι) : (interface ι).Pairing where
  pairs request request' := ∃ size, request = .readInto stream size ∧ request' = .read stream size
  agrees
    | .readInto _ size, .read _ _, delivery, data => SameDelivery size delivery data
    | _, _, _, _ => False

def Channel.storing (channel : Channel ι) : Channel ι := { channel with readsInto := true }

def Channel.handing (channel : Channel ι) : Channel ι := { channel with readsInto := false }

/-- Bytes are stored at the front of the buffer, and their count is reported. -/
theorem storeFront_ready [Machine] (data : Bytes) (got : Int) (buffer : Buffer) :
    (do storeFront data; return got : Work ι Int) (.ready buffer)
      = .done (.ok got, .ready (buffer.overwrite data)) := rfl

theorem readChunk_alike [Machine] (source : Channel ι) (want : Nat) :
    (readChunk source.storing want).AlikeReady (readings source.handle)
      (readChunk source.handing want) := by
  have hinto : source.storing.readsInto = true := rfl
  have hnot : ¬ source.handing.readsInto = true := Bool.false_ne_true
  have hpairs : (readings source.handle).pairs (.readInto source.storing.handle want)
      (.read source.handing.handle want) := ⟨want, rfl, rfl⟩
  rw [readChunk, readChunk, if_pos hinto, if_neg hnot]
  refine .swap_bind hpairs fun delivery data hagrees buffer => ?_
  have hsame : SameDelivery want delivery data := hagrees
  cases hsame with
  | refused fault => exact .done ⟨rfl, buffer, rfl⟩
  | @nothing reported data hreported hdata =>
      dsimp only
      rw [Bytes.first_eq, List.take_nil, storeFront_ready, Buffer.overwrite_nil, hreported]
      obtain _ | data := data
      · exact .done ⟨rfl, buffer, rfl⟩
      · obtain rfl : data = [] := hdata
        have hfits : ¬ want < ([] : Bytes).length := Nat.not_lt_zero want
        dsimp only
        rw [if_neg hfits, storeFront_ready, Buffer.overwrite_nil]
        exact .done ⟨rfl, buffer, rfl⟩
  | @bytes data hnonempty hsize =>
      dsimp only
      rw [Bytes.first_eq, List.take_of_length_le hsize, if_neg (Nat.not_lt.mpr hsize),
        storeFront_ready]
      exact .done ⟨rfl, _, rfl⟩

section Same

variable {pairing : (interface ι).Pairing}

theorem note_alike (fact : Note) : (note fact : Work ι Unit).AlikeReady pairing (note fact) :=
  .ask_bind fun _ => .ofExcept _

theorem writeAll_alike (dest : Channel ι) (data : Bytes) :
    (writeAll dest data).AlikeReady pairing (writeAll dest data) := by
  refine .ask_bind fun answer => ?_
  obtain fault | _ | written := answer
  · exact .fail _
  · exact .fail _
  · dsimp only
    split
    · exact .fail _
    · exact .pure ()

end Same

theorem copyChunk_alike [Machine] (source dest : Channel ι) (want : Nat) :
    (copyChunk source.storing dest want).AlikeReady (readings source.handle)
      (copyChunk source.handing dest want) := by
  rw [copyChunk, copyChunk]
  refine .bind (readChunk_alike source want) fun got => ?_
  by_cases hnothing : got = 0
  · rw [if_pos hnothing, if_pos hnothing]
    exact .fail _
  · rw [if_neg hnothing, if_neg hnothing]
    exact .buffer_bind fun buffer => .bind (writeAll_alike dest _) fun _ => .pure got

theorem copyRounds_alike [Machine] (source dest : Channel ι) (span rounds : Nat) (remaining : Int) :
    (copyRounds source.storing dest span rounds remaining).AlikeReady (readings source.handle)
      (copyRounds source.handing dest span rounds remaining) := by
  induction rounds generalizing remaining with
  | zero =>
      rw [copyRounds, copyRounds]
      split
      · exact .pure ()
      · exact .fail _
  | succ rounds ih =>
      rw [copyRounds, copyRounds]
      split
      · exact .pure ()
      · exact .bind (copyChunk_alike source dest _) fun got => ih (remaining - got)

/-- A copy asks for the same bytes in both ways of reading. -/
theorem copy_alike [Machine] (source dest : Channel ι) (count : Int) :
    (copy source.storing dest count).Alike (readings source.handle)
      (copy source.handing dest count) := by
  rw [copy, copy]
  split
  · exact .refl _
  split
  · exact .refl _
  · exact .buffer_bind fun buffer =>
      .bind (copyRounds_alike source dest buffer.length _ count) fun _ => note_alike _

/-- A pair of reads passes by the tape in memory. -/
theorem steer_paired [Machine] (stream : ι) (request request' : Request (Option ι)) (memory : Tape)
    (hpairs : (readings (some stream)).pairs request request') :
    (steer request memory).Paired (readings stream) (readings (some stream))
      (steer request' memory) := by
  obtain ⟨size, rfl, rfl⟩ := hpairs
  exact ⟨rfl, ⟨size, rfl, rfl⟩, fun _ _ hagrees => hagrees⟩

theorem staged_alike [Machine] {α : Type} {stream : ι} {work work' : Work (Option ι) α}
    (hwork : work.Alike (readings (some stream)) work') :
    (staged work).Alike (readings stream) (staged work') :=
  .route (steer_paired stream) hwork .empty

def World.ReadsAlike (world : World ι σ) (stream : ι) : Prop :=
  ∀ size state, SameDelivery size (world.answer (.readInto stream size) state).1
      (world.answer (.read stream size) state).1 ∧
    (world.answer (.readInto stream size) state).2 = (world.answer (.read stream size) state).2

theorem World.ReadsAlike.kept {world : World ι σ} {stream : ι} (halike : world.ReadsAlike stream) :
    (readings stream).Kept world.answer := by
  rintro _ _ state ⟨size, rfl, rfl⟩
  exact halike size state

theorem World.plain_readsAlike [DecidableEq ι] (grain : Nat) (stream : ι) :
    (World.plain grain : World ι (ι → Tape)).ReadsAlike stream := by
  intro size tapes
  refine ⟨?_, rfl⟩
  have hlength := (tapes stream).length_read_le (min size (grain + 1))
  exact .of_data (Nat.le_trans hlength (Nat.min_le_left _ _))

end Stream

end RomImage
