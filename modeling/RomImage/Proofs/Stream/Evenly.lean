import RomImage.Stream.Transfer

/-!
# The rounds of a fill

A fill offers the front of its buffer again and again. Every round but the last one offers all that
was filled, so the rounds are so many writes of one and the same chunk, and a shorter one where the
count is not a multiple of its length (`fill_eq_fillEvenly`). This holds of every buffer: through an
empty one nothing is ever written, and the fill ends as its rounds do.
-/

namespace RomImage

namespace Stream

variable {ι β : Type}

def writeTimes (dest : Channel ι) (chunk : Bytes) : Nat → Work ι Unit
  | 0 => return ()
  | times + 1 => do
    writeAll dest chunk
    writeTimes dest chunk times

/-- Writes so many copies of a byte, in whole chunks and what is left over. -/
def writeEvenly (dest : Channel ι) (byte : UInt8) (span count : Nat) : Work ι Unit := do
  writeTimes dest (List.replicate span byte) (count / span)
  if count % span ≠ 0 then
    writeAll dest (List.replicate (count % span) byte)

def fillEvenly [Machine] (dest : Channel ι) (value count : Int) : Work ι Unit := do
  if value < 0 ∨ 255 < value then .fail (.misuse (.fillOutOfRange value))
  else if count < 0 then .fail (.misuse (.negativeCount count))
  else if count = 0 then return ()
  else
    let buffer ← Task.buffer
    let byte := UInt8.ofNat value.toNat
    let span := min buffer.length count.toNat
    if span = 0 then
      writeTimes dest [] (count.toNat + patience)
      .fail (.misuse .noProgress)
    else
      storeFront (List.replicate span byte)
      writeTimes dest (List.replicate span byte) (count.toNat / span)
      if count.toNat % span ≠ 0 then
        writeAll dest (List.replicate (count.toNat % span) byte)
      note (.filled count byte dest.name)

def writeOutcome (dest : Channel ι) (data : Bytes) : Except Fault (Option Int) → Except Failure Unit
  | .error fault => .error (writeFailure dest fault)
  | .ok none => .error (shortWrite dest 0 data.length)
  | .ok (some written) =>
    if written < data.length then .error (shortWrite dest written data.length) else .ok ()

theorem writeAll_bind_apply (dest : Channel ι) (data : Bytes) (f : Unit → Work ι β)
    (scratch : Scratch) :
    (writeAll dest data >>= f) scratch = .ask (I := interface ι) (.write dest.handle data)
      fun answer => match writeOutcome dest data answer with
        | .ok () => f () scratch
        | .error failure => .done (.error failure, scratch) := by
  refine congrArg (Dialogue.ask _) (funext fun answer => ?_)
  obtain fault | _ | written := answer
  · rfl
  · rfl
  · change ((if written < (data.length : Int) then Task.fail (shortWrite dest written data.length)
      else pure () : Work ι Unit) >>= f) scratch = _
    rw [writeOutcome]
    by_cases hshort : written < (data.length : Int)
    · rw [if_pos hshort, if_pos hshort]
      rfl
    · rw [if_neg hshort, if_neg hshort]
      rfl

/-- A write leaves the scratch buffer, so what follows it matters with that buffer only. -/
theorem writeAll_bind_congr {dest : Channel ι} {data : Bytes} {f g : Unit → Work ι β}
    {scratch : Scratch} (hsame : f () scratch = g () scratch) :
    (writeAll dest data >>= f) scratch = (writeAll dest data >>= g) scratch := by
  rw [writeAll_bind_apply, writeAll_bind_apply, hsame]

theorem writeEvenly_zero (dest : Channel ι) (byte : UInt8) (span : Nat) :
    writeEvenly dest byte span 0 = pure () := by
  rw [writeEvenly, Nat.zero_div, Nat.zero_mod]
  rfl

theorem writeEvenly_of_lt {dest : Channel ι} {byte : UInt8} {span count : Nat} (hsome : 0 < count)
    (hless : count < span) :
    writeEvenly dest byte span count = writeAll dest (List.replicate count byte) := by
  rw [writeEvenly, Nat.div_eq_of_lt hless, Nat.mod_eq_of_lt hless, if_pos (Nat.ne_of_gt hsome)]
  rfl

theorem writeEvenly_of_le {dest : Channel ι} {byte : UInt8} {span count : Nat} (hspan : 0 < span)
    (hwhole : span ≤ count) :
    writeEvenly dest byte span count = writeAll dest (List.replicate span byte) >>= fun _ =>
      writeEvenly dest byte span (count - span) := by
  rw [writeEvenly, Nat.div_eq_sub_div hspan hwhole, Nat.mod_eq_sub_mod hwhole, writeTimes,
    bind_assoc]
  rfl

theorem storeFront_bind_apply [Machine] (data : Bytes) (f : Unit → Work ι β) (buffer : Buffer) :
    (storeFront data >>= f) (.ready buffer) = f () (.ready (buffer.overwrite data)) := rfl

section Rounds

variable [Machine] {dest : Channel ι} {byte : UInt8} {span : Nat}

theorem fillRounds_zero (rounds : Nat) : fillRounds dest span rounds 0 = pure () := by
  cases rounds with
  | zero => rw [fillRounds, if_pos rfl]
  | succ rounds => rw [fillRounds, if_pos rfl]

theorem fillRounds_succ {rounds remaining : Nat} (hsome : remaining ≠ 0) (buffer : Buffer) :
    fillRounds dest span (rounds + 1) remaining (.ready buffer)
      = (writeAll dest (buffer.take (min span remaining)) >>= fun _ => fillRounds dest span rounds
        (remaining - (buffer.take (min span remaining)).length)) (.ready buffer) := by
  rw [fillRounds, if_neg hsome]
  rfl

/-- A buffer whose front was filled is offered evenly. -/
theorem fillRounds_evenly (dest : Channel ι) {buffer : Buffer} (hspan : 0 < span)
    (hfront : ∀ count ≤ span, buffer.take count = List.replicate count byte) {remaining : Nat}
    {rounds : Nat} (hrounds : remaining ≤ rounds) :
    fillRounds dest span rounds remaining (.ready buffer)
      = writeEvenly dest byte span remaining (.ready buffer) := by
  induction rounds generalizing remaining with
  | zero =>
      obtain rfl := Nat.le_zero.mp hrounds
      rw [fillRounds_zero, writeEvenly_zero]
  | succ rounds ih =>
      obtain rfl | hsome := Nat.eq_zero_or_pos remaining
      · rw [fillRounds_zero, writeEvenly_zero]
      rw [fillRounds_succ (Nat.ne_of_gt hsome), hfront _ (Nat.min_le_left _ _),
        List.length_replicate]
      by_cases hwhole : span ≤ remaining
      · rw [Nat.min_eq_left hwhole, writeEvenly_of_le hspan hwhole]
        exact writeAll_bind_congr (ih (by omega))
      · have hless : remaining < span := Nat.lt_of_not_le hwhole
        rw [Nat.min_eq_right (Nat.le_of_lt hless), Nat.sub_self, writeEvenly_of_lt hsome hless,
          fillRounds_zero]
        exact congrFun (bind_pure (writeAll dest (List.replicate remaining byte))) _

/-- An empty chunk is offered in every round, and nothing comes of it. -/
theorem fillRounds_stall {remaining : Nat} (hsome : 0 < remaining) (rounds : Nat)
    (buffer : Buffer) :
    fillRounds dest 0 rounds remaining (.ready buffer)
      = (writeTimes dest [] rounds >>= fun _ => Task.fail (.misuse .noProgress))
        (.ready buffer) := by
  induction rounds with
  | zero =>
      rw [fillRounds, if_neg (Nat.ne_of_gt hsome)]
      rfl
  | succ rounds ih =>
      rw [fillRounds_succ (Nat.ne_of_gt hsome), Nat.zero_min, Buffer.take_eq, List.take_zero,
        List.length_nil, Nat.sub_zero, writeTimes, bind_assoc]
      exact writeAll_bind_congr ih

end Rounds

/-- **A fill is even.** A fill is whole chunks of its byte and what is left over. -/
theorem fill_eq_fillEvenly [Machine] (dest : Channel ι) (value count : Int) :
    fill dest value count = fillEvenly dest value count := by
  rw [fill, fillEvenly]
  -- Of the number of rounds it only matters that there are enough.
  obtain ⟨rounds, hrounds, henough⟩ : ∃ rounds, rounds = count.toNat + patience ∧
      count.toNat ≤ rounds := ⟨_, rfl, Nat.le_add_right _ _⟩
  rw [← hrounds]
  split
  · rfl
  split
  · rfl
  split
  · rfl
  rename_i hsign hzero
  have hsome : 0 < count.toNat := by omega
  funext scratch
  rw [Task.bind_apply, Task.bind_apply, Task.buffer]
  cases scratch.buffer with
  | error failure => rfl
  | ok buffer =>
      simp only [Dialogue.done_bind]
      generalize min buffer.length count.toNat = span
      generalize UInt8.ofNat value.toNat = byte
      obtain rfl | hspan := Nat.eq_zero_or_pos span
      · rw [if_pos rfl, List.replicate_zero, storeFront_bind_apply, Buffer.overwrite_nil,
          Task.bind_congr_left (fillRounds_stall hsome rounds buffer), bind_assoc]
        rfl
      · have hfilled := fillRounds_evenly dest hspan
          (fun _ => buffer.take_overwrite_replicate byte) henough
        rw [if_neg (Nat.ne_of_gt hspan), storeFront_bind_apply, storeFront_bind_apply,
          Task.bind_congr_left hfilled, writeEvenly, bind_assoc]
        split
        · rfl
        · rfl

end Stream

end RomImage
