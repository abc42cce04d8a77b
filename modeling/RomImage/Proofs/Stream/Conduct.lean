import Mathlib.Logic.Function.Basic
import RomImage.Proofs.Requests
import RomImage.Proofs.Stream.Tape
import RomImage.Stream.Basic

/-!
# Truthful and obliging streams

A truthful stream is a tape that may refuse. A refused call leaves the tape as it is. A granted read
hands over some of the next bytes, at most as many as were asked for; a granted write stores a
beginning of what it is offered; both report how much that was. Positions are told and changed as
they are.

An obliging stream refuses nothing within its abilities: a read before the end hands over at least
one byte, and a write that stays within the room is taken whole.

`conduct` joins the two, and lets the second depend on a proposition, so that one statement about a
transfer covers streams of both sorts: what may go wrong is then `¬ obliged`.
-/

namespace RomImage

namespace Stream

open Function (update)

variable {ι σ α : Type} [DecidableEq ι]

def Reports (reported : Option Int) (count : Nat) : Prop :=
  reported = some (count : Int) ∨ reported = none ∧ count = 0

/-- The answers of truthful streams, and the tapes after them. -/
def Truthful : (request : Request ι) → (ι → Tape) → request.Answer → (ι → Tape) → Prop
  | .readInto _ _, tapes, .error _, after => after = tapes
  | .readInto stream size, tapes, .ok delivery, after =>
    ∃ count ≤ size, delivery.stored = ((tapes stream).read count).1 ∧
      Reports delivery.reported delivery.stored.length ∧
      after = update tapes stream ((tapes stream).read count).2
  | .read _ _, tapes, .error _, after => after = tapes
  | .read _ _, tapes, .ok none, after => after = tapes
  | .read stream size, tapes, .ok (some data), after =>
    ∃ count ≤ size, data = ((tapes stream).read count).1 ∧
      after = update tapes stream ((tapes stream).read count).2
  | .write _ _, tapes, .error _, after => after = tapes
  | .write stream data, tapes, .ok reported, after =>
    ∃ count ≤ data.length, Reports reported count ∧
      after = update tapes stream ((tapes stream).write (data.take count))
  | .seek _ _ _, tapes, .error _, after => after = tapes
  | .seek stream offset whence, tapes, .ok (), after =>
    ∃ position, Tape.destination (tapes stream).position (tapes stream).contents.size offset whence
        = .ok position ∧ after = update tapes stream ((tapes stream).moved position)
  | .seekUnknown _, tapes, _, after => after = tapes
  | .tell _, tapes, .error _, after => after = tapes
  | .tell stream, tapes, .ok position, after =>
    position = some ((tapes stream).position : Int) ∧ after = tapes
  | .seekable _, tapes, _, after => after = tapes
  | .note _, tapes, _, after => after = tapes

structure Ability where
  readable : Bool
  writable : Bool
  movable : Bool
  /-- Where its room ends, if it does. -/
  room : Option Nat

def Ability.reaches (ability : Ability) (position : Nat) : Prop :=
  ∀ room ∈ ability.room, position < room

theorem Ability.reaches.of_le {ability : Ability} {near far : Nat} (hfar : ability.reaches far)
    (hle : near ≤ far) : ability.reaches near :=
  fun room hroom => Nat.lt_of_le_of_lt hle (hfar room hroom)

def Ability.takes (ability : Ability) (stop : Nat) : Prop :=
  ability.writable = true ∧ ability.reaches stop

theorem Ability.takes.of_le {ability : Ability} {near far : Nat} (hfar : ability.takes far)
    (hle : near ≤ far) : ability.takes near :=
  ⟨hfar.1, hfar.2.of_le hle⟩

/-- The answers of streams that refuse nothing within their abilities. -/
def Obliging (ability : ι → Ability) :
    (request : Request ι) → (ι → Tape) → request.Answer → Prop
  | .readInto stream size, tapes, answer =>
    (ability stream).readable = true → ∃ delivery, answer = .ok delivery ∧
      (0 < size → (tapes stream).ahead ≠ [] → delivery.stored ≠ [])
  | .read stream size, tapes, answer =>
    (ability stream).readable = true → ∃ data, answer = .ok data ∧
      (0 < size → (tapes stream).ahead ≠ [] → data.getD [] ≠ [])
  | .write stream data, tapes, answer =>
    (ability stream).takes ((tapes stream).position + data.length) →
      answer = .ok (some (data.length : Int))
  | .seek stream offset whence, tapes, answer =>
    (ability stream).movable = true → (ability stream).reaches offset.natAbs →
      (Tape.destination (tapes stream).position (tapes stream).contents.size offset whence).isOk →
      answer = .ok ()
  | .seekUnknown _, _, _ => True
  | .tell stream, tapes, answer =>
    (ability stream).movable = true → answer = .ok (some ((tapes stream).position : Int))
  | .seekable stream, _, answer => answer = .ok (ability stream).movable
  | .note _, _, answer => answer = .ok ()

/-- Truthful streams that are obliging as well, if they are `obliged` to be. -/
def conduct (ability : ι → Ability) (obliged : Prop) : Conduct (interface ι) (ι → Tape) :=
  fun request tapes answer after =>
    Truthful request tapes answer after ∧ (obliged → Obliging ability request tapes answer)

/-- What truthful streams ensure, truthful streams of a sort do. -/
theorem ensures_of_truthful (ability : ι → Ability) {sort : Conduct (interface ι) (ι → Tape)}
    (hsort : ∀ request tapes answer after, sort request tapes answer after →
      Truthful request tapes answer after)
    {task : Work ι α} {scratch : Scratch} {tapes : ι → Tape}
    {good : α → Scratch → (ι → Tape) → Prop} {bad : Failure → Scratch → (ι → Tape) → Prop}
    (htask : task.Ensures (conduct ability False) scratch tapes good bad) :
    task.Ensures sort scratch tapes good bad :=
  htask.under fun _ _ _ _ hanswer => ⟨hsort _ _ _ _ hanswer, False.elim⟩

/-- Streams that answer from a state of any kind, seen as tapes. -/
structure World (ι σ : Type) where
  answer : (request : Request ι) → σ → request.Answer × σ
  tape : σ → ι → Tape

namespace World

def run (world : World ι σ) (scratch : Scratch) (work : Work ι α) (state : σ) :
    (Except Failure α × Scratch) × σ :=
  (work scratch).run world.answer state

def IsTruthful (world : World ι σ) : Prop :=
  ∀ request state, Truthful request (world.tape state) (world.answer request state).1
    (world.tape (world.answer request state).2)

def IsObliging (world : World ι σ) (ability : ι → Ability) : Prop :=
  ∀ request state, Obliging ability request (world.tape state) (world.answer request state).1

structure Holds (world : World ι σ) (ability : ι → Ability) (state : σ) (source : Channel ι)
    (image : Bytes) : Prop where
  readable : (ability source.handle).readable = true
  movable : (ability source.handle).movable = true
  reaches : (ability source.handle).reaches 0
  start : (world.tape state source.handle).position = 0
  bytes : (world.tape state source.handle).contents.bytes = image

structure Accepts (world : World ι σ) (ability : ι → Ability) (state : σ) (dest : Channel ι)
    (count : Nat) : Prop where
  asks : dest.answersSeekable = true
  movable : (ability dest.handle).movable = true
  takes : (ability dest.handle).takes count
  empty : world.tape state dest.handle = .empty

section Holds

variable {world : World ι σ} {ability : ι → Ability} {state : σ} {source : Channel ι}
  {image : Bytes}

omit [DecidableEq ι]

theorem Holds.ahead_eq (hsource : world.Holds ability state source image) :
    (world.tape state source.handle).ahead = image := by
  rw [Tape.ahead, hsource.start, hsource.bytes, List.drop_zero]

theorem Holds.size_eq (hsource : world.Holds ability state source image) :
    (world.tape state source.handle).contents.size = image.length := by
  rw [← hsource.bytes, Contents.length_bytes]

theorem Holds.reaches_position (hsource : world.Holds ability state source image) :
    (ability source.handle).reaches (world.tape state source.handle).position :=
  hsource.start.symm ▸ hsource.reaches

end Holds

/-- Work ends in a world of truthful streams as it ends under their conduct. -/
theorem run_ends {world : World ι σ} {ability : ι → Ability} {obliged : Prop}
    (htruthful : world.IsTruthful) (hobliging : obliged → world.IsObliging ability)
    {work : Work ι α} {scratch : Scratch} {state : σ} {good : α → Scratch → (ι → Tape) → Prop}
    {bad : Failure → Scratch → (ι → Tape) → Prop}
    (hwork : work.Ensures (conduct ability obliged) scratch (world.tape state) good bad) :
    (∃ value scratch' after, world.run scratch work state = ((.ok value, scratch'), after) ∧
        good value scratch' (world.tape after)) ∨
      ∃ failure scratch' after, world.run scratch work state = ((.error failure, scratch'), after) ∧
        bad failure scratch' (world.tape after) := by
  refine hwork.run world.tape (fun _ => True) (fun request state _ => ?_) state trivial
  exact ⟨⟨htruthful request state, fun hobliged => hobliging hobliged request state⟩, trivial⟩

/-- What truthful streams ensure holds of a run that ended with a value. -/
theorem run_ok {world : World ι σ} (ability : ι → Ability) (htruthful : world.IsTruthful)
    {work : Work ι α} {scratch scratch' : Scratch} {state after : σ} {value : α}
    {good : α → Scratch → (ι → Tape) → Prop} {bad : Failure → Scratch → (ι → Tape) → Prop}
    (hrun : world.run scratch work state = ((.ok value, scratch'), after))
    (hwork : work.Ensures (conduct ability False) scratch (world.tape state) good bad) :
    good value scratch' (world.tape after) := by
  obtain ⟨_, _, _, hends, hgood⟩ | ⟨_, _, _, hends, -⟩ := run_ends htruthful False.elim hwork
  · obtain ⟨⟨⟨⟩, rfl⟩, rfl⟩ := by simpa only [Prod.mk.injEq] using hrun.symm.trans hends
    exact hgood
  · exact absurd (hrun.symm.trans hends) (by simp)

/-- Tapes that refuse nothing, and hand over no more than so many bytes and one at a time. -/
def plain (grain : Nat) : World ι (ι → Tape) where
  tape tapes := tapes
  answer
    | .readInto stream size, tapes =>
      let (data, tape) := (tapes stream).read (min size (grain + 1))
      ((.ok ⟨data, some data.length⟩ : Except Fault Delivery), update tapes stream tape)
    | .read stream size, tapes =>
      let (data, tape) := (tapes stream).read (min size (grain + 1))
      ((.ok (some data) : Except Fault (Option Bytes)), update tapes stream tape)
    | .write stream data, tapes =>
      ((.ok (some data.length) : Except Fault (Option Int)),
        update tapes stream ((tapes stream).write data))
    | .seek stream offset whence, tapes =>
      match Tape.destination (tapes stream).position (tapes stream).contents.size offset whence with
      | .ok position =>
        ((.ok () : Except Fault Unit), update tapes stream ((tapes stream).moved position))
      | .error fault => ((.error fault : Except Fault Unit), tapes)
    | .seekUnknown _, tapes => ((.error .missingOffset : Except Fault Unit), tapes)
    | .tell stream, tapes =>
      ((.ok (some ((tapes stream).position : Int)) : Except Fault (Option Int)), tapes)
    | .seekable _, tapes => ((.ok true : Except Fault Bool), tapes)
    | .note _, tapes => ((.ok () : Except Fault Unit), tapes)

theorem plain_isTruthful (grain : Nat) : (plain grain : World ι (ι → Tape)).IsTruthful := by
  intro request tapes
  cases request with
  | readInto stream size => exact ⟨_, Nat.min_le_left _ _, rfl, .inl rfl, rfl⟩
  | read stream size => exact ⟨_, Nat.min_le_left _ _, rfl, rfl⟩
  | write stream data =>
      refine ⟨data.length, Nat.le_refl _, .inl rfl, ?_⟩
      rw [List.take_length]
      rfl
  | seek stream offset whence =>
      rw [plain]
      dsimp only
      split
      · rename_i position hposition
        exact ⟨position, hposition, rfl⟩
      · rfl
  | seekUnknown stream => rfl
  | tell stream => exact ⟨rfl, rfl⟩
  | seekable stream => rfl
  | note fact => rfl

theorem plain_isObliging (grain : Nat) :
    (plain grain : World ι (ι → Tape)).IsObliging fun _ => ⟨true, true, true, none⟩ := by
  intro request tapes
  have hsome {stream : ι} {size : Nat} (hsize : 0 < size) (hahead : (tapes stream).ahead ≠ []) :
      ((tapes stream).read (min size (grain + 1))).1 ≠ [] :=
    (tapes stream).read_ne_nil (by omega) hahead
  cases request with
  | readInto stream size => exact fun _ => ⟨_, rfl, hsome⟩
  | read stream size => exact fun _ => ⟨_, rfl, hsome⟩
  | write stream data => exact fun _ => rfl
  | seek stream offset whence =>
      intro _ _ hgranted
      have hallowed : (Tape.destination (tapes stream).position (tapes stream).contents.size offset
        whence).isOk = true := hgranted
      rw [plain]
      dsimp only
      split
      · rfl
      · rename_i fault hrefused
        rw [hrefused] at hallowed
        exact absurd hallowed (by simp [Except.isOk, Except.toBool])
  | seekUnknown stream => exact trivial
  | tell stream => exact fun _ => rfl
  | seekable stream => rfl
  | note fact => rfl

def stingy (grain limit : Nat) : World ι (ι → Tape) where
  tape tapes := tapes
  answer
    | .write stream data, tapes =>
      ((.ok (some (data.take limit).length) : Except Fault (Option Int)),
        update tapes stream ((tapes stream).write (data.take limit)))
    | request, tapes => (plain grain).answer request tapes

theorem stingy_isTruthful (grain limit : Nat) :
    (stingy grain limit : World ι (ι → Tape)).IsTruthful := by
  intro request tapes
  cases request with
  | write stream data =>
      refine ⟨(data.take limit).length, List.length_take_le' _ _, .inl rfl, ?_⟩
      rw [List.length_take, ← List.take_eq_take_min]
      rfl
  | _ => exact plain_isTruthful grain _ tapes

end World

end Stream

end RomImage
