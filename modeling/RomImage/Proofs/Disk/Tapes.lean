import RomImage.Proofs.Disk.Run
import RomImage.Proofs.Stream.Conduct
import RomImage.Proofs.Stream.Requests

/-!
# Open files as tapes

An open file is a tape: the contents that stand at its location, with its position. If its mishaps
are honest it is a truthful stream, and an obliging one for as long as all goes well
(`Disk.conduct_answerStream`).
-/

namespace RomImage

namespace Stream

def Request.call? {ι : Type} : Request ι → Option (ι × Call)
  | readInto stream size | read stream size => some (stream, .read size)
  | write stream data => some (stream, .write data.length)
  | seek stream offset whence => some (stream, .seek offset whence)
  | seekUnknown stream => some (stream, .seekUnknown)
  | tell stream => some (stream, .tell)
  | seekable stream => some (stream, .seekable)
  | note _ => none

theorem Request.stream?_eq {ι : Type} (request : Request ι) :
    request.stream? = request.call?.map Prod.fst := by
  cases request <;> rfl

/-- A mishap tells no lies: what is answered is what was done, and no read hands over more than it
was asked for. -/
def Effect.Honest (method : Method) : Effect → Prop
  | .raise _ => True
  | .answer value =>
    match method with
    | .read | .write => value.getD 0 = 0
    | .seek | .tell => False
    | .seekable | .close => True
  | .alter _ surplus => method = .read → surplus = none

/-- A mishap lets a call do what it is there for; no more than a read is cut short, and not to
nothing. -/
def Effect.Harmless (call : Call) : Effect → Prop
  | .raise _ => False
  | .answer _ => call = .close
  | .alter limit surplus =>
    match call with
    | .read _ => limit ≠ some 0 ∧ surplus = none
    | .write size => ∀ bound ∈ limit, size ≤ bound
    | _ => True

instance (call : Call) (effect : Effect) : Decidable (effect.Harmless call) := by
  cases effect with
  | raise fault => exact inferInstanceAs (Decidable False)
  | answer value => exact inferInstanceAs (Decidable (call = .close))
  | alter limit surplus =>
      cases call with
      | read size => exact inferInstanceAs (Decidable (_ ∧ _))
      | write size => exact inferInstanceAs (Decidable (∀ bound ∈ limit, size ≤ bound))
      | _ => exact inferInstanceAs (Decidable True)

theorem Effect.Harmless.honest {call : Call} {effect : Effect} (hharmless : effect.Harmless call) :
    effect.Honest call.method := by
  cases effect with
  | raise fault => trivial
  | answer value =>
      obtain rfl : call = .close := hharmless
      trivial
  | alter limit surplus =>
      intro hread
      cases call with
      | read size => exact hharmless.2
      | _ => exact absurd hread (by simp [Call.method])

theorem Guard.gate_of_open {guard : Guard} (hopen : guard.closed = false) (call : Call) :
    guard.gate call =
      match guard.mishap call.method with
      | some (.raise fault) => .refused fault
      | some (.answer value) => .preset value
      | some (.alter limit surplus) => .admitted limit surplus
      | none => .admitted none none := by
  rw [gate]
  cases guard.mishap call.method with
  | none => simp [hopen]
  | some effect =>
      cases effect with
      | raise fault => rfl
      | answer value => simp [hopen]
      | alter limit surplus => simp [hopen]

end Stream

namespace Disk

open Function (update)
open RomImage.Stream (Call Effect Method Guard Truthful Obliging Ability conduct atMost)

variable {α : Type} {disk after : Disk} {side other : Side} {handle : Handle}

def contentsAt (disk : Disk) (location : Location) : Contents :=
  match disk.tree.lookup location with
  | some (.file contents) => contents
  | _ => .empty

def tape (disk : Disk) (side : Side) : Tape :=
  match disk.handle? side with
  | some handle => ⟨disk.contentsAt handle.location, handle.position⟩
  | none => .empty

theorem contentsAt_eq {location : Location} {contents : Contents}
    (hfile : disk.tree.lookup location = some (.file contents)) :
    disk.contentsAt location = contents := by
  rw [contentsAt, hfile]

structure Serves (disk : Disk) (side : Side) (handle : Handle) : Prop where
  found : disk.handle? side = some handle
  isOpen : handle.guard.closed = false
  file : ∃ contents, disk.tree.lookup handle.location = some (.file contents)

theorem tape_eq (hhandle : disk.handle? side = some handle) :
    disk.tape side = ⟨disk.contentsAt handle.location, handle.position⟩ := by
  rw [tape, hhandle]

theorem contentsAt_setHandle (disk : Disk) (side : Side) (handle : Handle) (location : Location) :
    (disk.setHandle side handle).contentsAt location = disk.contentsAt location := by
  rw [contentsAt, contentsAt, tree_setHandle]

theorem tape_setHandle (disk : Disk) (side : Side) (handle : Handle) :
    (disk.setHandle side handle).tape side
      = ⟨disk.contentsAt handle.location, handle.position⟩ := by
  rw [tape_eq (by rw [handle?_setHandle, if_pos rfl]), contentsAt_setHandle]

theorem sizeAt_eq (disk : Disk) (location : Location) :
    disk.sizeAt location = (disk.contentsAt location).size := by
  rw [sizeAt, contentsAt]
  cases disk.tree.lookup location with
  | none => rfl
  | some node => cases node <;> rfl

namespace Serves

theorem tape (hserves : disk.Serves side handle) :
    disk.tape side = ⟨disk.contentsAt handle.location, handle.position⟩ :=
  tape_eq hserves.found

/-- To keep a call is no change of the tape. -/
theorem recording (hserves : disk.Serves side handle) (call : Call) :
    (disk.setHandle side (handle.recording call)).Serves side (handle.recording call) := by
  refine ⟨by rw [handle?_setHandle, if_pos rfl], hserves.isOpen, ?_⟩
  rw [tree_setHandle]
  exact hserves.file

theorem tape_recording (hserves : disk.Serves side handle) (call : Call) :
    (disk.setHandle side (handle.recording call)).tape side = disk.tape side := by
  rw [tape_setHandle, hserves.tape]
  rfl

theorem change (hserves : disk.Serves side handle) (step : Contents → α × Contents) :
    (disk.change handle.location step).1 = (step (disk.contentsAt handle.location)).1 ∧
      (disk.change handle.location step).2.contentsAt handle.location
        = (step (disk.contentsAt handle.location)).2 := by
  obtain ⟨contents, hfile⟩ := hserves.file
  have hanswer := FileTree.change_answer step hfile
  have hbelow := FileTree.isOutward_eq_false (by rw [hfile]; simp)
  have hlookup := disk.tree.lookup_change handle.location handle.location step hbelow
  rw [if_pos rfl, hfile] at hlookup
  rw [contentsAt_eq hfile]
  refine ⟨?_, contentsAt_eq ?_⟩
  · obtain ⟨tree, source, dest, notes, plan⟩ := disk
    rw [Disk.change]
    split
    · rename_i hchange
      rw [hchange] at hanswer
      exact Option.some.inj hanswer
    · rename_i hchange
      rw [hchange] at hanswer
      exact absurd hanswer (by simp)
  · rw [tree_change, hlookup]
    rfl

theorem take (hserves : disk.Serves side handle) (count : Nat) :
    (disk.take side handle count).1 = ((disk.tape side).read count).1 ∧
      (disk.take side handle count).2.tape side = ((disk.tape side).read count).2 := by
  let step (contents : Contents) : Bytes × Contents :=
    (contents.slice handle.position count, contents)
  obtain ⟨hdata, hcontents⟩ := hserves.change step
  have htape : (disk.take side handle count).2.tape side
      = ⟨(disk.change handle.location step).2.contentsAt handle.location,
        handle.position + (disk.change handle.location step).1.length⟩ := tape_setHandle _ _ _
  rw [htape, hcontents, hdata, hserves.tape]
  exact ⟨hdata, rfl⟩

theorem store (hserves : disk.Serves side handle) (data : Bytes) :
    (disk.store side handle data).tape side = (disk.tape side).write data := by
  let step (contents : Contents) : Unit × Contents :=
    ((), contents.store handle.position data)
  obtain ⟨-, hcontents⟩ := hserves.change step
  have htape : (disk.store side handle data).tape side
      = ⟨(disk.change handle.location step).2.contentsAt handle.location,
        handle.position + data.length⟩ := tape_setHandle _ _ _
  rw [htape, hcontents, hserves.tape]
  rfl

end Serves

def mishap? (disk : Disk) (request : Stream.Request Side) : Option (Call × Effect) :=
  request.call?.bind fun (side, call) =>
    (disk.handle? side).bind fun handle =>
      (handle.guard.mishap call.method).map fun effect => (call, effect)

def AnswersHonestly (disk : Disk) (request : Stream.Request Side) : Prop :=
  ∀ struck ∈ disk.mishap? request, struck.2.Honest struck.1.method

/-- Nothing gets in the way of a request to an open file: no mishap, no lack of room, no position
that the system refuses, and no note that cannot be worded. -/
def StreamGoesWell (disk : Disk) (request : Stream.Request Side) : Prop :=
  (∀ struck ∈ disk.mishap? request, struck.2.Harmless struck.1) ∧
    match request with
    | .write side data =>
      ∀ handle ∈ disk.handle? side, ∀ room ∈ handle.room, data.length ≤ room
    | .seek side offset whence => ∀ handle ∈ disk.handle? side,
      (Tape.destination handle.position (disk.sizeAt handle.location) offset whence).isOk →
        (destination handle.position (disk.sizeAt handle.location) offset whence).isOk
    | .note fact => fact.isWritable = true
    | _ => True

instance (disk : Disk) : (request : Stream.Request Side) → Decidable (disk.StreamGoesWell request)
  | .write side data => inferInstanceAs (Decidable (_ ∧ ∀ handle ∈ disk.handle? side,
      ∀ room ∈ handle.room, data.length ≤ room))
  | .seek side offset whence => inferInstanceAs (Decidable (_ ∧ ∀ handle ∈ disk.handle? side,
      (Tape.destination handle.position (disk.sizeAt handle.location) offset whence).isOk →
        (destination handle.position (disk.sizeAt handle.location) offset whence).isOk))
  | .note fact => inferInstanceAs (Decidable (_ ∧ fact.isWritable = true))
  | .readInto _ _ | .read _ _ | .seekUnknown _ | .tell _ | .seekable _ =>
    inferInstanceAs (Decidable (_ ∧ True))

theorem StreamGoesWell.answersHonestly {request : Stream.Request Side}
    (hwell : disk.StreamGoesWell request) : disk.AnswersHonestly request :=
  fun struck hstruck => (hwell.1 struck hstruck).honest

/-- How a call on an open file ends: it is refused or answered at once, which keeps its tape as it
is, or it takes place. -/
theorem Serves.access {obliged : Prop} (hserves : disk.Serves side handle)
    {request : Stream.Request Side} {call : Call} (hcall : request.call? = some (side, call))
    (hhonest : disk.AnswersHonestly request) (hwell : obliged → disk.StreamGoesWell request)
    {preset : Option Int → α}
    {act : Option Nat → Option Nat → Handle → Disk → Except Fault α × Disk}
    {motive : Except Fault α → Tape → Prop}
    (hraise : ∀ fault, ¬ obliged → motive (.error fault) (disk.tape side))
    (hanswer : ∀ value, (Effect.answer value).Honest call.method → (obliged → call = .close) →
      motive (.ok (preset value)) (disk.tape side))
    (hact : ∀ limit surplus after, after.Serves side (handle.recording call) →
      after.tape side = disk.tape side → (Effect.alter limit surplus).Honest call.method →
      (obliged → (Effect.alter limit surplus).Harmless call) →
      motive (act limit surplus (handle.recording call) after).1
        ((act limit surplus (handle.recording call) after).2.tape side)) :
    motive (disk.access side call preset act).1
      ((disk.access side call preset act).2.tape side) := by
  have hrecording := hserves.recording call
  have hsame := hserves.tape_recording call
  have hstruck (effect : Effect) (hmishap : handle.guard.mishap call.method = some effect) :
      effect.Honest call.method ∧ (obliged → effect.Harmless call) := by
    have hmem : (call, effect) ∈ disk.mishap? request := by
      rw [mishap?, hcall, Option.bind_some]
      dsimp only
      rw [hserves.found, Option.bind_some, hmishap]
      rfl
    exact ⟨hhonest _ hmem, fun hobliged => (hwell hobliged).1 _ hmem⟩
  rw [access_eq hserves.found, Guard.gate_of_open hserves.isOpen]
  cases hmishap : handle.guard.mishap call.method with
  | none =>
      refine hact none none _ hrecording hsame (fun _ => rfl) fun _ => ?_
      cases call with
      | read size => exact ⟨by simp, rfl⟩
      | write size => exact fun _ hnone => absurd hnone (by simp)
      | _ => trivial
  | some effect =>
      obtain ⟨htrue, hmild⟩ := hstruck effect hmishap
      cases effect with
      | raise fault =>
          dsimp only
          rw [hsame]
          exact hraise fault hmild
      | answer value =>
          dsimp only
          rw [hsame]
          exact hanswer value htrue hmild
      | alter limit surplus => exact hact limit surplus _ hrecording hsame htrue hmild

theorem destination_eq_ok {position size target : Nat} {offset whence : Int}
    (hgranted : destination position size offset whence = .ok target) :
    Tape.destination position size offset whence = .ok target := by
  rw [destination] at hgranted
  split at hgranted
  · exact absurd hgranted (by simp)
  split at hgranted
  · exact absurd hgranted (by simp)
  split at hgranted
  · rename_i reached hreached
    split at hgranted
    · exact absurd hgranted (by simp)
    · rw [hreached, ← Except.ok.inj hgranted]
  · exact absurd hgranted (by simp)

def Handle.ability (handle : Handle) : Ability := ⟨true, true, handle.seekable, none⟩

theorem atMost_le (limit : Option Nat) (count : Nat) : atMost limit count ≤ count := by
  cases limit with
  | none => exact Nat.le_refl _
  | some limit => exact Nat.min_le_right _ _

theorem read_zero (tape : Tape) : tape.read 0 = ([], tape) := by
  have hslice : tape.contents.slice tape.position 0 = [] := by
    rw [Contents.slice_eq, List.take_zero]
  rw [Tape.read, hslice]
  rfl

section Conduct

variable {ability : Side → Ability} {obliged : Prop} {tapes : Side → Tape}

theorem update_tape (htapes : tapes side = disk.tape side) :
    update tapes side (disk.tape side) = tapes := by
  rw [← htapes, Function.update_eq_self]

theorem atMost_pos {limit : Option Nat} {count : Nat} (hlimit : limit ≠ some 0)
    (hcount : 0 < count) : 0 < atMost limit count := by
  cases limit with
  | none => exact hcount
  | some limit =>
      have hsome : limit ≠ 0 := fun hzero => hlimit (congrArg some hzero)
      simp only [atMost]
      omega

theorem atMost_eq {limit : Option Nat} {count : Nat} (hlimit : ∀ bound ∈ limit, count ≤ bound) :
    atMost limit count = count := by
  cases limit with
  | none => rfl
  | some limit => exact Nat.min_eq_right (hlimit limit rfl)

variable (hserves : disk.Serves side handle) (htapes : tapes side = disk.tape side)

include hserves htapes

theorem conduct_readInto (size : Nat) (hhonest : disk.AnswersHonestly (.readInto side size))
    (hwell : obliged → disk.StreamGoesWell (.readInto side size)) :
    conduct ability obliged (.readInto side size) tapes
      (disk.answerStream (.readInto side size)).1
      (update tapes side ((disk.answerStream (.readInto side size)).2.tape side)) := by
  refine hserves.access (motive := fun answer tape =>
    conduct ability obliged (.readInto side size) tapes answer (update tapes side tape))
    rfl hhonest hwell ?_ ?_ ?_
  · intro fault hrefused
    exact ⟨update_tape htapes, fun hobliged => absurd hobliged hrefused⟩
  · intro value hnothing hclosed
    refine ⟨⟨0, Nat.zero_le _, ?_, ?_, ?_⟩, fun hobliged => absurd (hclosed hobliged) (by simp)⟩
    · rw [read_zero]
    · cases value with
      | none => exact .inr ⟨rfl, rfl⟩
      | some value => exact .inl (congrArg some hnothing)
    · rw [htapes, read_zero]
  · intro limit surplus after hafter htape _ hharmless
    obtain ⟨hdata, htaken⟩ := hafter.take (atMost limit size)
    rw [htape, ← htapes] at hdata htaken
    refine ⟨⟨atMost limit size, atMost_le limit size, hdata, .inl rfl, ?_⟩, fun hobliged _ => ?_⟩
    · dsimp only
      rw [htaken]
    · refine ⟨_, rfl, fun hsize hahead => ?_⟩
      dsimp only
      rw [hdata]
      exact Tape.read_ne_nil _ (atMost_pos (hharmless hobliged).1 hsize) hahead

theorem conduct_read (size : Nat) (hhonest : disk.AnswersHonestly (.read side size))
    (hwell : obliged → disk.StreamGoesWell (.read side size)) :
    conduct ability obliged (.read side size) tapes
      (disk.answerStream (.read side size)).1
      (update tapes side ((disk.answerStream (.read side size)).2.tape side)) := by
  refine hserves.access (motive := fun answer tape =>
    conduct ability obliged (.read side size) tapes answer (update tapes side tape))
    rfl hhonest hwell ?_ ?_ ?_
  · intro fault hrefused
    exact ⟨update_tape htapes, fun hobliged => absurd hobliged hrefused⟩
  · intro value _ hclosed
    refine ⟨?_, fun hobliged => absurd (hclosed hobliged) (by simp)⟩
    cases value with
    | none => exact update_tape htapes
    | some value =>
        refine ⟨0, Nat.zero_le _, ?_, ?_⟩
        · rw [read_zero]
        · rw [htapes, read_zero]
  · intro limit surplus after hafter htape hmodest hharmless
    obtain rfl : surplus = none := hmodest rfl
    obtain ⟨hdata, htaken⟩ := hafter.take (atMost limit size)
    rw [htape, ← htapes] at hdata htaken
    refine ⟨⟨atMost limit size, atMost_le limit size, hdata, ?_⟩, fun hobliged _ => ?_⟩
    · dsimp only
      rw [htaken]
    · refine ⟨_, rfl, fun hsize hahead => ?_⟩
      dsimp only
      rw [Option.getD_some, hdata]
      exact Tape.read_ne_nil _ (atMost_pos (hharmless hobliged).1 hsize) hahead

theorem conduct_write (data : Bytes) (hhonest : disk.AnswersHonestly (.write side data))
    (hwell : obliged → disk.StreamGoesWell (.write side data)) :
    conduct ability obliged (.write side data) tapes
      (disk.answerStream (.write side data)).1
      (update tapes side ((disk.answerStream (.write side data)).2.tape side)) := by
  refine hserves.access (motive := fun answer tape =>
    conduct ability obliged (.write side data) tapes answer (update tapes side tape))
    rfl hhonest hwell ?_ ?_ ?_
  · intro fault hrefused
    exact ⟨update_tape htapes, fun hobliged => absurd hobliged hrefused⟩
  · intro value hnothing hclosed
    refine ⟨⟨0, Nat.zero_le _, ?_, ?_⟩, fun hobliged => absurd (hclosed hobliged) (by simp)⟩
    · cases value with
      | none => exact .inr ⟨rfl, rfl⟩
      | some value => exact .inl (congrArg some hnothing)
    · rw [List.take_zero, Tape.write_nil, htapes]
  · intro limit surplus after hafter htape _ hharmless
    have hstored := hafter.store (Bytes.first data (atMost limit (atMost handle.room data.length)))
    rw [htape, ← htapes] at hstored
    have hcount := Nat.le_trans (atMost_le limit (atMost handle.room data.length))
      (atMost_le handle.room data.length)
    refine ⟨⟨_, hcount, .inl rfl, ?_⟩, fun hobliged _ => ?_⟩
    · rw [← Bytes.first_eq]
      exact congrArg (update tapes side) hstored
    · have hroom := (hwell hobliged).2 handle hserves.found
      have hwhole : atMost limit (atMost handle.room data.length) = data.length := by
        rw [atMost_eq hroom, atMost_eq (hharmless hobliged)]
      exact congrArg (fun count : Nat => Except.ok (some (count : Int))) hwhole

theorem conduct_seekUnknown (hhonest : disk.AnswersHonestly (.seekUnknown side))
    (hwell : obliged → disk.StreamGoesWell (.seekUnknown side)) :
    conduct ability obliged (.seekUnknown side) tapes
      (disk.answerStream (.seekUnknown side)).1
      (update tapes side ((disk.answerStream (.seekUnknown side)).2.tape side)) := by
  refine hserves.access (motive := fun answer tape =>
    conduct ability obliged (.seekUnknown side) tapes answer (update tapes side tape))
    rfl hhonest hwell ?_ ?_ ?_
  · intro fault _
    exact ⟨update_tape htapes, fun _ => trivial⟩
  · intro value _ _
    exact ⟨update_tape htapes, fun _ => trivial⟩
  · intro limit surplus after _ htape _ _
    exact ⟨(congrArg (update tapes side) htape).trans (update_tape htapes), fun _ => trivial⟩

variable (hability : ability side = handle.ability)

include hability

theorem conduct_seek (offset whence : Int)
    (hhonest : disk.AnswersHonestly (.seek side offset whence))
    (hwell : obliged → disk.StreamGoesWell (.seek side offset whence)) :
    conduct ability obliged (.seek side offset whence) tapes
      (disk.answerStream (.seek side offset whence)).1
      (update tapes side ((disk.answerStream (.seek side offset whence)).2.tape side)) := by
  refine hserves.access (motive := fun answer tape =>
    conduct ability obliged (.seek side offset whence) tapes answer (update tapes side tape))
    rfl hhonest hwell ?_ ?_ ?_
  · intro fault hrefused
    exact ⟨update_tape htapes, fun hobliged => absurd hobliged hrefused⟩
  · intro value hlie _
    exact absurd hlie (by simp [Effect.Honest, Call.method])
  · intro limit surplus after hafter htape _ _
    have hstay : update tapes side (after.tape side) = tapes := by rw [htape, update_tape htapes]
    have hplace := hafter.tape.symm.trans (htape.trans htapes.symm)
    have hcontents := congrArg Tape.contents hplace
    have hposition := congrArg Tape.position hplace
    dsimp only at hcontents hposition
    split
    · split
      · rename_i target htarget
        refine ⟨⟨target, ?_, ?_⟩, fun _ _ _ _ => rfl⟩
        · rw [← hcontents, ← hposition, ← sizeAt_eq]
          exact destination_eq_ok htarget
        · refine congrArg (update tapes side) ((tape_setHandle _ _ _).trans ?_)
          rw [hcontents]
          rfl
      · rename_i fault hrefused
        refine ⟨hstay, fun hobliged _ _ hallowed => ?_⟩
        have hgranted := (hwell hobliged).2 handle hserves.found
        have hsize : after.sizeAt (handle.recording (.seek offset whence)).location
            = (tapes side).contents.size := by rw [sizeAt_eq, hcontents]
        rw [hsize, htapes, hserves.tape] at hrefused
        rw [htapes, hserves.tape] at hallowed
        rw [sizeAt_eq] at hgranted
        have hdone := (congrArg Except.isOk hrefused).symm.trans (hgranted hallowed)
        exact absurd hdone (by simp [Except.isOk, Except.toBool])
    · rename_i hfixed
      refine ⟨hstay, fun _ hmovable => absurd ?_ hfixed⟩
      rwa [hability] at hmovable

theorem conduct_tell (hhonest : disk.AnswersHonestly (.tell side))
    (hwell : obliged → disk.StreamGoesWell (.tell side)) :
    conduct ability obliged (.tell side) tapes
      (disk.answerStream (.tell side)).1
      (update tapes side ((disk.answerStream (.tell side)).2.tape side)) := by
  refine hserves.access (motive := fun answer tape =>
    conduct ability obliged (.tell side) tapes answer (update tapes side tape))
    rfl hhonest hwell ?_ ?_ ?_
  · intro fault hrefused
    exact ⟨update_tape htapes, fun hobliged => absurd hobliged hrefused⟩
  · intro value hlie _
    exact absurd hlie (by simp [Effect.Honest, Call.method])
  · intro limit surplus after hafter htape _ _
    have hstay : update tapes side (after.tape side) = tapes := by rw [htape, update_tape htapes]
    have hposition : (handle.recording .tell).position = (tapes side).position := by
      rw [htapes, hserves.tape]
      rfl
    split
    · exact ⟨⟨congrArg (fun position : Nat => some (position : Int)) hposition, hstay⟩,
        fun _ _ => congrArg (fun position : Nat => Except.ok (some (position : Int))) hposition⟩
    · rename_i hfixed
      refine ⟨hstay, fun _ hmovable => absurd ?_ hfixed⟩
      rwa [hability] at hmovable

theorem conduct_seekable (hhonest : disk.AnswersHonestly (.seekable side))
    (hwell : obliged → disk.StreamGoesWell (.seekable side)) :
    conduct ability obliged (.seekable side) tapes
      (disk.answerStream (.seekable side)).1
      (update tapes side ((disk.answerStream (.seekable side)).2.tape side)) := by
  refine hserves.access (motive := fun answer tape =>
    conduct ability obliged (.seekable side) tapes answer (update tapes side tape))
    rfl hhonest hwell ?_ ?_ ?_
  · intro fault hrefused
    exact ⟨update_tape htapes, fun hobliged => absurd hobliged hrefused⟩
  · intro value _ hclosed
    exact ⟨update_tape htapes, fun hobliged => absurd (hclosed hobliged) (by simp)⟩
  · intro limit surplus after _ htape _ _
    refine ⟨(congrArg (update tapes side) htape).trans (update_tape htapes), fun _ => ?_⟩
    have hmovable : (ability side).movable = handle.seekable := by
      rw [hability]
      rfl
    exact congrArg Except.ok hmovable.symm

/-- An open file answers as a truthful stream if its mishaps are honest, and as an obliging one if
all goes well. -/
theorem conduct_answerStream {request : Stream.Request Side} {call : Call}
    (hcall : request.call? = some (side, call)) (hhonest : disk.AnswersHonestly request)
    (hwell : obliged → disk.StreamGoesWell request) :
    conduct ability obliged request tapes (disk.answerStream request).1
      (update tapes side ((disk.answerStream request).2.tape side)) := by
  cases request with
  | readInto side size =>
      obtain ⟨rfl, -⟩ := Prod.mk.inj (Option.some.inj hcall)
      exact conduct_readInto hserves htapes size hhonest hwell
  | read side size =>
      obtain ⟨rfl, -⟩ := Prod.mk.inj (Option.some.inj hcall)
      exact conduct_read hserves htapes size hhonest hwell
  | write side data =>
      obtain ⟨rfl, -⟩ := Prod.mk.inj (Option.some.inj hcall)
      exact conduct_write hserves htapes data hhonest hwell
  | seek side offset whence =>
      obtain ⟨rfl, -⟩ := Prod.mk.inj (Option.some.inj hcall)
      exact conduct_seek hserves htapes hability offset whence hhonest hwell
  | seekUnknown side =>
      obtain ⟨rfl, -⟩ := Prod.mk.inj (Option.some.inj hcall)
      exact conduct_seekUnknown hserves htapes hhonest hwell
  | tell side =>
      obtain ⟨rfl, -⟩ := Prod.mk.inj (Option.some.inj hcall)
      exact conduct_tell hserves htapes hability hhonest hwell
  | seekable side =>
      obtain ⟨rfl, -⟩ := Prod.mk.inj (Option.some.inj hcall)
      exact conduct_seekable hserves htapes hability hhonest hwell
  | note fact => exact absurd hcall (by simp [Stream.Request.call?])

omit hserves htapes hability in
theorem conduct_note {fact : Note} (hwell : obliged → disk.StreamGoesWell (.note fact)) :
    conduct ability obliged (.note fact) tapes (disk.answerStream (.note fact)).1 tapes := by
  refine ⟨rfl, fun hobliged => ?_⟩
  have hwritable : fact.isWritable = true := (hwell hobliged).2
  have hkept : (fact.keep disk.notes).1 = .ok () := by rw [Note.keep, if_pos hwritable]
  exact hkept

end Conduct

end Disk

end RomImage
