import RomImage.Proofs.Requests
import RomImage.Proofs.Scratch
import RomImage.Proofs.Stream.Evenly
import RomImage.Rule

/-!
# How transfers fail

A transfer fails because a stream did not do its part, because it was set up wrongly, or because a
fault came through. Layouts are made of transfers and fail in the same ways, whatever the streams
answer (`Rule.lay_failsOnly`). That an image is too large is no such failure: only the rule itself
says so.

Some failures are over what a transfer or a layout was given: a count, a value of a byte, or a part
of a specification (`Misuse.OfGiven`). Where all of this is sound, there are none of them.
-/

namespace RomImage

inductive Misuse.OfGiven : Misuse → Prop
  | negativeCount (count : Int) : OfGiven (.negativeCount count)
  | fillOutOfRange (value : Int) : OfGiven (.fillOutOfRange value)
  | missingTarget (kind : Kind) : OfGiven (.missingTarget kind)
  | missingLead : OfGiven .missingLead
  | missingPatch : OfGiven .missingPatch
  | unknownSize : OfGiven .unknownSize

/-- The failures of transfers. Where what is given is sound, none is over that. -/
inductive Failure.OfTransfer (sound : Prop) : Failure → Prop
  | shortRead (name detail : String) : OfTransfer sound (.build (.shortRead name detail))
  | shortWrite (name detail : String) : OfTransfer sound (.build (.shortWrite name detail))
  | seekFailure (name detail : String) : OfTransfer sound (.build (.seekFailure name detail))
  | misuse {cause : Misuse} (hcause : cause.OfGiven → ¬ sound) : OfTransfer sound (.misuse cause)
  | fault (cause : Fault) : OfTransfer sound (.fault cause)

/-- The size of a buffer is given to no step. -/
theorem Misuse.IsBufferSize.not_ofGiven {cause : Misuse} (hcause : cause.IsBufferSize) :
    ¬ cause.OfGiven := by
  rintro ⟨⟩ <;> exact nomatch hcause

/-- Where there is no buffer, it was set up wrongly or there is no memory for it. -/
theorem Scratch.ofTransfer_of_buffer [Machine] {sound : Prop} {scratch : Scratch}
    {failure : Failure}
    (hbuffer : scratch.buffer = .error failure) : failure.OfTransfer sound := by
  cases scratch with
  | ready buffer => exact absurd hbuffer (by simp [Scratch.buffer])
  | pending setting =>
      have hallots := allots_pending setting
      rw [hbuffer] at hallots
      cases hallots with
      | refused hcause => exact .misuse fun hgiven => absurd hgiven hcause.not_ofGiven
      | noRoom hasks hcount hfault => exact .fault _

namespace Task

variable {I J : Interface} {α β τ : Type} {kind : Failure → Prop}

def anyAnswer : Conduct I Unit := fun _ _ _ _ => True

def Yields (good : α → Prop) (kind : Failure → Prop) (task : Task I α) : Prop :=
  ∀ scratch, task.Ensures anyAnswer scratch () (fun value _ _ => good value)
    (fun failure _ _ => kind failure)

def FailsOnly (kind : Failure → Prop) (task : Task I α) : Prop :=
  ∀ scratch, task.Ensures anyAnswer scratch () (fun _ _ _ => True) (fun failure _ _ => kind failure)

namespace Yields

variable {good : α → Prop} {good' : β → Prop}

theorem pure {value : α} (hgood : good value) : (pure value : Task I α).Yields good kind :=
  fun _ => hgood

theorem fail {failure : Failure} (hkind : kind failure) :
    (fail failure : Task I α).Yields good kind :=
  fun _ => hkind

theorem bind {task : Task I α} {f : α → Task I β} (htask : task.Yields good kind)
    (hnext : ∀ value, good value → (f value).Yields good' kind) :
    (task >>= f).Yields good' kind :=
  fun scratch => (htask scratch).bind fun value scratch' _ hgood => hnext value hgood scratch'

theorem ask {r : I.Request} {f : I.Answer r → Task I α}
    (hnext : ∀ answer, (f answer).Yields good kind) : (Task.request r >>= f).Yields good kind :=
  fun scratch answer _ _ => hnext answer scratch

theorem attempt_bind {task : Task I α} {f : Except Failure α → Task I β}
    (htask : task.Yields good kind) (hok : ∀ value, good value → (f (.ok value)).Yields good' kind)
    (herror : ∀ failure, kind failure → (f (.error failure)).Yields good' kind) :
    (task.attempt >>= f).Yields good' kind := by
  intro scratch
  refine (htask scratch).attempt.bind ?_
  rintro outcome scratch' _ houtcome
  cases outcome with
  | ok value => exact hok value houtcome scratch'
  | error failure => exact herror failure houtcome scratch'

theorem rephrase {say : I.Request → J.Request}
    {back : (r : I.Request) → J.Answer (say r) → I.Answer r} {task : Task I α}
    (htask : task.Yields good kind) : (Task.rephrase say back task).Yields good kind :=
  fun scratch => (htask scratch).rephrase fun _ _ _ _ _ => trivial

theorem route {steer : (r : I.Request) → τ → Dialogue.Route I J τ r} {task : Task I α}
    (htask : task.Yields good kind) (kept : τ) :
    (Task.route steer kept task).Yields good kind := by
  have hsteer (r : I.Request) (kept : τ) (state : Unit) :
      (steer r kept).Follows anyAnswer anyAnswer (fun _ _ => ()) kept state := by
    cases steer r kept with
    | kept answer kept' => trivial
    | passed request back kept' => exact fun _ _ _ => trivial
  intro scratch
  refine ((htask scratch).route (fun _ _ => ()) hsteer).mono ?_ ?_
  · rintro value _ _ ⟨_, hgood⟩
    exact hgood
  · rintro failure _ _ ⟨_, hkind⟩
    exact hkind

/-- A run of the task ends so. -/
theorem run {task : Task I α} (htask : task.Yields good kind)
    (answer : (r : I.Request) → τ → I.Answer r × τ) (scratch : Scratch) (state : τ) :
    (∃ value, ((task scratch).run answer state).1.1 = .ok value ∧ good value) ∨
      ∃ failure, ((task scratch).run answer state).1.1 = .error failure ∧ kind failure := by
  obtain ⟨value, _, _, hrun, hgood⟩ | ⟨failure, _, _, hrun, hkind⟩ :=
    (htask scratch).run (fun _ => ()) (fun _ => True) (fun _ _ _ => ⟨trivial, trivial⟩) state
      trivial
  · exact .inl ⟨value, congrArg (·.1.1) hrun, hgood⟩
  · exact .inr ⟨failure, congrArg (·.1.1) hrun, hkind⟩

end Yields

namespace FailsOnly

theorem pure (value : α) : (pure value : Task I α).FailsOnly kind :=
  fun _ => trivial

theorem fail {failure : Failure} (hkind : kind failure) :
    (fail failure : Task I α).FailsOnly kind :=
  fun _ => hkind

theorem ofExcept_mapError {ε : Type} {rename : ε → Failure} (hkind : ∀ error, kind (rename error))
    (outcome : Except ε α) : (ofExcept (outcome.mapError rename) : Task I α).FailsOnly kind := by
  cases outcome with
  | ok value => exact pure value
  | error error => exact fail (hkind error)

theorem buffer [Machine] {sound : Prop} :
    (Task.buffer : Task I Buffer).FailsOnly (Failure.OfTransfer sound) := by
  intro scratch
  rw [Task.Ensures, Task.buffer]
  split
  · trivial
  · rename_i hbuffer
    exact Scratch.ofTransfer_of_buffer hbuffer

theorem setBuffer (buffer : Buffer) : (setBuffer buffer : Task I Unit).FailsOnly kind :=
  fun _ => trivial

theorem bind {task : Task I α} {f : α → Task I β} (htask : task.FailsOnly kind)
    (hnext : ∀ value, (f value).FailsOnly kind) : (task >>= f).FailsOnly kind :=
  Yields.bind htask fun value _ => hnext value

theorem ask {r : I.Request} {f : I.Answer r → Task I α}
    (hnext : ∀ answer, (f answer).FailsOnly kind) : (Task.request r >>= f).FailsOnly kind :=
  Yields.ask hnext

theorem mono {wider : Failure → Prop} {task : Task I α} (htask : task.FailsOnly kind)
    (hwider : ∀ failure, kind failure → wider failure) : task.FailsOnly wider :=
  fun scratch => (htask scratch).bad_mono fun failure _ _ => hwider failure

theorem route {steer : (r : I.Request) → τ → Dialogue.Route I J τ r} {task : Task I α}
    (htask : task.FailsOnly kind) (kept : τ) : (Task.route steer kept task).FailsOnly kind :=
  Yields.route htask kept

/-- A run of the task fails in no other way. -/
theorem run {task : Task I α} (htask : task.FailsOnly kind)
    {answer : (r : I.Request) → τ → I.Answer r × τ} {scratch : Scratch} {state : τ}
    {failure : Failure} (hfailed : ((task scratch).run answer state).1.1 = .error failure) :
    kind failure := by
  obtain ⟨_, hrun, -⟩ | ⟨_, hrun, hkind⟩ := Yields.run htask answer scratch state
  · exact absurd (hfailed.symm.trans hrun) (by simp)
  · exact Except.error.inj (hrun.symm.trans hfailed) ▸ hkind

end FailsOnly

end Task

namespace Stream

variable {ι : Type} {sound : Prop} {source dest : Channel ι}

theorem readFailure_ofTransfer (source : Channel ι) (fault : Fault) :
    (readFailure source fault).OfTransfer sound := by
  rw [readFailure]
  split
  · exact .shortRead _ _
  · exact .fault _

theorem writeFailure_ofTransfer (dest : Channel ι) (fault : Fault) :
    (writeFailure dest fault).OfTransfer sound := by
  rw [writeFailure]
  split
  · exact .shortWrite _ _
  · exact .fault _

theorem seekFailure_ofTransfer (stream : Channel ι) (fault : Fault) :
    (seekFailure stream fault).OfTransfer sound := by
  rw [seekFailure]
  split
  · exact .seekFailure _ _
  · exact .fault _

theorem shortWrite_ofTransfer (dest : Channel ι) (written : Int) (offered : Nat) :
    (shortWrite dest written offered).OfTransfer sound := by
  unfold shortWrite
  cases Text.decimal? written with
  | some digits => exact .shortWrite _ _
  | none => exact .misuse nofun

theorem note_failsOnly (fact : Note) :
    (note fact : Work ι Unit).FailsOnly (Failure.OfTransfer sound) :=
  .ask fun _ => .ofExcept_mapError Failure.OfTransfer.fault _

theorem writeAll_failsOnly (data : Bytes) :
    (writeAll dest data).FailsOnly (Failure.OfTransfer sound) := by
  refine .ask fun answer => ?_
  obtain fault | _ | written := answer
  · exact .fail (writeFailure_ofTransfer dest fault)
  · exact .fail (shortWrite_ofTransfer dest _ _)
  · dsimp only
    split
    · exact .fail (shortWrite_ofTransfer dest _ _)
    · exact .pure ()

theorem storeFront_failsOnly [Machine] (data : Bytes) :
    (storeFront data : Work ι Unit).FailsOnly (Failure.OfTransfer sound) :=
  .bind .buffer fun _ => .setBuffer _

theorem readChunk_failsOnly [Machine] (want : Nat) :
    (readChunk source want).FailsOnly (Failure.OfTransfer sound) := by
  rw [readChunk]
  split
  · refine .ask fun answer => ?_
    cases answer with
    | error fault => exact .fail (readFailure_ofTransfer source fault)
    | ok delivery => exact .bind (storeFront_failsOnly _) fun _ => .pure _
  · refine .ask fun answer => ?_
    obtain fault | _ | data := answer
    · exact .fail (readFailure_ofTransfer source fault)
    · exact .pure 0
    · dsimp only
      split
      · exact .fail (.misuse nofun)
      · exact .bind (storeFront_failsOnly _) fun _ => .pure _

theorem copyChunk_failsOnly [Machine] (want : Nat) :
    (copyChunk source dest want).FailsOnly (Failure.OfTransfer sound) := by
  refine .bind (readChunk_failsOnly want) fun got => ?_
  split
  · exact .fail (.shortRead _ _)
  · exact .bind .buffer fun _ => .bind (writeAll_failsOnly _) fun _ => .pure got

theorem copyRounds_failsOnly [Machine] (span rounds : Nat) (remaining : Int) :
    (copyRounds source dest span rounds remaining).FailsOnly (Failure.OfTransfer sound) := by
  induction rounds generalizing remaining with
  | zero =>
      rw [copyRounds]
      split
      · exact .pure ()
      · exact .fail (.misuse nofun)
  | succ rounds ih =>
      rw [copyRounds]
      split
      · exact .pure ()
      · exact .bind (copyChunk_failsOnly _) fun got => ih _

theorem copy_failsOnly [Machine] {count : Int} (hcount : sound → 0 ≤ count) :
    (copy source dest count).FailsOnly (Failure.OfTransfer sound) := by
  rw [copy]
  split
  · rename_i hnegative
    exact .fail (.misuse fun _ hsound => absurd (hcount hsound) (Int.not_le.mpr hnegative))
  split
  · exact .pure ()
  · exact .bind .buffer fun _ =>
      .bind (copyRounds_failsOnly _ _ _) fun _ => note_failsOnly _

theorem writeTimes_failsOnly (chunk : Bytes) (times : Nat) :
    (writeTimes dest chunk times).FailsOnly (Failure.OfTransfer sound) := by
  induction times with
  | zero => exact .pure ()
  | succ times ih => exact .bind (writeAll_failsOnly chunk) fun _ => ih

theorem fill_failsOnly [Machine] {value count : Int} (hvalue : sound → 0 ≤ value ∧ value ≤ 255)
    (hcount : sound → 0 ≤ count) :
    (fill dest value count).FailsOnly (Failure.OfTransfer sound) := by
  rw [fill_eq_fillEvenly, fillEvenly]
  split
  · rename_i houtside
    refine .fail (.misuse fun _ hsound => ?_)
    have hbyte := hvalue hsound
    omega
  split
  · rename_i hnegative
    exact .fail (.misuse fun _ hsound => absurd (hcount hsound) (Int.not_le.mpr hnegative))
  split
  · exact .pure ()
  refine .bind .buffer fun buffer => ?_
  dsimp only
  split
  · exact .bind (writeTimes_failsOnly _ _) fun _ => .fail (.misuse fun hgiven => by cases hgiven)
  · refine .bind (storeFront_failsOnly _) fun _ => .bind (writeTimes_failsOnly _ _) fun _ => ?_
    split
    · exact .bind (writeAll_failsOnly _) fun _ => note_failsOnly _
    · exact note_failsOnly _

section Position

variable (stream : Channel ι)

theorem position_failsOnly : (position stream).FailsOnly (Failure.OfTransfer sound) :=
  .ask fun _ => .ofExcept_mapError (seekFailure_ofTransfer stream) _

theorem move_failsOnly (offset whence : Int) :
    (move stream offset whence).FailsOnly (Failure.OfTransfer sound) :=
  .ask fun _ => .ofExcept_mapError (seekFailure_ofTransfer stream) _

theorem moveTo_failsOnly (offset whence : Int) :
    (moveTo stream offset whence).FailsOnly (Failure.OfTransfer sound) :=
  .bind (move_failsOnly stream offset whence) fun _ => position_failsOnly stream

theorem moveBack_failsOnly (start : Option Int) :
    (moveBack stream start).FailsOnly (Failure.OfTransfer sound) := by
  cases start with
  | some start => exact move_failsOnly stream start fromStart
  | none => exact .ask fun _ => .ofExcept_mapError (seekFailure_ofTransfer stream) _

theorem measure_failsOnly : (measure stream).FailsOnly (Failure.OfTransfer sound) := by
  refine .bind (position_failsOnly stream) fun start => ?_
  refine .bind (move_failsOnly stream 0 fromEnd) fun _ => ?_
  refine .bind (position_failsOnly stream) fun size => ?_
  exact .bind (moveBack_failsOnly stream start) fun _ => .pure size

theorem canMove_failsOnly : (canMove stream).FailsOnly (Failure.OfTransfer sound) := by
  rw [canMove]
  split
  · refine .ask fun answer => ?_
    cases answer with
    | ok yes => exact .pure yes
    | error fault =>
        dsimp only
        split
        · exact .pure false
        · exact .fail (.fault fault)
  · exact .pure false

end Position

end Stream

open RomImage.Stream

def Layout.Finds : Layout → Spec → Prop
  | .padded, _ => True
  | .led, spec => spec.lead.isSome
  | .patched, spec => spec.patch.isSome

namespace Rule

variable {ι : Type} {sound : Prop} (rule : Rule) (source dest : Channel ι) {size : Int}

theorem layImage_failsOnly [Machine] (hsize : sound → 0 ≤ size ∧ size ≤ rule.targetSize) :
    (rule.layImage source dest size).FailsOnly (Failure.OfTransfer sound) := by
  refine .bind (copy_failsOnly fun hsound => (hsize hsound).1) fun _ => ?_
  exact fill_failsOnly (fun _ => by decide) fun hsound => Int.sub_nonneg.mpr (hsize hsound).2

theorem layPatch_failsOnly (hpatch : sound → rule.spec.patch.isSome) :
    (rule.layPatch dest).FailsOnly (Failure.OfTransfer sound) := by
  rw [layPatch]
  split
  · rename_i hnone
    exact .fail (.misuse fun _ hsound => absurd (hpatch hsound) (by simp [hnone]))
  · refine .bind (moveTo_failsOnly dest _ _) fun _ => .bind (writeAll_failsOnly _) fun _ => ?_
    exact .bind (moveTo_failsOnly dest _ _) fun _ => note_failsOnly _

/-- A layout fails as transfers do. Where the specification has its part and the image fits into the
target size, no count is negative, no value of a fill is outside a byte, and nothing is missing. -/
theorem lay_failsOnly [Machine] (hfinds : sound → rule.layout.Finds rule.spec)
    (hsize : sound → 0 ≤ size ∧ size ≤ rule.targetSize) :
    (rule.lay source dest size).FailsOnly (Failure.OfTransfer sound) := by
  rw [lay]
  cases hlayout : rule.layout with
  | padded => exact rule.layImage_failsOnly source dest hsize
  | led =>
      rw [hlayout] at hfinds
      dsimp only
      split
      · rename_i hnone
        exact .fail (.misuse fun _ hsound => absurd (hfinds hsound) (by simp [Layout.Finds, hnone]))
      · rename_i lead _
        have hfill := lead.fill.toNat_lt
        refine .bind (fill_failsOnly (fun _ => ?_) fun _ => Int.natCast_nonneg _) fun _ => ?_
        · omega
        · exact rule.layImage_failsOnly source dest hsize
  | patched =>
      rw [hlayout] at hfinds
      refine .bind (canMove_failsOnly dest) fun moves => ?_
      split
      · refine .bind (rule.layImage_failsOnly source dest hsize) fun _ => ?_
        exact rule.layPatch_failsOnly dest hfinds
      · refine .bind (note_failsOnly _) fun _ => .route ?_ Tape.empty
        refine .bind (rule.layImage_failsOnly _ _ hsize) fun _ => ?_
        refine .bind (rule.layPatch_failsOnly _ hfinds) fun _ => .bind (move_failsOnly _ _ _) ?_
        exact fun _ => copy_failsOnly fun _ => Int.natCast_nonneg _

end Rule

end RomImage
