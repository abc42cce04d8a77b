import RomImage.Proofs.Heeds
import RomImage.Proofs.Stream.Requests

/-!
# What a failed call amounts to

The same few transfers run on the source, on the destination and on the tape in memory.
`Request.failure?` says for each call of them what its answer amounts to: an error that names the
stream of the call, or the fault itself where nothing catches it. The transfers, the layouts and the
rules heed it, and no call to a stream is made after one that failed.

Two channels may share a stream and differ in its name, so the verdict takes any of the names that
go with the stream. The tape in memory answers for itself and fails under the name of a stream that
has none.
-/

namespace RomImage

namespace Stream

variable {ι α : Type} {names : ι → String → Prop}

/-- The failure for a fault: an error, if the fault is caught, and the fault itself otherwise. -/
def ofFault (caught : Fault → Bool) (error : String → BuildError) (fault : Fault) : Failure :=
  if caught fault then .build (error fault.reason) else .fault fault

/-- The failure of a write that took too little. A count of too many digits cannot be reported. -/
def ofCount (name : String) (count : Int) (offered : Nat) : Failure :=
  match Text.decimal? count with
  | some digits => .build (.shortWrite name s!"short write ({digits} of {offered} bytes)")
  | none => .misuse .unprintableNumber

/-- A count that can be written is reported as a short write. -/
theorem ofCount_eq {name : String} {count : Int} (offered : Nat)
    (hcount : count.natAbs < Nat.pow 10 Text.digitLimit) :
    ∃ detail, ofCount name count offered = .build (.shortWrite name detail) := by
  obtain ⟨digits, hdigits⟩ := Option.isSome_iff_exists.mp ((Text.isSome_decimal? count).mpr hcount)
  unfold ofCount
  rw [hdigits]
  exact ⟨_, rfl⟩

theorem ofCount_eq_misuse {name : String} {count : Int} (offered : Nat)
    (hcount : Nat.pow 10 Text.digitLimit ≤ count.natAbs) :
    ofCount name count offered = .misuse .unprintableNumber := by
  unfold ofCount
  rw [Text.decimal?_eq_none hcount]

def ofNothing (name : String) : Failure :=
  .build (.shortRead name "premature end of file.")

/-- Which failure the answer to a call amounts to, for streams of such names. A fault of asking
whether a stream can be moved is no failure if it stands for a denial. -/
def Request.failure? (name : ι → String) : (request : Request ι) → request.Answer → Option Failure
  | .readInto stream _, .error fault =>
    some (ofFault Fault.isSystem (.shortRead (name stream)) fault)
  | .readInto stream _, .ok delivery =>
    if delivery.reported.getD 0 = 0 then some (ofNothing (name stream)) else none
  | .read stream _, .error fault => some (ofFault Fault.isSystem (.shortRead (name stream)) fault)
  | .read stream _, .ok data => if data.getD [] = [] then some (ofNothing (name stream)) else none
  | .write stream _, .error fault =>
    some (ofFault Fault.isSystem (.shortWrite (name stream)) fault)
  | .write stream data, .ok none => some (ofCount (name stream) 0 data.length)
  | .write stream data, .ok (some count) =>
    if count < data.length then some (ofCount (name stream) count data.length) else none
  | .seek stream _ _, .error fault | .seekUnknown stream, .error fault
  | .tell stream, .error fault =>
    some (ofFault Fault.isSystemOrValue (.seekFailure (name stream)) fault)
  | .seek _ _ _, .ok _ | .seekUnknown _, .ok _ | .tell _, .ok _ => none
  | .seekable _, .error fault => if fault.isSystemOrValue then none else some (.fault fault)
  | .seekable _, .ok _ => none
  | .note _, .error fault => some (.fault fault)
  | .note _, .ok _ => none

/-- Only the name of its own stream matters to what a call amounts to. -/
theorem Request.failure?_congr {name name' : ι → String} {request : Request ι}
    (hsame : ∀ stream ∈ request.stream?, name stream = name' stream) (answer : request.Answer) :
    request.failure? name answer = request.failure? name' answer := by
  cases request with
  | write stream data =>
      have hname := hsame stream rfl
      obtain _ | _ | _ := answer <;> simp only [failure?, hname]
  | readInto stream | read stream | seek stream | seekUnknown stream | tell stream
  | seekable stream =>
      have hname := hsame stream rfl
      cases answer <;> simp only [failure?, hname]
  | note fact => cases answer <;> rfl

/-- Whether a call failed does not depend on names. -/
theorem Request.failure?_none {name : ι → String} (name' : ι → String) {request : Request ι}
    {answer : request.Answer} (hnone : request.failure? name answer = none) :
    request.failure? name' answer = none := by
  cases request with
  | write stream data =>
      obtain _ | _ | _ := answer <;> simp_all [failure?]
  | readInto stream | read stream | seek stream | seekUnknown stream | tell stream
  | seekable stream | note fact =>
      cases answer <;> simp_all [failure?]

def Request.Named (names : ι → String → Prop) (name : String) (request : Request ι) : Prop :=
  ∀ stream ∈ request.stream?, names stream name

theorem Request.Named.of_stream {stream : ι} {name : String} {request : Request ι}
    (hto : request.stream? = some stream) (hname : names stream name) :
    request.Named names name := by
  intro other hother
  obtain rfl : other = stream := Option.some.inj (hother.symm.trans hto)
  exact hname

theorem Request.Named.note {fact : Note} : (Request.note fact : Request ι).Named names unnamed := by
  simp [Named, stream?]

def verdict (names : ι → String → Prop) : (interface ι).Verdict := fun request answer failure =>
  ∃ name, request.Named names name ∧ request.failure? (fun _ => name) answer = some failure

/-- Where streams have one name each, there is one failure at most. -/
theorem verdict_iff {name : ι → String} {request : Request ι} {answer : request.Answer}
    {failure : Failure} : verdict (fun stream name' => name' = name stream) request answer failure ↔
      request.failure? name answer = some failure := by
  constructor
  · rintro ⟨name', hnamed, hfailed⟩
    rwa [Request.failure?_congr hnamed answer] at hfailed
  · intro hfailed
    have hnamed : ∀ stream ∈ request.stream?,
        (request.stream?.map name).getD unnamed = name stream := by
      intro stream hto
      rw [Option.mem_def.mp hto]
      rfl
    exact ⟨_, hnamed, by rwa [Request.failure?_congr hnamed answer]⟩

/-- A call, the answers to which are no failure or are followed by theirs at once, under a name of
its stream. -/
theorem heeds_ask {request : Request ι} {f : request.Answer → Work ι α} {name : String}
    (hname : request.Named names name)
    (hanswer : ∀ answer,
      request.failure? (fun _ => name) answer = none ∧ (f answer).Heeds (verdict names) ∨
        ∃ failure, request.failure? (fun _ => name) answer = some failure ∧
          ∀ buffer, ∃ scratch, f answer (.ready buffer) = .done (.error failure, scratch)) :
    (Task.request (I := interface ι) request >>= f).Heeds (verdict names) := by
  refine .ask fun answer => ?_
  obtain ⟨hnone, hgoes⟩ | ⟨failure, hfailed, hstops⟩ := hanswer answer
  · refine .inl ⟨?_, hgoes⟩
    rintro failure ⟨name', -, hfailed⟩
    rw [Request.failure?_none _ hnone] at hfailed
    exact absurd hfailed (by simp)
  · exact .inr ⟨failure, ⟨name, hname, hfailed⟩, hstops⟩

theorem shortWrite_eq (dest : Channel ι) (count : Int) (offered : Nat) :
    shortWrite dest count offered = ofCount dest.name count offered := by
  unfold shortWrite ofCount
  cases Text.decimal? count with
  | some digits => rfl
  | none => rfl

theorem note_heeds (fact : Note) : (note fact : Work ι Unit).Heeds (verdict names) := by
  refine heeds_ask .note fun answer => ?_
  cases answer with
  | ok _ => exact .inl ⟨rfl, .pure ()⟩
  | error fault => exact .inr ⟨_, rfl, fun _ => ⟨_, rfl⟩⟩

theorem writeAll_heeds {dest : Channel ι} (hname : names dest.handle dest.name) (data : Bytes) :
    (writeAll dest data).Heeds (verdict names) := by
  refine heeds_ask (.of_stream rfl hname) fun answer => ?_
  obtain fault | _ | count := answer
  · exact .inr ⟨_, rfl, fun _ => ⟨_, rfl⟩⟩
  · exact .inr ⟨_, rfl, fun _ => ⟨_, by rw [← shortWrite_eq]; rfl⟩⟩
  · rw [Request.failure?]
    dsimp only
    by_cases hless : count < data.length
    · rw [if_pos hless, if_pos hless, ← shortWrite_eq]
      exact .inr ⟨_, rfl, fun _ => ⟨_, rfl⟩⟩
    · rw [if_neg hless, if_neg hless]
      exact .inl ⟨rfl, .pure ()⟩

theorem storeFront_heeds [Machine] (data : Bytes) : (storeFront data : Work ι Unit).Heeds
    (verdict names) :=
  .bind .buffer fun _ => .setBuffer _

theorem copyChunk_heeds [Machine] {source dest : Channel ι}
    (hsource : names source.handle source.name)
    (hdest : names dest.handle dest.name) (want : Nat) :
    (copyChunk source dest want).Heeds (verdict names) := by
  have hgoes {read : Work ι Int} (hread : read.Heeds (verdict names)) : (do
      let got ← read
      if got = 0 then .fail (.build (.shortRead source.name "premature end of file."))
      else
        let buffer ← Task.buffer
        writeAll dest (buffer.upTo got)
        return got : Work ι Int).Heeds (verdict names) := by
    refine .bind hread fun got => ?_
    split
    · exact .fail _
    · exact .bind .buffer fun buffer => .bind (writeAll_heeds hdest _) fun _ => .pure got
  rw [copyChunk, readChunk]
  split
  · rw [bind_assoc]
    refine heeds_ask (.of_stream rfl hsource) fun answer => ?_
    cases answer with
    | error fault => exact .inr ⟨_, rfl, fun _ => ⟨_, rfl⟩⟩
    | ok delivery =>
        rw [Request.failure?]
        -- Nothing delivered is a failure, but only after it was stored in the buffer.
        by_cases hnone : delivery.reported.getD 0 = 0
        · rw [if_pos hnone]
          refine .inr ⟨_, rfl, fun buffer => ?_⟩
          dsimp only
          rw [hnone]
          exact ⟨_, rfl⟩
        · rw [if_neg hnone]
          exact .inl ⟨rfl, hgoes (.bind (storeFront_heeds _) fun _ => .pure _)⟩
  · rw [bind_assoc]
    refine heeds_ask (.of_stream rfl hsource) fun answer => ?_
    obtain fault | _ | data := answer
    · exact .inr ⟨_, rfl, fun _ => ⟨_, rfl⟩⟩
    · exact .inr ⟨_, rfl, fun _ => ⟨_, rfl⟩⟩
    · rw [Request.failure?]
      by_cases hnone : data = []
      · have hfits : ¬ want < ([] : Bytes).length := Nat.not_lt_zero want
        subst hnone
        refine .inr ⟨_, rfl, fun buffer => ?_⟩
        simp only [if_neg hfits]
        exact ⟨_, rfl⟩
      · refine .inl ⟨if_neg hnone, ?_⟩
        dsimp only
        split
        · exact .fail _
        · exact hgoes (.bind (storeFront_heeds _) fun _ => .pure _)

theorem copyRounds_heeds [Machine] {source dest : Channel ι}
    (hsource : names source.handle source.name)
    (hdest : names dest.handle dest.name) (span rounds : Nat) (remaining : Int) :
    (copyRounds source dest span rounds remaining).Heeds (verdict names) := by
  induction rounds generalizing remaining with
  | zero =>
      rw [copyRounds]
      split
      · exact .pure ()
      · exact .fail _
  | succ rounds ih =>
      rw [copyRounds]
      split
      · exact .pure ()
      · exact .bind (copyChunk_heeds hsource hdest _) fun got => ih _

theorem copy_heeds [Machine] {source dest : Channel ι} (hsource : names source.handle source.name)
    (hdest : names dest.handle dest.name) (count : Int) :
    (copy source dest count).Heeds (verdict names) := by
  rw [copy]
  split
  · exact .fail _
  split
  · exact .pure ()
  · refine .bind .buffer fun buffer => ?_
    exact .bind (copyRounds_heeds hsource hdest _ _ _) fun _ => note_heeds _

theorem writeTimes_heeds {dest : Channel ι} (hname : names dest.handle dest.name) (chunk : Bytes)
    (times : Nat) : (writeTimes dest chunk times).Heeds (verdict names) := by
  induction times with
  | zero => exact .pure ()
  | succ times ih => exact .bind (writeAll_heeds hname chunk) fun _ => ih

theorem fill_heeds [Machine] {dest : Channel ι} (hname : names dest.handle dest.name)
    (value count : Int) :
    (fill dest value count).Heeds (verdict names) := by
  rw [fill_eq_fillEvenly, fillEvenly]
  split
  · exact .fail _
  split
  · exact .fail _
  split
  · exact .pure ()
  refine .bind .buffer fun buffer => ?_
  dsimp only
  split
  · exact .bind (writeTimes_heeds hname _ _) fun _ => .fail _
  · refine .bind (storeFront_heeds _) fun _ => .bind (writeTimes_heeds hname _ _) fun _ => ?_
    split
    · exact .bind (writeAll_heeds hname _) fun _ => note_heeds _
    · exact note_heeds _

section Position

variable {stream : Channel ι} (hname : names stream.handle stream.name)

include hname

theorem position_heeds : (position stream).Heeds (verdict names) := by
  refine heeds_ask (.of_stream rfl hname) fun answer => ?_
  cases answer with
  | ok value => exact .inl ⟨rfl, .pure value⟩
  | error fault => exact .inr ⟨_, rfl, fun _ => ⟨_, rfl⟩⟩

theorem move_heeds (offset whence : Int) : (move stream offset whence).Heeds (verdict names) := by
  refine heeds_ask (.of_stream rfl hname) fun answer => ?_
  cases answer with
  | ok _ => exact .inl ⟨rfl, .pure ()⟩
  | error fault => exact .inr ⟨_, rfl, fun _ => ⟨_, rfl⟩⟩

theorem moveTo_heeds (offset whence : Int) : (moveTo stream offset whence).Heeds (verdict names) :=
  .bind (move_heeds hname offset whence) fun _ => position_heeds hname

theorem moveBack_heeds (start : Option Int) : (moveBack stream start).Heeds (verdict names) := by
  cases start with
  | some start => exact move_heeds hname start fromStart
  | none =>
      refine heeds_ask (.of_stream rfl hname) fun answer => ?_
      cases answer with
      | ok _ => exact .inl ⟨rfl, .pure ()⟩
      | error fault => exact .inr ⟨_, rfl, fun _ => ⟨_, rfl⟩⟩

theorem measure_heeds : (measure stream).Heeds (verdict names) := by
  refine .bind (position_heeds hname) fun start => .bind (move_heeds hname 0 fromEnd) fun _ => ?_
  refine .bind (position_heeds hname) fun size => .bind (moveBack_heeds hname start) fun _ => ?_
  exact .pure size

theorem canMove_heeds : (canMove stream).Heeds (verdict names) := by
  rw [canMove]
  split
  · refine heeds_ask (.of_stream rfl hname) fun answer => ?_
    cases answer with
    | ok yes => exact .inl ⟨rfl, .pure yes⟩
    | error fault =>
        rw [Request.failure?]
        dsimp only
        by_cases hcaught : fault.isSystemOrValue
        · rw [if_pos hcaught, if_pos hcaught]
          exact .inl ⟨rfl, .pure false⟩
        · rw [if_neg hcaught, if_neg hcaught]
          exact .inr ⟨_, rfl, fun _ => ⟨_, rfl⟩⟩
  · exact .pure false

end Position

def besideNames (names : ι → String → Prop) : Option ι → String → Prop
  | none => (· = unnamed)
  | some stream => names stream

theorem verdict_beside {request : Request (Option ι)} {passed : Request ι}
    {answer : request.Answer} {answer' : passed.Answer}
    (hto : request.stream? = passed.stream?.map some)
    (hsame : ∀ name, request.failure? (fun _ => name) answer
      = passed.failure? (fun _ => name) answer') (failure : Failure) :
    verdict (besideNames names) request answer failure ↔ verdict names passed answer' failure := by
  have hnamed (name : String) :
      request.Named (besideNames names) name ↔ passed.Named names name := by
    rw [Request.Named, Request.Named, hto]
    simp [besideNames]
  simp only [verdict, hnamed, hsame]

/-- What is passed on amounts to the same failures. -/
theorem steer_agrees [Machine] (request : Request (Option ι)) (memory : Tape) :
    (steer request memory).Agrees (verdict (besideNames names)) (verdict names) := by
  cases request with
  | note fact => exact fun answer => verdict_beside rfl fun _ => by cases answer <;> rfl
  | write stream data =>
      cases stream with
      | none =>
          rw [steer]
          cases growthFault? memory data with
          | some fault => trivial
          | none => trivial
      | some stream =>
          exact fun answer => verdict_beside rfl fun _ => by obtain _ | _ | _ := answer <;> rfl
  | seek stream offset whence =>
      cases stream with
      | none =>
          obtain ⟨contents, position⟩ := memory
          rw [steer]
          cases stagingDestination position contents.size offset whence with
          | ok target => trivial
          | error fault => trivial
      | some stream => exact fun answer => verdict_beside rfl fun _ => by cases answer <;> rfl
  | readInto stream size | read stream size | seekUnknown stream | tell stream | seekable stream =>
      cases stream with
      | none => trivial
      | some stream => exact fun answer => verdict_beside rfl fun _ => by cases answer <;> rfl

theorem staged_heeds [Machine] {work : Work (Option ι) α}
    (hwork : work.Heeds (verdict (besideNames names))) :
    (staged work).Heeds (verdict names) :=
  .route steer_agrees hwork Tape.empty

end Stream

open RomImage.Stream

namespace Rule

variable {ι : Type} {names : ι → String → Prop} {source dest : Channel ι}

section Heeds

variable (hsource : names source.handle source.name) (hdest : names dest.handle dest.name)

include hsource hdest

theorem layImage_heeds [Machine] (rule : Rule) (size : Int) :
    (rule.layImage source dest size).Heeds (verdict names) :=
  .bind (copy_heeds hsource hdest size) fun _ => fill_heeds hdest _ _

omit hsource in
theorem layPatch_heeds (rule : Rule) : (rule.layPatch dest).Heeds (verdict names) := by
  rw [layPatch]
  split
  · exact .fail _
  · rename_i patch _
    refine .bind (moveTo_heeds hdest _ _) fun _ => .bind (writeAll_heeds hdest patch.data) ?_
    exact fun _ => .bind (moveTo_heeds hdest _ _) fun _ => note_heeds _

theorem lay_heeds [Machine] (rule : Rule) (size : Int) :
    (rule.lay source dest size).Heeds (verdict names) := by
  rw [lay]
  cases rule.layout with
  | padded => exact rule.layImage_heeds hsource hdest size
  | led =>
      dsimp only
      split
      · exact .fail _
      · exact .bind (fill_heeds hdest _ _) fun _ => rule.layImage_heeds hsource hdest size
  | patched =>
      refine .bind (canMove_heeds hdest) fun moves => ?_
      split
      · refine .bind (rule.layImage_heeds hsource hdest size) fun _ => ?_
        exact rule.layPatch_heeds hdest
      · have hmemory : besideNames names (stagingChannel : Channel (Option ι)).handle
            (stagingChannel : Channel (Option ι)).name := rfl
        have hbeside {stream : Channel ι} (hname : names stream.handle stream.name) :
            besideNames names (stream.mapHandle some).handle (stream.mapHandle some).name := hname
        refine .bind (note_heeds _) fun _ => staged_heeds ?_
        refine .bind (rule.layImage_heeds (hbeside hsource) hmemory size) fun _ => ?_
        refine .bind (rule.layPatch_heeds hmemory) fun _ => .bind (move_heeds hmemory _ _) ?_
        exact fun _ => copy_heeds hmemory (hbeside hdest) _

/-- A rule heeds its calls from any scratch buffer. -/
theorem apply_heeds [Machine] (rule : Rule) (scratch : Scratch) :
    (rule.apply source dest scratch).Heeds (verdict names) := by
  refine Task.Heeds.buffer_bind (fun _ => ?_) scratch
  refine .bind (measure_heeds hsource) fun size => ?_
  split
  · exact .fail _
  split
  · exact .fail _
  · refine .bind (note_heeds _) fun _ => .bind (rule.lay_heeds hsource hdest _) fun _ => ?_
    exact .pure _

end Heeds

end Rule

end RomImage
