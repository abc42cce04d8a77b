import RomImage.Proofs.Stream.Calls
import RomImage.Proofs.Stream.Requests

/-!
# What a stream was offered

A call changes no tape but that of the stream it is addressed to. So a stream that is only written
to holds, once no call has failed, what it was offered in all its writes, one behind another
(`World.tape_logged`).
-/

namespace RomImage

namespace Stream

open Function (update)

variable {ι σ α : Type} [DecidableEq ι]

def Request.dataTo (stream : ι) : Request ι → Bytes
  | write other data => if other = stream then data else []
  | _ => []

def offeredTo (stream : ι) (calls : List (Exchange ι)) : Bytes :=
  calls.reverse.flatMap fun call => call.1.dataTo stream

theorem offeredTo_cons (stream : ι) (call : Exchange ι) (calls : List (Exchange ι)) :
    offeredTo stream (call :: calls) = offeredTo stream calls ++ call.1.dataTo stream := by
  rw [offeredTo, List.reverse_cons, List.flatMap_append, List.flatMap_singleton, ← offeredTo]

theorem Request.dataTo_of_ne {stream : ι} {request : Request ι}
    (hother : request.stream? ≠ some stream) : request.dataTo stream = [] := by
  cases request with
  | write other data => exact if_neg fun hsame => hother (congrArg some hsame)
  | _ => rfl

/-- A call leaves the tapes of all other streams. -/
theorem Truthful.tape_of_ne {request : Request ι} {tapes after : ι → Tape}
    {answer : request.Answer} (htruthful : Truthful request tapes answer after) {stream : ι}
    (hother : request.stream? ≠ some stream) : after stream = tapes stream := by
  have hupdate {changed : ι} {tape : Tape} (hchanged : some changed ≠ some stream) :
      update tapes changed tape stream = tapes stream :=
    Function.update_of_ne (fun hsame => hchanged (congrArg some hsame.symm)) _ _
  cases request with
  | readInto changed size =>
      cases answer with
      | error fault => exact congrFun htruthful stream
      | ok delivery =>
          obtain ⟨count, -, -, -, rfl⟩ := htruthful
          exact hupdate hother
  | read changed size =>
      obtain fault | _ | data := answer
      · exact congrFun htruthful stream
      · exact congrFun htruthful stream
      · obtain ⟨count, -, -, rfl⟩ := htruthful
        exact hupdate hother
  | write changed data =>
      cases answer with
      | error fault => exact congrFun htruthful stream
      | ok reported =>
          obtain ⟨count, -, -, rfl⟩ := htruthful
          exact hupdate hother
  | seek changed offset whence =>
      cases answer with
      | error fault => exact congrFun htruthful stream
      | ok _ =>
          obtain ⟨position, -, rfl⟩ := htruthful
          exact hupdate hother
  | tell changed =>
      cases answer with
      | error fault => exact congrFun htruthful stream
      | ok position => exact congrFun htruthful.2 stream
  | seekUnknown changed | seekable changed => exact congrFun htruthful stream
  | note fact => exact congrFun htruthful stream

/-- A write that did not fail was taken whole. -/
theorem Truthful.tape_write {stream : ι} {data : Bytes} {tapes after : ι → Tape}
    {answer : (Request.write stream data).Answer}
    (htruthful : Truthful (.write stream data) tapes answer after)
    (hfine : ¬ Failed (.write stream data) answer) :
    after stream = (tapes stream).write data := by
  cases answer with
  | error fault => exact absurd trivial hfine
  | ok reported =>
      obtain ⟨count, hcount, hreported, rfl⟩ := htruthful
      obtain rfl | ⟨rfl, -⟩ := hreported
      · have hwhole : ¬ (count : Int) < data.length := fun hless => hfine (.inr ⟨_, rfl, hless⟩)
        rw [Function.update_self, List.take_of_length_le (by omega)]
      · exact absurd (.inl rfl) hfine

def OnlyWritten (stream : ι) (call : Exchange ι) : Prop :=
  call.1.stream? = some stream → call.1 = .seekable stream ∨ call.1.WritesTo stream

theorem Truthful.tape_offered {request : Request ι} {tapes after : ι → Tape}
    {answer : request.Answer} (htruthful : Truthful request tapes answer after) {stream : ι}
    (hfine : ¬ Failed request answer) (honly : OnlyWritten stream ⟨request, answer⟩) :
    after stream = (tapes stream).write (request.dataTo stream) := by
  by_cases hto : request.stream? = some stream
  · obtain hasked | ⟨data, hwrite⟩ := honly hto
    · dsimp only at hasked
      subst hasked
      exact congrFun htruthful stream
    · dsimp only at hwrite
      subst hwrite
      have hdata : (Request.write stream data).dataTo stream = data := if_pos rfl
      rw [hdata]
      exact htruthful.tape_write hfine
  · rw [Request.dataTo_of_ne hto]
    exact htruthful.tape_of_ne hto

/-- As long as no call has failed and a stream was only written to, its tape is the one that it
started with and what it was offered. -/
def World.HoldsOffered (world : World ι σ) (stream : ι) (start : Tape)
    (between : σ × List (Exchange ι)) : Prop :=
  NoneFailed between.2 → (∀ call ∈ between.2, OnlyWritten stream call) →
    world.tape between.1 stream = start.write (offeredTo stream between.2)

theorem World.HoldsOffered.answer {world : World ι σ} (htruthful : world.IsTruthful) {stream : ι}
    {start : Tape} {between : σ × List (Exchange ι)}
    (hbefore : world.HoldsOffered stream start between) (request : Request ι) :
    world.HoldsOffered stream start (world.logged.answer request between).2 := by
  have hcalls : (world.logged.answer request between).2 = ((world.answer request between.1).2,
      ⟨request, (world.answer request between.1).1⟩ :: between.2) := rfl
  rw [hcalls]
  intro hnone hall
  obtain ⟨hgranted, hnone⟩ := List.forall_mem_cons.mp hnone
  obtain ⟨hlast, hall⟩ := List.forall_mem_cons.mp hall
  rw [(htruthful request between.1).tape_offered hgranted hlast, hbefore hnone hall,
    Tape.write_append, offeredTo_cons]

/-- A stream that is only written to holds what it was offered, if no call has failed. -/
theorem World.tape_logged {world : World ι σ} (htruthful : world.IsTruthful) {work : Work ι α}
    {scratch : Scratch} {state after : σ} {calls : List (Exchange ι)}
    {ended : Except Failure α × Scratch} {stream : ι}
    (hrun : world.logged.run scratch work (state, []) = (ended, (after, calls)))
    (hfine : NoneFailed calls) (honly : ∀ call ∈ calls, OnlyWritten stream call) :
    world.tape after stream = (world.tape state stream).write (offeredTo stream calls) := by
  have hstart : world.HoldsOffered stream (world.tape state stream) (state, []) :=
    fun _ _ => (Tape.write_nil _).symm
  have hend := Dialogue.run_preserves (fun request _ hbefore => hbefore.answer htruthful request)
    (work scratch) hstart
  rw [World.run] at hrun
  rw [hrun] at hend
  exact hend hfine honly

end Stream

end RomImage
