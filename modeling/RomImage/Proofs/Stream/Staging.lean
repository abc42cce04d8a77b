import RomImage.Proofs.Stream.Conduct
import RomImage.Stream.Staging

/-!
# The tape in memory

The tape that a container is staged on is one more truthful stream, beside those that the requests
are passed on to. It can be moved, and its room ends where memory does.
-/

namespace RomImage

namespace Stream

open Function (update)

variable {ι α : Type} [DecidableEq ι] {ability : ι → Ability} {obliged : Prop}

def beside (memory : Tape) (tapes : ι → Tape) : Option ι → Tape
  | none => memory
  | some stream => tapes stream

def besideAbility [Machine] (ability : ι → Ability) : Option ι → Ability
  | none => ⟨true, true, true, some Machine.memory⟩
  | some stream => ability stream

omit [DecidableEq ι] in
theorem memory_takes [Machine] {position : Nat} (hroom : position < Machine.memory) :
    (besideAbility ability none).takes position :=
  ⟨rfl, fun _ hbound => Option.some.inj hbound ▸ hroom⟩

theorem update_beside_none (memory tape : Tape) (tapes : ι → Tape) :
    update (beside memory tapes) none tape = beside tape tapes := by
  funext stream
  cases stream with
  | none => rw [Function.update_self, beside]
  | some stream => rw [Function.update_of_ne (by simp), beside, beside]

theorem update_beside_some (memory tape : Tape) (tapes : ι → Tape) (stream : ι) :
    update (beside memory tapes) (some stream) tape = beside memory (update tapes stream tape) := by
  funext other
  cases other with
  | none => rw [Function.update_of_ne (by simp), beside, beside]
  | some other =>
      by_cases hsame : other = stream
      · rw [hsame, Function.update_self, beside, Function.update_self]
      · rw [Function.update_of_ne (by simpa using hsame), beside, beside,
          Function.update_of_ne hsame]

theorem growthFault?_eq_none [Machine] {tape : Tape} {data : Bytes}
    (hroom : tape.position + data.length < Machine.memory) :
    growthFault? tape data = none := by
  have hbound : Machine.memory ≤ Fault.sizeBound := Machine.memory_le
  rw [growthFault?]
  split
  · rfl
  · rw [Fault.ofGrowth?, if_neg (by omega), if_neg (by omega)]

theorem stagingDestination_eq [Machine] {position size : Nat} {offset : Int} (whence : Int)
    (hroom : offset.natAbs < Machine.memory) :
    stagingDestination position size offset whence
      = Tape.destination position size offset whence := by
  have hbound : Machine.memory ≤ Fault.sizeBound := Machine.memory_le
  rw [stagingDestination, if_neg (by omega)]

theorem destination_of_staging {position size target : Nat} {offset whence : Int}
    (hstaging : stagingDestination position size offset whence = .ok target) :
    Tape.destination position size offset whence = .ok target := by
  rw [stagingDestination] at hstaging
  split at hstaging
  · exact absurd hstaging (by simp)
  · exact hstaging

/-- What the steering keeps is answered as a truthful stream would, the tape in memory. -/
theorem steer_conduct [Machine] (request : Request (Option ι)) (memory : Tape) (tapes : ι → Tape) :
    (steer request memory).Follows (conduct ability obliged)
      (conduct (besideAbility ability) obliged) beside memory tapes := by
  have hreaches {position : Nat} (hroom : (besideAbility ability none).reaches position) :
      position < Machine.memory := hroom _ rfl
  cases request with
  | readInto stream size =>
      cases stream with
      | none =>
          refine ⟨⟨size, Nat.le_refl _, rfl, .inl rfl, (update_beside_none _ _ _).symm⟩, ?_⟩
          intro _ _
          exact ⟨_, rfl, memory.read_ne_nil⟩
      | some stream =>
          intro answer after hconduct
          obtain ⟨htruthful, hobliging⟩ := hconduct
          refine ⟨?_, hobliging⟩
          cases answer with
          | error fault => exact congrArg (beside memory) htruthful
          | ok delivery =>
              obtain ⟨count, hcount, hstored, hreported, rfl⟩ := htruthful
              exact ⟨count, hcount, hstored, hreported, (update_beside_some _ _ _ _).symm⟩
  | read stream size =>
      cases stream with
      | none =>
          refine ⟨⟨size, Nat.le_refl _, rfl, (update_beside_none _ _ _).symm⟩, fun _ _ => ?_⟩
          exact ⟨_, rfl, memory.read_ne_nil⟩
      | some stream =>
          intro answer after hconduct
          obtain ⟨htruthful, hobliging⟩ := hconduct
          refine ⟨?_, hobliging⟩
          obtain fault | _ | data := answer
          · exact congrArg (beside memory) htruthful
          · exact congrArg (beside memory) htruthful
          · obtain ⟨count, hcount, hdata, rfl⟩ := htruthful
            exact ⟨count, hcount, hdata, (update_beside_some _ _ _ _).symm⟩
  | write stream data =>
      cases stream with
      | none =>
          rw [steer]
          cases hgrowth : growthFault? memory data with
          | some fault =>
              refine ⟨rfl, fun _ hroom => ?_⟩
              have hnone : growthFault? memory data = none :=
                growthFault?_eq_none (hreaches hroom.2)
              exact absurd (hgrowth.symm.trans hnone) (by simp)
          | none =>
              refine ⟨⟨data.length, Nat.le_refl _, .inl rfl, ?_⟩, fun _ _ => rfl⟩
              rw [List.take_length, update_beside_none, beside]
      | some stream =>
          intro answer after hconduct
          obtain ⟨htruthful, hobliging⟩ := hconduct
          refine ⟨?_, hobliging⟩
          cases answer with
          | error fault => exact congrArg (beside memory) htruthful
          | ok reported =>
              obtain ⟨count, hcount, hreported, rfl⟩ := htruthful
              exact ⟨count, hcount, hreported, (update_beside_some _ _ _ _).symm⟩
  | seek stream offset whence =>
      cases stream with
      | none =>
          obtain ⟨contents, position⟩ := memory
          rw [steer]
          cases hleads : stagingDestination position contents.size offset whence with
          | error fault =>
              refine ⟨rfl, fun _ _ hroom hthere => ?_⟩
              have hrefused : Tape.destination position contents.size offset whence
                  = .error fault := by
                rw [← stagingDestination_eq whence (hreaches hroom), hleads]
              have hallowed : (Tape.destination position contents.size offset whence).isOk = true :=
                hthere
              rw [hrefused] at hallowed
              exact absurd hallowed (by simp [Except.isOk, Except.toBool])
          | ok target =>
              refine ⟨⟨target, destination_of_staging hleads, ?_⟩, fun _ _ _ _ => rfl⟩
              rw [update_beside_none, beside, Tape.moved]
      | some stream =>
          intro answer after hconduct
          obtain ⟨htruthful, hobliging⟩ := hconduct
          refine ⟨?_, hobliging⟩
          cases answer with
          | error fault => exact congrArg (beside memory) htruthful
          | ok _ =>
              obtain ⟨position, hposition, rfl⟩ := htruthful
              exact ⟨position, hposition, (update_beside_some _ _ _ _).symm⟩
  | seekUnknown stream =>
      cases stream with
      | none => exact ⟨rfl, fun _ => trivial⟩
      | some stream =>
          intro answer after hconduct
          obtain ⟨htruthful, hobliging⟩ := hconduct
          exact ⟨congrArg (beside memory) htruthful, hobliging⟩
  | tell stream =>
      cases stream with
      | none => exact ⟨⟨rfl, rfl⟩, fun _ _ => rfl⟩
      | some stream =>
          intro answer after hconduct
          obtain ⟨htruthful, hobliging⟩ := hconduct
          refine ⟨?_, hobliging⟩
          cases answer with
          | error fault => exact congrArg (beside memory) htruthful
          | ok position => exact ⟨htruthful.1, congrArg (beside memory) htruthful.2⟩
  | seekable stream =>
      cases stream with
      | none => exact ⟨rfl, fun _ => rfl⟩
      | some stream =>
          intro answer after hconduct
          obtain ⟨htruthful, hobliging⟩ := hconduct
          exact ⟨congrArg (beside memory) htruthful, hobliging⟩
  | note fact =>
      intro answer after hconduct
      obtain ⟨htruthful, hobliging⟩ := hconduct
      exact ⟨congrArg (beside memory) htruthful, hobliging⟩

/-- Staged work does on the streams, with an empty tape in memory beside them, what it does. -/
theorem staged_ensures [Machine] {work : Work (Option ι) α} {scratch : Scratch} {tapes : ι → Tape}
    {good : α → Scratch → (Option ι → Tape) → Prop}
    {bad : Failure → Scratch → (Option ι → Tape) → Prop}
    (hwork : work.Ensures (conduct (besideAbility ability) obliged) scratch
      (beside .empty tapes) good bad) :
    (staged work).Ensures (conduct ability obliged) scratch tapes
      (fun value scratch' after => ∃ memory, good value scratch' (beside memory after))
      (fun failure scratch' after => ∃ memory, bad failure scratch' (beside memory after)) :=
  Task.Ensures.route beside steer_conduct hwork

end Stream

end RomImage
