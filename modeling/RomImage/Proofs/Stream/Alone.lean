import RomImage.Proofs.Stream.Calls

/-!
# One truthful stream among others

A truthful stream acts on its own tape only, and what it does there depends on that tape alone
(`truthful_iff_alone`). So one stream of a world can be truthful while the others do whatever they
like, and work that calls no other ends as it does among truthful streams
(`World.IsTruthfulAt.run_logged`).
-/

namespace RomImage

namespace Stream

open Function (update)

variable {ι σ α : Type} [DecidableEq ι] {stream : ι} {request : Request ι} {answer : request.Answer}
  {tapes after : ι → Tape}

/-- The answer and the tape of the stream after it are those of a truthful stream. -/
def TruthfulAlone (request : Request ι) (stream : ι) (tape : Tape) (answer : request.Answer)
    (tape' : Tape) : Prop :=
  Truthful request (fun _ => tape) answer (update (fun _ => tape) stream tape')

/-- A truthful stream does what it does alone, and leaves the other tapes. -/
theorem truthful_iff_alone (hto : request.stream? = some stream) :
    Truthful request tapes answer after ↔
      after = update tapes stream (after stream) ∧
        TruthfulAlone request stream (tapes stream) answer (after stream) := by
  have hset (tape : Tape) : after = update tapes stream tape ↔
      after = update tapes stream (after stream) ∧
        update (fun _ => tapes stream) stream (after stream)
          = update (fun _ : ι => tapes stream) stream tape := by
    constructor
    · rintro rfl
      rw [Function.update_self]
      exact ⟨rfl, rfl⟩
    · rintro ⟨hafter, hsame⟩
      rwa [Function.update_injective _ _ hsame] at hafter
  have hkept : after = tapes ↔ after = update tapes stream (after stream) ∧
      update (fun _ => tapes stream) stream (after stream) = fun _ : ι => tapes stream := by
    have hsame := hset (tapes stream)
    rwa [Function.update_eq_self, Function.update_eq_self_iff.mpr rfl] at hsame
  cases request with
  | readInto other size =>
      obtain rfl := Option.some.inj hto
      cases answer with
      | error fault => exact hkept
      | ok delivery =>
          constructor
          · rintro ⟨count, hcount, hstored, hreported, hafter⟩
            obtain ⟨hafter, hsame⟩ := (hset _).mp hafter
            exact ⟨hafter, count, hcount, hstored, hreported, hsame⟩
          · rintro ⟨hafter, count, hcount, hstored, hreported, hsame⟩
            exact ⟨count, hcount, hstored, hreported, (hset _).mpr ⟨hafter, hsame⟩⟩
  | read other size =>
      obtain rfl := Option.some.inj hto
      obtain fault | _ | data := answer
      · exact hkept
      · exact hkept
      · constructor
        · rintro ⟨count, hcount, hdata, hafter⟩
          obtain ⟨hafter, hsame⟩ := (hset _).mp hafter
          exact ⟨hafter, count, hcount, hdata, hsame⟩
        · rintro ⟨hafter, count, hcount, hdata, hsame⟩
          exact ⟨count, hcount, hdata, (hset _).mpr ⟨hafter, hsame⟩⟩
  | write other data =>
      obtain rfl := Option.some.inj hto
      cases answer with
      | error fault => exact hkept
      | ok reported =>
          constructor
          · rintro ⟨count, hcount, hreported, hafter⟩
            obtain ⟨hafter, hsame⟩ := (hset _).mp hafter
            exact ⟨hafter, count, hcount, hreported, hsame⟩
          · rintro ⟨hafter, count, hcount, hreported, hsame⟩
            exact ⟨count, hcount, hreported, (hset _).mpr ⟨hafter, hsame⟩⟩
  | seek other offset whence =>
      obtain rfl := Option.some.inj hto
      cases answer with
      | error fault => exact hkept
      | ok _ =>
          constructor
          · rintro ⟨position, hposition, hafter⟩
            obtain ⟨hafter, hsame⟩ := (hset _).mp hafter
            exact ⟨hafter, position, hposition, hsame⟩
          · rintro ⟨hafter, position, hposition, hsame⟩
            exact ⟨position, hposition, (hset _).mpr ⟨hafter, hsame⟩⟩
  | tell other =>
      obtain rfl := Option.some.inj hto
      cases answer with
      | error fault => exact hkept
      | ok position => exact (and_congr_right fun _ => hkept).trans and_left_comm
  | seekUnknown other | seekable other =>
      obtain rfl := Option.some.inj hto
      exact hkept
  | note fact => exact absurd hto (by simp [Request.stream?])

def World.IsTruthfulAt (world : World ι σ) (stream : ι) : Prop :=
  ∀ request state, request.stream? = some stream →
    TruthfulAlone request stream (world.tape state stream) (world.answer request state).1
      (world.tape (world.answer request state).2 stream)

theorem World.IsTruthful.at {world : World ι σ} (htruthful : world.IsTruthful) (stream : ι) :
    world.IsTruthfulAt stream :=
  fun request state hto => ((truthful_iff_alone hto).mp (htruthful request state)).2

/-- Work on one truthful stream ends as it does among truthful streams. -/
theorem World.IsTruthfulAt.run_logged {world : World ι σ} (htruthful : world.IsTruthfulAt stream)
    {work : Work ι α}
    (hasks : work.AsksOnly fun request : Request ι => request.stream? = some stream)
    (ability : ι → Ability) {scratch : Scratch} {state : σ}
    {good : α → Scratch → (ι → Tape) → Prop} {bad : Failure → Scratch → (ι → Tape) → Prop}
    (hwork : work.Ensures (conduct ability False) scratch (world.tape state) good bad) :
    (∃ value scratch' after, world.logged.run scratch work (state, [])
          = ((.ok value, scratch'), after) ∧
        good value scratch' (update (world.tape state) stream (world.tape after.1 stream))) ∨
      ∃ failure scratch' after, world.logged.run scratch work (state, [])
          = ((.error failure, scratch'), after) ∧
        bad failure scratch' (update (world.tape state) stream (world.tape after.1 stream)) := by
  let view (between : σ × List (Exchange ι)) : ι → Tape :=
    update (world.tape state) stream (world.tape between.1 stream)
  have hanswer (request : Request ι) (between : σ × List (Exchange ι))
      (hto : request.stream? = some stream) :
      conduct ability False request (view between) (world.logged.answer request between).1
        (view (world.logged.answer request between).2) := by
    refine ⟨(truthful_iff_alone hto).mpr ⟨?_, ?_⟩, False.elim⟩
    · simp only [view, Function.update_self, Function.update_idem]
    · simp only [view, Function.update_self]
      exact htruthful request between.1 hto
  have hstart : view (state, []) = world.tape state := Function.update_eq_self _ _
  exact (hstart.symm ▸ hwork).run_asked view hanswer hasks (state, [])

end Stream

end RomImage
