import RomImage.Proofs.Stream.Conduct
import RomImage.Proofs.Stream.Orderly

/-!
# Usual faults

The system reports errors and the user interrupts. For both there is a line at the end of a run
(`Failure.IsReported`), as long as nothing in it has more digits than are written. A truthful stream
that has no other faults fails in no other way, and between such streams a transfer is orderly.
-/

namespace RomImage

def Fault.IsUsual (fault : Fault) : Prop := fault.isSystem = true ∨ fault = .interrupt

def Failure.IsReported (failure : Failure) : Prop :=
  (∃ error, failure = .build error) ∨ failure = .fault .interrupt

theorem Failure.isReported_imageTooLarge {name : String} {size ceiling : Int}
    (hexcess : (BuildError.excess size ceiling).natAbs < Nat.pow 10 Text.digitLimit) :
    (Failure.imageTooLarge name size ceiling).IsReported := by
  obtain ⟨digits, hdigits⟩ :=
    Option.isSome_iff_exists.mp ((Text.isSome_decimal? _).mpr hexcess)
  unfold Failure.imageTooLarge
  rw [hdigits]
  exact .inl ⟨_, rfl⟩

theorem Fault.isSystemOrValue_of_isSystem {fault : Fault} (hsystem : fault.isSystem = true) :
    fault.isSystemOrValue = true := by
  cases fault with
  | system | unsupported => rfl
  | _ => exact absurd hsystem Bool.false_ne_true

namespace Stream

variable {ι : Type}

/-- The fault of an answer is usual; a wrong value is as well where it is taken for a system error,
which is in calls about positions. -/
def Request.Usual : (request : Request ι) → request.Answer → Prop
  | .readInto _ _, .error fault | .read _ _, .error fault | .write _ _, .error fault
  | .note _, .error fault => fault.IsUsual
  | .seek _ _ _, .error fault | .seekUnknown _, .error fault | .tell _, .error fault
  | .seekable _, .error fault => fault.isSystemOrValue = true ∨ fault = .interrupt
  | .readInto _ _, .ok _ | .read _ _, .ok _ | .write _ _, .ok _ | .note _, .ok _
  | .seek _ _ _, .ok _ | .seekUnknown _, .ok _ | .tell _, .ok _ | .seekable _, .ok _ => True

theorem isReported_ofFault {caught : Fault → Bool} {fault : Fault}
    (husual : caught fault = true ∨ fault = .interrupt) (error : String → BuildError) :
    (ofFault caught error fault).IsReported := by
  rw [ofFault]
  split
  · exact .inl ⟨_, rfl⟩
  · rename_i huncaught
    exact .inr (congrArg Failure.fault (husual.resolve_left huncaught))

theorem isReported_ofCount {name : String} {count : Int} {offered : Nat}
    (hcount : count.natAbs < Nat.pow 10 Text.digitLimit) :
    (ofCount name count offered).IsReported := by
  obtain ⟨detail, hdetail⟩ : ∃ detail, ofCount name count offered
      = .build (.shortWrite name detail) := ofCount_eq offered hcount
  exact .inl ⟨_, hdetail⟩

variable [DecidableEq ι] {tapes after : ι → Tape} {name : ι → String} {failure : Failure}

/-- What a call to a truthful stream amounts to is reported, if its fault is usual. -/
theorem isReported_of_truthful {request : Request ι} {answer : request.Answer}
    (htruthful : Truthful request tapes answer after) (husual : request.Usual answer)
    (hnote : ∀ fact, request ≠ .note fact)
    (hoffered : ∀ stream data, request = .write stream data →
      data.length < Nat.pow 10 Text.digitLimit)
    (hfailed : request.failure? name answer = some failure) : failure.IsReported := by
  cases request with
  | readInto stream size =>
      cases answer with
      | error fault => exact Option.some.inj hfailed ▸ isReported_ofFault husual _
      | ok delivery =>
          rw [Request.failure?] at hfailed
          split at hfailed
          · exact .inl ⟨_, (Option.some.inj hfailed).symm⟩
          · exact absurd hfailed (by simp)
  | read stream size =>
      cases answer with
      | error fault => exact Option.some.inj hfailed ▸ isReported_ofFault husual _
      | ok data =>
          rw [Request.failure?] at hfailed
          split at hfailed
          · exact .inl ⟨_, (Option.some.inj hfailed).symm⟩
          · exact absurd hfailed (by simp)
  | write stream data =>
      have hprintable := hoffered stream data rfl
      obtain fault | _ | count := answer
      · exact Option.some.inj hfailed ▸ isReported_ofFault husual _
      · exact Option.some.inj hfailed ▸ isReported_ofCount (by omega)
      · obtain ⟨taken, htaken, hreports, -⟩ := htruthful
        obtain hsome | ⟨hnone, -⟩ := hreports
        · obtain rfl := Option.some.inj hsome
          rw [Request.failure?] at hfailed
          split at hfailed
          · exact Option.some.inj hfailed ▸ isReported_ofCount (by omega)
          · exact absurd hfailed (by simp)
        · exact absurd hnone (by simp)
  | seek stream offset whence =>
      cases answer with
      | error fault => exact Option.some.inj hfailed ▸ isReported_ofFault husual _
      | ok _ => exact absurd hfailed (by simp [Request.failure?])
  | seekUnknown stream =>
      cases answer with
      | error fault => exact Option.some.inj hfailed ▸ isReported_ofFault husual _
      | ok _ => exact absurd hfailed (by simp [Request.failure?])
  | tell stream =>
      cases answer with
      | error fault => exact Option.some.inj hfailed ▸ isReported_ofFault husual _
      | ok _ => exact absurd hfailed (by simp [Request.failure?])
  | seekable stream =>
      cases answer with
      | error fault =>
          rw [Request.failure?] at hfailed
          split at hfailed
          · exact absurd hfailed (by simp)
          · rename_i huncaught
            obtain rfl := husual.resolve_left huncaught
            exact .inr (Option.some.inj hfailed).symm
      | ok _ => exact absurd hfailed (by simp [Request.failure?])
  | note fact => exact absurd rfl (hnote fact)

/-- A read from a truthful stream that does not fail hands over some bytes, as many as it says. -/
theorem Truthful.readInto_some {stream : ι} {size : Nat} {answer : Except Fault Delivery}
    (htruthful : Truthful (.readInto stream size) tapes answer after)
    (hnone : Request.failure? name (.readInto stream size) answer = none) :
    ∃ delivery, answer = .ok delivery ∧ ∃ count ≤ size, 0 < count ∧
      delivery.reported = some (count : Int) := by
  cases answer with
  | error fault => exact absurd hnone (by simp [Request.failure?])
  | ok delivery =>
      obtain ⟨count, hcount, hstored, hreports, -⟩ := htruthful
      have hlength : delivery.stored.length ≤ count := by
        rw [hstored, Tape.read, Contents.slice_eq]
        exact List.length_take_le _ _
      rw [Request.failure?] at hnone
      obtain hsome | ⟨hreported, -⟩ := hreports
      · rw [hsome, Option.getD_some] at hnone
        refine ⟨delivery, rfl, delivery.stored.length, by omega, ?_, hsome⟩
        by_contra hzero
        rw [if_pos (by omega)] at hnone
        exact absurd hnone (by simp)
      · rw [hreported, Option.getD_none, if_pos rfl] at hnone
        exact absurd hnone (by simp)

theorem Truthful.read_some {stream : ι} {size : Nat} {answer : Except Fault (Option Bytes)}
    (htruthful : Truthful (.read stream size) tapes answer after)
    (hnone : Request.failure? name (.read stream size) answer = none) :
    ∃ data, answer = .ok (some data) ∧ data.length ≤ size := by
  obtain fault | _ | data := answer
  · exact absurd hnone (by simp [Request.failure?])
  · exact absurd hnone (by simp [Request.failure?])
  · obtain ⟨count, hcount, rfl, -⟩ := htruthful
    refine ⟨_, rfl, Nat.le_trans ?_ hcount⟩
    rw [Tape.read, Contents.slice_eq]
    exact List.length_take_le _ _

section Orderly

variable {τ : Type} {conduct : Conduct (interface ι) τ} {usual : Prop} {inv : τ → Prop}
  {most : Nat}

/-- A call to truthful streams with usual faults keeps what holds there, or is reported. -/
theorem brings_truthful {request : Request ι}
    (htruthful : ∀ state answer after, inv state → conduct request state answer after →
      ∃ tapes tapes', Truthful request tapes answer tapes')
    (husual : ∀ state answer after, inv state → conduct request state answer after → usual →
      request.Usual answer)
    (hkeeps : ∀ state answer after, inv state → conduct request state answer after → inv after)
    (hnote : ∀ fact, request ≠ .note fact)
    (hoffered : ∀ stream data, request = .write stream data →
      data.length < Nat.pow 10 Text.digitLimit) (name : String) :
    Brings conduct name request inv (fun _ => inv)
      (fun failure _ => usual → failure.IsReported) := by
  intro state answer after hinv hanswer
  obtain ⟨_, _, hanswered⟩ := htruthful state answer after hinv hanswer
  refine .of_cases (fun _ => hkeeps state answer after hinv hanswer) fun failure hfailed hall => ?_
  exact isReported_of_truthful hanswered (husual state answer after hinv hanswer hall) hnote
    hoffered hfailed

/-- Truthful streams with usual faults are orderly. -/
theorem orderly_truthful
    (htruthful : ∀ request state answer after, inv state → conduct request state answer after →
      ∃ tapes tapes', Truthful request tapes answer tapes')
    (husual : ∀ request state answer after, inv state → conduct request state answer after →
      (∀ stream, request ≠ .seekUnknown stream) → usual → request.Usual answer)
    (hkeeps : ∀ request state answer after, inv state → conduct request state answer after →
      inv after)
    (hnote : ∀ fact state (answer : Except Fault Unit) after, conduct (.note fact) state answer
      after → answer = .ok ())
    (hmost : most < Nat.pow 10 Text.digitLimit) (source dest : Channel ι) :
    Orderly conduct source dest most inv (fun failure _ => usual → failure.IsReported) := by
  have hbrings {request : Request ι} (hknown : ∀ stream, request ≠ .seekUnknown stream)
      (hother : ∀ fact, request ≠ .note fact)
      (hoffered : ∀ stream data, request = .write stream data →
        data.length < Nat.pow 10 Text.digitLimit) (name : String) :=
    brings_truthful (htruthful request) (fun state answer after hinv hanswer =>
      husual request state answer after hinv hanswer hknown) (hkeeps request) hother hoffered name
  refine ⟨?_, ?_, ?_, ?_, ?_, ?_, ?_⟩
  · intro size state answer after hinv hanswer
    obtain ⟨_, _, hanswered⟩ := htruthful _ state answer after hinv hanswer
    have hcomes := hbrings (by simp) (by simp) (by simp) source.name state answer after hinv hanswer
    refine .of_cases (fun hnone => ?_) fun failure => hcomes.bad
    obtain ⟨delivery, rfl, count, hcount, hsome, hreported⟩ := hanswered.readInto_some hnone
    exact ⟨delivery, rfl, count, hcount, hsome, hreported, hkeeps _ state _ after hinv hanswer⟩
  · intro size state answer after hinv hanswer
    obtain ⟨_, _, hanswered⟩ := htruthful _ state answer after hinv hanswer
    have hcomes := hbrings (by simp) (by simp) (by simp) source.name state answer after hinv hanswer
    refine .of_cases (fun hnone => ?_) fun failure => hcomes.bad
    obtain ⟨data, rfl, hlength⟩ := hanswered.read_some hnone
    exact ⟨data, rfl, hlength, hkeeps _ state _ after hinv hanswer⟩
  · intro data hlength
    refine hbrings (by simp) (by simp) ?_ dest.name
    rintro _ _ hsame
    obtain ⟨-, rfl⟩ := Request.write.inj hsame
    exact Nat.lt_of_le_of_lt hlength hmost
  · exact fun offset whence => hbrings (by simp) (by simp) (by simp) dest.name
  · exact hbrings (by simp) (by simp) (by simp) dest.name
  · exact hbrings (by simp) (by simp) (by simp) dest.name
  · exact fun fact state answer after hinv hanswer =>
      ⟨hnote fact state answer after hanswer, hkeeps (.note fact) state answer after hinv hanswer⟩

end Orderly

end Stream

end RomImage
