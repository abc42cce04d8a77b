import RomImage.Proofs.Disk.Engaged
import RomImage.Proofs.Stream.Usual

/-!
# Disks whose notes go elsewhere

Where notes go to a console, the disk keeps none and none is refused. To two files that are open
nothing else changes: they are two tapes (`Disk.Engaged.ensures_unnoted`). And they are orderly if
what befalls them is honest, whether or not the two are one and the same file; with usual faults a
failed call is reported (`Disk.Engaged.orderly_unnoted`).
-/

namespace RomImage

namespace Disk

open RomImage.Stream (Call Effect Guard Channel Truthful Brings Orderly conduct)

variable {α : Type} {usual : Prop} {disk opened after : Disk} {side : Side} {handle : Handle}
  {plan : Plan} {place : Side → Location} {request : Stream.Request Side}

structure Plan.IsUsual (plan : Plan) : Prop where
  opening : ∀ side, ∀ fault ∈ plan.opening side, fault.IsUsual
  schedule : ∀ side method number fault,
    plan.schedule side method number = some (.raise fault) → fault.IsUsual
  removal : ∀ fault ∈ plan.removal, fault.IsUsual

theorem Plan.honest_calm : Plan.calm.Honest := fun side _ _ _ hstruck => by
  cases side <;> cases hstruck

theorem Plan.isUsual_calm : Plan.calm.IsUsual where
  opening _ _ hstruck := by cases hstruck
  schedule side _ _ _ hstruck := by cases side <;> cases hstruck
  removal _ hstruck := by cases hstruck

def StruckUsually (disk : Disk) (request : Stream.Request Side) : Prop :=
  ∀ call fault, (call, Effect.raise fault) ∈ disk.mishap? request → fault.IsUsual

def unnotedStream (usual : Prop) : Conduct (Stream.interface Side) Disk
  | .note _, disk, answer, after => answer = (.ok () : Except Fault Unit) ∧ after = disk
  | request, disk, answer, after =>
    (answer, after) = disk.answerStream request ∧ (usual → disk.StruckUsually request)

theorem unnotedStream_iff {answer : request.Answer} (hnote : ∀ fact, request ≠ .note fact) :
    unnotedStream usual request disk answer after ↔
      (answer, after) = disk.answerStream request ∧ (usual → disk.StruckUsually request) := by
  cases request with
  | note fact => exact absurd rfl (hnote fact)
  | _ => exact Iff.rfl

theorem Onward.unnoted {answer : request.Answer} (honward : Onward opened disk)
    (hanswer : unnotedStream usual request disk answer after) : Onward opened after := by
  by_cases hnote : ∀ fact, request ≠ .note fact
  · obtain ⟨hanswer, -⟩ := (unnotedStream_iff hnote).mp hanswer
    obtain rfl := congrArg Prod.snd hanswer
    exact honward.answerStream request
  · obtain ⟨fact, rfl⟩ := not_forall_not.mp hnote
    obtain ⟨-, rfl⟩ := hanswer
    exact honward

/-- How a call on an open file answers: with a fault of the schedule or as it says, or the call
takes place. -/
theorem Serves.answer (hserves : disk.Serves side handle) {call : Call}
    (hcall : request.call? = some (side, call)) {preset : Option Int → α}
    {act : Option Nat → Option Nat → Handle → Disk → Except Fault α × Disk}
    {motive : Except Fault α → Prop}
    (hraise : ∀ fault, (call, Effect.raise fault) ∈ disk.mishap? request → motive (.error fault))
    (hanswer : ∀ value, motive (.ok (preset value)))
    (hact : ∀ limit surplus after, motive (act limit surplus (handle.recording call) after).1) :
    motive (disk.access side call preset act).1 := by
  rw [access_eq hserves.found, Guard.gate_of_open hserves.isOpen]
  cases hmishap : handle.guard.mishap call.method with
  | none => exact hact none none _
  | some effect =>
      cases effect with
      | raise fault =>
          refine hraise fault ?_
          rw [mishap?, hcall, Option.bind_some]
          dsimp only
          rw [hserves.found, Option.bind_some, hmishap]
          rfl
      | answer value => exact hanswer value
      | alter limit surplus => exact hact limit surplus _

theorem destination_usual {position size : Nat} {offset whence : Int} {fault : Fault}
    (hrefused : destination position size offset whence = .error fault) :
    fault.isSystemOrValue = true := by
  rw [destination] at hrefused
  split at hrefused
  · exact Except.error.inj hrefused ▸ rfl
  split at hrefused
  · exact Except.error.inj hrefused ▸ rfl
  split at hrefused
  · split at hrefused
    · exact Except.error.inj hrefused ▸ rfl
    · exact absurd hrefused (by simp)
  · rename_i reason hreason
    obtain rfl := Except.error.inj hrefused
    rw [Tape.destination] at hreason
    split at hreason
    · split at hreason
      · exact Except.error.inj hreason ▸ rfl
      · exact absurd hreason (by simp)
    split at hreason
    · exact absurd hreason (by simp)
    split at hreason
    · exact absurd hreason (by simp)
    · exact Except.error.inj hreason ▸ rfl

theorem destination_le {position size target : Nat} {offset whence : Int}
    (hgranted : destination position size offset whence = .ok target) : target ≤ lastPosition := by
  rw [destination] at hgranted
  split at hgranted
  · exact absurd hgranted (by simp)
  split at hgranted
  · exact absurd hgranted (by simp)
  split at hgranted
  · split at hgranted
    · exact absurd hgranted (by simp)
    · rename_i hless
      exact Except.ok.inj hgranted ▸ Nat.not_lt.mp hless
  · exact absurd hgranted (by simp)

/-- The faults of an open file are usual, if those of its schedule are. -/
theorem Serves.answer_usual (hserves : disk.Serves side handle) {call : Call}
    (hcall : request.call? = some (side, call)) (hstruck : disk.StruckUsually request)
    (hknown : ∀ side, request ≠ .seekUnknown side) :
    request.Usual (disk.answerStream request).1 := by
  have hmoving (fault : Fault) (hmishap : (call, Effect.raise fault) ∈ disk.mishap? request) :
      fault.isSystemOrValue = true ∨ fault = .interrupt :=
    (hstruck _ _ hmishap).imp Fault.isSystemOrValue_of_isSystem id
  cases request with
  | readInto side size =>
      obtain ⟨rfl, rfl⟩ := Prod.mk.inj (Option.some.inj hcall)
      exact hserves.answer (motive := Stream.Request.Usual (.readInto side size)) hcall
        (hstruck _) (fun _ => trivial) fun _ _ _ => trivial
  | read side size =>
      obtain ⟨rfl, rfl⟩ := Prod.mk.inj (Option.some.inj hcall)
      exact hserves.answer (motive := Stream.Request.Usual (.read side size)) hcall
        (hstruck _) (fun _ => trivial) fun _ _ _ => trivial
  | write side data =>
      obtain ⟨rfl, rfl⟩ := Prod.mk.inj (Option.some.inj hcall)
      exact hserves.answer (motive := Stream.Request.Usual (.write side data)) hcall
        (hstruck _) (fun _ => trivial) fun _ _ _ => trivial
  | seek side offset whence =>
      obtain ⟨rfl, rfl⟩ := Prod.mk.inj (Option.some.inj hcall)
      refine hserves.answer (motive := Stream.Request.Usual (.seek side offset whence)) hcall
        hmoving (fun _ => trivial) fun _ _ _ => ?_
      split
      · split
        · trivial
        · rename_i hrefused
          exact .inl (destination_usual hrefused)
      · exact .inl rfl
  | seekUnknown side => exact absurd rfl (hknown side)
  | tell side =>
      obtain ⟨rfl, rfl⟩ := Prod.mk.inj (Option.some.inj hcall)
      refine hserves.answer (motive := Stream.Request.Usual (.tell side)) hcall hmoving
        (fun _ => trivial) fun _ _ _ => ?_
      split
      · trivial
      · exact .inl rfl
  | seekable side =>
      obtain ⟨rfl, rfl⟩ := Prod.mk.inj (Option.some.inj hcall)
      exact hserves.answer (motive := Stream.Request.Usual (.seekable side)) hcall hmoving
        (fun _ => trivial) fun _ _ _ => trivial
  | note fact => exact absurd hcall (by simp [Stream.Request.call?])

/-- Where a file was moved to is a position that a file can have. -/
theorem Serves.position_le (hserves : disk.Serves side handle) {offset whence : Int}
    (hhonest : disk.AnswersHonestly (.seek side offset whence))
    (hmoved : disk.answerStream (.seek side offset whence) = (.ok (), after)) :
    (after.tape side).position ≤ lastPosition := by
  have hdone := congrArg Prod.fst hmoved
  obtain rfl := congrArg Prod.snd hmoved
  clear hmoved
  revert hdone
  refine hserves.access (motive := fun answer tape =>
    answer = .ok () → tape.position ≤ lastPosition) rfl hhonest False.elim ?_ ?_ ?_
  · intro _ _ hmoved
    exact absurd hmoved (by simp)
  · intro _ hlie
    exact absurd hlie (by simp [Effect.Honest, Call.method])
  · intro _ _ after _ _ _ _
    split
    · split
      · rename_i target htarget
        intro _
        dsimp only
        rw [tape_setHandle]
        exact destination_le htarget
      · exact fun hmoved => absurd hmoved (by simp)
    · exact fun hmoved => absurd hmoved (by simp)

namespace Engaged

section Call

variable (hengaged : Engaged plan place disk) (hplan : plan.Honest)

include hengaged hplan

/-- What an open file answers is true of a tape. -/
theorem truthful_unnoted {answer : request.Answer}
    (hanswer : unnotedStream usual request disk answer after) :
    ∃ tapes, Truthful request disk.tape answer tapes := by
  cases hcall : request.call? with
  | none =>
      cases request with
      | note fact => exact ⟨disk.tape, rfl⟩
      | _ => exact absurd hcall (by simp [Stream.Request.call?])
  | some addressed =>
      obtain ⟨side, call⟩ := addressed
      have hnote : ∀ fact, request ≠ .note fact := by
        rintro fact rfl
        exact absurd hcall (by simp [Stream.Request.call?])
      obtain ⟨hanswer, -⟩ := (unnotedStream_iff hnote).mp hanswer
      obtain rfl := congrArg Prod.fst hanswer
      obtain ⟨handle, hserves, -, -, hability⟩ := hengaged side
      exact ⟨_, (conduct_answerStream hserves rfl hability.symm hcall
        (hengaged.answersHonestly hplan request) False.elim).1⟩

omit hplan in
theorem usual_unnoted {answer : request.Answer}
    (hanswer : unnotedStream usual request disk answer after)
    (hknown : ∀ side, request ≠ .seekUnknown side) (husual : usual) : request.Usual answer := by
  cases hcall : request.call? with
  | none =>
      cases request with
      | note fact =>
          obtain ⟨rfl, -⟩ := hanswer
          trivial
      | _ => exact absurd hcall (by simp [Stream.Request.call?])
  | some addressed =>
      obtain ⟨side, call⟩ := addressed
      have hnote : ∀ fact, request ≠ .note fact := by
        rintro fact rfl
        exact absurd hcall (by simp [Stream.Request.call?])
      obtain ⟨hanswer, hstruck⟩ := (unnotedStream_iff hnote).mp hanswer
      obtain rfl := congrArg Prod.fst hanswer
      obtain ⟨handle, hserves, -⟩ := hengaged side
      exact hserves.answer_usual hcall (hstruck husual) hknown

end Call

section Orderly

variable (hengaged : Engaged plan place opened) (hplan : plan.Honest)

include hengaged hplan

/-- A call to one of the two files keeps them open, or it is reported. -/
theorem brings_unnoted (hknown : ∀ side, request ≠ .seekUnknown side)
    (hnote : ∀ fact, request ≠ .note fact) (hoffered : ∀ side data, request = .write side data →
      data.length < Nat.pow 10 Text.digitLimit) (fixed : Prop) (name : String) :
    Brings (unnotedStream usual) name request (fun disk => Onward opened disk ∧ fixed)
      (fun _ disk => Onward opened disk ∧ fixed) (fun failure _ => usual → failure.IsReported) := by
  refine Stream.brings_truthful ?_ ?_ ?_ hnote hoffered name
  · rintro disk answer after ⟨honward, -⟩ hanswer
    exact ⟨_, (hengaged.onward honward).truthful_unnoted hplan hanswer⟩
  · rintro disk answer after ⟨honward, -⟩ hanswer husual
    exact (hengaged.onward honward).usual_unnoted hanswer hknown husual
  · rintro disk answer after ⟨honward, hfixed⟩ hanswer
    exact ⟨honward.unnoted hanswer, hfixed⟩

/-- The two files of a build are orderly. -/
theorem orderly_unnoted {most : Nat} (hmost : most < Nat.pow 10 Text.digitLimit) (fixed : Prop)
    (source dest : Channel Side) :
    Orderly (unnotedStream usual) source dest most (fun disk => Onward opened disk ∧ fixed)
      (fun failure _ => usual → failure.IsReported) := by
  refine Stream.orderly_truthful ?_ ?_ ?_ ?_ hmost source dest
  · rintro request disk answer after ⟨honward, -⟩ hanswer
    exact ⟨_, (hengaged.onward honward).truthful_unnoted hplan hanswer⟩
  · rintro request disk answer after ⟨honward, -⟩ hanswer hknown husual
    exact (hengaged.onward honward).usual_unnoted hanswer hknown husual
  · rintro request disk answer after ⟨honward, hfixed⟩ hanswer
    exact ⟨honward.unnoted hanswer, hfixed⟩
  · rintro fact disk answer after ⟨rfl, -⟩
    rfl

/-- The source tells its position as a number. -/
theorem tell_unnoted (usual : Prop) (holds : Nat → Prop) (name : String) :
    Brings (unnotedStream usual) name (.tell .source)
      (fun disk => Onward opened disk ∧ holds (disk.tape .source).position)
      (fun answer disk => ∀ told, answer = Except.ok told →
        (∃ position : Nat, told = some (position : Int) ∧ holds position) ∧ Onward opened disk)
      (fun failure _ => usual → failure.IsReported) := by
  rintro disk answer after ⟨honward, hposition⟩ hanswer
  have hcomes := hengaged.brings_unnoted hplan (by simp) (by simp) (by simp) True name disk answer
    after ⟨honward, trivial⟩ hanswer
  refine .of_cases ?_ fun failure => hcomes.bad
  rintro - told rfl
  obtain ⟨tapes, hwhere, -⟩ := (hengaged.onward honward).truthful_unnoted hplan hanswer
  exact ⟨⟨_, hwhere, hposition⟩, honward.unnoted hanswer⟩

/-- What is measured is a position that a file can have. -/
theorem measure_unnoted {path : String} {scratch : Scratch} (honward : Onward opened disk) :
    (Stream.measure (Files.channel .source path)).Ensures (unnotedStream usual) scratch disk
      (fun size scratch' after => scratch' = scratch ∧ Onward opened after ∧
        ∃ count : Nat, size = some (count : Int) ∧ count ≤ lastPosition)
      (fun failure _ _ => usual → failure.IsReported) := by
  have hstart : Brings (unnotedStream usual) path (.tell .source) (Onward opened)
      (fun answer disk => ∀ told, answer = Except.ok told →
        (∃ position : Nat, told = some (position : Int) ∧ True) ∧ Onward opened disk)
      (fun failure _ => usual → failure.IsReported) :=
    (hengaged.tell_unnoted hplan usual (fun _ => True) path).mono
      (fun _ honward => ⟨honward, trivial⟩) fun _ _ htold => htold
  have hend : Brings (unnotedStream usual) path (.seek .source 0 Stream.fromEnd) (Onward opened)
      (fun _ disk => Onward opened disk ∧ (disk.tape .source).position ≤ lastPosition)
      (fun failure _ => usual → failure.IsReported) := by
    rintro disk answer after honward hanswer
    have hcomes := hengaged.brings_unnoted hplan (by simp) (by simp) (by simp) True path disk answer
      after ⟨honward, trivial⟩ hanswer
    refine .of_cases (fun hnone => ⟨(hcomes.good hnone).1, ?_⟩) fun failure => hcomes.bad
    obtain ⟨handle, hserves, -⟩ := hengaged.onward honward .source
    cases answer with
    | ok _ =>
        exact hserves.position_le ((hengaged.onward honward).answersHonestly hplan _) hanswer.1.symm
    | error fault => exact absurd hnone (by simp [Stream.Request.failure?])
  have htell : Brings (unnotedStream usual) path (.tell .source)
      (fun disk => Onward opened disk ∧ (disk.tape .source).position ≤ lastPosition)
      (fun answer disk => ∀ size, answer = Except.ok size → Onward opened disk ∧
        ∃ count : Nat, size = some (count : Int) ∧ count ≤ lastPosition)
      (fun failure _ => usual → failure.IsReported) :=
    (hengaged.tell_unnoted hplan usual (· ≤ lastPosition) path).mono (fun _ hbefore => hbefore)
      fun _ _ htold size hsize => (htold size hsize).symm
  have hback (size : Option Int) (start : Int) : Brings (unnotedStream usual) path
      (.seek .source start Stream.fromStart)
      (fun disk => Onward opened disk ∧ ∃ count : Nat, size = some (count : Int) ∧
        count ≤ lastPosition)
      (fun _ disk => Onward opened disk ∧ ∃ count : Nat, size = some (count : Int) ∧
        count ≤ lastPosition) (fun failure _ => usual → failure.IsReported) :=
    hengaged.brings_unnoted hplan (by simp) (by simp) (by simp) _ path
  refine Stream.measure_brings hstart hend htell hback ?_ honward
  rintro size ⟨position, hnone, -⟩
  exact absurd hnone (by simp)

end Orderly

end Engaged

end Disk

end RomImage
