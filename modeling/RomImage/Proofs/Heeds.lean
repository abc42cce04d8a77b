import RomImage.Proofs.Recorded

/-!
# Tasks that heed failed requests

A verdict says which failures an answer amounts to, if any. A task *heeds* a verdict if it ends at
once after an answer that amounts to a failure, and ends with such a failure. So at most one request
of a run has failed, the last, and it alone decides what the run comes to
(`Dialogue.Heeds.decided_by_last`).

This is a property of the task and not of who answers: nothing is assumed about the answers.
-/

namespace RomImage

abbrev Interface.Verdict (I : Interface) : Type :=
  (r : I.Request) → I.Answer r → Failure → Prop

variable {I J : Interface} {α β τ : Type} {verdict : I.Verdict}

namespace Dialogue

/-- An answer that amounts to a failure ends the dialogue with such a failure; a dialogue that ends
with a value leaves a buffer. -/
def Heeds (verdict : I.Verdict) : Dialogue I (Except Failure α × Scratch) → Prop
  | done (.ok _, scratch) => ∃ buffer, scratch = .ready buffer
  | done (.error _, _) => True
  | ask r next => ∀ answer,
    (∀ failure, ¬ verdict r answer failure) ∧ (next answer).Heeds verdict ∨
      ∃ failure scratch, verdict r answer failure ∧ next answer = done (.error failure, scratch)

theorem Heeds.bind {dialogue : Dialogue I (Except Failure α × Scratch)}
    {f : α → Scratch → Dialogue I (Except Failure β × Scratch)} (hheeds : dialogue.Heeds verdict)
    (hnext : ∀ value buffer, (f value (.ready buffer)).Heeds verdict) :
    (dialogue.bind fun
      | (.ok value, scratch) => f value scratch
      | (.error failure, scratch) => .done (.error failure, scratch)).Heeds verdict := by
  induction dialogue with
  | done result =>
      obtain ⟨outcome, scratch⟩ := result
      cases outcome with
      | ok value =>
          obtain ⟨buffer, rfl⟩ := hheeds
          exact hnext value buffer
      | error failure => trivial
  | ask r next ih =>
      intro answer
      obtain ⟨hnone, hanswer⟩ | ⟨failure, scratch, hfailed, hstops⟩ := hheeds answer
      · exact .inl ⟨hnone, ih answer hanswer⟩
      · exact .inr ⟨failure, scratch, hfailed, by dsimp only; rw [hstops, done_bind]⟩

def Route.Agrees (verdict : I.Verdict) (outer : J.Verdict) {r : I.Request} : Route I J τ r → Prop
  | .kept _ _ => True
  | .passed request back _ => ∀ answer failure,
    verdict r (back answer) failure ↔ outer request answer failure

/-- A routed dialogue heeds what the dialogue itself heeds of the requests that are passed on. -/
theorem Heeds.route {steer : (r : I.Request) → τ → Route I J τ r} {outer : J.Verdict}
    (hsteer : ∀ r kept, (steer r kept).Agrees verdict outer)
    {dialogue : Dialogue I (Except Failure α × Scratch)} (hheeds : dialogue.Heeds verdict)
    (kept : τ) :
    ((dialogue.route steer kept).bind fun (result, _) => .done result).Heeds outer := by
  induction dialogue generalizing kept with
  | done result =>
      obtain ⟨outcome, scratch⟩ := result
      cases outcome with
      | ok value => exact hheeds
      | error failure => trivial
  | ask r next ih =>
      have hstep := hsteer r kept
      rw [Dialogue.route]
      revert hstep
      cases steer r kept with
      | kept answer kept' =>
          intro _
          obtain ⟨-, hanswer⟩ | ⟨failure, scratch, -, hstops⟩ := hheeds answer
          · exact ih answer hanswer kept'
          · dsimp only
            rw [hstops]
            trivial
      | passed request back kept' =>
          intro hsame answer
          obtain ⟨hnone, hanswer⟩ | ⟨failure, scratch, hfailed, hstops⟩ := hheeds (back answer)
          · refine .inl ⟨fun failure hfailed => ?_, ih (back answer) hanswer kept'⟩
            exact hnone failure ((hsame answer failure).mpr hfailed)
          · exact .inr ⟨failure, scratch, (hsame answer failure).mp hfailed,
              by dsimp only; rw [hstops]; rfl⟩

theorem Heeds.run_recording (answer : (r : I.Request) → τ → I.Answer r × τ)
    {dialogue : Dialogue I (Except Failure α × Scratch)} (hheeds : dialogue.Heeds verdict)
    (state : τ) (calls : List I.Exchange) :
    ∃ later, (dialogue.run (recording answer) (state, calls)).2.2 = later ++ calls ∧
      ((∀ call ∈ later, ∀ failure, ¬ verdict call.1 call.2 failure) ∨
        ∃ call earlier failure, later = call :: earlier ∧ verdict call.1 call.2 failure ∧
          (∀ other ∈ earlier, ∀ failure, ¬ verdict other.1 other.2 failure) ∧
          (dialogue.run (recording answer) (state, calls)).1.1 = .error failure) := by
  induction dialogue generalizing state calls with
  | done result => exact ⟨[], rfl, .inl (by simp)⟩
  | ask r next ih =>
      obtain ⟨⟨given, after⟩, hgiven⟩ : ∃ step, answer r state = step := ⟨_, rfl⟩
      have hrun : (ask r next).run (recording answer) (state, calls)
          = (next given).run (recording answer) (after, ⟨r, given⟩ :: calls) := by
        rw [Dialogue.run, recording, hgiven]
      rw [hrun]
      obtain ⟨hnone, hanswer⟩ | ⟨failure, scratch, hfailed, hstops⟩ := hheeds given
      · -- The calls of the rest come in front of this one, which is no failure.
        have hfirst {earlier : List I.Exchange}
            (hearlier : ∀ other ∈ earlier, ∀ failure, ¬ verdict other.1 other.2 failure) :
            ∀ other ∈ earlier ++ [⟨r, given⟩], ∀ failure, ¬ verdict other.1 other.2 failure := by
          intro other hother
          obtain hother | hother := List.mem_append.mp hother
          · exact hearlier other hother
          · obtain rfl := List.mem_singleton.mp hother
            exact hnone
        obtain ⟨later, hlater, hcalls⟩ := ih given hanswer after (⟨r, given⟩ :: calls)
        refine ⟨later ++ [⟨r, given⟩], by rw [hlater, List.append_assoc]; rfl, ?_⟩
        obtain hearlier | ⟨call, earlier, failure, rfl, hfailed, hearlier, houtcome⟩ := hcalls
        · exact .inl (hfirst hearlier)
        · exact .inr
            ⟨call, earlier ++ [⟨r, given⟩], failure, rfl, hfailed, hfirst hearlier, houtcome⟩
      · rw [hstops]
        exact ⟨[⟨r, given⟩], rfl, .inr ⟨⟨r, given⟩, [], failure, rfl, hfailed, by simp, rfl⟩⟩

/-- In a recorded run no request has failed, or the last and no other has, and the run ends with its
failure. -/
theorem Heeds.decided_by_last {answer : (r : I.Request) → τ → I.Answer r × τ}
    {dialogue : Dialogue I (Except Failure α × Scratch)} (hheeds : dialogue.Heeds verdict)
    {scratch : Scratch} {state after : τ} {outcome : Except Failure α} {calls : List I.Exchange}
    (hrun : dialogue.run (recording answer) (state, []) = ((outcome, scratch), (after, calls))) :
    (∀ call ∈ calls, ∀ failure, ¬ verdict call.1 call.2 failure) ∨
      ∃ call earlier failure, calls = call :: earlier ∧ verdict call.1 call.2 failure ∧
        (∀ other ∈ earlier, ∀ failure, ¬ verdict other.1 other.2 failure) ∧
        outcome = .error failure := by
  have hends := hheeds.run_recording answer state []
  rw [hrun] at hends
  obtain ⟨later, hlater, hcalls⟩ := hends
  obtain rfl : calls = later := hlater.trans (List.append_nil _)
  exact hcalls

end Dialogue

namespace Task

def Heeds (verdict : I.Verdict) (task : Task I α) : Prop :=
  ∀ buffer, (task (.ready buffer)).Heeds verdict

namespace Heeds

theorem pure (value : α) : (pure value : Task I α).Heeds verdict :=
  fun buffer => ⟨buffer, rfl⟩

theorem fail (failure : Failure) : (fail failure : Task I α).Heeds verdict :=
  fun _ => trivial

theorem buffer [Machine] : (Task.buffer : Task I Buffer).Heeds verdict :=
  fun buffer => ⟨buffer, rfl⟩

theorem setBuffer (buffer : Buffer) : (setBuffer buffer : Task I Unit).Heeds verdict :=
  fun _ => ⟨buffer, rfl⟩

theorem bind {task : Task I α} {f : α → Task I β} (htask : task.Heeds verdict)
    (hnext : ∀ value, (f value).Heeds verdict) : (task >>= f).Heeds verdict :=
  fun buffer => (htask buffer).bind fun value => hnext value

/-- A task that begins with the buffer heeds the verdict from any scratch buffer. -/
theorem buffer_bind [Machine] {f : Buffer → Task I β} (hnext : ∀ buffer, (f buffer).Heeds verdict)
    (scratch : Scratch) : ((Task.buffer >>= f) scratch).Heeds verdict := by
  rw [bind_apply, Task.buffer]
  cases scratch.buffer with
  | ok buffer => exact hnext buffer buffer
  | error failure => trivial

/-- A request whose answers either amount to no failure or are followed by theirs at once. -/
theorem ask {r : I.Request} {f : I.Answer r → Task I β}
    (hanswer : ∀ answer, (∀ failure, ¬ verdict r answer failure) ∧ (f answer).Heeds verdict ∨
      ∃ failure, verdict r answer failure ∧
        ∀ buffer, ∃ scratch, f answer (.ready buffer) = .done (.error failure, scratch)) :
    (request r >>= f).Heeds verdict := by
  intro buffer answer
  obtain ⟨hnone, hgoes⟩ | ⟨failure, hfailed, hstops⟩ := hanswer answer
  · exact .inl ⟨hnone, hgoes buffer⟩
  · obtain ⟨scratch, hdone⟩ := hstops buffer
    exact .inr ⟨failure, scratch, hfailed, hdone⟩

theorem route {steer : (r : I.Request) → τ → Dialogue.Route I J τ r} {outer : J.Verdict}
    (hsteer : ∀ r kept, (steer r kept).Agrees verdict outer)
    {task : Task I α} (htask : task.Heeds verdict) (kept : τ) :
    (Task.route steer kept task).Heeds outer :=
  fun buffer => (htask buffer).route hsteer kept

end Heeds

end Task

end RomImage
