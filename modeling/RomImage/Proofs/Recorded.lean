import RomImage.Proofs.Requests

/-!
# Recorded runs

A run can be recorded: every request is put, with its answer, in front of the earlier ones. What
every dialogue with a record ensures holds of the record of a run, whoever gave the answers. A
conduct may count on something about the answers, and then that has to hold of the record
(`Task.Ensures.run_recording`).
-/

namespace RomImage

abbrev Interface.Exchange (I : Interface) : Type :=
  (r : I.Request) × I.Answer r

variable {I : Interface} {α σ : Type}

def recorded : Conduct I (List I.Exchange) :=
  fun r calls answer after => after = ⟨r, answer⟩ :: calls

/-- Answers as before and puts every request with its answer in front of the earlier ones. -/
def recording (answer : (r : I.Request) → σ → I.Answer r × σ) (r : I.Request)
    (state : σ × List I.Exchange) : I.Answer r × (σ × List I.Exchange) :=
  ((answer r state.1).1, ((answer r state.1).2, ⟨r, (answer r state.1).1⟩ :: state.2))

namespace Dialogue

variable {answer : (r : I.Request) → σ → I.Answer r × σ}

theorem mem_run_recording (dialogue : Dialogue I α) (state : σ) {calls : List I.Exchange}
    {call : I.Exchange} (hcall : call ∈ calls) :
    call ∈ (dialogue.run (recording answer) (state, calls)).2.2 := by
  have hkept (r : I.Request) (between : σ × List I.Exchange) (hearlier : call ∈ between.2) :
      call ∈ (recording answer r between).2.2 := List.mem_cons_of_mem _ hearlier
  exact dialogue.run_preserves hkept hcall

/-- What holds of every answer holds of those that are recorded. -/
theorem forall_run_recording {fine : I.Exchange → Prop}
    (hanswer : ∀ r state, fine ⟨r, (answer r state).1⟩) (dialogue : Dialogue I α) (state : σ) :
    ∀ call ∈ (dialogue.run (recording answer) (state, [])).2.2, fine call := by
  have hkept (r : I.Request) (between : σ × List I.Exchange)
      (hearlier : ∀ call ∈ between.2, fine call) :
      ∀ call ∈ (recording answer r between).2.2, fine call :=
    List.forall_mem_cons.mpr ⟨hanswer r between.1, hearlier⟩
  exact dialogue.run_preserves hkept (by simp)

theorem Ensures.run_recording {fine : I.Exchange → Prop} {conduct : Conduct I (List I.Exchange)}
    (hanswer : ∀ r state calls, fine ⟨r, (answer r state).1⟩ →
      conduct r calls (answer r state).1 (⟨r, (answer r state).1⟩ :: calls))
    {post : α → List I.Exchange → Prop} {dialogue : Dialogue I α} {calls : List I.Exchange}
    (hrun : dialogue.Ensures conduct post calls) (state : σ)
    (hfine : ∀ call ∈ (dialogue.run (recording answer) (state, calls)).2.2, fine call) :
    post (dialogue.run (recording answer) (state, calls)).1
      (dialogue.run (recording answer) (state, calls)).2.2 := by
  induction dialogue generalizing state calls with
  | done value => exact hrun
  | ask r next ih =>
      have hcall := hfine ⟨r, (answer r state).1⟩
        (mem_run_recording (next _) _ (List.mem_cons_self ..))
      exact ih _ (hrun _ _ (hanswer r state calls hcall)) _ hfine

end Dialogue

namespace Task

variable {scratch scratch' : Scratch} {calls : List I.Exchange} {task : Task I α}

/-- What is ensured under a conduct that every fine answer keeps to holds of the record of a run
with fine answers only. -/
theorem Ensures.run_recording {answer : (r : I.Request) → σ → I.Answer r × σ}
    {fine : I.Exchange → Prop} {conduct : Conduct I (List I.Exchange)}
    (hanswer : ∀ r state calls, fine ⟨r, (answer r state).1⟩ →
      conduct r calls (answer r state).1 (⟨r, (answer r state).1⟩ :: calls))
    {good : α → Scratch → List I.Exchange → Prop} {bad : Failure → Scratch → List I.Exchange → Prop}
    (htask : task.Ensures conduct scratch [] good bad) {state after : σ}
    {outcome : Except Failure α}
    (hrun : (task scratch).run (recording answer) (state, [])
      = ((outcome, scratch'), (after, calls)))
    (hfine : ∀ call ∈ calls, fine call) :
    match outcome with
    | .ok value => good value scratch' calls
    | .error failure => bad failure scratch' calls := by
  have hends := Dialogue.Ensures.run_recording hanswer htask state
  rw [hrun] at hends
  cases outcome with
  | ok value => exact hends hfine
  | error failure => exact hends hfine

theorem AsksOnly.run_recording {answer : (r : I.Request) → σ → I.Answer r × σ}
    {kind : I.Request → Prop} (hasks : task.AsksOnly kind) {state after : σ}
    {outcome : Except Failure α}
    (hrun : (task scratch).run (recording answer) (state, [])
      = ((outcome, scratch'), (after, calls))) : ∀ call ∈ calls, kind call.1 := by
  have hkept : task.Ensures recorded scratch [] (fun _ _ after => ∀ call ∈ after, kind call.1)
      (fun _ _ after => ∀ call ∈ after, kind call.1) := by
    refine hasks.ensures ?_ (by simp)
    rintro r calls answer _ hkind hearlier rfl
    exact List.forall_mem_cons.mpr ⟨hkind, hearlier⟩
  have hends := hkept.run_recording (fun _ _ _ _ => rfl) hrun fun _ _ => trivial
  cases outcome with
  | ok value => exact hends
  | error failure => exact hends

end Task

end RomImage
