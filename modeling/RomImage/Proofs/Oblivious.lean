import RomImage.Task

/-!
# Tasks that do not see what their buffer holds

Two dialogues go *in step* if they make the same requests as long as the answers to them are fair,
and end with values that are related. Nothing that answers fairly can tell them apart: from one
state it gives the same answers to both and ends in one state (`Dialogue.InStep.run`).

A task is *oblivious* if it goes in step with itself from any two buffers of one length, comes to
one outcome, and leaves buffers of one length again. What a buffer holds is then not handed on by
the outcome either, so that oblivious tasks in sequence are oblivious (`Task.Oblivious.bind`).
-/

namespace RomImage

variable {I J : Interface} {α β γ δ σ τ : Type}

abbrev Interface.Fairness (I : Interface) : Type :=
  (r : I.Request) → I.Answer r → Prop

variable {fair : I.Fairness}

namespace Dialogue

/-- Two dialogues make the same requests along fair answers, and end with related values. -/
inductive InStep (fair : I.Fairness) (related : α → β → Prop) :
    Dialogue I α → Dialogue I β → Prop
  | done {value : α} {value' : β} (hvalues : related value value') :
    InStep fair related (done value) (done value')
  | ask (r : I.Request) {next : I.Answer r → Dialogue I α} {next' : I.Answer r → Dialogue I β}
    (hnext : ∀ answer, fair r answer → InStep fair related (next answer) (next' answer)) :
    InStep fair related (ask r next) (ask r next')

/-- The answer to a request that is routed is fair: it is one on the spot that is, or one that is
carried back and is fair if it was so where it was given. -/
def Route.Fair (outer : J.Fairness) (fair : I.Fairness) {r : I.Request} : Route I J τ r → Prop
  | .kept answer _ => fair r answer
  | .passed request back _ => ∀ answer, outer request answer → fair r (back answer)

namespace InStep

variable {related : α → β → Prop} {dialogue : Dialogue I α} {dialogue' : Dialogue I β}

theorem bind {related' : γ → δ → Prop} {f : α → Dialogue I γ} {f' : β → Dialogue I δ}
    (hstep : dialogue.InStep fair related dialogue')
    (hnext : ∀ value value', related value value' → (f value).InStep fair related' (f' value')) :
    (dialogue.bind f).InStep fair related' (dialogue'.bind f') := by
  induction hstep with
  | done hvalues => exact hnext _ _ hvalues
  | ask r _ ih => exact .ask r ih

/-- Dialogues in step stay so when some of their requests are answered from one state. -/
theorem route {steer : (r : I.Request) → τ → Route I J τ r} {outer : J.Fairness}
    (hsteer : ∀ r kept, (steer r kept).Fair outer fair)
    (hstep : dialogue.InStep fair related dialogue') (kept : τ) :
    (dialogue.route steer kept).InStep outer
      (fun result result' => related result.1 result'.1 ∧ result.2 = result'.2)
      (dialogue'.route steer kept) := by
  induction hstep generalizing kept with
  | done hvalues => exact .done ⟨hvalues, rfl⟩
  | ask r _ ih =>
      have hfair := hsteer r kept
      rw [Dialogue.route, Dialogue.route]
      revert hfair
      cases steer r kept with
      | kept answer kept' => exact fun hfair => ih answer hfair kept'
      | passed request back kept' =>
          exact fun hfair => .ask request fun answer hanswer => ih _ (hfair answer hanswer) kept'

/-- What answers fairly cannot tell dialogues in step apart. -/
theorem run {answer : (r : I.Request) → σ → I.Answer r × σ}
    (hanswer : ∀ r state, fair r (answer r state).1)
    (hstep : dialogue.InStep fair related dialogue') (state : σ) :
    related (dialogue.run answer state).1 (dialogue'.run answer state).1 ∧
      (dialogue.run answer state).2 = (dialogue'.run answer state).2 := by
  induction hstep generalizing state with
  | done hvalues => exact ⟨hvalues, rfl⟩
  | ask r _ ih => exact ih _ (hanswer r state) _

end InStep

end Dialogue

def Scratch.SameLength (scratch scratch' : Scratch) : Prop :=
  ∃ buffer buffer', scratch = .ready buffer ∧ scratch' = .ready buffer' ∧
    buffer.length = buffer'.length

namespace Task

def SameEnding (result result' : Except Failure α × Scratch) : Prop :=
  result.1 = result'.1 ∧ result.2.SameLength result'.2

/-- What comes after a request need only go in step for fair answers. -/
theorem inStep_request_bind
    {related : Except Failure α × Scratch → Except Failure α × Scratch → Prop} {r : I.Request}
    {f : I.Answer r → Task I α} {scratch scratch' : Scratch}
    (hnext : ∀ answer, fair r answer →
      (f answer scratch).InStep fair related (f answer scratch')) :
    ((request r >>= f) scratch).InStep fair related ((request r >>= f) scratch') :=
  .ask r hnext

def Oblivious (fair : I.Fairness) (task : Task I α) : Prop :=
  ∀ scratch scratch', scratch.SameLength scratch' →
    (task scratch).InStep fair SameEnding (task scratch')

namespace Oblivious

theorem pure (value : α) : (pure value : Task I α).Oblivious fair :=
  fun _ _ hscratch => .done ⟨rfl, hscratch⟩

theorem fail (failure : Failure) : (fail failure : Task I α).Oblivious fair :=
  fun _ _ hscratch => .done ⟨rfl, hscratch⟩

theorem ofExcept (outcome : Except Failure α) : (ofExcept outcome : Task I α).Oblivious fair := by
  cases outcome with
  | ok value => exact pure value
  | error failure => exact fail failure

theorem bind {task : Task I α} {f : α → Task I β} (htask : task.Oblivious fair)
    (hnext : ∀ value, (f value).Oblivious fair) : (task >>= f).Oblivious fair := by
  intro scratch scratch' hscratch
  rw [bind_apply, bind_apply]
  refine (htask scratch scratch' hscratch).bind ?_
  rintro ⟨outcome, after⟩ ⟨_, after'⟩ ⟨rfl, hafter⟩
  cases outcome with
  | ok value => exact hnext value after after' hafter
  | error failure => exact .done ⟨rfl, hafter⟩

theorem request (r : I.Request) : (request r).Oblivious fair :=
  fun _ _ hscratch => .ask r fun _ _ => .done ⟨rfl, hscratch⟩

/-- What comes after a look at the buffer must go in step from buffers of one length, whatever it
makes of what they hold. -/
theorem buffer_bind [Machine] {f : Buffer → Task I α}
    (hnext : ∀ buffer buffer' : Buffer, buffer.length = buffer'.length →
      (f buffer (.ready buffer)).InStep fair SameEnding (f buffer' (.ready buffer'))) :
    (buffer >>= f).Oblivious fair := by
  rintro _ _ ⟨buffer, buffer', rfl, rfl, hlength⟩
  exact hnext buffer buffer' hlength

/-- To know how long the buffer is, is not to know what it holds. -/
theorem length_bind [Machine] {f : Buffer → Task I α}
    (hlength : ∀ buffer buffer' : Buffer, buffer.length = buffer'.length → f buffer = f buffer')
    (hnext : ∀ buffer, (f buffer).Oblivious fair) : (buffer >>= f).Oblivious fair := by
  refine buffer_bind fun buffer buffer' hsame => ?_
  rw [hlength buffer buffer' hsame]
  exact hnext buffer' _ _ ⟨buffer, buffer', rfl, rfl, hsame⟩

theorem attempt {task : Task I α} (htask : task.Oblivious fair) :
    task.attempt.Oblivious fair := by
  intro scratch scratch' hscratch
  refine (htask scratch scratch' hscratch).bind ?_
  rintro ⟨outcome, after⟩ ⟨_, after'⟩ ⟨rfl, hafter⟩
  exact .done ⟨rfl, hafter⟩

theorem route {steer : (r : I.Request) → τ → Dialogue.Route I J τ r} {outer : J.Fairness}
    (hsteer : ∀ r kept, (steer r kept).Fair outer fair) {task : Task I α}
    (htask : task.Oblivious fair) (kept : τ) : (Task.route steer kept task).Oblivious outer := by
  intro scratch scratch' hscratch
  refine ((htask scratch scratch' hscratch).route hsteer kept).bind ?_
  rintro ⟨result, _⟩ ⟨result', _⟩ ⟨hsame, -⟩
  exact .done hsame

/-- From buffers of one length an oblivious task has one outcome and leaves one state behind. -/
theorem run {answer : (r : I.Request) → σ → I.Answer r × σ}
    (hanswer : ∀ r state, fair r (answer r state).1) {task : Task I α}
    (htask : task.Oblivious fair) {buffer buffer' : Buffer}
    (hlength : buffer.length = buffer'.length) (state : σ) :
    ∃ outcome left left' after,
      (task (.ready buffer)).run answer state = ((outcome, .ready left), after) ∧
      (task (.ready buffer')).run answer state = ((outcome, .ready left'), after) ∧
      left.length = left'.length := by
  have hends := (htask (.ready buffer) (.ready buffer') ⟨_, _, rfl, rfl, hlength⟩).run hanswer state
  revert hends
  generalize (task (.ready buffer)).run answer state = ending
  generalize (task (.ready buffer')).run answer state = ending'
  obtain ⟨⟨outcome, scratch⟩, after⟩ := ending
  obtain ⟨⟨outcome', scratch'⟩, after'⟩ := ending'
  rintro ⟨⟨rfl, left, left', rfl, rfl, hleft⟩, rfl⟩
  exact ⟨outcome, left, left', after, rfl, rfl, hleft⟩

end Oblivious

end Task

end RomImage
