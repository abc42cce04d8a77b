import RomImage.Task

/-!
# What every run ensures

A conduct says which answers may come back at a request and which state may follow. A dialogue
*ensures* a postcondition if every run under the conduct ends in it, however the answers are chosen.

For a task the postcondition has two parts, one for a value and one for a failure. A failure ends
the task at once, so steps in sequence share the second part and hand on the first
(`Task.Ensures.bind`).

A conduct is a relation and leaves choices open. To answer from a state is one way of choosing:
`Dialogue.Ensures.run` carries a postcondition over to such a run, and `Task.Ensures.route` over to
a task whose requests are partly answered in place.
-/

namespace RomImage

abbrev Conduct (I : Interface) (σ : Type) : Type :=
  (r : I.Request) → σ → I.Answer r → σ → Prop

variable {I J : Interface} {α β ρ σ τ : Type}

namespace Dialogue

/-- Every run under the conduct ends with a value and a state as `post` says. -/
def Ensures (conduct : Conduct I σ) (post : α → σ → Prop) : Dialogue I α → σ → Prop
  | done value, state => post value state
  | ask r next, state =>
    ∀ answer after, conduct r state answer after → Ensures conduct post (next answer) after

variable {conduct : Conduct I σ}

theorem ensures_bind {post : β → σ → Prop} (dialogue : Dialogue I α) (f : α → Dialogue I β)
    (state : σ) :
    (dialogue.bind f).Ensures conduct post state ↔
      dialogue.Ensures conduct (fun value after => (f value).Ensures conduct post after) state := by
  induction dialogue generalizing state with
  | done value => rfl
  | ask r next ih =>
      constructor
      · intro hrun answer after hanswer
        exact (ih answer after).mp (hrun answer after hanswer)
      · intro hrun answer after hanswer
        exact (ih answer after).mpr (hrun answer after hanswer)

theorem Ensures.mono {post weaker : α → σ → Prop} {dialogue : Dialogue I α} {state : σ}
    (hrun : dialogue.Ensures conduct post state)
    (hweaker : ∀ value after, post value after → weaker value after) :
    dialogue.Ensures conduct weaker state := by
  induction dialogue generalizing state with
  | done value => exact hweaker value state hrun
  | ask r next ih =>
      intro answer after hanswer
      exact ih answer (hrun answer after hanswer)

theorem Ensures.and {post post' : α → σ → Prop} {dialogue : Dialogue I α} {state : σ}
    (hrun : dialogue.Ensures conduct post state) (hrun' : dialogue.Ensures conduct post' state) :
    dialogue.Ensures conduct (fun value after => post value after ∧ post' value after) state := by
  induction dialogue generalizing state with
  | done value => exact ⟨hrun, hrun'⟩
  | ask r next ih =>
      intro answer after hanswer
      exact ih answer (hrun answer after hanswer) (hrun' answer after hanswer)

/-- A run from a state is one of the runs under a conduct, if each of its answers is. -/
theorem Ensures.run {post : α → σ → Prop} {answer : (r : I.Request) → τ → I.Answer r × τ}
    (view : τ → σ) (inv : τ → Prop)
    (hanswer : ∀ r state, inv state →
      conduct r (view state) (answer r state).1 (view (answer r state).2) ∧
        inv (answer r state).2)
    {dialogue : Dialogue I α} {state : τ} (hinv : inv state)
    (hrun : dialogue.Ensures conduct post (view state)) :
    post (dialogue.run answer state).1 (view (dialogue.run answer state).2) ∧
      inv (dialogue.run answer state).2 := by
  induction dialogue generalizing state with
  | done value => exact ⟨hrun, hinv⟩
  | ask r next ih =>
      obtain ⟨hstep, hafter⟩ := hanswer r state hinv
      exact ih _ hafter (hrun _ _ hstep)

/-- What becomes of a request keeps to the inner conduct on two states, joined to one: an answer on
the spot does, and an answer that is carried back does if it keeps to the outer conduct. -/
def Route.Follows (outer : Conduct J σ) (inner : Conduct I ρ) (join : τ → σ → ρ) (kept : τ)
    (state : σ) {r : I.Request} : Route I J τ r → Prop
  | .kept answer kept' => inner r (join kept state) answer (join kept' state)
  | .passed request back kept' => ∀ answer after, outer request state answer after →
      inner r (join kept state) (back answer) (join kept' after)

/-- A routed dialogue ensures what the dialogue itself does on both states, joined to one. -/
theorem Ensures.route {steer : (r : I.Request) → τ → Route I J τ r} {outer : Conduct J σ}
    {inner : Conduct I ρ} (join : τ → σ → ρ) {post : α → ρ → Prop}
    (hsteer : ∀ r kept state, (steer r kept).Follows outer inner join kept state)
    {dialogue : Dialogue I α} {kept : τ} {state : σ}
    (hrun : dialogue.Ensures inner post (join kept state)) :
    (dialogue.route steer kept).Ensures outer
      (fun result after => post result.1 (join result.2 after)) state := by
  induction dialogue generalizing kept state with
  | done value => exact hrun
  | ask r next ih =>
      have hstep := hsteer r kept state
      rw [Dialogue.route]
      revert hstep
      cases steer r kept with
      | kept answer kept' =>
          intro hstep
          exact ih answer (hrun answer _ hstep)
      | passed request back kept' =>
          intro hstep answer after hanswer
          exact ih (back answer) (hrun (back answer) _ (hstep answer after hanswer))

/-- What holds of a state and is kept by every answer holds at the end of a run. -/
theorem run_preserves {answer : (r : I.Request) → τ → I.Answer r × τ} {inv : τ → Prop}
    (hanswer : ∀ r state, inv state → inv (answer r state).2) (dialogue : Dialogue I α)
    {state : τ} (hinv : inv state) : inv (dialogue.run answer state).2 := by
  induction dialogue generalizing state with
  | done value => exact hinv
  | ask r next ih => exact ih _ (hanswer r state hinv)

end Dialogue

namespace Task

def Ensures (conduct : Conduct I σ) (task : Task I α) (scratch : Scratch) (state : σ)
    (good : α → Scratch → σ → Prop) (bad : Failure → Scratch → σ → Prop) : Prop :=
  (task scratch).Ensures conduct (fun result after =>
    match result with
    | (.ok value, scratch) => good value scratch after
    | (.error failure, scratch) => bad failure scratch after) state

variable {conduct : Conduct I σ} {scratch : Scratch} {state : σ}
  {good good' : α → Scratch → σ → Prop} {bad bad' : Failure → Scratch → σ → Prop}

theorem ensures_pure {value : α} (hgood : good value scratch state) :
    (pure value : Task I α).Ensures conduct scratch state good bad :=
  hgood

theorem ensures_fail {failure : Failure} (hbad : bad failure scratch state) :
    (fail failure : Task I α).Ensures conduct scratch state good bad :=
  hbad

theorem ensures_request (r : I.Request) :
    (request r).Ensures conduct scratch state
      (fun answer scratch' after => scratch' = scratch ∧ conduct r state answer after) bad :=
  fun _ _ hanswer => ⟨rfl, hanswer⟩

theorem ensures_buffer [Machine] {buffer : Buffer} (hbuffer : scratch.buffer = .ok buffer) :
    (Task.buffer : Task I Buffer).Ensures conduct scratch state
      (fun value scratch' after => value = buffer ∧ scratch' = .ready buffer ∧ after = state)
      bad := by
  simp only [Ensures, Task.buffer, hbuffer]
  exact ⟨rfl, rfl, rfl⟩

theorem ensures_setBuffer {good : Unit → Scratch → σ → Prop} {buffer : Buffer}
    (hgood : good () (.ready buffer) state) :
    (setBuffer buffer : Task I Unit).Ensures conduct scratch state good bad :=
  hgood

theorem Ensures.bind {task : Task I α} {f : α → Task I β} {middle : α → Scratch → σ → Prop}
    {good : β → Scratch → σ → Prop}
    (htask : task.Ensures conduct scratch state middle bad)
    (hnext : ∀ value scratch after, middle value scratch after →
      (f value).Ensures conduct scratch after good bad) :
    (task >>= f).Ensures conduct scratch state good bad := by
  rw [Ensures, bind_apply, Dialogue.ensures_bind]
  refine htask.mono ?_
  rintro ⟨outcome, scratch⟩ after hmiddle
  cases outcome with
  | ok value => exact hnext value scratch after hmiddle
  | error failure => exact hmiddle

theorem Ensures.mono {task : Task I α} (htask : task.Ensures conduct scratch state good bad)
    (hgood : ∀ value scratch after, good value scratch after → good' value scratch after)
    (hbad : ∀ failure scratch after, bad failure scratch after → bad' failure scratch after) :
    task.Ensures conduct scratch state good' bad' := by
  refine Dialogue.Ensures.mono htask ?_
  rintro ⟨outcome, scratch⟩ after hpost
  cases outcome with
  | ok value => exact hgood value scratch after hpost
  | error failure => exact hbad failure scratch after hpost

theorem Ensures.bad_mono {task : Task I α} (htask : task.Ensures conduct scratch state good bad)
    (hbad : ∀ failure scratch after, bad failure scratch after → bad' failure scratch after) :
    task.Ensures conduct scratch state good bad' :=
  htask.mono (fun _ _ _ hgood => hgood) hbad

theorem Ensures.and {task : Task I α} (htask : task.Ensures conduct scratch state good bad)
    (htask' : task.Ensures conduct scratch state good' bad') :
    task.Ensures conduct scratch state
      (fun value scratch after => good value scratch after ∧ good' value scratch after)
      (fun failure scratch after => bad failure scratch after ∧ bad' failure scratch after) := by
  refine (Dialogue.Ensures.and htask htask').mono ?_
  rintro ⟨outcome, scratch⟩ after hpost
  cases outcome with
  | ok value => exact hpost
  | error failure => exact hpost

/-- The run of a task from a state ends as every run under the conduct does. -/
theorem Ensures.run {answer : (r : I.Request) → τ → I.Answer r × τ} (view : τ → σ)
    (inv : τ → Prop)
    (hanswer : ∀ r state, inv state →
      conduct r (view state) (answer r state).1 (view (answer r state).2) ∧
        inv (answer r state).2)
    {task : Task I α} (state : τ) (hinv : inv state)
    (htask : task.Ensures conduct scratch (view state) good bad) :
    (∃ value scratch' after, (task scratch).run answer state = ((.ok value, scratch'), after) ∧
        good value scratch' (view after)) ∨
      ∃ failure scratch' after,
        (task scratch).run answer state = ((.error failure, scratch'), after) ∧
        bad failure scratch' (view after) := by
  have hpost := (Dialogue.Ensures.run view inv hanswer hinv htask).1
  revert hpost
  generalize (task scratch).run answer state = result
  obtain ⟨⟨outcome, scratch'⟩, after⟩ := result
  intro hpost
  cases outcome with
  | ok value => exact .inl ⟨value, scratch', after, rfl, hpost⟩
  | error failure => exact .inr ⟨failure, scratch', after, rfl, hpost⟩

/-- A task whose requests are partly answered in place ensures what it does on both states. -/
theorem Ensures.route {steer : (r : I.Request) → τ → Dialogue.Route I J τ r} {outer : Conduct J σ}
    {inner : Conduct I ρ} (join : τ → σ → ρ) {good : α → Scratch → ρ → Prop}
    {bad : Failure → Scratch → ρ → Prop}
    (hsteer : ∀ r kept state, (steer r kept).Follows outer inner join kept state)
    {task : Task I α} {kept : τ} {state : σ}
    (htask : task.Ensures inner scratch (join kept state) good bad) :
    (Task.route steer kept task).Ensures outer scratch state
      (fun value scratch' after => ∃ kept', good value scratch' (join kept' after))
      (fun failure scratch' after => ∃ kept', bad failure scratch' (join kept' after)) := by
  rw [Ensures, Task.route, Dialogue.ensures_bind]
  refine (Dialogue.Ensures.route join hsteer htask).mono ?_
  rintro ⟨⟨outcome, scratch'⟩, kept'⟩ after hpost
  cases outcome with
  | ok value => exact ⟨kept', hpost⟩
  | error failure => exact ⟨kept', hpost⟩

section Run

variable {answer : (r : I.Request) → σ → I.Answer r × σ} {scratch scratch' : Scratch}
  {state after : σ}

theorem run_bind_ok {task : Task I α} {f : α → Task I β} {value : α}
    (htask : (task scratch).run answer state = ((.ok value, scratch'), after)) :
    ((task >>= f) scratch).run answer state = (f value scratch').run answer after := by
  rw [bind_apply, Dialogue.run_bind, htask]

theorem run_bind_error {task : Task I α} {f : α → Task I β} {failure : Failure}
    (htask : (task scratch).run answer state = ((.error failure, scratch'), after)) :
    ((task >>= f) scratch).run answer state = ((.error failure, scratch'), after) := by
  rw [bind_apply, Dialogue.run_bind, htask]
  rfl

theorem run_attempt {task : Task I α} {outcome : Except Failure α}
    (htask : (task scratch).run answer state = ((outcome, scratch'), after)) :
    (task.attempt scratch).run answer state = ((.ok outcome, scratch'), after) := by
  rw [attempt, Dialogue.run_bind, htask]
  rfl

variable {state' : σ}

theorem run_bind_congr {task : Task I α} {f : α → Task I β}
    (htask : (task scratch).run answer state = (task scratch).run answer state') :
    ((task >>= f) scratch).run answer state = ((task >>= f) scratch).run answer state' := by
  rw [bind_apply, Dialogue.run_bind, Dialogue.run_bind, htask]

theorem run_attempt_congr {task : Task I α}
    (htask : (task scratch).run answer state = (task scratch).run answer state') :
    (task.attempt scratch).run answer state = (task.attempt scratch).run answer state' := by
  rw [attempt, Dialogue.run_bind, Dialogue.run_bind, htask]

end Run

end Task

end RomImage
