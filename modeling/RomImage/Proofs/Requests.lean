import RomImage.Proofs.Ensures

/-!
# Which requests a task makes

What a dialogue may ask for can be read off it without knowing a single answer: it *asks only*
requests of a kind if no choice of answers leads it to another, and it asks for one kind *and then*
for another if no request of the first kind follows one of the second.

A conduct says something about every request there is. `Ensures.narrow` lets a dialogue ensure its
postcondition under a conduct that speaks only of the requests that it makes, which is what a state
in which the others would go wrong can offer (`Ensures.rephrase`).
-/

namespace RomImage

variable {I J : Interface} {α β σ τ : Type}

namespace Dialogue

variable {kind first second : I.Request → Prop}

def Throughout (fine : (r : I.Request) → σ → Prop) (answer : (r : I.Request) → σ → I.Answer r × σ) :
    Dialogue I α → σ → Prop
  | done _, _ => True
  | ask r next, state =>
    fine r state ∧ Throughout fine answer (next (answer r state).1) (answer r state).2

instance decidableThroughout {fine : (r : I.Request) → σ → Prop}
    [∀ r state, Decidable (fine r state)] {answer : (r : I.Request) → σ → I.Answer r × σ} :
    (dialogue : Dialogue I α) → (state : σ) → Decidable (dialogue.Throughout fine answer state)
  | done _, _ => .isTrue trivial
  | ask r next, state =>
    @instDecidableAnd (fine r state) _ _
      (decidableThroughout (next (answer r state).1) (answer r state).2)

def AsksOnly (kind : I.Request → Prop) : Dialogue I α → Prop
  | done _ => True
  | ask r next => kind r ∧ ∀ answer, AsksOnly kind (next answer)

/-- Whatever the answers are, the requests are of the first kind up to some point, and of the second
kind from there on. -/
def AsksThen (first second : I.Request → Prop) : Dialogue I α → Prop
  | done _ => True
  | ask r next =>
    AsksOnly second (ask r next) ∨ first r ∧ ∀ answer, AsksThen first second (next answer)

theorem AsksOnly.of_forall (hall : ∀ r, kind r) (dialogue : Dialogue I α) :
    dialogue.AsksOnly kind := by
  induction dialogue with
  | done value => trivial
  | ask r next ih => exact ⟨hall r, ih⟩

theorem AsksOnly.bind {dialogue : Dialogue I α} {f : α → Dialogue I β}
    (hasks : dialogue.AsksOnly kind) (hnext : ∀ value, (f value).AsksOnly kind) :
    (dialogue.bind f).AsksOnly kind := by
  induction dialogue with
  | done value => exact hnext value
  | ask r next ih => exact ⟨hasks.1, fun answer => ih answer (hasks.2 answer)⟩

theorem AsksThen.of_asksOnly {dialogue : Dialogue I α} (hasks : dialogue.AsksOnly second) :
    dialogue.AsksThen first second := by
  cases dialogue with
  | done value => trivial
  | ask r next => exact .inl hasks

theorem AsksThen.bind_left {dialogue : Dialogue I α} {f : α → Dialogue I β}
    (hasks : dialogue.AsksOnly first) (hnext : ∀ value, (f value).AsksThen first second) :
    (dialogue.bind f).AsksThen first second := by
  induction dialogue with
  | done value => exact hnext value
  | ask r next ih => exact .inr ⟨hasks.1, fun answer => ih answer (hasks.2 answer)⟩

theorem AsksThen.bind_right {dialogue : Dialogue I α} {f : α → Dialogue I β}
    (hasks : dialogue.AsksThen first second) (hnext : ∀ value, (f value).AsksOnly second) :
    (dialogue.bind f).AsksThen first second := by
  induction dialogue with
  | done value => exact .of_asksOnly (hnext value)
  | ask r next ih =>
      obtain hasks | ⟨hrequest, hasks⟩ := hasks
      · exact .inl (hasks.bind hnext)
      · exact .inr ⟨hrequest, fun answer => ih answer (hasks answer)⟩

theorem AsksThen.asksOnly {dialogue : Dialogue I α} (hasks : dialogue.AsksThen kind kind) :
    dialogue.AsksOnly kind := by
  induction dialogue with
  | done value => trivial
  | ask r next ih =>
      obtain hasks | ⟨hrequest, hasks⟩ := hasks
      · exact hasks
      · exact ⟨hrequest, fun answer => ih answer (hasks answer)⟩

theorem AsksOnly.rephrase {say : I.Request → J.Request}
    {back : (r : I.Request) → J.Answer (say r) → I.Answer r} {kind : J.Request → Prop}
    {dialogue : Dialogue I α} (hasks : dialogue.AsksOnly fun r => kind (say r)) :
    (dialogue.rephrase say back).AsksOnly kind := by
  induction dialogue with
  | done value => trivial
  | ask r next ih => exact ⟨hasks.1, fun answer => ih _ (hasks.2 _)⟩

def Route.Within (kind : J.Request → Prop) {r : I.Request} : Route I J τ r → Prop
  | .kept _ _ => True
  | .passed request _ _ => kind request

theorem AsksOnly.route {steer : (r : I.Request) → τ → Route I J τ r} {outer : J.Request → Prop}
    (hsteer : ∀ r kept, kind r → (steer r kept).Within outer) {dialogue : Dialogue I α}
    (hasks : dialogue.AsksOnly kind) (kept : τ) : (dialogue.route steer kept).AsksOnly outer := by
  induction dialogue generalizing kept with
  | done value => trivial
  | ask r next ih =>
      have hstep := hsteer r kept hasks.1
      rw [Dialogue.route]
      revert hstep
      cases steer r kept with
      | kept answer kept' => exact fun _ => ih answer (hasks.2 answer) kept'
      | passed request back kept' =>
          exact fun hrequest => ⟨hrequest, fun answer => ih _ (hasks.2 _) kept'⟩

theorem AsksThen.route {steer : (r : I.Request) → τ → Route I J τ r}
    {outer outer' : J.Request → Prop} (hfirst : ∀ r kept, first r → (steer r kept).Within outer)
    (hsecond : ∀ r kept, second r → (steer r kept).Within outer') {dialogue : Dialogue I α}
    (hasks : dialogue.AsksThen first second) (kept : τ) :
    (dialogue.route steer kept).AsksThen outer outer' := by
  induction dialogue generalizing kept with
  | done value => trivial
  | ask r next ih =>
      obtain hasks | ⟨hrequest, hasks⟩ := hasks
      · exact .of_asksOnly (hasks.route hsecond kept)
      · have hstep := hfirst r kept hrequest
        rw [Dialogue.route]
        revert hstep
        cases steer r kept with
        | kept answer kept' => exact fun _ => ih answer (hasks answer) kept'
        | passed request back kept' =>
            exact fun hrequest => .inr ⟨hrequest, fun answer => ih _ (hasks _) kept'⟩

section Ensures

variable {conduct looser : Conduct I σ} {post : α → σ → Prop} {state : σ}

/-- What the requests of the kind keep holds at the end of every run that asks for no others. -/
theorem AsksOnly.ensures {inv : σ → Prop}
    (hkeeps : ∀ r state answer after, kind r → inv state → conduct r state answer after → inv after)
    {dialogue : Dialogue I α} (hasks : dialogue.AsksOnly kind) (hinv : inv state) :
    dialogue.Ensures conduct (fun _ after => inv after) state := by
  induction dialogue generalizing state with
  | done value => exact hinv
  | ask r next ih =>
      intro answer after hanswer
      exact ih answer (hasks.2 answer) (hkeeps r state answer after hasks.1 hinv hanswer)

/-- What the requests of the kind neither see nor touch, a run that asks for no others leaves as it
is. -/
theorem AsksOnly.run_comm {answer : (r : I.Request) → σ → I.Answer r × σ} (other : σ → σ)
    (hcomm : ∀ r state, kind r →
      answer r (other state) = ((answer r state).1, other (answer r state).2))
    {dialogue : Dialogue I α} (hasks : dialogue.AsksOnly kind) (state : σ) :
    dialogue.run answer (other state)
      = ((dialogue.run answer state).1, other (dialogue.run answer state).2) := by
  induction dialogue generalizing state with
  | done value => rfl
  | ask r next ih =>
      rw [run, run, hcomm r state hasks.1]
      exact ih _ (hasks.2 _) _

/-- Two kinds of requests may keep two things, the first of which implies the second. -/
theorem AsksThen.ensures {inv inv' : σ → Prop}
    (hfirst : ∀ r state answer after, first r → inv state → conduct r state answer after →
      inv after)
    (hsecond : ∀ r state answer after, second r → inv' state → conduct r state answer after →
      inv' after)
    (himplies : ∀ state, inv state → inv' state) {dialogue : Dialogue I α}
    (hasks : dialogue.AsksThen first second) (hinv : inv state) :
    dialogue.Ensures conduct (fun _ after => inv' after) state := by
  induction dialogue generalizing state with
  | done value => exact himplies state hinv
  | ask r next ih =>
      obtain hasks | ⟨hrequest, hasks⟩ := hasks
      -- From here on the second kind is asked for, which keeps no more than the weaker invariant.
      · exact hasks.ensures hsecond (himplies state hinv)
      · intro answer after hanswer
        exact ih answer (hasks answer) (hfirst r state answer after hrequest hinv hanswer)

theorem Ensures.of_forall (hpost : ∀ value after, post value after) (dialogue : Dialogue I α)
    (state : σ) : dialogue.Ensures conduct post state := by
  induction dialogue generalizing state with
  | done value => exact hpost value state
  | ask r next ih => exact fun answer after _ => ih answer after

/-- A dialogue ensures what it does on a view of the states, if the requests that it makes are
answered as they would be there. -/
theorem Ensures.of_view {outer : Conduct I τ} (view : τ → σ) (inv : τ → Prop)
    (hstep : ∀ r state answer after, kind r → inv state → outer r state answer after →
      conduct r (view state) answer (view after) ∧ inv after)
    {dialogue : Dialogue I α} (hasks : dialogue.AsksOnly kind) {state : τ} (hinv : inv state)
    (hrun : dialogue.Ensures conduct post (view state)) :
    dialogue.Ensures outer (fun value after => post value (view after) ∧ inv after) state := by
  induction dialogue generalizing state with
  | done value => exact ⟨hrun, hinv⟩
  | ask r next ih =>
      intro answer after hanswer
      obtain ⟨hkept, hafter⟩ := hstep r state answer after hasks.1 hinv hanswer
      exact ih _ (hasks.2 _) hafter (hrun _ _ hkept)

/-- A conduct need only be kept at the requests that are made. -/
theorem Ensures.narrow {dialogue : Dialogue I α} (hrun : dialogue.Ensures conduct post state)
    (hasks : dialogue.AsksOnly kind)
    (hlooser : ∀ r state answer after, kind r → looser r state answer after →
      conduct r state answer after) :
    dialogue.Ensures looser post state := by
  refine (Ensures.of_view id (fun _ => True) ?_ hasks trivial hrun).mono fun _ _ hpost => hpost.1
  intro r state answer after hkind _ hanswer
  exact ⟨hlooser r state answer after hkind hanswer, trivial⟩

/-- A dialogue in another vocabulary ensures what it does in its own. -/
theorem Ensures.rephrase {say : I.Request → J.Request}
    {back : (r : I.Request) → J.Answer (say r) → I.Answer r} {outer : Conduct J σ}
    (hsay : ∀ r state answer after, outer (say r) state answer after →
      conduct r state (back r answer) after)
    {dialogue : Dialogue I α} (hrun : dialogue.Ensures conduct post state) :
    (dialogue.rephrase say back).Ensures outer post state := by
  induction dialogue generalizing state with
  | done value => exact hrun
  | ask r next ih =>
      intro answer after hanswer
      exact ih _ (hrun _ _ (hsay r state answer after hanswer))

/-- A run ends as the dialogue ensures under a conduct that may count on `fine` if it is calm. -/
theorem Ensures.run_throughout {answer : (r : I.Request) → σ → I.Answer r × σ}
    {fine : (r : I.Request) → σ → Prop} {calm : Prop}
    (hanswer : ∀ r state, (calm → fine r state) →
      conduct r state (answer r state).1 (answer r state).2)
    {dialogue : Dialogue I α} (hrun : dialogue.Ensures conduct post state)
    (hfine : calm → dialogue.Throughout fine answer state) :
    post (dialogue.run answer state).1 (dialogue.run answer state).2 := by
  induction dialogue generalizing state with
  | done value => exact hrun
  | ask r next ih =>
      have hstep := hanswer r state fun hcalm => (hfine hcalm).1
      exact ih _ (hrun _ _ hstep) fun hcalm => (hfine hcalm).2

end Ensures

end Dialogue

namespace Task

variable {kind first second : I.Request → Prop}

def AsksOnly (kind : I.Request → Prop) (task : Task I α) : Prop :=
  ∀ scratch, (task scratch).AsksOnly kind

def AsksThen (first second : I.Request → Prop) (task : Task I α) : Prop :=
  ∀ scratch, (task scratch).AsksThen first second

namespace AsksOnly

theorem of_forall (hall : ∀ r, kind r) (task : Task I α) : task.AsksOnly kind :=
  fun scratch => .of_forall hall (task scratch)

theorem pure (value : α) : (pure value : Task I α).AsksOnly kind :=
  fun _ => trivial

theorem fail (failure : Failure) : (fail failure : Task I α).AsksOnly kind :=
  fun _ => trivial

theorem ofExcept (outcome : Except Failure α) : (ofExcept outcome : Task I α).AsksOnly kind := by
  cases outcome with
  | ok value => exact pure value
  | error failure => exact fail failure

theorem buffer [Machine] : (Task.buffer : Task I Buffer).AsksOnly kind := by
  intro scratch
  rw [Task.buffer]
  split
  · trivial
  · trivial

theorem setBuffer (buffer : Buffer) : (setBuffer buffer : Task I Unit).AsksOnly kind :=
  fun _ => trivial

theorem request {r : I.Request} (hkind : kind r) : (request r).AsksOnly kind :=
  fun _ => ⟨hkind, fun _ => trivial⟩

theorem bind {task : Task I α} {f : α → Task I β} (htask : task.AsksOnly kind)
    (hnext : ∀ value, (f value).AsksOnly kind) : (task >>= f).AsksOnly kind := by
  intro scratch
  rw [bind_apply]
  refine (htask scratch).bind ?_
  rintro ⟨outcome, scratch⟩
  cases outcome with
  | ok value => exact hnext value scratch
  | error failure => trivial

theorem attempt {task : Task I α} (htask : task.AsksOnly kind) : task.attempt.AsksOnly kind :=
  fun scratch => (htask scratch).bind fun _ => trivial

theorem rephrase {say : I.Request → J.Request}
    {back : (r : I.Request) → J.Answer (say r) → I.Answer r} {kind : J.Request → Prop}
    {task : Task I α} (htask : task.AsksOnly fun r => kind (say r)) :
    (Task.rephrase say back task).AsksOnly kind :=
  fun scratch => Dialogue.AsksOnly.rephrase (htask scratch)

end AsksOnly

namespace AsksThen

theorem of_asksOnly {task : Task I α} (htask : task.AsksOnly second) :
    task.AsksThen first second :=
  fun scratch => .of_asksOnly (htask scratch)

theorem asksOnly {task : Task I α} (htask : task.AsksThen kind kind) : task.AsksOnly kind :=
  fun scratch => (htask scratch).asksOnly

theorem bind {task : Task I α} {f : α → Task I β} (htask : task.AsksOnly first)
    (hnext : ∀ value, (f value).AsksThen first second) : (task >>= f).AsksThen first second := by
  intro scratch
  rw [bind_apply]
  refine .bind_left (htask scratch) ?_
  rintro ⟨outcome, scratch⟩
  cases outcome with
  | ok value => exact hnext value scratch
  | error failure => trivial

theorem route {steer : (r : I.Request) → τ → Dialogue.Route I J τ r}
    {outer outer' : J.Request → Prop} (hfirst : ∀ r kept, first r → (steer r kept).Within outer)
    (hsecond : ∀ r kept, second r → (steer r kept).Within outer') {task : Task I α}
    (htask : task.AsksThen first second) (kept : τ) :
    (Task.route steer kept task).AsksThen outer outer' :=
  fun scratch => ((htask scratch).route hfirst hsecond kept).bind_right fun _ => trivial

end AsksThen

variable {conduct looser : Conduct I σ} {scratch : Scratch} {state : σ}
  {good : α → Scratch → σ → Prop} {bad : Failure → Scratch → σ → Prop}

theorem AsksOnly.ensures {inv : σ → Prop}
    (hkeeps : ∀ r state answer after, kind r → inv state → conduct r state answer after → inv after)
    {task : Task I α} (hasks : task.AsksOnly kind) (hinv : inv state) :
    task.Ensures conduct scratch state (fun _ _ after => inv after)
      (fun _ _ after => inv after) := by
  refine (Dialogue.AsksOnly.ensures hkeeps (hasks scratch) hinv).mono ?_
  rintro ⟨outcome, scratch'⟩ after hafter
  cases outcome with
  | ok value => exact hafter
  | error failure => exact hafter

theorem AsksThen.ensures {inv inv' : σ → Prop}
    (hfirst : ∀ r state answer after, first r → inv state → conduct r state answer after →
      inv after)
    (hsecond : ∀ r state answer after, second r → inv' state → conduct r state answer after →
      inv' after)
    (himplies : ∀ state, inv state → inv' state) {task : Task I α}
    (hasks : task.AsksThen first second) (hinv : inv state) :
    task.Ensures conduct scratch state (fun _ _ after => inv' after)
      (fun _ _ after => inv' after) := by
  refine (Dialogue.AsksThen.ensures hfirst hsecond himplies (hasks scratch) hinv).mono ?_
  rintro ⟨outcome, scratch'⟩ after hafter
  cases outcome with
  | ok value => exact hafter
  | error failure => exact hafter

theorem Ensures.narrow {task : Task I α} (htask : task.Ensures conduct scratch state good bad)
    (hasks : task.AsksOnly kind)
    (hlooser : ∀ r state answer after, kind r → looser r state answer after →
      conduct r state answer after) :
    task.Ensures looser scratch state good bad :=
  Dialogue.Ensures.narrow htask (hasks scratch) hlooser

/-- What a task ensures under a conduct, it ensures under one that promises more. -/
theorem Ensures.under {stricter : Conduct I σ} {task : Task I α}
    (htask : task.Ensures conduct scratch state good bad)
    (hstricter : ∀ r state answer after, stricter r state answer after →
      conduct r state answer after) :
    task.Ensures stricter scratch state good bad :=
  htask.narrow (AsksOnly.of_forall (fun _ => trivial) task) fun _ _ _ _ _ => hstricter _ _ _ _

/-- A task ensures what holds of every ending. -/
theorem Ensures.of_forall (hgood : ∀ value scratch after, good value scratch after)
    (hbad : ∀ failure scratch after, bad failure scratch after) (task : Task I α)
    (scratch : Scratch) (state : σ) : task.Ensures conduct scratch state good bad := by
  refine Dialogue.Ensures.of_forall ?_ _ _
  rintro ⟨outcome, scratch'⟩ after
  cases outcome with
  | ok value => exact hgood value scratch' after
  | error failure => exact hbad failure scratch' after

theorem ensures_trivial (task : Task I α) :
    task.Ensures conduct scratch state (fun _ _ _ => True) (fun _ _ _ => True) :=
  .of_forall (fun _ _ _ => trivial) (fun _ _ _ => trivial) task scratch state

/-- An attempt hands over both endings. -/
theorem Ensures.attempt {task : Task I α} {bad' : Failure → Scratch → σ → Prop}
    (htask : task.Ensures conduct scratch state good bad) :
    task.attempt.Ensures conduct scratch state
      (fun outcome scratch' after =>
        match outcome with
        | .ok value => good value scratch' after
        | .error failure => bad failure scratch' after) bad' := by
  rw [Ensures, Task.attempt, Dialogue.ensures_bind]
  refine Dialogue.Ensures.mono htask ?_
  rintro ⟨outcome, scratch'⟩ after hpost
  cases outcome with
  | ok value => exact hpost
  | error failure => exact hpost

theorem Ensures.of_view {outer : Conduct I τ} (view : τ → σ) (inv : τ → Prop)
    (hstep : ∀ r state answer after, kind r → inv state → outer r state answer after →
      conduct r (view state) answer (view after) ∧ inv after)
    {task : Task I α} (hasks : task.AsksOnly kind) {state : τ} (hinv : inv state)
    (htask : task.Ensures conduct scratch (view state) good bad) :
    task.Ensures outer scratch state
      (fun value scratch' after => good value scratch' (view after) ∧ inv after)
      (fun failure scratch' after => bad failure scratch' (view after) ∧ inv after) := by
  refine (Dialogue.Ensures.of_view view inv hstep (hasks scratch) hinv htask).mono ?_
  rintro ⟨outcome, scratch'⟩ after hpost
  cases outcome with
  | ok value => exact hpost
  | error failure => exact hpost

/-- Only the requests that a task makes have to be answered as the conduct says. -/
theorem Ensures.run_asked {answer : (r : I.Request) → τ → I.Answer r × τ} (view : τ → σ)
    (hanswer : ∀ r state, kind r →
      conduct r (view state) (answer r state).1 (view (answer r state).2))
    {task : Task I α} (hasks : task.AsksOnly kind) (state : τ)
    (htask : task.Ensures conduct scratch (view state) good bad) :
    (∃ value scratch' after, (task scratch).run answer state = ((.ok value, scratch'), after) ∧
        good value scratch' (view after)) ∨
      ∃ failure scratch' after,
        (task scratch).run answer state = ((.error failure, scratch'), after) ∧
        bad failure scratch' (view after) := by
  let answered : Conduct I τ := fun r state given after => answer r state = (given, after)
  have hanswered (r : I.Request) (state : τ) (_ : True) :
      answered r state (answer r state).1 (answer r state).2 ∧ True := ⟨rfl, trivial⟩
  have hstep (r : I.Request) (state : τ) (given : I.Answer r) (after : τ) (hkind : kind r)
      (_ : True) (hgiven : answered r state given after) :
      conduct r (view state) given (view after) ∧ True := by
    obtain ⟨rfl, rfl⟩ := Prod.mk.inj hgiven
    exact ⟨hanswer r state hkind, trivial⟩
  obtain ⟨value, scratch', after, hrun, hgood, -⟩ | ⟨failure, scratch', after, hrun, hbad, -⟩ :=
    (htask.of_view view (fun _ => True) hstep hasks trivial).run id (fun _ => True) hanswered state
      trivial
  · exact .inl ⟨value, scratch', after, hrun, hgood⟩
  · exact .inr ⟨failure, scratch', after, hrun, hbad⟩

theorem Ensures.rephrase {say : I.Request → J.Request}
    {back : (r : I.Request) → J.Answer (say r) → I.Answer r} {outer : Conduct J σ}
    (hsay : ∀ r state answer after, outer (say r) state answer after →
      conduct r state (back r answer) after)
    {task : Task I α} (htask : task.Ensures conduct scratch state good bad) :
    (Task.rephrase say back task).Ensures outer scratch state good bad :=
  Dialogue.Ensures.rephrase hsay htask

/-- A run ends as the task ensures under a conduct that may count on `fine` if it is calm. -/
theorem Ensures.run_throughout {answer : (r : I.Request) → σ → I.Answer r × σ}
    {fine : (r : I.Request) → σ → Prop} {calm : Prop}
    (hanswer : ∀ r state, (calm → fine r state) →
      conduct r state (answer r state).1 (answer r state).2)
    {task : Task I α} (htask : task.Ensures conduct scratch state good bad)
    (hfine : calm → (task scratch).Throughout fine answer state) :
    (∃ value scratch' after, (task scratch).run answer state = ((.ok value, scratch'), after) ∧
        good value scratch' after) ∨
      ∃ failure scratch' after,
        (task scratch).run answer state = ((.error failure, scratch'), after) ∧
        bad failure scratch' after := by
  have hpost := Dialogue.Ensures.run_throughout hanswer htask hfine
  revert hpost
  generalize (task scratch).run answer state = result
  obtain ⟨⟨outcome, scratch'⟩, after⟩ := result
  intro hpost
  cases outcome with
  | ok value => exact .inl ⟨value, scratch', after, rfl, hpost⟩
  | error failure => exact .inr ⟨failure, scratch', after, rfl, hpost⟩

end Task

end RomImage
