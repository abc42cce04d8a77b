import Mathlib.Data.List.Forall2
import RomImage.Proofs.Recorded

/-!
# Tasks that ask in two ways

Some requests can stand for others: where one dialogue makes the first of such a pair, another may
make the second. Two dialogues are *alike* if they make the same requests but for that, and go on
alike after answers to a pair that agree. Whoever gives agreeing answers to the requests of a pair,
and is in one state after either, comes with both dialogues to related values and to one state
(`Dialogue.Alike.run_recording`), and the calls in the two records match.
-/

namespace RomImage

variable {I J : Interface} {α β γ δ σ τ : Type}

/-- Which requests stand for each other, and which answers to them agree. -/
structure Interface.Pairing (I : Interface) where
  pairs : I.Request → I.Request → Prop
  agrees : (r r' : I.Request) → I.Answer r → I.Answer r' → Prop

def Interface.Pairing.Matches (pairing : I.Pairing) (call call' : I.Exchange) : Prop :=
  call = call' ∨ pairing.pairs call.1 call'.1 ∧ pairing.agrees call.1 call'.1 call.2 call'.2

def Interface.Pairing.Kept (pairing : I.Pairing)
    (answer : (r : I.Request) → σ → I.Answer r × σ) : Prop :=
  ∀ r r' state, pairing.pairs r r' →
    pairing.agrees r r' (answer r state).1 (answer r' state).1 ∧
      (answer r state).2 = (answer r' state).2

variable {pairing : I.Pairing}

namespace Dialogue

/-- Two dialogues make the same requests, or requests that are paired, and end with related
values. -/
inductive Alike (pairing : I.Pairing) (related : α → β → Prop) :
    Dialogue I α → Dialogue I β → Prop
  | done {value : α} {value' : β} (hvalues : related value value') :
    Alike pairing related (done value) (done value')
  | ask (r : I.Request) {next : I.Answer r → Dialogue I α} {next' : I.Answer r → Dialogue I β}
    (hnext : ∀ answer, Alike pairing related (next answer) (next' answer)) :
    Alike pairing related (ask r next) (ask r next')
  | swap {r r' : I.Request} {next : I.Answer r → Dialogue I α} {next' : I.Answer r' → Dialogue I β}
    (hpairs : pairing.pairs r r')
    (hnext : ∀ answer answer', pairing.agrees r r' answer answer' →
      Alike pairing related (next answer) (next' answer')) :
    Alike pairing related (ask r next) (ask r' next')

def Route.Paired (outer : J.Pairing) (pairing : I.Pairing) {r r' : I.Request} :
    Route I J τ r → Route I J τ r' → Prop
  | .passed request back state, .passed request' back' state' =>
    state = state' ∧ outer.pairs request request' ∧ ∀ answer answer',
      outer.agrees request request' answer answer' →
        pairing.agrees r r' (back answer) (back' answer')
  | _, _ => False

namespace Alike

variable {related : α → β → Prop} {dialogue : Dialogue I α} {dialogue' : Dialogue I β}

theorem refl {related : α → α → Prop} (hrelated : ∀ value, related value value)
    (dialogue : Dialogue I α) : dialogue.Alike pairing related dialogue := by
  induction dialogue with
  | done value => exact .done (hrelated value)
  | ask r next ih => exact .ask r ih

theorem bind {related' : γ → δ → Prop} {f : α → Dialogue I γ} {f' : β → Dialogue I δ}
    (halike : dialogue.Alike pairing related dialogue')
    (hnext : ∀ value value', related value value' →
      (f value).Alike pairing related' (f' value')) :
    (dialogue.bind f).Alike pairing related' (dialogue'.bind f') := by
  induction halike with
  | done hvalues => exact hnext _ _ hvalues
  | ask r _ ih => exact .ask r ih
  | swap hpairs _ ih => exact .swap hpairs ih

theorem mono {weaker : α → β → Prop} (halike : dialogue.Alike pairing related dialogue')
    (hweaker : ∀ value value', related value value' → weaker value value') :
    dialogue.Alike pairing weaker dialogue' := by
  induction halike with
  | done hvalues => exact .done (hweaker _ _ hvalues)
  | ask r _ ih => exact .ask r ih
  | swap hpairs _ ih => exact .swap hpairs ih

/-- Dialogues stay alike when some of their requests are answered from one state, unless it is a
pair. -/
theorem route {steer : (r : I.Request) → τ → Route I J τ r} {outer : J.Pairing}
    (hsteer : ∀ r r' kept, pairing.pairs r r' →
      (steer r kept).Paired outer pairing (steer r' kept))
    (halike : dialogue.Alike pairing related dialogue') (kept : τ) :
    (dialogue.route steer kept).Alike outer
      (fun result result' => related result.1 result'.1 ∧ result.2 = result'.2)
      (dialogue'.route steer kept) := by
  induction halike generalizing kept with
  | done hvalues => exact .done ⟨hvalues, rfl⟩
  | ask r _ ih =>
      rw [Dialogue.route, Dialogue.route]
      cases steer r kept with
      | kept answer kept' => exact ih answer kept'
      | passed request back kept' => exact .ask request fun answer => ih (back answer) kept'
  | @swap r r' next next' hpairs _ ih =>
      have hpaired := hsteer r r' kept hpairs
      rw [Dialogue.route, Dialogue.route]
      revert hpaired
      cases steer r kept with
      | kept answer kept' => exact False.elim
      | passed request back kept' =>
          cases steer r' kept with
          | kept answer kept'' => exact False.elim
          | passed request' back' kept'' =>
              rintro ⟨rfl, houter, hback⟩
              exact .swap houter fun answer answer' hagrees => ih _ _ (hback _ _ hagrees) kept'

/-- Where the answers to pairs agree, alike dialogues end with related values and in one state, and
the calls in their records match. -/
theorem run_recording {answer : (r : I.Request) → σ → I.Answer r × σ} (hkept : pairing.Kept answer)
    (halike : dialogue.Alike pairing related dialogue') (state : σ)
    {calls calls' : List I.Exchange} (hcalls : List.Forall₂ pairing.Matches calls calls') :
    related (dialogue.run (recording answer) (state, calls)).1
        (dialogue'.run (recording answer) (state, calls')).1 ∧
      (dialogue.run (recording answer) (state, calls)).2.1
        = (dialogue'.run (recording answer) (state, calls')).2.1 ∧
      List.Forall₂ pairing.Matches (dialogue.run (recording answer) (state, calls)).2.2
        (dialogue'.run (recording answer) (state, calls')).2.2 := by
  induction halike generalizing state calls calls' with
  | done hvalues => exact ⟨hvalues, rfl, hcalls⟩
  | ask r _ ih => exact ih _ _ (.cons (.inl rfl) hcalls)
  | @swap r r' next next' hpairs _ ih =>
      obtain ⟨hagrees, hsame⟩ := hkept r r' state hpairs
      have hmatches : pairing.Matches ⟨r, (answer r state).1⟩ ⟨r', (answer r' state).1⟩ :=
        .inr ⟨hpairs, hagrees⟩
      have hends := ih _ _ hagrees (answer r state).2 (.cons hmatches hcalls)
      have hnext : (Dialogue.ask r' next').run (recording answer) (state, calls')
          = (next' (answer r' state).1).run (recording answer)
            ((answer r state).2, ⟨r', (answer r' state).1⟩ :: calls') := by
        rw [hsame]
        rfl
      rw [hnext]
      exact hends

end Alike

end Dialogue

/-- Two records of runs that ended in the same way, with one buffer and one state, after matching
calls. -/
structure EndsAlike (pairing : I.Pairing)
    (ended ended' : (Except Failure α × Scratch) × (σ × List I.Exchange)) : Prop where
  outcome : ended.1.1 = ended'.1.1
  scratch : ended.1.2 = ended'.1.2
  state : ended.2.1 = ended'.2.1
  calls : List.Forall₂ pairing.Matches ended.2.2 ended'.2.2

namespace Task

def Alike (pairing : I.Pairing) (task task' : Task I α) : Prop :=
  ∀ scratch, (task scratch).Alike pairing Eq (task' scratch)

def SameReady (result result' : Except Failure α × Scratch) : Prop :=
  result = result' ∧ ∃ buffer, result.2 = .ready buffer

def AlikeReady (pairing : I.Pairing) (task task' : Task I α) : Prop :=
  ∀ buffer, (task (.ready buffer)).Alike pairing SameReady (task' (.ready buffer))

namespace AlikeReady

variable {task task' : Task I α}

theorem pure (value : α) : (pure value : Task I α).AlikeReady pairing (Pure.pure value) :=
  fun buffer => .done ⟨rfl, buffer, rfl⟩

theorem fail (failure : Failure) : (fail failure : Task I α).AlikeReady pairing (.fail failure) :=
  fun buffer => .done ⟨rfl, buffer, rfl⟩

theorem ofExcept (outcome : Except Failure α) :
    (ofExcept outcome : Task I α).AlikeReady pairing (.ofExcept outcome) := by
  cases outcome with
  | ok value => exact pure value
  | error failure => exact fail failure

theorem bind {f f' : α → Task I β} (htask : task.AlikeReady pairing task')
    (hnext : ∀ value, (f value).AlikeReady pairing (f' value)) :
    (task >>= f).AlikeReady pairing (task' >>= f') := by
  intro buffer
  refine (htask buffer).bind ?_
  rintro ⟨outcome, _⟩ _ ⟨rfl, after, rfl⟩
  cases outcome with
  | ok value => exact hnext value after
  | error failure => exact .done ⟨rfl, after, rfl⟩

theorem ask_bind {r : I.Request} {f f' : I.Answer r → Task I α}
    (hnext : ∀ answer, (f answer).AlikeReady pairing (f' answer)) :
    (request r >>= f).AlikeReady pairing (request r >>= f') :=
  fun buffer => .ask r fun answer => hnext answer buffer

/-- What comes after the requests of a pair need only be alike for answers that agree. -/
theorem swap_bind {r r' : I.Request} (hpairs : pairing.pairs r r') {f : I.Answer r → Task I α}
    {f' : I.Answer r' → Task I α}
    (hnext : ∀ answer answer', pairing.agrees r r' answer answer' →
      (f answer).AlikeReady pairing (f' answer')) :
    (request r >>= f).AlikeReady pairing (request r' >>= f') :=
  fun buffer => .swap hpairs fun answer answer' hagrees => hnext answer answer' hagrees buffer

theorem buffer_bind [Machine] {f f' : Buffer → Task I α}
    (hnext : ∀ buffer, (f buffer).AlikeReady pairing (f' buffer)) :
    (buffer >>= f).AlikeReady pairing (buffer >>= f') :=
  fun buffer => hnext buffer buffer

end AlikeReady

namespace Alike

variable {task task' : Task I α}

theorem refl (task : Task I α) : task.Alike pairing task :=
  fun scratch => .refl (fun _ => rfl) (task scratch)

theorem bind {f f' : α → Task I β} (htask : task.Alike pairing task')
    (hnext : ∀ value, (f value).Alike pairing (f' value)) :
    (task >>= f).Alike pairing (task' >>= f') := by
  intro scratch
  refine (htask scratch).bind ?_
  rintro ⟨outcome, after⟩ _ rfl
  cases outcome with
  | ok value => exact hnext value after
  | error failure => exact .done rfl

/-- Once the buffer is there, the tasks need only be alike with a buffer at hand. -/
theorem buffer_bind [Machine] {f f' : Buffer → Task I α}
    (hnext : ∀ buffer, (f buffer).AlikeReady pairing (f' buffer)) :
    (buffer >>= f).Alike pairing (buffer >>= f') := by
  intro scratch
  rw [bind_apply, bind_apply, buffer]
  cases scratch.buffer with
  | error failure => exact .done rfl
  | ok buffer => exact (hnext buffer buffer).mono fun _ _ hsame => hsame.1

theorem route {steer : (r : I.Request) → τ → Dialogue.Route I J τ r} {outer : J.Pairing}
    (hsteer : ∀ r r' kept, pairing.pairs r r' →
      (steer r kept).Paired outer pairing (steer r' kept))
    (htask : task.Alike pairing task') (kept : τ) :
    (Task.route steer kept task).Alike outer (Task.route steer kept task') := by
  intro scratch
  refine ((htask scratch).route hsteer kept).bind ?_
  rintro ⟨result, _⟩ ⟨_, _⟩ ⟨rfl, -⟩
  exact .done rfl

/-- Where the answers to pairs agree, alike tasks run alike. -/
theorem run_recording {answer : (r : I.Request) → σ → I.Answer r × σ} (hkept : pairing.Kept answer)
    (htask : task.Alike pairing task') (scratch : Scratch) (state : σ) :
    EndsAlike pairing ((task scratch).run (recording answer) (state, []))
      ((task' scratch).run (recording answer) (state, [])) := by
  obtain ⟨hresult, hstate, hcalls⟩ := (htask scratch).run_recording hkept state .nil
  exact ⟨congrArg Prod.fst hresult, congrArg Prod.snd hresult, hstate, hcalls⟩

end Alike

end Task

end RomImage
