import RomImage.Proofs.Stream.Conduct
import RomImage.Proofs.Stream.Verdict

/-!
# The first failed call ends a run

A call to a stream fails if it is refused, and a read or a write also fails if it does too little.
Work that heeds its calls does not go on after one that failed: if it ends with a value it has seen
none, and if it ends with a failure it has made no call after it. Nothing is assumed about the
streams here, not even that they are truthful.

`StopsAtFailure` says this of a task for any states that `fine` and `ended` tell apart; a list of
the calls made is the instance that matters (`World.logged`).
-/

namespace RomImage

namespace Stream

variable {ι σ τ α β : Type}

/-- A call failed: it was refused, or it read nothing, or it took less than it was offered. To be
asked if it is seekable is no call that a stream can fail. -/
def Failed : (request : Request ι) → request.Answer → Prop
  | .readInto _ _, .error _ => True
  | .readInto _ _, .ok delivery => delivery.reported.getD 0 = 0
  | .read _ _, .error _ => True
  | .read _ _, .ok data => data.getD [] = []
  | .write _ _, .error _ => True
  | .write _ data, .ok reported => reported = none ∨ ∃ count ∈ reported, count < data.length
  | .seek _ _ _, .error _ => True
  | .seek _ _ _, .ok _ => False
  | .seekUnknown _, .error _ => True
  | .seekUnknown _, .ok _ => False
  | .tell _, .error _ => True
  | .tell _, .ok _ => False
  | .seekable _, _ => False
  | .note _, _ => False

/-- From a fine state an answer leads to one where a run may end, and to a fine one unless the call
failed. -/
def course (fine ended : τ → Prop) : Conduct (interface ι) τ :=
  fun request state answer after =>
    fine state → ended after ∧ (¬ Failed request answer → fine after)

/-- A task keeps a state fine if it ends with a value, and ends otherwise where a run may end. -/
def StopsAtFailure (fine ended : τ → Prop) (task : Work ι α) : Prop :=
  ∀ scratch state, fine state → task.Ensures (course fine ended) scratch state
    (fun _ _ after => fine after) (fun _ _ after => ended after)

/-- A call that failed amounts to a failure, under whatever name. -/
theorem Failed.failure? {request : Request ι} {answer : request.Answer}
    (hfailed : Failed request answer) (name : ι → String) :
    ∃ failure, request.failure? name answer = some failure := by
  cases request with
  | readInto stream size =>
      cases answer with
      | error fault => exact ⟨_, rfl⟩
      | ok delivery => exact ⟨_, if_pos hfailed⟩
  | read stream size =>
      cases answer with
      | error fault => exact ⟨_, rfl⟩
      | ok data => exact ⟨_, if_pos hfailed⟩
  | write stream data =>
      obtain fault | _ | count := answer
      · exact ⟨_, rfl⟩
      · exact ⟨_, rfl⟩
      · obtain hnone | ⟨_, hcount, hless⟩ := hfailed
        · exact absurd hnone (by simp)
        · obtain rfl := Option.some.inj hcount
          exact ⟨_, if_pos hless⟩
  | seek stream offset whence | seekUnknown stream | tell stream =>
      cases answer with
      | error fault => exact ⟨_, rfl⟩
      | ok _ => exact hfailed.elim
  | seekable stream | note fact => exact hfailed.elim

/-- Work that heeds its calls stops at one that failed. -/
theorem StopsAtFailure.of_heeds {fine ended : τ → Prop} (hended : ∀ state, fine state → ended state)
    {task : Work ι α} (hheeds : ∀ scratch, (task scratch).Heeds (verdict fun _ _ => True)) :
    StopsAtFailure fine ended task := by
  intro scratch state hfine
  have htask := hheeds scratch
  rw [Task.Ensures]
  generalize task scratch = dialogue at htask
  induction dialogue generalizing state with
  | done result =>
      obtain ⟨outcome, scratch'⟩ := result
      cases outcome with
      | ok value => exact hfine
      | error failure => exact hended state hfine
  | ask request next ih =>
      intro answer after hcourse
      obtain ⟨hafter, hkept⟩ := hcourse hfine
      obtain ⟨hnone, hgoes⟩ | ⟨failure, scratch', -, hstops⟩ := htask answer
      · refine ih answer after (hkept fun hfailed => ?_) hgoes
        obtain ⟨failure, hfailure⟩ := hfailed.failure? fun _ => unnamed
        exact hnone failure ⟨unnamed, fun _ _ => trivial, hfailure⟩
      · rw [hstops]
        exact hafter

abbrev Exchange (ι : Type) : Type := (request : Request ι) × request.Answer

def Exchange.Failed (call : Exchange ι) : Prop := Stream.Failed call.1 call.2

def World.logged (world : World ι σ) : World ι (σ × List (Exchange ι)) where
  answer request state :=
    let (answer, after) := world.answer request state.1
    (answer, (after, ⟨request, answer⟩ :: state.2))
  tape state := world.tape state.1

/-- A logged run ends as the work does under a conduct that every logged answer keeps to. -/
theorem World.run_logged (world : World ι σ) {conduct : Conduct (interface ι) (List (Exchange ι))}
    (hanswer : ∀ request state calls, conduct request calls (world.answer request state).1
      (⟨request, (world.answer request state).1⟩ :: calls))
    {work : Work ι α} {scratch : Scratch} {state : σ}
    (ending : Except Failure α → Scratch → List (Exchange ι) → Prop)
    (hwork : work.Ensures conduct scratch [] (fun value => ending (.ok value))
      (fun failure => ending (.error failure))) :
    ending (world.logged.run scratch work (state, [])).1.1
      (world.logged.run scratch work (state, [])).1.2
      (world.logged.run scratch work (state, [])).2.2 := by
  have hlogged (request : Request ι) (between : σ × List (Exchange ι)) (_ : True) :
      conduct request between.2 (world.logged.answer request between).1
        (world.logged.answer request between).2.2 ∧ True :=
    ⟨hanswer request between.1 between.2, trivial⟩
  obtain ⟨_, _, _, hrun, hends⟩ | ⟨_, _, _, hrun, hends⟩ :=
    hwork.run Prod.snd (fun _ => True) hlogged (state, []) trivial
  · rw [World.run, hrun]
    exact hends
  · rw [World.run, hrun]
    exact hends

def NoneFailed (calls : List (Exchange ι)) : Prop := ∀ call ∈ calls, ¬ call.Failed

theorem NoneFailed.tail (calls : List (Exchange ι)) (hfine : NoneFailed calls) :
    NoneFailed calls.tail :=
  fun call hcall => hfine call (List.mem_of_mem_tail hcall)

/-- No call before the last failed, and none at all if the task ends with a value. -/
theorem StopsAtFailure.run_logged {task : Work ι α}
    (htask : StopsAtFailure (fun calls : List (Exchange ι) => NoneFailed calls)
      (fun calls => NoneFailed calls.tail) task)
    (world : World ι σ) {scratch scratch' : Scratch} {state state' : σ}
    {outcome : Except Failure α} {calls : List (Exchange ι)}
    (hrun : world.logged.run scratch task (state, []) = ((outcome, scratch'), (state', calls))) :
    NoneFailed calls.tail ∧ (outcome.isOk → NoneFailed calls) := by
  have hnone : NoneFailed ([] : List (Exchange ι)) := by simp [NoneFailed]
  have hanswer (request : Request ι) (state : σ) (calls : List (Exchange ι)) :
      course NoneFailed (fun calls => NoneFailed calls.tail) request calls
        (world.answer request state).1 (⟨request, (world.answer request state).1⟩ :: calls) := by
    refine fun hearlier => ⟨hearlier, fun hgranted call hcall => ?_⟩
    obtain rfl | hcall := List.mem_cons.mp hcall
    · exact hgranted
    · exact hearlier call hcall
  have hends : NoneFailed (world.logged.run scratch task (state, [])).2.2.tail ∧
      ((world.logged.run scratch task (state, [])).1.1.isOk →
        NoneFailed (world.logged.run scratch task (state, [])).2.2) := by
    refine world.run_logged hanswer
      (fun outcome _ calls => NoneFailed calls.tail ∧ (outcome.isOk → NoneFailed calls))
      ((htask scratch [] hnone).mono (fun _ _ calls hcalls => ⟨hcalls.tail, fun _ => hcalls⟩) ?_)
    exact fun _ _ _ hcalls => ⟨hcalls, fun hok => absurd hok (by simp [Except.isOk, Except.toBool])⟩
  rw [hrun] at hends
  exact hends

end Stream

end RomImage
