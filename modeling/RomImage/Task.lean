import RomImage.Dialogue
import RomImage.Failure
import RomImage.Scratch

/-!
# Tasks

A task is a dialogue that may fail and that keeps a scratch buffer.  A failure ends the task at
once; the requests made before it and the buffer as it is then stay.
-/

namespace RomImage

/-- A dialogue over a scratch buffer that ends with a value or a failure. -/
def Task (I : Interface) (α : Type) : Type :=
  Scratch → Dialogue I (Except Failure α × Scratch)

namespace Task

variable {I J : Interface} {α β : Type}

def done (value : α) : Task I α :=
  fun scratch => .done (.ok value, scratch)

def fail (failure : Failure) : Task I α :=
  fun scratch => .done (.error failure, scratch)

def bind (task : Task I α) (f : α → Task I β) : Task I β :=
  fun scratch => (task scratch).bind fun
    | (.ok value, scratch) => f value scratch
    | (.error failure, scratch) => .done (.error failure, scratch)

instance : Monad (Task I) where
  pure := done
  bind := bind

def request (r : I.Request) : Task I (I.Answer r) :=
  fun scratch => .ask r fun answer => .done (.ok answer, scratch)

/-- The outcome of a task as a value: a failure is handed over and no longer ends the run. -/
def attempt (task : Task I α) : Task I (Except Failure α) :=
  fun scratch => (task scratch).bind fun (outcome, scratch) => .done (.ok outcome, scratch)

def ofExcept : Except Failure α → Task I α
  | .ok value => done value
  | .error failure => fail failure

/-- The scratch buffer, which is allocated now if there is none. -/
def buffer [Machine] : Task I Buffer :=
  fun scratch =>
    match scratch.buffer with
    | .ok buffer => .done (.ok buffer, .ready buffer)
    | .error failure => .done (.error failure, scratch)

def setBuffer (buffer : Buffer) : Task I Unit :=
  fun _ => .done (.ok (), .ready buffer)

def rephrase (say : I.Request → J.Request)
    (back : (r : I.Request) → J.Answer (say r) → I.Answer r) (task : Task I α) : Task J α :=
  fun scratch => (task scratch).rephrase say back

def route {σ : Type} (steer : (r : I.Request) → σ → Dialogue.Route I J σ r) (state : σ)
    (task : Task I α) : Task J α :=
  fun scratch => ((task scratch).route steer state).bind fun (result, _) => .done result

@[simp] theorem pure_apply (value : α) (scratch : Scratch) :
    (pure value : Task I α) scratch = .done (.ok value, scratch) := rfl

@[simp] theorem fail_apply (failure : Failure) (scratch : Scratch) :
    (fail failure : Task I α) scratch = .done (.error failure, scratch) := rfl

@[simp] theorem fail_bind (failure : Failure) (f : α → Task I β) :
    fail failure >>= f = fail failure := rfl

/-- A task in sequence goes on after a value and stops after a failure. -/
theorem bind_apply (task : Task I α) (f : α → Task I β) (scratch : Scratch) :
    (task >>= f) scratch = (task scratch).bind fun
      | (.ok value, scratch) => f value scratch
      | (.error failure, scratch) => .done (.error failure, scratch) := rfl

theorem bind_congr_left {task task' : Task I α} {f : α → Task I β} {scratch : Scratch}
    (hsame : task scratch = task' scratch) : (task >>= f) scratch = (task' >>= f) scratch := by
  rw [bind_apply, bind_apply, hsame]

theorem bind_assoc {γ : Type} (task : Task I α) (f : α → Task I β) (g : β → Task I γ) :
    (task.bind f).bind g = task.bind fun value => (f value).bind g := by
  funext scratch
  simp only [bind, Dialogue.bind_assoc]
  congr 1
  funext result
  obtain ⟨_ | _, _⟩ := result <;> rfl

theorem bind_done (task : Task I α) : task.bind done = task := by
  funext scratch
  refine Eq.trans ?_ (Dialogue.bind_done (task scratch))
  simp only [bind]
  congr 1
  funext result
  obtain ⟨_ | _, _⟩ := result <;> rfl

instance : LawfulMonad (Task I) :=
  LawfulMonad.mk' _ bind_done (fun _ _ => rfl) bind_assoc

end Task

end RomImage
