/-!
# Dialogues

A dialogue is a program seen from outside: it ends with a value, or it makes a request and goes on
with the answer.  Nothing in a dialogue says how a request is answered, so one and the same program
runs against a model of streams and files, against a world with faults, and against the operating
system.

`Dialogue.run` answers requests from a state, `Dialogue.route` answers some of them itself and
passes the others on in another vocabulary, and `Dialogue.interpret` answers them in a monad.  Each
respects sequencing (`run_bind`, `route_bind`, `interpret_bind`), and to run a routed dialogue is to
run the dialogue itself on both states (`run_route`).
-/

namespace RomImage

/-- A vocabulary of requests, with the type of the answer to each. -/
structure Interface where
  Request : Type
  Answer : Request → Type

/-- A program that makes requests in a vocabulary and ends with a value. -/
inductive Dialogue (I : Interface) (α : Type) : Type where
  | done (value : α)
  | ask (request : I.Request) (next : I.Answer request → Dialogue I α)

namespace Dialogue

variable {I J : Interface} {α β γ σ : Type}

def bind (dialogue : Dialogue I α) (f : α → Dialogue I β) : Dialogue I β :=
  match dialogue with
  | done value => f value
  | ask request next => ask request fun answer => (next answer).bind f

instance : Monad (Dialogue I) where
  pure := done
  bind := bind

def request (r : I.Request) : Dialogue I (I.Answer r) :=
  ask r done

@[simp] theorem pure_eq (value : α) : (pure value : Dialogue I α) = done value := rfl

@[simp] theorem bind_eq (dialogue : Dialogue I α) (f : α → Dialogue I β) :
    dialogue >>= f = dialogue.bind f := rfl

@[simp] theorem done_bind (value : α) (f : α → Dialogue I β) : (done value).bind f = f value := rfl

@[simp] theorem ask_bind (r : I.Request) (next : I.Answer r → Dialogue I α)
    (f : α → Dialogue I β) : (ask r next).bind f = ask r fun answer => (next answer).bind f := rfl

theorem bind_assoc (dialogue : Dialogue I α) (f : α → Dialogue I β) (g : β → Dialogue I γ) :
    (dialogue.bind f).bind g = dialogue.bind fun value => (f value).bind g := by
  induction dialogue with
  | done _ => rfl
  | ask r next ih => exact congrArg (ask r) (funext ih)

theorem bind_done (dialogue : Dialogue I α) : dialogue.bind done = dialogue := by
  induction dialogue with
  | done _ => rfl
  | ask r next ih => exact congrArg (ask r) (funext ih)

instance : LawfulMonad (Dialogue I) :=
  LawfulMonad.mk' _ bind_done (fun _ _ => rfl) bind_assoc

def run (answer : (r : I.Request) → σ → I.Answer r × σ) : Dialogue I α → σ → α × σ
  | done value, state => (value, state)
  | ask r next, state =>
    match answer r state with
    | (given, state) => run answer (next given) state

theorem run_bind (answer : (r : I.Request) → σ → I.Answer r × σ) (dialogue : Dialogue I α)
    (f : α → Dialogue I β) (state : σ) :
    (dialogue.bind f).run answer state =
      (f (dialogue.run answer state).1).run answer (dialogue.run answer state).2 := by
  induction dialogue generalizing state with
  | done _ => rfl
  | ask r next ih => exact ih _ _

/-- What becomes of a request on the way into another vocabulary. -/
inductive Route (I J : Interface) (σ : Type) (r : I.Request) where
  /-- The request is answered on the spot. -/
  | kept (answer : I.Answer r) (state : σ)
  /-- The request is passed on, and its answer is carried back. -/
  | passed (request : J.Request) (back : J.Answer request → I.Answer r) (state : σ)

def route (steer : (r : I.Request) → σ → Route I J σ r) : Dialogue I α → σ → Dialogue J (α × σ)
  | done value, state => done (value, state)
  | ask r next, state =>
    match steer r state with
    | .kept answer state => route steer (next answer) state
    | .passed request back state =>
      ask request fun answer => route steer (next (back answer)) state

theorem route_bind (steer : (r : I.Request) → σ → Route I J σ r) (dialogue : Dialogue I α)
    (f : α → Dialogue I β) (state : σ) :
    (dialogue.bind f).route steer state =
      (dialogue.route steer state).bind fun result => (f result.1).route steer result.2 := by
  induction dialogue generalizing state with
  | done _ => rfl
  | ask r next ih =>
    simp only [ask_bind, route]
    split
    · exact ih _ _
    · exact congrArg (ask _) (funext fun answer => ih _ _)

def through {τ : Type} (steer : (r : I.Request) → σ → Route I J σ r)
    (answer : (r : J.Request) → τ → J.Answer r × τ) (r : I.Request) (states : σ × τ) :
    I.Answer r × (σ × τ) :=
  match steer r states.1 with
  | .kept given state => (given, (state, states.2))
  | .passed request back state =>
    let (given, outer) := answer request states.2
    (back given, (state, outer))

/-- A routed dialogue runs as the dialogue itself does on both states. -/
theorem run_route {τ : Type} (steer : (r : I.Request) → σ → Route I J σ r)
    (answer : (r : J.Request) → τ → J.Answer r × τ) (dialogue : Dialogue I α)
    (state : σ) (outer : τ) :
    (dialogue.route steer state).run answer outer =
      let result := dialogue.run (through steer answer) (state, outer)
      ((result.1, result.2.1), result.2.2) := by
  induction dialogue generalizing state outer with
  | done _ => rfl
  | ask r next ih =>
    simp only [route, run, through]
    split
    · exact ih _ _ _
    · exact ih _ _ _

def rephrase (say : I.Request → J.Request)
    (back : (r : I.Request) → J.Answer (say r) → I.Answer r) : Dialogue I α → Dialogue J α
  | done value => done value
  | ask r next => ask (say r) fun answer => rephrase say back (next (back r answer))

/-- A rephrased dialogue runs as the dialogue itself does with its answers carried back. -/
theorem run_rephrase (say : I.Request → J.Request)
    (back : (r : I.Request) → J.Answer (say r) → I.Answer r)
    (answer : (r : J.Request) → σ → J.Answer r × σ) (dialogue : Dialogue I α) (state : σ) :
    (dialogue.rephrase say back).run answer state =
      dialogue.run (fun r state => ((back r (answer (say r) state).1), (answer (say r) state).2))
        state := by
  induction dialogue generalizing state with
  | done _ => rfl
  | ask r next ih => exact ih _ _

def interpret {m : Type → Type} [Monad m] (answer : (r : I.Request) → m (I.Answer r)) :
    Dialogue I α → m α
  | done value => pure value
  | ask r next => answer r >>= fun given => interpret answer (next given)

theorem interpret_bind {m : Type → Type} [Monad m] [LawfulMonad m]
    (answer : (r : I.Request) → m (I.Answer r)) (dialogue : Dialogue I α)
    (f : α → Dialogue I β) :
    (dialogue.bind f).interpret answer =
      dialogue.interpret answer >>= fun value => (f value).interpret answer := by
  induction dialogue with
  | done value => simp [interpret]
  | ask r next ih => simp [interpret, ih]

end Dialogue

end RomImage
