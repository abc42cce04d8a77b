import RomImage.Fault

/-!
# Schedules of mishaps

Each call on a stream has a number among the calls of its method.  A schedule says, for every method
and every number, what goes wrong with that call.  A `Guard` stands before a stream: it keeps the
calls that were made, counts them, and tells what the schedule and the state of the stream make of
the next one.
-/

namespace RomImage

namespace Stream

inductive Method where
  | read
  | write
  | seek
  | tell
  | seekable
  | close
  deriving DecidableEq, Repr

inductive Call where
  | read (size : Nat)
  | write (size : Nat)
  | seek (offset whence : Int)
  | seekUnknown
  | tell
  | seekable
  | close
  deriving DecidableEq, Repr

def Call.method : Call → Method
  | read _ => .read
  | write _ => .write
  | seek _ _ | seekUnknown => .seek
  | tell => .tell
  | seekable => .seekable
  | close => .close

inductive Effect where
  | raise (fault : Fault)
  /-- The call does nothing and answers this. -/
  | answer (value : Option Int)
  /--
  The call transfers at most so many bytes; a read that hands over bytes takes so many more than it
  was asked for, whatever the limits.
  -/
  | alter (limit surplus : Option Nat)
  deriving DecidableEq, Repr

/-- What goes wrong with each call of each method; calls are numbered from one. -/
abbrev Schedule := Method → Nat → Option Effect

inductive Timing where
  | once (number : Nat)
  | since (number : Nat)
  deriving DecidableEq, Repr

def Timing.strikes : Timing → Nat → Bool
  | once first, number => number = first
  | since first, number => first ≤ number

structure Mishap where
  method : Method
  timing : Timing
  effect : Effect
  deriving DecidableEq, Repr

/-- The schedule in which the first entry of a list that strikes a call decides. -/
def Schedule.ofList (mishaps : List Mishap) : Schedule := fun method number =>
  (mishaps.find? fun mishap => mishap.method = method && mishap.timing.strikes number).map
    (·.effect)

def Schedule.calm : Schedule := fun _ _ => none

structure Tally where
  reads : Nat
  writes : Nat
  seeks : Nat
  tells : Nat
  queries : Nat
  closes : Nat
  deriving DecidableEq, Repr

namespace Tally

def none : Tally := ⟨0, 0, 0, 0, 0, 0⟩

def count (tally : Tally) : Method → Nat
  | .read => tally.reads
  | .write => tally.writes
  | .seek => tally.seeks
  | .tell => tally.tells
  | .seekable => tally.queries
  | .close => tally.closes

def add (tally : Tally) : Method → Tally
  | .read => { tally with reads := tally.reads + 1 }
  | .write => { tally with writes := tally.writes + 1 }
  | .seek => { tally with seeks := tally.seeks + 1 }
  | .tell => { tally with tells := tally.tells + 1 }
  | .seekable => { tally with queries := tally.queries + 1 }
  | .close => { tally with closes := tally.closes + 1 }

@[simp] theorem count_add (tally : Tally) (method other : Method) :
    (tally.add method).count other = tally.count other + if method = other then 1 else 0 := by
  cases method <;> cases other <;> rfl

end Tally

structure Guard where
  schedule : Schedule
  tally : Tally
  closed : Bool
  calls : List Call

inductive Gate where
  | refused (fault : Fault)
  | preset (value : Option Int)
  /-- The call takes place, with at most so many bytes, or with so many more. -/
  | admitted (limit surplus : Option Nat)
  deriving DecidableEq, Repr

namespace Guard

def fresh (schedule : Schedule) : Guard := ⟨schedule, .none, false, []⟩

def record (guard : Guard) (call : Call) : Guard :=
  { guard with tally := guard.tally.add call.method, calls := call :: guard.calls }

def mishap (guard : Guard) (method : Method) : Option Effect :=
  guard.schedule method (guard.tally.count method + 1)

/--
What becomes of a call.  A fault of the schedule comes first, then a call on a closed stream is
refused, then a preset answer of the schedule is given; otherwise the call takes place.
-/
def gate (guard : Guard) (call : Call) : Gate :=
  match guard.mishap call.method with
  | some (.raise fault) => .refused fault
  | mishap =>
    if guard.closed then .refused .closedStream
    else
      match mishap with
      | some (.answer value) => .preset value
      | some (.alter limit surplus) => .admitted limit surplus
      | _ => .admitted none none

def forgetCalls (guard : Guard) : Guard :=
  { guard with calls := [] }

end Guard

def atMost (limit : Option Nat) (count : Nat) : Nat :=
  match limit with
  | some limit => min limit count
  | none => count

end Stream

end RomImage
