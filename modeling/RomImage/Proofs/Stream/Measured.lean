import RomImage.Proofs.Rule.Gate
import RomImage.Stream.Schedule

/-!
# Measuring, call by call

A measurement asks a stream where it stands, goes to the end, asks again, and goes back. A truthful
stream may refuse any of these four calls, and then nothing else is asked (`measure_traced`): so the
contents never change, and the stream ends where it stood or at its end.

After a measurement the stream is as if it had not been measured. What is read later is the same,
if the reads depend on the tape and on nothing that a question about the position changes
(`World.ReadsFrom`).
-/

namespace RomImage

namespace Fault

def systemText? : Fault → Option String
  | system (some _) text => some text
  | _ => none

/-- The reason is the text of the system, and the text of the fault itself where there is none or it
is empty. -/
theorem reason_eq (fault : Fault) :
    fault.reason = (fault.systemText?.filter (· ≠ "")).getD fault.text := by
  cases fault with
  | system code text =>
      cases code with
      | none => rfl
      | some code =>
          by_cases hempty : text = ""
          · subst hempty
            simp [reason, systemText?, Option.filter, Fault.text]
          · simp [reason, systemText?, Option.filter, hempty]
  | _ => rfl

end Fault

namespace Stream

open Function (update)

variable {ι σ ρ α : Type}

section Calls

variable [DecidableEq ι]

def traced (stream : ι) : Conduct (interface ι) (Tape × List (Exchange ι)) :=
  fun request before answer after =>
    TruthfulAlone request stream before.1 answer after.1 ∧ after.2 = ⟨request, answer⟩ :: before.2

def RefusesCall (stream : Channel ι) (request : Request ι) (scratch : Scratch)
    (before : Tape × List (Exchange ι)) (failure : Failure) (scratch' : Scratch)
    (after : Tape × List (Exchange ι)) : Prop :=
  scratch' = scratch ∧ ∃ fault, failure = seekFailure stream fault ∧
    after = (before.1, ⟨request, request.refused fault⟩ :: before.2)

variable {stream : Channel ι} {scratch : Scratch} {tape : Tape} {calls : List (Exchange ι)}

/-- A stream tells its position or refuses to. -/
theorem position_traced :
    (position stream).Ensures (traced stream.handle) scratch (tape, calls)
      (fun value scratch' after => value = some (tape.position : Int) ∧ scratch' = scratch ∧
        after = (tape, ⟨.tell stream.handle,
          (.ok (some (tape.position : Int)) : Except Fault (Option Int))⟩ :: calls))
      (RefusesCall stream (.tell stream.handle) scratch (tape, calls)) := by
  rw [position]
  refine Task.Ensures.bind (Task.ensures_request _) ?_
  rintro answer _ ⟨tape', calls'⟩ ⟨rfl, htruthful, rfl⟩
  obtain fault | value := answer
  · have hkept : update (fun _ => tape) stream.handle tape' = fun _ => tape := htruthful
    obtain rfl : tape' = tape := Function.update_eq_self_iff.mp hkept
    exact Task.ensures_fail ⟨rfl, fault, rfl, rfl⟩
  · obtain ⟨rfl, hkept⟩ := htruthful
    obtain rfl : tape' = tape := Function.update_eq_self_iff.mp hkept
    exact Task.ensures_pure ⟨rfl, rfl, rfl⟩

/-- A stream moves to where it is sent or refuses to. -/
theorem move_traced {offset whence : Int} {target : Nat}
    (htarget : Tape.destination tape.position tape.contents.size offset whence = .ok target) :
    (move stream offset whence).Ensures (traced stream.handle) scratch (tape, calls)
      (fun _ scratch' after => scratch' = scratch ∧
        after = (tape.moved target, ⟨.seek stream.handle offset whence,
          (.ok () : Except Fault Unit)⟩ :: calls))
      (RefusesCall stream (.seek stream.handle offset whence) scratch (tape, calls)) := by
  rw [move]
  refine Task.Ensures.bind (Task.ensures_request _) ?_
  rintro answer _ ⟨tape', calls'⟩ ⟨rfl, htruthful, rfl⟩
  obtain fault | _ := answer
  · have hkept : update (fun _ => tape) stream.handle tape' = fun _ => tape := htruthful
    obtain rfl : tape' = tape := Function.update_eq_self_iff.mp hkept
    exact Task.ensures_fail ⟨rfl, fault, rfl, rfl⟩
  · obtain ⟨position, hposition, hmoved⟩ := htruthful
    obtain rfl : target = position := Except.ok.inj (htarget.symm.trans hposition)
    obtain rfl := Function.update_injective _ _ hmoved
    exact Task.ensures_pure ⟨rfl, rfl⟩

def measuring (stream : ι) (start : Tape) : List (Exchange ι) :=
  [⟨.tell stream, (.ok (some (start.position : Int)) : Except Fault (Option Int))⟩,
    ⟨.seek stream 0 fromEnd, (.ok () : Except Fault Unit)⟩,
    ⟨.tell stream, (.ok (some (start.contents.size : Int)) : Except Fault (Option Int))⟩,
    ⟨.seek stream start.position fromStart, (.ok () : Except Fault Unit)⟩]

/-- The next of the calls of a measurement was refused, and the stream is where that call found
it: at its start before the first move, and at its end from there on. -/
def BrokenOff (stream : Channel ι) (start : Tape) (failure : Failure)
    (after : Tape × List (Exchange ι)) : Prop :=
  ∃ earlier call later fault, measuring stream.handle start = earlier ++ call :: later ∧
    failure = seekFailure stream fault ∧
    after = (start.moved (if earlier.length < 2 then start.position else start.contents.size),
      ⟨call.1, call.1.refused fault⟩ :: earlier.reverse)

/-- A measurement makes its four calls, and is broken off at the first that is refused. -/
theorem measure_traced (stream : Channel ι) (scratch : Scratch) (start : Tape) :
    (measure stream).Ensures (traced stream.handle) scratch (start, [])
      (fun told scratch' after => told = some (start.contents.size : Int) ∧ scratch' = scratch ∧
        after = (start, (measuring stream.handle start).reverse))
      (fun failure scratch' after => scratch' = scratch ∧
        BrokenOff stream start failure after) := by
  have hend : Tape.destination start.position start.contents.size 0 fromEnd
      = .ok start.contents.size := Tape.destination_end _ _
  rw [measure]
  refine Task.Ensures.bind (position_traced.bad_mono ?_) ?_
  · rintro failure _ _ ⟨rfl, fault, rfl, rfl⟩
    exact ⟨rfl, [], _, _, fault, rfl, rfl, rfl⟩
  rintro _ _ _ ⟨rfl, rfl, rfl⟩
  refine Task.Ensures.bind ((move_traced hend).bad_mono ?_) ?_
  · rintro failure _ _ ⟨rfl, fault, rfl, rfl⟩
    exact ⟨rfl, [_], _, _, fault, rfl, rfl, rfl⟩
  rintro _ _ _ ⟨rfl, rfl⟩
  refine Task.Ensures.bind (position_traced.bad_mono ?_) ?_
  · rintro failure _ _ ⟨rfl, fault, rfl, rfl⟩
    exact ⟨rfl, [_, _], _, _, fault, rfl, rfl, rfl⟩
  rintro _ _ _ ⟨rfl, rfl, rfl⟩
  refine Task.Ensures.bind ((move_traced (Tape.destination_start _ _ _)).bad_mono ?_) ?_
  · rintro failure _ _ ⟨rfl, fault, rfl, rfl⟩
    exact ⟨rfl, [_, _, _], _, _, fault, rfl, rfl, rfl⟩
  rintro _ _ _ ⟨rfl, rfl⟩
  exact Task.ensures_pure ⟨rfl, rfl, rfl⟩

/-- A run of a measurement in a world, call by call. -/
theorem World.IsTruthfulAt.run_measure {world : World ι σ}
    (htruthful : world.IsTruthfulAt stream.handle) (scratch : Scratch) (state : σ) :
    (∃ after, world.logged.run scratch (measure stream) (state, [])
          = ((.ok (some ((world.tape state stream.handle).contents.size : Int)), scratch),
              (after, (measuring stream.handle (world.tape state stream.handle)).reverse)) ∧
        world.tape after stream.handle = world.tape state stream.handle) ∨
      ∃ failure after, world.logged.run scratch (measure stream) (state, [])
          = ((.error failure, scratch), after) ∧
        BrokenOff stream (world.tape state stream.handle) failure
          (world.tape after.1 stream.handle, after.2) := by
  have hasks : (measure stream).AsksOnly
      fun request : Request ι => request.stream? = some stream.handle :=
    measure_asksOnly ⟨rfl, fun _ _ => rfl, rfl⟩
  let view (between : σ × List (Exchange ι)) : Tape × List (Exchange ι) :=
    (world.tape between.1 stream.handle, between.2)
  have hanswer (request : Request ι) (between : σ × List (Exchange ι))
      (hto : request.stream? = some stream.handle) :
      traced stream.handle request (view between) (world.logged.answer request between).1
        (view (world.logged.answer request between).2) :=
    ⟨htruthful request between.1 hto, rfl⟩
  have htraced := measure_traced stream scratch (world.tape state stream.handle)
  obtain ⟨_, _, ⟨after, calls⟩, hrun, rfl, rfl, hafter⟩ | ⟨failure, _, after, hrun, rfl, hbroken⟩ :=
    htraced.run_asked view hanswer hasks (state, [])
  · obtain ⟨htape, rfl⟩ := Prod.mk.inj hafter
    exact .inl ⟨after, hrun, htape⟩
  · exact .inr ⟨failure, after, hrun, hbroken⟩

end Calls

theorem measuring_granted {stream : ι} {start : Tape} {call : Exchange ι}
    (hcall : call ∈ measuring stream start) (fault : Fault) :
    call.2 ≠ call.1.refused fault := by
  simp only [measuring, List.mem_cons, List.not_mem_nil, or_false] at hcall
  obtain rfl | rfl | rfl | rfl := hcall
  all_goals rintro ⟨⟩

theorem Request.refused_injective (request : Request ι) :
    Function.Injective fun fault => request.refused fault := by
  intro fault fault' hsame
  cases request <;> exact Except.error.inj hsame

section Later

def Request.Fetches (stream : ι) : Request ι → Prop
  | .readInto other _ | .read other _ => other = stream
  | _ => False

/-- Reads of a stream depend on its tape and on a rest of the state that calls about its position
leave alone, such as how many reads there have been. -/
structure World.ReadsFrom (world : World ι σ) (stream : ι) (rest : σ → ρ) : Prop where
  probe : ∀ request state, request.Probes stream → rest (world.answer request state).2 = rest state
  read : ∀ request state state', request.Fetches stream →
    world.tape state stream = world.tape state' stream → rest state = rest state' →
      (world.answer request state).1 = (world.answer request state').1 ∧
      world.tape (world.answer request state).2 stream
        = world.tape (world.answer request state').2 stream ∧
      rest (world.answer request state).2 = rest (world.answer request state').2

variable {world : World ι σ} {stream : ι} {rest : σ → ρ}

/-- Work that only reads from the stream ends the same from states that its reads do not tell
apart. -/
theorem World.ReadsFrom.run_eq (hreads : world.ReadsFrom stream rest) {work : Work ι α}
    (hasks : work.AsksOnly (Request.Fetches stream)) (scratch : Scratch) {state state' : σ}
    (htape : world.tape state stream = world.tape state' stream)
    (hrest : rest state = rest state') :
    (world.run scratch work state).1 = (world.run scratch work state').1 := by
  have hdialogue := hasks scratch
  rw [World.run, World.run]
  generalize work scratch = dialogue at hdialogue
  induction dialogue generalizing state state' with
  | done result => rfl
  | ask request next ih =>
      obtain ⟨hanswer, htape', hrest'⟩ := hreads.read request state state' hdialogue.1 htape hrest
      have hfirst : ((Dialogue.ask request next).run world.answer state).1
          = ((next (world.answer request state').1).run world.answer
              (world.answer request state).2).1 := by
        rw [← hanswer]
        rfl
      exact hfirst.trans (ih _ htape' hrest' (hdialogue.2 _))

/-- A measurement leaves the rest of the state alone. -/
theorem World.ReadsFrom.kept_by_measure {stream : Channel ι}
    (hreads : world.ReadsFrom stream.handle rest) (scratch : Scratch) (state : σ) :
    rest (world.logged.run scratch (measure stream) (state, [])).2.1 = rest state := by
  have hprobes : (measure stream).AsksOnly (Request.Probes stream.handle) :=
    measure_asksOnly (moves_probes stream.handle)
  let keeps : Conduct (interface ι) ρ := fun _ before _ after => after = before
  have hkept : (measure stream).Ensures keeps scratch (rest state)
      (fun _ _ after => after = rest state) (fun _ _ after => after = rest state) :=
    hprobes.ensures (fun _ _ _ _ _ hbefore hafter => hafter.trans hbefore) rfl
  have hanswer (request : Request ι) (between : σ × List (Exchange ι))
      (hrequest : request.Probes stream.handle) :
      keeps request (rest between.1) (world.logged.answer request between).1
        (rest (world.logged.answer request between).2.1) :=
    hreads.probe request between.1 hrequest
  obtain ⟨_, _, after, hrun, hafter⟩ | ⟨_, _, after, hrun, hafter⟩ :=
    hkept.run_asked (fun between => rest between.1) hanswer hprobes (state, [])
  · exact (congrArg (fun ended => rest ended.2.1) hrun).trans hafter
  · exact (congrArg (fun ended => rest ended.2.1) hrun).trans hafter

end Later

section Refusing

def Request.method? : Request ι → Option Method
  | readInto _ _ | read _ _ => some .read
  | write _ _ => some .write
  | seek _ _ _ | seekUnknown _ => some .seek
  | tell _ => some .tell
  | seekable _ => some .seekable
  | note _ => none

def World.refusing (world : World ι σ) (faults : Method → Nat → Option Fault) :
    World ι (σ × Tally) where
  tape state := world.tape state.1
  answer request state :=
    match request.method? with
    | none => ((world.answer request state.1).1, ((world.answer request state.1).2, state.2))
    | some method =>
      match faults method (state.2.count method + 1) with
      | some fault => (request.refused fault, (state.1, state.2.add method))
      | none => ((world.answer request state.1).1,
          ((world.answer request state.1).2, state.2.add method))

theorem truthfulAlone_refused [DecidableEq ι] (request : Request ι) (stream : ι) (tape : Tape)
    (fault : Fault) : TruthfulAlone request stream tape (request.refused fault) tape := by
  cases request <;> exact Function.update_eq_self stream fun _ => tape

/-- To refuse calls is truthful. -/
theorem World.IsTruthfulAt.refusing [DecidableEq ι] {world : World ι σ} {stream : ι}
    (htruthful : world.IsTruthfulAt stream) (faults : Method → Nat → Option Fault) :
    (world.refusing faults).IsTruthfulAt stream := by
  intro request state hto
  have hgranted := htruthful request state.1 hto
  simp only [World.refusing]
  split
  · exact hgranted
  · split
    · exact truthfulAlone_refused request stream _ _
    · exact hgranted

/-- Calls about the position do not change which of the reads are refused. -/
theorem World.ReadsFrom.refusing {world : World ι σ} {stream : ι} {rest : σ → ρ}
    (hreads : world.ReadsFrom stream rest) (faults : Method → Nat → Option Fault) :
    (world.refusing faults).ReadsFrom stream fun state => (rest state.1, state.2.reads) where
  probe := by
    intro request state hprobes
    have hrest := hreads.probe request state.1 hprobes
    cases request with
    | tell other | seek other offset whence | seekUnknown other =>
        simp only [World.refusing, Request.method?]
        split
        · rfl
        · exact Prod.ext hrest rfl
    | _ => exact hprobes.elim
  read := by
    rintro request ⟨inner, tally⟩ ⟨inner', tally'⟩ hfetches htape hrest
    obtain ⟨hinner, hcount⟩ := Prod.mk.inj hrest
    obtain ⟨hanswer, htape', hrest'⟩ := hreads.read request inner inner' hfetches htape hinner
    have hmethod : request.method? = some .read := by
      cases request with
      | readInto other size | read other size => rfl
      | _ => exact hfetches.elim
    have hnext : tally.count .read + 1 = tally'.count .read + 1 := congrArg (· + 1) hcount
    simp only [World.refusing, hmethod, hnext]
    split
    · exact ⟨rfl, htape, Prod.ext hinner hnext⟩
    · exact ⟨hanswer, htape', Prod.ext hrest' hnext⟩

/-- What is read from a plain tape depends on the tape alone. -/
theorem World.plain_readsFrom [DecidableEq ι] (grain : Nat) (stream : ι) :
    (plain grain : World ι (ι → Tape)).ReadsFrom stream fun _ => () where
  probe _ _ _ := rfl
  read request tapes tapes' hfetches htape _ := by
    cases request with
    | readInto other size | read other size =>
        obtain rfl : other = stream := hfetches
        have hsame : tapes other = tapes' other := htape
        simp only [plain, hsame, Function.update_self, and_true]
        rfl
    | _ => exact hfetches.elim

end Refusing

/-- What a run of a measurement is like, for a truthful stream with such a tape. -/
structure Measured (world : World ι σ) (stream : Channel ι) (scratch : Scratch) (state : σ)
    (ended : (Except Failure (Option Int) × Scratch) × (σ × List (Exchange ι))) : Prop where
  /-- If no call is refused, there were four calls, and the outcome is the length of the contents;
  the stream is where it was. -/
  granted : (∀ call ∈ ended.2.2, ∀ fault, call.2 ≠ call.1.refused fault) →
    ended.1.1 = .ok (some ((world.tape state stream.handle).contents.size : Int)) ∧
      ended.2.2.reverse = measuring stream.handle (world.tape state stream.handle) ∧
      world.tape ended.2.1 stream.handle = world.tape state stream.handle
  /-- If a call is refused, it was the last. A system error or a wrong value becomes an error with
  the name of the stream and the text of the fault; any other fault comes through. -/
  refused : ∀ call ∈ ended.2.2, ∀ fault, call.2 = call.1.refused fault →
    ended.2.2.head? = some call ∧ ended.1.1 = .error (
      if fault.isSystemOrValue then .build (.seekFailure stream.name
        ((fault.systemText?.filter (· ≠ "")).getD fault.text))
      else .fault fault)
  /-- In any case these are the first of the four calls. -/
  calls : ended.2.2.reverse.map (·.1)
    <+: (measuring stream.handle (world.tape state stream.handle)).map (·.1)
  contents : (world.tape ended.2.1 stream.handle).contents
    = (world.tape state stream.handle).contents
  position : (world.tape ended.2.1 stream.handle).position
      = (world.tape state stream.handle).position ∨
    (world.tape ended.2.1 stream.handle).position
      = (world.tape state stream.handle).contents.size
  buffer : ended.1.2 = scratch
  /-- What is read after a size was told is the same as without the measurement. -/
  later : ended.1.1.isOk → ∀ {ρ : Type} {rest : σ → ρ}, world.ReadsFrom stream.handle rest →
    ∀ {α : Type} (work : Work ι α), work.AsksOnly (Request.Fetches stream.handle) →
      ∀ scratch', (world.run scratch' work ended.2.1).1 = (world.run scratch' work state).1

section Measured

variable {world : World ι σ} {stream : Channel ι} {scratch : Scratch} {state after : σ}

theorem measured_of_whole (hrun : world.logged.run scratch (measure stream) (state, [])
      = ((.ok (some ((world.tape state stream.handle).contents.size : Int)), scratch),
          (after, (measuring stream.handle (world.tape state stream.handle)).reverse)))
    (htape : world.tape after stream.handle = world.tape state stream.handle) :
    Measured world stream scratch state
      (world.logged.run scratch (measure stream) (state, [])) := by
  have hkept {ρ : Type} {rest : σ → ρ} (hreads : world.ReadsFrom stream.handle rest) :
      rest after = rest state := by
    have hrest := hreads.kept_by_measure scratch state
    rwa [hrun] at hrest
  rw [hrun]
  refine ⟨fun _ => ⟨rfl, List.reverse_reverse _, htape⟩, fun call hcall fault hrefused => ?_, ?_,
    congrArg Tape.contents htape, .inl (congrArg Tape.position htape), rfl, ?_⟩
  · exact absurd hrefused (measuring_granted (List.mem_reverse.mp hcall) fault)
  · exact ⟨[], by rw [List.append_nil, List.reverse_reverse]⟩
  · exact fun _ _ _ hreads _ _ hasks scratch' =>
      hreads.run_eq hasks scratch' htape (hkept hreads)

theorem measured_of_brokenOff {failure : Failure} {calls : List (Exchange ι)}
    (hrun : world.logged.run scratch (measure stream) (state, [])
      = ((.error failure, scratch), (after, calls)))
    (hbroken : BrokenOff stream (world.tape state stream.handle) failure
      (world.tape after stream.handle, calls)) :
    Measured world stream scratch state
      (world.logged.run scratch (measure stream) (state, [])) := by
  obtain ⟨earlier, call, later, fault, hcourse, rfl, hafter⟩ := hbroken
  obtain ⟨htape, rfl⟩ := Prod.mk.inj hafter
  have hcontents := congrArg Tape.contents htape
  have hposition := congrArg Tape.position htape
  rw [hrun]
  refine ⟨fun hnone => ?_, fun other hother fault' hrefused => ?_, ?_, hcontents, ?_, rfl,
    fun hok => absurd hok (by simp [Except.isOk, Except.toBool])⟩
  · exact absurd rfl (hnone _ (List.mem_cons_self ..) fault)
  · obtain rfl | hother := List.mem_cons.mp hother
    · obtain rfl := call.1.refused_injective hrefused
      exact ⟨rfl, by rw [seekFailure, fault.reason_eq]⟩
    · have hcalled : other ∈ measuring stream.handle (world.tape state stream.handle) :=
        hcourse ▸ List.mem_append_left _ (List.mem_reverse.mp hother)
      exact absurd hrefused (measuring_granted hcalled fault')
  · rw [hcourse]
    exact ⟨later.map (·.1), by simp⟩
  · by_cases hearly : earlier.length < 2
    · rw [if_pos hearly] at hposition
      exact .inl hposition
    · rw [if_neg hearly] at hposition
      exact .inr hposition

end Measured

/-- **Measuring does not move.** Take any stream that is truthful, whatever it holds and wherever it
stands, even behind its end, and let any of the calls be refused for any reason.

If none is, the outcome is the length of the contents, the contents and the position are what they
were, and later reads deliver what they would have delivered without the measurement. If one is,
nothing else is asked, and the fault becomes the error for positions with the name of the stream and
the text of the system, or the fault's own text where there is none; but a fault that is neither a
system error nor a wrong value comes through. The contents are still what they were, and the
position is what it was or the end. -/
theorem measure_stays [DecidableEq ι] {world : World ι σ} {stream : Channel ι}
    (htruthful : world.IsTruthfulAt stream.handle) (scratch : Scratch) (state : σ) :
    Measured world stream scratch state
      (world.logged.run scratch (measure stream) (state, [])) := by
  obtain ⟨after, hrun, htape⟩ | ⟨failure, ⟨after, calls⟩, hrun, hbroken⟩ :=
    htruthful.run_measure scratch state
  · exact measured_of_whole hrun htape
  · exact measured_of_brokenOff hrun hbroken

/-- A stream that stands behind its end is measured, and still stands there for the next read; if
its second answer is refused, it is left at its end. -/
theorem measure_stays_behind :
    let stream : Channel Bool := ⟨false, "in.bin", true, true⟩
    let tape : Tape := ⟨.ofBytes [1, 2, 3], 7⟩
    let start : (Bool → Tape) × Tally := (fun _ => tape, .none)
    let probed (faults : Method → Nat → Option Fault) :=
      ((World.plain 0).refusing faults).logged.run (.ready (.zeros 2)) (measure stream) (start, [])
    let calm : Method → Nat → Option Fault := fun _ _ => none
    let failing : Method → Nat → Option Fault := fun method number =>
      if method = .tell ∧ number = 2 then some (.system (some 5) "") else none
    ((probed calm).1.1 = .ok (some 3) ∧ (probed calm).2.1.1 false = tape ∧
        ∀ scratch, (((World.plain 0).refusing calm).run scratch (readChunk stream 2)
          (probed calm).2.1).1
            = (((World.plain 0).refusing calm).run scratch (readChunk stream 2) start).1) ∧
      (probed failing).1.1 = .error (.build (.seekFailure "in.bin" "[Errno 5] ")) ∧
      ((probed failing).2.1.1 false).contents = tape.contents ∧
      ((probed failing).2.1.1 false).position = 3 := by
  intro stream tape start probed calm failing
  have hmeasured (faults : Method → Nat → Option Fault) :
      Measured ((World.plain 0).refusing faults) stream (.ready (.zeros 2)) start (probed faults) :=
    measure_stays (.refusing ((World.plain_isTruthful 0).at stream.handle) faults) _ _
  have hcalls : (probed calm).2.2 = (measuring false tape).reverse := rfl
  obtain ⟨htold, -, hstays⟩ := (hmeasured calm).granted fun call hcall fault =>
    measuring_granted (List.mem_reverse.mp (hcalls ▸ hcall)) fault
  have hlast : (probed failing).2.2.head?
      = some ⟨.tell false, Request.refused (.system (some 5) "") (.tell false)⟩ := rfl
  obtain ⟨-, hfailed⟩ := (hmeasured failing).refused _ (List.mem_of_head? hlast) _ rfl
  have hreads : (readChunk stream 2).AsksOnly (Request.Fetches stream.handle) :=
    readChunk_asksOnly ⟨fun _ => rfl, fun _ => rfl⟩ 2
  have hlater := (hmeasured calm).later rfl ((World.plain_readsFrom 0 false).refusing calm) _ hreads
  exact ⟨⟨htold, hstays, hlater⟩, hfailed, (hmeasured failing).contents, rfl⟩

end Stream

end RomImage
