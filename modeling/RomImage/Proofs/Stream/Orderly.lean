import RomImage.Proofs.Stream.Carry
import RomImage.Proofs.Stream.Requests
import RomImage.Proofs.Stream.Staging

/-!
# Streams on which a failed call is the end

Of many streams no more has to be known than this: something holds of their state after every call,
as long as none has failed, and what a failed call amounts to is one of certain failures. Such
streams are *orderly*. A transfer between them comes to its end or to one of those failures, and to
nothing else.

The tape in memory is orderly as long as there is memory for what is to come, so that two amounts
have to be followed on it: how many bytes are in hand, and how many are still to come. It takes
whatever it is given (`Orderly.filling`), and it hands over all that it has (`Orderly.emptying`).
-/

namespace RomImage

def Dialogue.Route.Leads {I J : Interface} {σ τ : Type} (outer : Conduct J σ) (state : σ)
    {r : I.Request} : Dialogue.Route I J τ r → I.Answer r → τ × σ → Prop
  | .kept given kept', answer, after => answer = given ∧ after = (kept', state)
  | .passed request back kept', answer, after =>
    ∃ given later, outer request state given later ∧ answer = back given ∧ after = (kept', later)

def Conduct.steered {I J : Interface} {σ τ : Type}
    (steer : (r : I.Request) → τ → Dialogue.Route I J τ r) (outer : Conduct J σ) :
    Conduct I (τ × σ) :=
  fun r state answer after => (steer r state.1).Leads outer state.2 answer after

theorem Conduct.follows_steered {I J : Interface} {σ τ : Type}
    {steer : (r : I.Request) → τ → Dialogue.Route I J τ r} {outer : Conduct J σ} (r : I.Request)
    (kept : τ) (state : σ) :
    (steer r kept).Follows outer (Conduct.steered steer outer) Prod.mk kept state := by
  cases hroute : steer r kept with
  | kept given kept' =>
      rw [Dialogue.Route.Follows, Conduct.steered, hroute]
      exact ⟨rfl, rfl⟩
  | passed request back kept' =>
      intro given later houter
      rw [Conduct.steered, hroute]
      exact ⟨given, later, houter, rfl, rfl⟩

/-- A read that stays before the end hands over all that was asked for. -/
theorem Tape.read_of_le (tape : Tape) (count : Nat)
    (hahead : tape.position + count ≤ tape.contents.size) :
    ∃ data : Bytes, data.length = count ∧ tape.read count = (data, tape.advance count) := by
  have hslice : tape.contents.slice tape.position count = tape.ahead.take count :=
    Contents.slice_eq tape.contents tape.position count
  have hlength : (tape.ahead.take count).length = count := by
    rw [Tape.ahead, List.length_take, List.length_drop, Contents.length_bytes]
    omega
  refine ⟨tape.ahead.take count, hlength, ?_⟩
  rw [Tape.read, hslice, hlength, Tape.advance]

namespace Stream

section Orderly

variable {κ τ : Type}

def Brings (conduct : Conduct (interface κ) τ) (name : String) (request : Request κ)
    (before : τ → Prop) (good : request.Answer → τ → Prop) (bad : Failure → τ → Prop) : Prop :=
  ∀ state answer after, before state → conduct request state answer after →
    request.Comes name answer (good answer after) (bad · after)

theorem Brings.mono {conduct : Conduct (interface κ) τ} {name : String} {request : Request κ}
    {before before' : τ → Prop} {good good' : request.Answer → τ → Prop} {bad : Failure → τ → Prop}
    (hbrings : Brings conduct name request before good bad)
    (hbefore : ∀ state, before' state → before state)
    (hgood : ∀ answer after, good answer after → good' answer after) :
    Brings conduct name request before' good' bad :=
  fun state answer after hstate hanswer =>
    (hbrings state answer after (hbefore state hstate) hanswer).mono (hgood answer after)
      fun _ hbad => hbad

section Measure

variable {conduct : Conduct (interface κ) τ} {stream : Channel κ} {before later : τ → Prop}
  {told : Option Int → τ → Prop} {started : Option Int → Prop} {bad : Failure → τ → Prop}
  {scratch : Scratch} {state : τ}

theorem position_brings (htell : Brings conduct stream.name (.tell stream.handle) before
      (fun answer after => ∀ value, answer = Except.ok value → told value after) bad)
    (hbefore : before state) :
    (position stream).Ensures conduct scratch state
      (fun value scratch' after => scratch' = scratch ∧ told value after)
      (fun failure _ after => bad failure after) := by
  rw [position]
  refine Task.Ensures.bind (Task.ensures_request _) ?_
  rintro answer _ after ⟨rfl, hanswer⟩
  have hcomes := htell state answer after hbefore hanswer
  cases answer with
  | ok value => exact Task.ensures_pure ⟨rfl, hcomes.good rfl value rfl⟩
  | error fault => exact Task.ensures_fail hcomes

theorem position_keeps (htell : Brings conduct stream.name (.tell stream.handle) before
      (fun _ => later) bad) (hbefore : before state) :
    (position stream).Ensures conduct scratch state
      (fun _ scratch' after => scratch' = scratch ∧ later after)
      (fun failure _ after => bad failure after) := by
  have htold : Brings conduct stream.name (.tell stream.handle) before
      (fun answer after => ∀ value, answer = Except.ok value → later after) bad :=
    htell.mono (fun _ hstate => hstate) fun _ _ hlater _ _ => hlater
  exact position_brings htold hbefore

theorem move_brings {offset whence : Int} (hseek : Brings conduct stream.name
      (.seek stream.handle offset whence) before (fun _ => later) bad) (hbefore : before state) :
    (move stream offset whence).Ensures conduct scratch state
      (fun _ scratch' after => scratch' = scratch ∧ later after)
      (fun failure _ after => bad failure after) := by
  rw [move]
  refine Task.Ensures.bind (Task.ensures_request _) ?_
  rintro answer _ after ⟨rfl, hanswer⟩
  have hcomes := hseek state answer after hbefore hanswer
  cases answer with
  | ok _ => exact Task.ensures_pure ⟨rfl, hcomes⟩
  | error fault => exact Task.ensures_fail hcomes

theorem moveBack_brings {start : Option Int} (hback : ∀ start, Brings conduct stream.name
      (.seek stream.handle start fromStart) before (fun _ => later) bad)
    (hunknown : start = none →
      Brings conduct stream.name (.seekUnknown stream.handle) before (fun _ => later) bad)
    (hbefore : before state) :
    (moveBack stream start).Ensures conduct scratch state
      (fun _ scratch' after => scratch' = scratch ∧ later after)
      (fun failure _ after => bad failure after) := by
  cases start with
  | some start => exact move_brings (hback start) hbefore
  | none =>
      rw [moveBack]
      refine Task.Ensures.bind (Task.ensures_request _) ?_
      rintro answer _ after ⟨rfl, hanswer⟩
      have hcomes := hunknown rfl state answer after hbefore hanswer
      cases answer with
      | ok _ => exact Task.ensures_pure ⟨rfl, hcomes⟩
      | error fault => exact Task.ensures_fail hcomes

/-- The size is what a stream tells at its end, and that is still known after the way back. -/
theorem measure_brings (hstart : Brings conduct stream.name (.tell stream.handle) before
      (fun answer after => ∀ start, answer = Except.ok start → started start ∧ before after) bad)
    (hend : Brings conduct stream.name (.seek stream.handle 0 fromEnd) before (fun _ => later) bad)
    (htell : Brings conduct stream.name (.tell stream.handle) later
      (fun answer after => ∀ size, answer = Except.ok size → told size after) bad)
    (hback : ∀ size start, Brings conduct stream.name (.seek stream.handle start fromStart)
      (told size) (fun _ => told size) bad)
    (hunknown : ∀ size, started none → Brings conduct stream.name (.seekUnknown stream.handle)
      (told size) (fun _ => told size) bad) (hbefore : before state) :
    (measure stream).Ensures conduct scratch state
      (fun size scratch' after => scratch' = scratch ∧ told size after)
      (fun failure _ after => bad failure after) := by
  rw [measure]
  refine Task.Ensures.bind (position_brings hstart hbefore) ?_
  rintro start _ state ⟨rfl, hstarted, hbefore⟩
  refine Task.Ensures.bind (move_brings hend hbefore) ?_
  rintro _ _ state ⟨rfl, hlater⟩
  refine Task.Ensures.bind (position_brings htell hlater) ?_
  rintro size _ state ⟨rfl, htold⟩
  refine Task.Ensures.bind (moveBack_brings (hback size)
    (fun hnone => hunknown size (hnone ▸ hstarted)) htold) ?_
  rintro _ _ _ ⟨rfl, htold⟩
  exact Task.ensures_pure ⟨rfl, htold⟩

end Measure

/-- What the calls of transfers keep until one of them fails, and what they fail with. A read hands
over some bytes, and not more than were asked for. No write is considered of more than so many
bytes, and no note is refused. -/
structure Orderly (conduct : Conduct (interface κ) τ) (source dest : Channel κ) (most : Nat)
    (inv : τ → Prop) (bad : Failure → τ → Prop) : Prop where
  into : ∀ size, Brings conduct source.name (.readInto source.handle size) inv
    (fun answer after => ∃ delivery : Delivery, answer = Except.ok delivery ∧
      ∃ count ≤ size, 0 < count ∧ delivery.reported = some (count : Int) ∧ inv after) bad
  plain : ∀ size, Brings conduct source.name (.read source.handle size) inv
    (fun answer after => ∃ data : Bytes, answer = Except.ok (some data) ∧ data.length ≤ size ∧
      inv after) bad
  write : ∀ data, data.length ≤ most →
    Brings conduct dest.name (.write dest.handle data) inv (fun _ => inv) bad
  seek : ∀ offset whence,
    Brings conduct dest.name (.seek dest.handle offset whence) inv (fun _ => inv) bad
  tell : Brings conduct dest.name (.tell dest.handle) inv (fun _ => inv) bad
  seekable : Brings conduct dest.name (.seekable dest.handle) inv (fun _ => inv) bad
  note : ∀ fact state (answer : Except Fault Unit) after, inv state →
    conduct (.note fact) state answer after → answer = .ok () ∧ inv after

namespace Orderly

variable {conduct : Conduct (interface κ) τ} {source dest : Channel κ} {most span : Nat}
  {inv : τ → Prop} {bad : Failure → τ → Prop} {scratch : Scratch} {state : τ}
  (horderly : Orderly conduct source dest most inv bad)

include horderly

theorem gives (hmost : span ≤ most) : Gives conduct dest span (fun _ _ => inv) bad where
  write data _ state answer after hfits hinv hanswer :=
    horderly.write data (Nat.le_trans hfits hmost) state answer after hinv hanswer
  note := by
    intro fact _ state answer after hinv hanswer
    obtain ⟨rfl, hafter⟩ := horderly.note fact state answer after hinv hanswer
    exact hafter

theorem carries (hmost : span ≤ most) :
    Carries conduct source dest span (fun _ _ => inv) bad where
  toGives := horderly.gives hmost
  into := by
    intro size _ state answer after _ _ hinv hanswer
    refine (horderly.into size state answer after hinv hanswer).mono ?_ fun _ hbad => hbad
    rintro ⟨delivery, rfl, count, hcount, hsome, hreported, hafter⟩
    exact ⟨delivery, rfl, count, hcount, hsome, hreported, fun _ _ => hafter⟩
  plain := fun size _ state answer after _ _ hinv hanswer =>
    horderly.plain size state answer after hinv hanswer

theorem note_ensures (fact : Note) (hinv : inv state) :
    (Stream.note fact : Work κ Unit).Ensures conduct scratch state
      (fun _ scratch' after => scratch' = scratch ∧ inv after)
      (fun failure _ after => bad failure after) :=
  note_gives (horderly.gives (Nat.zero_le _)) fact 0 hinv

theorem writeAll_ensures {data : Bytes} (hmost : data.length ≤ most) (hinv : inv state) :
    (writeAll dest data).Ensures conduct scratch state
      (fun _ scratch' after => scratch' = scratch ∧ inv after)
      (fun failure _ after => bad failure after) :=
  writeAll_gives (horderly.gives hmost) 0 (Nat.le_refl _) hinv

theorem moveTo_ensures (offset whence : Int) (hinv : inv state) :
    (moveTo dest offset whence).Ensures conduct scratch state
      (fun _ scratch' after => scratch' = scratch ∧ inv after)
      (fun failure _ after => bad failure after) := by
  refine Task.Ensures.bind (move_brings (horderly.seek offset whence) hinv) ?_
  rintro _ _ state ⟨rfl, hinv⟩
  exact position_keeps horderly.tell hinv

theorem canMove_ensures (hinv : inv state) :
    (canMove dest).Ensures conduct scratch state
      (fun _ scratch' after => scratch' = scratch ∧ inv after)
      (fun failure _ after => bad failure after) := by
  rw [canMove]
  split
  · refine Task.Ensures.bind (Task.ensures_request _) ?_
    rintro answer _ after ⟨rfl, hanswer⟩
    have hcomes := horderly.seekable state answer after hinv hanswer
    cases answer with
    | ok yes => exact Task.ensures_pure ⟨rfl, hcomes⟩
    | error fault =>
        dsimp only
        by_cases hcaught : fault.isSystemOrValue = true
        · rw [if_pos hcaught]
          exact Task.ensures_pure ⟨rfl, hcomes.good (if_pos hcaught)⟩
        · rw [if_neg hcaught]
          exact Task.ensures_fail (hcomes.bad (if_neg hcaught))
  · exact Task.ensures_pure ⟨rfl, hinv⟩

end Orderly

end Orderly

section Memory

variable {ι σ : Type} {outer : Conduct (interface ι) σ} {inv : σ → Prop} {source dest : Channel ι}
  {most span : Nat} {bad : Failure → σ → Prop}

/-- A call that is passed on comes to what it comes to beyond. -/
theorem Request.Comes.passed {κ : Type} {name : String} {request : Request ι}
    {answer : request.Answer} {good good' : Prop} {bad : Failure → Prop}
    (hcomes : request.Comes name answer good bad) {within : Request κ} {given : within.Answer}
    (hsame : within.failure? (fun _ => name) given = request.failure? (fun _ => name) answer)
    (hgood : good → good') : within.Comes name given good' bad := by
  rw [Comes.eq_def, hsame]
  rw [Comes.eq_def] at hcomes
  split
  · rename_i hnone
    rw [hnone] at hcomes
    exact hgood hcomes
  · rename_i failure hfailed
    rw [hfailed] at hcomes
    exact hcomes

def Inside (ι : Type) : Request (Option ι) → Prop :=
  besideKind fun request => request.stream? = none

def Filling (target : Nat) (inv : σ → Prop) (hand : Bytes) (left : Nat) (state : Tape × σ) : Prop :=
  state.1.position + hand.length + left = target ∧ state.1.contents.size = state.1.position ∧
    inv state.2

def Emptying (inv : σ → Prop) (_hand : Bytes) (left : Nat) (state : Tape × σ) : Prop :=
  state.1.position + left = state.1.contents.size ∧ inv state.2

/-- The tape in memory takes what is passed to it, as long as there is memory for all of it. -/
theorem Orderly.filling [Machine] (horderly : Orderly outer source dest most inv bad) {target : Nat}
    (hroom : target < Machine.memory) (span : Nat) :
    Carries (.steered steer outer) (source.mapHandle some) stagingChannel span (Filling target inv)
      (fun failure state => bad failure state.2) where
  write := by
    rintro data left ⟨tape, state⟩ answer after _ ⟨htarget, hend, hinv⟩ hanswer
    have hgrowth : growthFault? tape data = none :=
      growthFault?_eq_none (by dsimp only at htarget; omega)
    have hanswer : (steer (.write none data) tape).Leads outer state answer after := hanswer
    rw [steer, hgrowth] at hanswer
    obtain ⟨rfl, rfl⟩ := hanswer
    refine .of_none ⟨?_, ?_, hinv⟩ (if_neg (Int.lt_irrefl _))
    · rw [Tape.position_write, List.length_nil, Nat.add_zero]
      exact htarget
    · by_cases hdata : data = []
      · rw [hdata, Tape.write_nil]
        exact hend
      · have hsize : (tape.write data).contents.size
            = max tape.contents.size (tape.position + data.length) :=
          Contents.size_store _ _ _ hdata
        rw [hsize, hend, Tape.position_write]
        exact Nat.max_eq_right (Nat.le_add_right _ _)
  note := by
    rintro fact left ⟨tape, state⟩ answer after ⟨htarget, hend, hinv⟩ ⟨_, later, hanswer, rfl, rfl⟩
    obtain ⟨rfl, hafter⟩ := horderly.note fact state _ later hinv hanswer
    exact ⟨htarget, hend, hafter⟩
  into := by
    rintro size left ⟨tape, state⟩ answer after _ hleft ⟨htarget, hend, hinv⟩ ⟨_, later, hanswer,
      rfl, rfl⟩
    refine (horderly.into size state _ later hinv hanswer).passed (by cases answer <;> rfl) ?_
    rintro ⟨delivery, hgiven, count, hcount, hsome, hreported, hafter⟩
    refine ⟨delivery, hgiven, count, hcount, hsome, hreported, fun remains hthere => ?_⟩
    refine ⟨?_, hend, hafter⟩
    rw [List.length_take_of_le hthere]
    dsimp only [List.length_nil] at htarget ⊢
    omega
  plain := by
    rintro size left ⟨tape, state⟩ answer after _ hleft ⟨htarget, hend, hinv⟩ ⟨_, later, hanswer,
      rfl, rfl⟩
    refine (horderly.plain size state _ later hinv hanswer).passed (by cases answer <;> rfl) ?_
    rintro ⟨data, hgiven, hcount, hafter⟩
    refine ⟨data, hgiven, hcount, ?_, hend, hafter⟩
    dsimp only [List.length_nil] at htarget ⊢
    omega

/-- The tape in memory hands over as much as is asked for, up to its end. -/
theorem Orderly.emptying [Machine] (horderly : Orderly outer source dest most inv bad)
    (hmost : span ≤ most) :
    Carries (.steered steer outer) stagingChannel (dest.mapHandle some) span (Emptying inv)
      (fun failure state => bad failure state.2) where
  write := by
    rintro data left ⟨tape, state⟩ answer after hfits ⟨hahead, hinv⟩ ⟨_, later, hanswer, rfl, rfl⟩
    have hcomes := horderly.write data (Nat.le_trans hfits hmost) state _ later hinv hanswer
    refine hcomes.passed ?_ fun hafter => ⟨hahead, hafter⟩
    obtain _ | _ | _ := answer <;> rfl
  note := by
    rintro fact left ⟨tape, state⟩ answer after ⟨hahead, hinv⟩ ⟨_, later, hanswer, rfl, rfl⟩
    obtain ⟨rfl, hafter⟩ := horderly.note fact state _ later hinv hanswer
    exact ⟨hahead, hafter⟩
  into := by
    rintro size left ⟨tape, state⟩ answer after hsize hleft ⟨hahead, hinv⟩ hanswer
    have hahead : tape.position + left = tape.contents.size := hahead
    obtain ⟨data, hlength, hread⟩ := tape.read_of_le size (by omega)
    have hanswer : (steer (.readInto none size) tape).Leads outer state answer after := hanswer
    rw [steer, hread] at hanswer
    obtain ⟨rfl, rfl⟩ := hanswer
    refine .of_none ⟨_, rfl, size, Nat.le_refl _, hsize, by rw [hlength], fun _ _ => ⟨?_, hinv⟩⟩
      (if_neg ?_)
    · dsimp only [Tape.advance]
      omega
    · rw [hlength, Option.getD_some]
      omega
  plain := by
    rintro size left ⟨tape, state⟩ answer after hsize hleft ⟨hahead, hinv⟩ hanswer
    have hahead : tape.position + left = tape.contents.size := hahead
    obtain ⟨data, hlength, hread⟩ := tape.read_of_le size (by omega)
    have hanswer : (steer (.read none size) tape).Leads outer state answer after := hanswer
    rw [steer, hread] at hanswer
    obtain ⟨rfl, rfl⟩ := hanswer
    refine .of_none ⟨data, rfl, Nat.le_of_eq hlength, ?_, hinv⟩ (if_neg ?_)
    · dsimp only [Tape.advance]
      omega
    · exact List.ne_nil_of_length_pos (hlength ▸ hsize)

/-- Work on the tape in memory does what it does there, as long as no note is refused. -/
theorem inside_ensures [Machine] {α : Type} [DecidableEq ι]
    (hnote : ∀ fact state (answer : Except Fault Unit) after, inv state →
      outer (.note fact) state answer after → answer = .ok () ∧ inv after)
    {work : Work (Option ι) α} (hasks : work.AsksOnly (Inside ι)) {ability : ι → Ability}
    {tapes : ι → Tape} {tape : Tape} {state : σ} {scratch : Scratch}
    {good : α → Scratch → (Option ι → Tape) → Prop}
    {bad : Failure → Scratch → (Option ι → Tape) → Prop}
    (hwork : work.Ensures (conduct (besideAbility ability) True) scratch (beside tape tapes)
      good bad) (hinv : inv state) :
    work.Ensures (.steered steer outer) scratch (tape, state)
      (fun value scratch' after => good value scratch' (beside after.1 tapes) ∧ inv after.2)
      (fun failure scratch' after =>
        bad failure scratch' (beside after.1 tapes) ∧ inv after.2) := by
  refine hwork.of_view (fun joint : Tape × σ => beside joint.1 tapes)
    (fun joint => inv joint.2) ?_ hasks hinv
  rintro request ⟨tape, state⟩ answer after hinside hinv hanswer
  have hkept : (steer request tape).Follows (conduct ability True)
      (conduct (besideAbility ability) True) beside tape tapes := steer_conduct request tape tapes
  have hwithin := steer_within request tape hinside
  have hanswer : (steer request tape).Leads outer state answer after := hanswer
  revert hkept hwithin hanswer
  cases steer request tape with
  | kept given tape' =>
      rintro hkept - ⟨rfl, rfl⟩
      exact ⟨hkept, hinv⟩
  | passed passed back tape' =>
      rintro hkept hwithin ⟨given, later, houter, rfl, rfl⟩
      have hstream : passed.stream? = none := hwithin
      cases passed with
      | note fact =>
          obtain ⟨rfl, hinv⟩ := hnote fact state given later hinv houter
          exact ⟨hkept (.ok ()) tapes ⟨rfl, fun _ => rfl⟩, hinv⟩
      | _ => exact absurd hstream (by simp [Request.stream?])

end Memory

end Stream

end RomImage
