import RomImage.Proofs.Rule.Orderly
import RomImage.Proofs.Rule.Staged
import RomImage.Proofs.Stream.Granted

/-!
# The first failed call decides

In every run of a rule the first call that fails is the last call there is, and its failure is that
of the run. Where none fails, only the size that the source has told can be in the way. So whatever
goes wrong is put down to the source or the destination, and never to the tape in memory.
-/

namespace RomImage

open RomImage.Stream

namespace Stream

variable {ι : Type} {name : ι → String} {stream : ι} {error : BuildError}

theorem context_of_fault {caught : Fault → Bool} {naming : String → BuildError} {fault : Fault}
    (hnaming : ∀ reason, (naming reason).context = name stream)
    (herror : some (ofFault caught naming fault) = some (.build error)) :
    error.context = name stream := by
  have herror := Option.some.inj herror
  rw [ofFault] at herror
  split at herror
  · obtain rfl := Failure.build.inj herror
    exact hnaming _
  · exact absurd herror (by simp)

theorem context_of_count {count : Int} {offered : Nat}
    (herror : some (ofCount (name stream) count offered) = some (.build error)) :
    error.context = name stream := by
  unfold ofCount at herror
  revert herror
  cases Text.decimal? count with
  | some digits =>
      intro herror
      obtain rfl := Failure.build.inj (Option.some.inj herror)
      rfl
  | none => exact fun herror => absurd herror (by simp)

theorem context_of_nothing (herror : some (ofNothing (name stream)) = some (.build error)) :
    error.context = name stream := by
  obtain rfl := Failure.build.inj (Option.some.inj herror)
  rfl

/-- An error over a failed call names the stream of the call. -/
theorem Request.context_of_failure {request : Request ι} {answer : request.Answer}
    (hfailed : request.failure? name answer = some (.build error)) :
    ∃ stream, request.stream? = some stream ∧ error.context = name stream := by
  cases request with
  | readInto stream size =>
      refine ⟨stream, rfl, ?_⟩
      cases answer with
      | error fault => exact context_of_fault (fun _ => rfl) hfailed
      | ok delivery =>
          rw [Request.failure?] at hfailed
          split at hfailed
          · exact context_of_nothing hfailed
          · exact absurd hfailed (by simp)
  | read stream size =>
      refine ⟨stream, rfl, ?_⟩
      cases answer with
      | error fault => exact context_of_fault (fun _ => rfl) hfailed
      | ok data =>
          rw [Request.failure?] at hfailed
          split at hfailed
          · exact context_of_nothing hfailed
          · exact absurd hfailed (by simp)
  | write stream data =>
      refine ⟨stream, rfl, ?_⟩
      obtain fault | _ | count := answer
      · exact context_of_fault (fun _ => rfl) hfailed
      · exact context_of_count hfailed
      · rw [Request.failure?] at hfailed
        split at hfailed
        · exact context_of_count hfailed
        · exact absurd hfailed (by simp)
  | seek stream offset whence | seekUnknown stream | tell stream =>
      refine ⟨stream, rfl, ?_⟩
      cases answer with
      | error fault => exact context_of_fault (fun _ => rfl) hfailed
      | ok _ => exact absurd hfailed (by simp [Request.failure?])
  | seekable stream =>
      cases answer with
      | error fault =>
          rw [Request.failure?] at hfailed
          split at hfailed
          · exact absurd hfailed (by simp)
          · exact absurd hfailed (by simp)
      | ok _ => exact absurd hfailed (by simp [Request.failure?])
  | note fact =>
      cases answer with
      | error fault => exact absurd hfailed (by simp [Request.failure?])
      | ok _ => exact absurd hfailed (by simp [Request.failure?])

end Stream

namespace Rule

variable {ι σ : Type} {rule : Rule} {source dest : Channel ι} {name : ι → String}
  {world : World ι σ} {scratch scratch' : Scratch} {state after : σ}
  {outcome : Except Failure Summary} {calls : List (Exchange ι)}

/-- A denial is the only answer there is to the question whether the destination can be moved, and
the container is made before it is given. -/
theorem madeThenGiven_of_denied [Machine] (hapart : source.handle ≠ dest.handle)
    (hrun : world.logged.run scratch (rule.apply source dest) (state, [])
      = ((outcome, scratch'), (after, calls))) {answer : Except Fault Bool}
    (hasked : ⟨.seekable dest.handle, answer⟩ ∈ calls) (hdenial : IsDenial answer) :
    MadeThenGiven dest.handle calls := by
  by_cases hlayout : rule.layout = .patched
  · obtain haffirmed | hgiven := affirmed_or_madeThenGiven hlayout hapart hrun
    · exact absurd hdenial (haffirmed.granted answer hasked)
    · exact hgiven
  · have hasks : (rule.apply source dest).AsksOnly (Unasking dest.handle) :=
      rule.apply_asksOnly (reads_unasking _ _) (moves_unasking _ _) (writes_unasking _ _)
        (moves_unasking _ _) (fun hpatched => absurd hpatched hlayout) fun _ _ => trivial
    exact absurd rfl (hasks.run_recording hrun _ hasked)

theorem decided_by_last [Machine] (hsource : name source.handle = source.name)
    (hdest : name dest.handle = dest.name)
    (hrun : world.logged.run scratch (rule.apply source dest) (state, [])
      = ((outcome, scratch'), (after, calls))) :
    (∀ call ∈ calls, call.1.failure? name call.2 = none) ∨
      ∃ call earlier failure, calls = call :: earlier ∧
        call.1.failure? name call.2 = some failure ∧
        (∀ other ∈ earlier, other.1.failure? name other.2 = none) ∧ outcome = .error failure := by
  have hheeds : (rule.apply source dest scratch).Heeds (verdict fun stream name' =>
      name' = name stream) := rule.apply_heeds hsource.symm hdest.symm scratch
  have hspared {call : Exchange ι} (hnone : ∀ failure,
      ¬ verdict (fun stream name' => name' = name stream) call.1 call.2 failure) :
      call.1.failure? name call.2 = none :=
    Option.eq_none_iff_forall_ne_some.mpr fun failure hfailed =>
      hnone failure (verdict_iff.mpr hfailed)
  obtain hnone | ⟨call, earlier, failure, hcalls, hfailed, hnone, houtcome⟩ :=
    hheeds.decided_by_last hrun
  · exact .inl fun call hcall => hspared (hnone call hcall)
  · exact .inr ⟨call, earlier, failure, hcalls, verdict_iff.mp hfailed,
      fun other hother => hspared (hnone other hother), houtcome⟩

/-- A call that failed is the last one, the first one that failed, and what the run ends with. -/
theorem last_of_failure [Machine] (hsource : name source.handle = source.name)
    (hdest : name dest.handle = dest.name)
    (hrun : world.logged.run scratch (rule.apply source dest) (state, [])
      = ((outcome, scratch'), (after, calls))) {later earlier : List (Exchange ι)}
    {call : Exchange ι} {failure : Failure} (hcalls : calls = later ++ call :: earlier)
    (hfailed : call.1.failure? name call.2 = some failure) :
    later = [] ∧ outcome = .error failure ∧
      ∀ other ∈ earlier, other.1.failure? name other.2 = none := by
  obtain hnone | ⟨last, before, failure', rfl, hlast, hnone, houtcome⟩ :=
    decided_by_last hsource hdest hrun
  · have hcall : call ∈ calls := hcalls ▸ List.mem_append_right _ (List.mem_cons_self ..)
    exact absurd (hfailed.symm.trans (hnone call hcall)) (by simp)
  cases later with
  | nil =>
      obtain ⟨rfl, rfl⟩ := List.cons.inj hcalls
      obtain rfl := Option.some.inj (hlast.symm.trans hfailed)
      exact ⟨rfl, houtcome, hnone⟩
  | cons first rest =>
      obtain ⟨-, rfl⟩ := List.cons.inj hcalls
      have hcall : call ∈ rest ++ call :: earlier :=
        List.mem_append_right _ (List.mem_cons_self ..)
      exact absurd (hfailed.symm.trans (hnone call hcall)) (by simp)

/-- Every call of a run is one to the source or the destination, or a note. -/
theorem stream_of_run [Machine]
    (hrun : world.logged.run scratch (rule.apply source dest) (state, [])
      = ((outcome, scratch'), (after, calls))) {call : Exchange ι} (hcall : call ∈ calls) :
    ∀ stream ∈ call.1.stream?, stream = source.handle ∨ stream = dest.handle := by
  have hasks : (rule.apply source dest).AsksOnly fun request : Request ι =>
      ∀ stream ∈ request.stream?, stream = source.handle ∨ stream = dest.handle :=
    rule.apply_asksOnly_streams fun _ hstreams => hstreams
  exact hasks.run_recording hrun call hcall

/-- Where no call fails, a rule fails only over the size that the source has told. -/
theorem apply_granted [Machine] {calls : List (Exchange ι)} (hmatched : rule.Matched)
    (hmemory : rule.layout = .patched → rule.containerSize < Machine.memory) {buffer : Buffer}
    (hbuffer : scratch.buffer = .ok buffer) (hspan : 0 < buffer.length) :
    (rule.apply source dest).Ensures (granted name) scratch calls (fun _ _ _ => True)
      (fun failure _ after => ∃ size : Option Int,
        ⟨.tell source.handle, (.ok size : Except Fault (Option Int))⟩ ∈ after ∧
          rule.SizeFailure source.name size failure) := by
  have hpatch : ∀ patch ∈ rule.spec.patch, patch.data.length ≤ buffer.length + rule.containerSize :=
    fun patch hpatch => by
      have hstop := hmatched.stop_le hpatch
      rw [Patch.stop] at hstop
      omega
  have hlasting (size : Option Int) : Lasting fun calls : List (Exchange ι) =>
      ⟨.tell source.handle, (.ok size : Except Fault (Option Int))⟩ ∈ calls := lasting_mem _
  exact (apply_orderly (fun size => orderly_granted (hlasting size) source dest _) measure_granted
    (fun size _ _ htold hsize => ⟨size, htold, hsize⟩) hmatched hmemory hbuffer hspan
    (Nat.le_add_right _ _) hpatch).mono (fun _ _ _ _ => trivial) fun _ _ _ hbad => hbad

/-- **The first failed call decides, and it is the last.** Take a rule that comes with the tool, and
let the streams of its source and its destination do whatever they like. If a call fails, nothing is
done after it, none has failed before it, and the run ends with the failure that its answer amounts
to (`Request.failure?`): an error with the name of the stream, if the fault is one that is caught
there, and the fault itself otherwise.

A write that took too little is a short write of the destination, with one amendment: if the count
that it reports has more digits than are written, the message cannot be made, and the run ends with
the error of that.

To deny that it can be moved is no failure of a destination, by a fault or not; nothing is then
written to it before the last call to the source. If no call fails, and reads deliver no more than
was asked for, a run through a buffer fails only over the size that the source has told. So no error
is about the tape in memory: each names the source or the destination. -/
theorem apply_first_failure [Machine] (hshipped : rule.IsShipped)
    (hapart : source.handle ≠ dest.handle)
    (hsource : name source.handle = source.name) (hdest : name dest.handle = dest.name)
    (hrun : world.logged.run scratch (rule.apply source dest) (state, [])
      = ((outcome, scratch'), (after, calls))) :
    (∀ later call earlier failure, calls = later ++ call :: earlier →
      call.1.failure? name call.2 = some failure →
      later = [] ∧ outcome = .error failure ∧
        ∀ other ∈ earlier, other.1.failure? name other.2 = none) ∧
    (∀ answer, ⟨.seekable dest.handle, answer⟩ ∈ calls → IsDenial answer →
      Request.failure? name (.seekable dest.handle) answer = none ∧
        MadeThenGiven dest.handle calls) ∧
    (∀ buffer failure, scratch.buffer = .ok buffer → 0 < buffer.length →
      (∀ call ∈ calls, Within call.1 call.2) → outcome = .error failure →
      ((∃ call earlier, calls = call :: earlier ∧ call.1.failure? name call.2 = some failure) ∨
        ∃ size : Option Int, ⟨.tell source.handle, (.ok size : Except Fault (Option Int))⟩ ∈ calls ∧
          rule.SizeFailure source.name size failure) ∧
      ∀ error, failure = .build error →
        error.context = source.name ∨ error.context = dest.name) ∧
    ∀ data count,
      ⟨.write dest.handle data, (.ok (some count) : Except Fault (Option Int))⟩ ∈ calls →
      count < data.length →
      count.natAbs < Nat.pow 10 Text.digitLimit ∧
          (∃ detail, outcome = .error (.build (.shortWrite dest.name detail))) ∨
        Nat.pow 10 Text.digitLimit ≤ count.natAbs ∧
          outcome = .error (.misuse .unprintableNumber) := by
  refine ⟨?_, ?_, ?_, ?_⟩
  · intro later call earlier failure hcalls hfailed
    exact last_of_failure hsource hdest hrun hcalls hfailed
  · intro answer hasked hdenial
    refine ⟨?_, madeThenGiven_of_denied hapart hrun hasked hdenial⟩
    obtain rfl | ⟨fault, rfl, hcaught⟩ := hdenial
    · rfl
    · rw [Request.failure?, if_pos hcaught]
  · rintro buffer failure hbuffer hspan hwithin rfl
    obtain hnone | ⟨call, earlier, failure', rfl, hfailed, -, houtcome⟩ :=
      decided_by_last hsource hdest hrun
    · -- No call has failed, so the size is all that a failure can be over.
      obtain ⟨size, htold, hsize⟩ := (apply_granted hshipped.matched hshipped.memory hbuffer
        hspan).run_recording (fun _ _ _ hgranted => ⟨rfl, hgranted⟩) hrun
          fun call hcall => ⟨hnone call hcall, hwithin call hcall⟩
      exact ⟨.inr ⟨size, htold, hsize⟩, fun error herror => .inl (hsize.context_eq herror)⟩
    · obtain rfl := Except.error.inj houtcome
      refine ⟨.inl ⟨call, earlier, rfl, hfailed⟩, ?_⟩
      rintro error rfl
      obtain ⟨stream, hto, hcontext⟩ := Request.context_of_failure hfailed
      obtain rfl | rfl := stream_of_run hrun (List.mem_cons_self ..) stream hto
      · exact .inl (hcontext.trans hsource)
      · exact .inr (hcontext.trans hdest)
  · intro data count hcall hless
    obtain ⟨later, earlier, hcalls⟩ := List.append_of_mem hcall
    obtain ⟨-, houtcome, -⟩ :=
      last_of_failure hsource hdest hrun hcalls (by rw [Request.failure?, if_pos hless])
    rw [houtcome, hdest]
    rcases Nat.lt_or_ge count.natAbs (Nat.pow 10 Text.digitLimit) with hprintable | hlong
    · obtain ⟨detail, hshort⟩ := ofCount_eq data.length hprintable
      exact .inl ⟨hprintable, detail, congrArg Except.error hshort⟩
    · exact .inr ⟨hlong, congrArg Except.error (ofCount_eq_misuse data.length hlong)⟩

def unreadable (world : World ι σ) : World ι σ where
  tape := world.tape
  answer
    | .readInto stream size, state =>
      (Request.refused (.system (some 5) "Input/output error") (.readInto stream size), state)
    | .seekable stream, state =>
      (Request.refused (.unsupported "seekable") (.seekable stream), state)
    | request, state => world.answer request state

/-- A PAK/3 is to be staged, and the first read of its image fails. -/
theorem apply_first_failure_unreadable :
    let name : Bool → String := fun isDest => if isDest then "out.bin" else "in.bin"
    let tapes : Bool → Tape := fun isDest => if isDest then .empty else ⟨.ofBytes [1, 2], 0⟩
    let ended := (unreadable (World.plain 0)).logged.run (.ready (.ofBytes [9, 9]))
      (pak3.apply ⟨false, "in.bin", true, true⟩ ⟨true, "out.bin", true, true⟩) (tapes, [])
    ended.1.1 = .error (.build (.shortRead "in.bin" "Input/output error")) ∧
      (∀ other ∈ ended.2.2.tail, other.1.failure? name other.2 = none) ∧
      MadeThenGiven true ended.2.2 ∧
      ∀ error, ended.1.1 = .error (.build error) →
        error.context = "in.bin" ∨ error.context = "out.bin" := by
  intro name tapes ended
  have hended : (ended.2.2.head?.bind fun call => call.1.failure? name call.2)
        = some (.build (.shortRead "in.bin" "Input/output error")) ∧
      (∃ call ∈ ended.2.2, ¬ Unasking true call.1) ∧
      (∀ call ∈ ended.2.2, Denies true call.1 call.2) ∧
      ∀ call ∈ ended.2.2, Within call.1 call.2 := by
    decide +kernel
  obtain ⟨result, hrun⟩ : ∃ result, ended = result := ⟨_, rfl⟩
  rw [hrun] at hended ⊢
  obtain ⟨⟨outcome, scratch'⟩, after, calls⟩ := result
  obtain ⟨hlast, ⟨⟨request, answer⟩, hcall, hasked⟩, hdenies, hwithin⟩ := hended
  have hsource : name false = "in.bin" := rfl
  have hdest : name true = "out.bin" := rfl
  obtain ⟨hdecides, hstages, herrors, -⟩ :=
    apply_first_failure IsShipped.pak3 (by decide) hsource hdest hrun
  have hgiven : MadeThenGiven true calls := by
    cases request with
    | seekable stream =>
        obtain rfl := not_not.mp hasked
        exact (hstages answer hcall (hdenies _ hcall rfl)).2
    | _ => exact absurd trivial hasked
  cases calls with
  | nil => exact absurd hlast (by simp)
  | cons last earlier =>
      obtain ⟨-, rfl, hnone⟩ := hdecides [] last earlier _ rfl hlast
      refine ⟨rfl, hnone, hgiven, fun error hfailed => ?_⟩
      exact (herrors _ _ rfl (by decide) hwithin hfailed).2 error rfl

end Rule

end RomImage
