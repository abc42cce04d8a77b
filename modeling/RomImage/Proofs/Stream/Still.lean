import RomImage.Proofs.Recorded
import RomImage.Proofs.Stream.Position
import RomImage.Proofs.Stream.Transfer
import RomImage.Proofs.Stream.Writes

/-!
# Streams that cannot be moved

A stream cannot be moved if it cannot be asked, or if it denies it whenever it is. Such a stream may
oblige in every other respect, and work that does not ask does the same for it as for any other
(`still_of_conduct`).

What is asked of such a destination while a container is staged splits in two: at first no more than
whether it can be moved, and then writes. A list of calls that splits like this has no write in it
before the last call to another stream (`MadeThenGiven.unwritten`).
-/

namespace RomImage

namespace Stream

variable {ι σ τ : Type} {dest : Channel ι}

/-- An answer by which a stream cannot be moved: it says so, or it has a fault that stands for
that. -/
def IsDenial (answer : Except Fault Bool) : Prop :=
  answer = .ok false ∨ ∃ fault, answer = .error fault ∧ fault.isSystemOrValue = true

def Denies (stream : ι) : (request : Request ι) → request.Answer → Prop
  | .seekable other, answer => other = stream → IsDenial answer
  | _, _ => True

def Unasking (stream : ι) : Request ι → Prop
  | .seekable other => other ≠ stream
  | _ => True

instance decidableIsDenial : (answer : Except Fault Bool) → Decidable (IsDenial answer)
  | .ok moves => decidable_of_iff (moves = false) (by simp [IsDenial])
  | .error fault => decidable_of_iff (fault.isSystemOrValue = true) (by simp [IsDenial])

instance decidableDenies [DecidableEq ι] (stream : ι) :
    (request : Request ι) → (answer : request.Answer) → Decidable (Denies stream request answer)
  | .seekable other, answer =>
    have := decidableIsDenial answer
    inferInstanceAs (Decidable (other = stream → IsDenial answer))
  | .readInto _ _, _ | .read _ _, _ | .write _ _, _ | .seek _ _ _, _ | .seekUnknown _, _
  | .tell _, _ | .note _, _ => .isTrue trivial

instance decidableUnasking [DecidableEq ι] (stream : ι) :
    (request : Request ι) → Decidable (Unasking stream request)
  | .seekable other => inferInstanceAs (Decidable (other ≠ stream))
  | .readInto _ _ | .read _ _ | .write _ _ | .seek _ _ _ | .seekUnknown _ | .tell _
  | .note _ => .isTrue trivial

theorem reads_unasking (dest stream : ι) : Reads (Unasking dest) stream :=
  ⟨fun _ => trivial, fun _ => trivial⟩

theorem moves_unasking (dest stream : ι) : Moves (Unasking dest) stream :=
  ⟨trivial, fun _ _ => trivial, trivial⟩

theorem writes_unasking (dest stream : ι) : Writes (Unasking dest) stream := fun _ => trivial

theorem notes_unasking (dest : ι) : Notes (Unasking dest) := fun _ _ _ => trivial

def World.CannotMove (world : World ι σ) (dest : Channel ι) : Prop :=
  dest.answersSeekable = true →
    ∀ request state, Denies dest.handle request (world.answer request state).1

/-- Where the destination denies it, it is taken not to be movable. -/
theorem canMove_denied {conduct : Conduct (interface ι) τ} {inv : τ → Prop}
    {bad : Failure → Scratch → τ → Prop} {scratch : Scratch} {state : τ}
    (hdenies : dest.answersSeekable = true → ∀ answer after,
      conduct (.seekable dest.handle) state answer after → IsDenial answer ∧ inv after)
    (hinv : inv state) :
    (canMove dest).Ensures conduct scratch state
      (fun moves scratch' after => moves = false ∧ scratch' = scratch ∧ inv after) bad := by
  rw [canMove]
  cases hasks : dest.answersSeekable with
  | false => exact Task.ensures_pure ⟨rfl, rfl, hinv⟩
  | true =>
      rw [if_pos rfl]
      refine Task.Ensures.bind (Task.ensures_request _) ?_
      rintro answer scratch' after ⟨rfl, hanswer⟩
      obtain ⟨rfl | ⟨fault, rfl, hcaught⟩, hafter⟩ := hdenies hasks answer after hanswer
      · exact Task.ensures_pure ⟨rfl, rfl, hafter⟩
      · dsimp only
        rw [if_pos hcaught]
        exact Task.ensures_pure ⟨rfl, rfl, hafter⟩

section Obliging

variable [DecidableEq ι] {ability : ι → Ability} {obliged : Prop}

/-- Truthful streams that oblige within their abilities, but for a destination that cannot be
moved. -/
structure World.IsStill (world : World ι σ) (ability : ι → Ability)
    (dest : Channel ι) : Prop where
  truthful : world.IsTruthful
  cannotMove : world.CannotMove dest
  obliging : ∀ request state, Unasking dest.handle request →
    Obliging ability request (world.tape state) (world.answer request state).1

def World.denying (world : World ι σ) (still : ι) : World ι σ where
  tape := world.tape
  answer
    | .seekable stream, state =>
      if stream = still then ((.ok false : Except Fault Bool), state)
      else world.answer (.seekable stream) state
    | request, state => world.answer request state

theorem World.isStill_denying {world : World ι σ}
    (htruthful : world.IsTruthful) (hobliging : world.IsObliging ability) (dest : Channel ι) :
    (world.denying dest.handle).IsStill ability dest := by
  refine ⟨fun request state => ?_, fun _ request state => ?_, fun request state hrequest => ?_⟩
  · cases request with
    | seekable stream =>
        by_cases hsame : stream = dest.handle
        · simp only [denying, if_pos hsame]
          rfl
        · simp only [denying, if_neg hsame]
          exact htruthful _ state
    | _ => exact htruthful _ state
  · cases request with
    | seekable stream =>
        intro hsame
        simp only [denying, if_pos hsame]
        exact .inl rfl
    | _ => trivial
  · cases request with
    | seekable stream =>
        have hother : stream ≠ dest.handle := hrequest
        simp only [denying, if_neg hother]
        exact hobliging _ state
    | _ => exact hobliging _ state

/-- Truthful streams of which the destination cannot be moved, that are obliging in all other
respects if they are `obliged` to be. -/
def stillConduct (ability : ι → Ability) (obliged : Prop) (dest : Channel ι) :
    Conduct (interface ι) (ι → Tape) :=
  fun request tapes answer after => Truthful request tapes answer after ∧
    (obliged → Unasking dest.handle request → Obliging ability request tapes answer) ∧
    (dest.answersSeekable = true → Denies dest.handle request answer)

/-- Work that does not ask whether the destination can be moved does what it does where it can. -/
theorem still_of_conduct {α : Type} {work : Work ι α} {scratch : Scratch} {tapes : ι → Tape}
    {good : α → Scratch → (ι → Tape) → Prop} {bad : Failure → Scratch → (ι → Tape) → Prop}
    (hwork : work.Ensures (conduct ability obliged) scratch tapes good bad)
    (hasks : work.AsksOnly (Unasking dest.handle)) :
    work.Ensures (stillConduct ability obliged dest) scratch tapes good bad := by
  refine hwork.narrow hasks ?_
  intro request tapes answer after hrequest ⟨htruthful, hobliging, _⟩
  exact ⟨htruthful, fun hobliged => hobliging hobliged hrequest⟩

theorem still_note (fact : Note) {scratch : Scratch} {tapes : ι → Tape} :
    (note fact : Work ι Unit).Ensures (stillConduct ability obliged dest) scratch tapes
      (fun _ scratch' after => scratch' = scratch ∧ after = tapes) (fun _ _ _ => ¬ obliged) := by
  refine (still_of_conduct (note_ensures fact) (note_asksOnly trivial)).bad_mono ?_
  rintro _ _ _ ⟨hrefused, -⟩
  exact hrefused

end Obliging

section Calls

def Making (dest : ι) (request : Request ι) : Prop :=
  request.stream? = some dest → request = .seekable dest

def Giving (dest : ι) (request : Request ι) : Prop :=
  request.stream? = none ∨ request.WritesTo dest

def Made (dest : ι) (calls : List (Exchange ι)) : Prop := ∀ call ∈ calls, Making dest call.1

/-- The calls of giving a container away came behind those of making it; the last call is in
front. -/
def MadeThenGiven (dest : ι) (calls : List (Exchange ι)) : Prop :=
  ∃ later earlier, calls = later ++ earlier ∧ Made dest earlier ∧
    ∀ call ∈ later, Giving dest call.1

def Untouched (dest : ι) (calls : List (Exchange ι)) : Prop :=
  ∀ call ∈ calls, call.1.stream? ≠ some dest

/-- The destination was asked whether it can be moved, and no answer was a denial. -/
structure Affirmed (dest : Channel ι) (calls : List (Exchange ι)) : Prop where
  asks : dest.answersSeekable = true
  asked : ∃ answer, ⟨.seekable dest.handle, answer⟩ ∈ calls
  granted : ∀ answer, ⟨.seekable dest.handle, answer⟩ ∈ calls → ¬ IsDenial answer

theorem making_of_ne {dest : ι} {request : Request ι} (hother : request.stream? ≠ some dest) :
    Making dest request :=
  fun hsame => absurd hsame hother

theorem Made.madeThenGiven {dest : ι} {calls : List (Exchange ι)} (hmade : Made dest calls) :
    MadeThenGiven dest calls :=
  ⟨[], calls, rfl, hmade, by simp⟩

theorem Untouched.made {dest : ι} {calls : List (Exchange ι)} (huntouched : Untouched dest calls) :
    Made dest calls :=
  fun call hcall => making_of_ne (huntouched call hcall)

theorem untouched_step (request : Request ι) (calls : List (Exchange ι)) (answer : request.Answer)
    (after : List (Exchange ι)) (hother : request.stream? ≠ some dest.handle)
    (huntouched : Untouched dest.handle calls)
    (hstep : recorded (I := interface ι) request calls answer after) :
    Untouched dest.handle after := by
  obtain rfl := hstep
  exact List.forall_mem_cons.mpr ⟨hother, huntouched⟩

theorem made_step (request : Request ι) (calls : List (Exchange ι)) (answer : request.Answer)
    (after : List (Exchange ι)) (hmaking : Making dest.handle request)
    (hmade : Made dest.handle calls)
    (hstep : recorded (I := interface ι) request calls answer after) : Made dest.handle after := by
  obtain rfl := hstep
  exact List.forall_mem_cons.mpr ⟨hmaking, hmade⟩

theorem given_step (request : Request ι) (calls : List (Exchange ι)) (answer : request.Answer)
    (after : List (Exchange ι)) (hgiving : Giving dest.handle request)
    (hgiven : MadeThenGiven dest.handle calls)
    (hstep : recorded (I := interface ι) request calls answer after) :
    MadeThenGiven dest.handle after := by
  obtain rfl := hstep
  obtain ⟨later, earlier, rfl, hmade, hlater⟩ := hgiven
  exact ⟨⟨request, answer⟩ :: later, earlier, rfl, hmade,
    List.forall_mem_cons.mpr ⟨hgiving, hlater⟩⟩

theorem affirmed_step (request : Request ι) (calls : List (Exchange ι)) (answer : request.Answer)
    (after : List (Exchange ι)) (hunasking : Unasking dest.handle request)
    (haffirmed : Affirmed dest calls)
    (hstep : recorded (I := interface ι) request calls answer after) : Affirmed dest after := by
  obtain rfl := hstep
  obtain ⟨hasks, ⟨given, hasked⟩, hgranted⟩ := haffirmed
  refine ⟨hasks, ⟨given, List.mem_cons_of_mem _ hasked⟩, fun other hother => ?_⟩
  obtain hother | hother := List.mem_cons.mp hother
  · obtain ⟨rfl, -⟩ := Sigma.mk.inj hother
    exact absurd rfl hunasking
  · exact hgranted other hother

/-- A destination that was left alone until it is asked whether it can be moved affirms it, or all
that was done is of making a container. -/
theorem canMove_affirms {calls : List (Exchange ι)} (huntouched : Untouched dest.handle calls)
    {scratch : Scratch} :
    (canMove dest).Ensures recorded scratch calls
      (fun moves _ after => (moves = true → Affirmed dest after) ∧
        (moves = false → Made dest.handle after))
      (fun _ _ after => Made dest.handle after) := by
  rw [canMove]
  cases hasks : dest.answersSeekable with
  | false =>
      refine Task.ensures_pure ⟨fun hmoves => ?_, fun _ => huntouched.made⟩
      exact absurd hmoves (by simp)
  | true =>
      rw [if_pos rfl]
      refine Task.Ensures.bind (Task.ensures_request _) ?_
      rintro answer _ after ⟨rfl, rfl⟩
      have hmade : Made dest.handle (⟨.seekable dest.handle, answer⟩ :: calls) :=
        List.forall_mem_cons.mpr ⟨fun _ => rfl, huntouched.made⟩
      cases answer with
      | ok moves =>
          refine Task.ensures_pure ⟨?_, fun _ => hmade⟩
          rintro rfl
          refine ⟨hasks, ⟨_, List.mem_cons_self ..⟩, fun other hother hdenial => ?_⟩
          obtain hother | hother := List.mem_cons.mp hother
          · obtain rfl := eq_of_heq (Sigma.mk.inj hother).2
            obtain hdenial | ⟨fault, hdenial, -⟩ := hdenial
            · exact absurd hdenial (by simp)
            · exact absurd hdenial (by simp)
          · exact huntouched _ hother rfl
      | error fault =>
          dsimp only
          split
          · exact Task.ensures_pure ⟨fun hmoves => absurd hmoves (by simp), fun _ => hmade⟩
          · exact Task.ensures_fail hmade

/-- Every call to the destination asks whether it can be moved, or writes. -/
theorem MadeThenGiven.onlyWritten {dest : ι} {calls : List (Exchange ι)}
    (hgiven : MadeThenGiven dest calls) : ∀ call ∈ calls, OnlyWritten dest call := by
  obtain ⟨later, earlier, rfl, hmade, hlater⟩ := hgiven
  intro call hcall hto
  obtain hcall | hcall := List.mem_append.mp hcall
  · obtain hnote | hwrite := hlater call hcall
    · exact absurd (hto.symm.trans hnote) (by simp)
    · exact .inr hwrite
  · exact .inl (hmade call hcall hto)

/-- Nothing was written to the destination before a call to another stream. -/
theorem MadeThenGiven.unwritten {source dest : ι} (hapart : source ≠ dest)
    {calls later earlier : List (Exchange ι)} {call : Exchange ι}
    (hgiven : MadeThenGiven dest calls) (hcalls : calls = later ++ call :: earlier)
    (hsource : call.1.stream? = some source) : ∀ other ∈ earlier, ¬ other.1.WritesTo dest := by
  obtain ⟨given, made, hsplit, hmade, hlater⟩ := hgiven
  have hnot : ¬ Giving dest call.1 := by
    rintro (hnote | ⟨data, hwrite⟩)
    · exact absurd (hsource.symm.trans hnote) (by simp)
    · rw [hwrite] at hsource
      exact hapart (Option.some.inj hsource).symm
  -- The call belongs to the making, and so do all that came before it.
  have hearlier : ∀ other ∈ earlier, other ∈ made := by
    intro other hother
    obtain ⟨rest, hgiven, hrest⟩ | ⟨rest, -, hmade⟩ :=
      List.append_eq_append_iff.mp (hcalls.symm.trans hsplit)
    · cases rest with
      | nil =>
          have hmade : call :: earlier = made := hrest
          rw [← hmade]
          exact List.mem_cons_of_mem call hother
      | cons first rest =>
          obtain ⟨rfl, -⟩ := List.cons.inj hrest
          have hin : call ∈ given := by simp [hgiven]
          exact absurd (hlater call hin) hnot
    · simp [hmade, hother]
  rintro other hother ⟨data, hwrite⟩
  have hasked := hmade other (hearlier other hother) (by rw [hwrite]; rfl)
  rw [hwrite] at hasked
  exact absurd hasked (by simp)

end Calls

end Stream

end RomImage
