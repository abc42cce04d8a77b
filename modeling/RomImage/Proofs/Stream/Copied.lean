import RomImage.Proofs.Stream.Transfer

/-!
# What a copy has done when it ends

However a copy ends, the destination has got a beginning of what was ahead in the source, and all of
it was read. What is read and not given is in the buffer, and there is such a rest only where a
write has failed: a copy that ends well, or at a source that runs dry, has given all that it took
(`Copied`).

A copy also fails if its last note is refused, and then everything was given. So that it ends well
exactly if everything was given is said of streams beside which every note is taken.
-/

namespace RomImage

namespace Stream

variable {ι σ α : Type} [DecidableEq ι]

/-- A note is taken; no other request has to be. -/
def Noted : (request : Request ι) → request.Answer → Prop
  | .note _, answer => answer = .ok ()
  | .readInto _ _, _ | .read _ _, _ | .write _ _, _ | .seek _ _ _, _ | .seekUnknown _, _
  | .tell _, _ | .seekable _, _ => True

def listened (noted : Prop) : Conduct (interface ι) (ι → Tape) :=
  fun request tapes answer after =>
    Truthful request tapes answer after ∧ (noted → Noted request answer)

def World.TakesNotes (world : World ι σ) : Prop :=
  ∀ fact state, (world.answer (.note fact) state).1 = .ok ()

/-- A run between truthful streams ends as the work does under their conduct, with all notes taken
if they are taken there. -/
theorem run_listened {world : World ι σ} (htruthful : world.IsTruthful) {work : Work ι α}
    {scratch : Scratch} {state : σ} (ending : Except Failure α → Scratch → (ι → Tape) → Prop)
    (hwork : work.Ensures (listened world.TakesNotes) scratch (world.tape state)
      (fun value => ending (.ok value)) (fun failure => ending (.error failure))) :
    ending (world.run scratch work state).1.1 (world.run scratch work state).1.2
      (world.tape (world.run scratch work state).2) := by
  have hanswers (request : Request ι) (before : σ) (_ : True) :
      listened world.TakesNotes request (world.tape before) (world.answer request before).1
        (world.tape (world.answer request before).2) ∧ True := by
    refine ⟨⟨htruthful request before, fun hnotes => ?_⟩, trivial⟩
    cases request with
    | note fact => exact hnotes fact before
    | _ => trivial
  obtain ⟨_, _, _, hrun, hends⟩ | ⟨_, _, _, hrun, hends⟩ :=
    hwork.run world.tape (fun _ => True) hanswers state trivial
  · rw [World.run, hrun]
    exact hends
  · rw [World.run, hrun]
    exact hends

/-- What a copy of `count` bytes through a buffer of `span` bytes has done when it ends so: it has
read `taken` bytes, and `given` has been written. -/
structure Copied (source dest : Channel ι) (span count : Nat) (noted : Prop) (before : ι → Tape)
    (outcome : Except Failure Unit) (after : ι → Tape) (taken : Nat) (given : Bytes) : Prop where
  beginning : given <+: (before source.handle).ahead
  given_le : given.length ≤ count
  taken_le : taken ≤ count
  read : after source.handle = (before source.handle).advance taken
  wrote : after dest.handle = (before dest.handle).write given
  others : ∀ other, other ≠ source.handle → other ≠ dest.handle → after other = before other
  returned : outcome = .ok () → taken = count ∧ given.length = count
  returns : noted → given.length = count → outcome = .ok ()
  /-- A read that failed, or delivered nothing, leaves nothing in the buffer. -/
  shortRead : ∀ name detail, outcome = .error (.build (.shortRead name detail)) →
    taken = given.length
  /-- A write that failed leaves some of one chunk in the buffer. -/
  shortWrite : ∀ name detail, outcome = .error (.build (.shortWrite name detail)) →
    given.length < taken ∧ taken ≤ given.length + span

section Stopped

variable {source dest : Channel ι} {span taken given : Nat} {name detail : String}

omit [DecidableEq ι] in
theorem not_isWriteFailure_shortRead :
    ¬ IsWriteFailure dest (.build (.shortRead name detail)) := by
  intro hfailure
  obtain ⟨fault, hfault⟩ | ⟨count, offered, hshort⟩ := hfailure
  · unfold writeFailure at hfault
    split at hfault <;> exact absurd hfault (by simp)
  · unfold Stream.shortWrite at hshort
    generalize Text.decimal? count = digits at hshort
    cases digits <;> exact absurd hshort (by simp)

omit [DecidableEq ι] in
theorem readFailure_ne_shortWrite (fault : Fault) :
    readFailure source fault ≠ .build (.shortWrite name detail) := by
  unfold readFailure
  split <;> simp

omit [DecidableEq ι] in
/-- A copy that stops at a short read has given all that it took. -/
theorem CopyStopped.taken_eq
    (hstopped : CopyStopped source dest span (.build (.shortRead name detail)) taken given) :
    taken = given := by
  generalize hfailure : Failure.build (.shortRead name detail) = failure at hstopped
  cases hstopped with
  | unread => rfl
  | dry => rfl
  | unwritten hwrite => exact absurd (hfailure ▸ hwrite) not_isWriteFailure_shortRead
  | unnoted => rfl

omit [DecidableEq ι] in
/-- A copy that stops at a short write lacks some of one chunk. -/
theorem CopyStopped.given_lt
    (hstopped : CopyStopped source dest span (.build (.shortWrite name detail)) taken given) :
    given < taken ∧ taken ≤ given + span := by
  generalize hfailure : Failure.build (.shortWrite name detail) = failure at hstopped
  cases hstopped with
  | unread fault => exact absurd hfailure.symm (readFailure_ne_shortWrite fault)
  | dry => exact absurd hfailure (by simp)
  | unwritten _ hless hspan => exact ⟨hless, hspan⟩
  | unnoted => exact absurd hfailure (by simp)

end Stopped

section Copy

variable {source dest : Channel ι} {span count taken given : Nat} {noted : Prop} {tapes : ι → Tape}

theorem transferred_source (hapart : source.handle ≠ dest.handle) :
    transferred source.handle dest.handle taken given tapes source.handle
      = (tapes source.handle).advance taken := by
  rw [transferred, written_of_ne hapart, Function.update_self]

theorem transferred_dest (hapart : source.handle ≠ dest.handle) :
    transferred source.handle dest.handle taken given tapes dest.handle
      = (tapes dest.handle).write ((tapes source.handle).ahead.take given) := by
  rw [transferred, written_self, Function.update_of_ne hapart.symm]

theorem transferred_of_ne {other : ι} (hsource : other ≠ source.handle)
    (hdest : other ≠ dest.handle) :
    transferred source.handle dest.handle taken given tapes other = tapes other := by
  rw [transferred, written_of_ne hdest, Function.update_of_ne hsource]

/-- A copy that ends well has given everything. -/
theorem copied_of_ok (hapart : source.handle ≠ dest.handle)
    (hthere : count ≤ (tapes source.handle).ahead.length) :
    Copied source dest span count noted tapes (.ok ())
      (transferred source.handle dest.handle count count tapes) count
      ((tapes source.handle).ahead.take count) := by
  have hlength : ((tapes source.handle).ahead.take count).length = count :=
    List.length_take_of_le hthere
  exact {
    beginning := List.take_prefix count _
    given_le := Nat.le_of_eq hlength
    taken_le := Nat.le_refl count
    read := transferred_source hapart
    wrote := transferred_dest hapart
    others := fun _ => transferred_of_ne
    returned := fun _ => ⟨rfl, hlength⟩
    returns := fun _ _ => rfl
    shortRead := fun _ _ hfailed => absurd hfailed (by simp)
    shortWrite := fun _ _ hfailed => absurd hfailed (by simp) }

/-- A copy that stops has given less, unless it is only the note that was refused. -/
theorem copied_of_stopped {failure : Failure} (hapart : source.handle ≠ dest.handle)
    (htaken : taken ≤ count) (hthere : taken ≤ (tapes source.handle).ahead.length)
    (hless : noted → given < count)
    (hstopped : CopyStopped source dest span failure taken given) :
    Copied source dest span count noted tapes (.error failure)
      (transferred source.handle dest.handle taken given tapes) taken
      ((tapes source.handle).ahead.take given) := by
  have hgiven : given ≤ taken := hstopped.given_le
  have hlength : ((tapes source.handle).ahead.take given).length = given :=
    List.length_take_of_le (Nat.le_trans hgiven hthere)
  refine {
    beginning := List.take_prefix given _
    given_le := by omega
    taken_le := htaken
    read := transferred_source hapart
    wrote := transferred_dest hapart
    others := fun _ => transferred_of_ne
    returned := fun hok => absurd hok (by simp)
    returns := fun hnoted hall => ?_
    shortRead := fun name detail hfailed => ?_
    shortWrite := fun name detail hfailed => ?_ }
  · exact absurd hall (by have := hless hnoted; omega)
  · obtain rfl := Except.error.inj hfailed
    rw [hlength]
    exact hstopped.taken_eq
  · obtain rfl := Except.error.inj hfailed
    rw [hlength]
    exact hstopped.given_lt

theorem note_listened (fact : Note) {scratch : Scratch} :
    (note fact : Work ι Unit).Ensures (listened noted) scratch tapes
      (fun _ scratch' after => scratch' = scratch ∧ after = tapes)
      (fun failure scratch' after => ¬ noted ∧ scratch' = scratch ∧ after = tapes ∧
        ∃ fault, failure = .fault fault) := by
  rw [note]
  refine Task.Ensures.bind (Task.ensures_request _) ?_
  rintro answer scratch' after ⟨hscratch, htruthful, htaken⟩
  have hafter : after = tapes := htruthful
  cases answer with
  | ok _ => exact Task.ensures_pure ⟨hscratch, hafter⟩
  | error fault =>
      refine Task.ensures_fail ⟨fun hnoted => ?_, hscratch, hafter, fault, rfl⟩
      have hok : Except.error fault = Except.ok () := htaken hnoted
      exact absurd hok (by simp)

/-- However a copy ends between truthful streams, it has done what `Copied` says. -/
theorem copy_listened [Machine] (hapart : source.handle ≠ dest.handle) {buffer : Buffer}
    {scratch : Scratch}
    (hbuffer : scratch.buffer = .ok buffer) (hspan : 0 < buffer.length) :
    (copy source dest count).Ensures (listened noted) scratch tapes
      (fun _ _ after => ∃ taken given,
        Copied source dest buffer.length count noted tapes (.ok ()) after taken given)
      (fun failure _ after => ∃ taken given,
        Copied source dest buffer.length count noted tapes (.error failure) after taken given) := by
  rw [copy, if_neg (by omega)]
  by_cases hzero : count = 0
  · rw [if_pos (by omega)]
    have hnothing : Copied source dest buffer.length 0 noted tapes (.ok ())
        (transferred source.handle dest.handle 0 0 tapes) 0 _ := copied_of_ok hapart (Nat.zero_le _)
    rw [transferred_zero] at hnothing
    subst hzero
    exact Task.ensures_pure ⟨_, _, hnothing⟩
  rw [if_neg (by omega)]
  refine Task.Ensures.bind (Task.ensures_buffer hbuffer) ?_
  rintro buffer _ after ⟨rfl, rfl, hsame⟩
  rw [hsame]
  refine Task.Ensures.bind ((ensures_of_truthful (fun _ => ⟨false, false, false, none⟩)
    (fun _ _ _ _ hanswer => hanswer.1) (copyRounds_ensures source dest hapart hspan _ count
      (Nat.le_add_right _ _) ⟨buffer, rfl, rfl⟩ False.elim)).bad_mono ?_) ?_
  · rintro failure scratch' after ⟨_, _, taken, given, htaken, hless, hthere, hstopped, hafter⟩
    rw [hafter]
    exact ⟨_, _, copied_of_stopped hapart htaken hthere (fun _ => hless) hstopped⟩
  · rintro _ scratch' after ⟨hthere, _, hafter⟩
    subst hafter
    refine (note_listened _).mono ?_ ?_
    · rintro _ _ _ ⟨-, rfl⟩
      exact ⟨_, _, copied_of_ok hapart hthere⟩
    · rintro failure _ _ ⟨hrefused, -, rfl, fault, rfl⟩
      exact ⟨_, _, copied_of_stopped hapart (Nat.le_refl _) hthere
        (fun hnoted => absurd hnoted hrefused) (.unnoted fault count)⟩

theorem run_copied [Machine] {world : World ι σ} (htruthful : world.IsTruthful)
    (hapart : source.handle ≠ dest.handle) {scratch : Scratch} {buffer : Buffer}
    (hbuffer : scratch.buffer = .ok buffer) (hspan : 0 < buffer.length) (count : Nat) (state : σ) :
    ∃ taken given, Copied source dest buffer.length count world.TakesNotes (world.tape state)
      (world.run scratch (copy source dest count) state).1.1
      (world.tape (world.run scratch (copy source dest count) state).2) taken given :=
  run_listened htruthful (fun outcome _ after => ∃ taken given, Copied source dest buffer.length
    count world.TakesNotes (world.tape state) outcome after taken given)
    (copy_listened hapart hbuffer hspan)

/-- **A copy gives a beginning of what it takes.** Between truthful streams, whatever they refuse or
cut short, a copy that is of any bytes at all has done what `Copied` says when it ends. One of none,
or of fewer than none, ends before the first request. -/
theorem copy_gives_beginning [Machine] {world : World ι σ} (htruthful : world.IsTruthful)
    (source dest : Channel ι) (hapart : source.handle ≠ dest.handle) {scratch : Scratch}
    {buffer : Buffer} (hbuffer : scratch.buffer = .ok buffer) (hspan : 0 < buffer.length)
    (count : Int) (state : σ) :
    let ended := world.run scratch (copy source dest count) state
    (count < 0 → copy source dest count scratch
      = .done (.error (.misuse (.negativeCount count)), scratch)) ∧
    (count = 0 → copy source dest count scratch = .done (.ok (), scratch)) ∧
    (0 ≤ count → ∃ taken given, Copied source dest buffer.length count.toNat world.TakesNotes
      (world.tape state) ended.1.1 (world.tape ended.2) taken given) := by
  refine ⟨fun hnegative => ?_, fun hzero => ?_, fun hcount => ?_⟩
  · rw [copy, if_pos hnegative, Task.fail_apply]
  · rw [copy, if_neg (by omega), if_pos hzero]
    rfl
  · obtain ⟨count, rfl⟩ := Int.eq_ofNat_of_zero_le hcount
    exact run_copied htruthful hapart hbuffer hspan count state

/-- Of three bytes two are read, and one of these is taken. -/
theorem copy_gives_beginning_stingy :
    let world : World Bool (Bool → Tape) := .stingy 1 1
    let ended := world.run (.ready (.ofBytes [9, 9, 9]))
      (copy ⟨false, "source", true, true⟩ ⟨true, "dest", true, true⟩ 3)
      (fun isDest => if isDest then .empty else ⟨.ofBytes [1, 2, 3], 0⟩)
    ended.1.1.isOk = false ∧ (ended.2 true).contents.bytes = [1] ∧
      (ended.2 false).position = 2 ∧
      ∃ taken given, Copied ⟨false, "source", true, true⟩ ⟨true, "dest", true, true⟩ 3 3
        world.TakesNotes (fun isDest => if isDest then .empty else ⟨.ofBytes [1, 2, 3], 0⟩)
        ended.1.1 ended.2 taken given :=
  ⟨by decide +kernel, by decide +kernel, by decide +kernel,
    (copy_gives_beginning (World.stingy_isTruthful 1 1) ⟨false, "source", true, true⟩
      ⟨true, "dest", true, true⟩ (by decide)
      (rfl : Scratch.buffer (.ready (.ofBytes [9, 9, 9])) = .ok (.ofBytes [9, 9, 9])) (by decide) 3
      _).2.2 (by decide)⟩

end Copy

end Stream

end RomImage
