import RomImage.Proofs.Disk.Tapes

/-!
# Two open files

Once both files of a build are open they stay open at their places, whatever work is done
(`Disk.Engaged.onward`), and a call to one of them leaves the other alone. If the places are two,
the files are two tapes (`Disk.Engaged.conduct_tape`). If they are one, a write to the destination
changes what the source reads; but work that leaves the source alone still finds the destination a
tape (`Disk.Engaged.conduct_dest`).
-/

namespace RomImage

namespace Disk

open Function (update)
open RomImage.Stream (Call Effect Method Guard Ability conduct)

variable {α : Type} {disk after : Disk} {side other : Side} {handle : Handle}

structure Touches (side : Side) (disk after : Disk) : Prop where
  other : ∀ other ≠ side, after.handle? other = disk.handle? other
  seekable : (after.handle? side).map Handle.seekable = (disk.handle? side).map Handle.seekable

theorem Touches.refl (side : Side) (disk : Disk) : Touches side disk disk :=
  ⟨fun _ _ => rfl, rfl⟩

theorem Touches.trans {last : Disk} (hfirst : Touches side disk after)
    (hsecond : Touches side after last) : Touches side disk last :=
  ⟨fun other hother => (hsecond.other other hother).trans (hfirst.other other hother),
    hsecond.seekable.trans hfirst.seekable⟩

theorem touches_setHandle {old : Handle} (hold : disk.handle? side = some old)
    (hseekable : handle.seekable = old.seekable) :
    Touches side disk (disk.setHandle side handle) := by
  refine ⟨fun other hother => ?_, ?_⟩
  · rw [handle?_setHandle, if_neg hother]
  · rw [handle?_setHandle, if_pos rfl, hold, Option.map_some, Option.map_some, hseekable]

theorem touches_change (disk : Disk) (side : Side) (location : Location)
    (step : Contents → α × Contents) : Touches side disk (disk.change location step).2 :=
  ⟨fun _ _ => handle?_change _ _ _ _, congrArg _ (handle?_change _ _ _ _)⟩

theorem touches_take (hhandle : disk.handle? side = some handle) (count : Nat) :
    Touches side disk (disk.take side handle count).2 :=
  (touches_change disk side handle.location _).trans
    (touches_setHandle ((handle?_change _ _ _ _).trans hhandle) rfl)

theorem touches_store (hhandle : disk.handle? side = some handle) (data : Bytes) :
    Touches side disk (disk.store side handle data) :=
  (touches_change disk side handle.location _).trans
    (touches_setHandle ((handle?_change _ _ _ _).trans hhandle) rfl)

theorem touches_access {call : Call} {preset : Option Int → α}
    {act : Option Nat → Option Nat → Handle → Disk → Except Fault α × Disk}
    (hact : ∀ limit surplus handle after, after.handle? side = some handle →
      Touches side after (act limit surplus handle after).2) :
    Touches side disk (disk.access side call preset act).2 := by
  cases hhandle : disk.handle? side with
  | none =>
      rw [access]
      simp only [hhandle]
      exact .refl side disk
  | some handle =>
      have hkept : Touches side disk (disk.setHandle side (handle.recording call)) :=
        touches_setHandle hhandle rfl
      rw [access_eq hhandle]
      split
      · exact hkept
      · exact hkept
      · refine hkept.trans (hact _ _ _ _ ?_)
        rw [handle?_setHandle, if_pos rfl]

theorem touches_answerStream {request : Stream.Request Side} {call : Call}
    (hcall : request.call? = some (side, call)) (disk : Disk) :
    Touches side disk (disk.answerStream request).2 := by
  cases request with
  | readInto side size =>
      obtain ⟨rfl, -⟩ := Prod.mk.inj (Option.some.inj hcall)
      exact touches_access fun _ _ _ _ hhandle => touches_take hhandle _
  | read side size =>
      obtain ⟨rfl, -⟩ := Prod.mk.inj (Option.some.inj hcall)
      exact touches_access fun _ _ _ _ hhandle => touches_take hhandle _
  | write side data =>
      obtain ⟨rfl, -⟩ := Prod.mk.inj (Option.some.inj hcall)
      exact touches_access fun _ _ _ _ hhandle => touches_store hhandle _
  | seek side offset whence =>
      obtain ⟨rfl, -⟩ := Prod.mk.inj (Option.some.inj hcall)
      refine touches_access fun _ _ _ after hhandle => ?_
      split
      · split
        · exact touches_setHandle hhandle rfl
        · exact .refl _ after
      · exact .refl _ after
  | seekUnknown side =>
      obtain ⟨rfl, -⟩ := Prod.mk.inj (Option.some.inj hcall)
      exact touches_access fun _ _ _ after _ => .refl _ after
  | tell side =>
      obtain ⟨rfl, -⟩ := Prod.mk.inj (Option.some.inj hcall)
      refine touches_access fun _ _ _ after _ => ?_
      split
      · exact .refl _ after
      · exact .refl _ after
  | seekable side =>
      obtain ⟨rfl, -⟩ := Prod.mk.inj (Option.some.inj hcall)
      exact touches_access fun _ _ _ after _ => .refl _ after
  | note fact => exact absurd hcall (by simp [Stream.Request.call?])

def streamCourse (calm : Prop) : Conduct (Stream.interface Side) Disk :=
  fun request disk answer after =>
    (answer, after) = disk.answerStream request ∧ (calm → disk.StreamGoesWell request)

structure Onward (opened disk : Disk) : Prop where
  frame : Frame opened disk
  seekable : ∀ side,
    (disk.handle? side).map Handle.seekable = (opened.handle? side).map Handle.seekable

namespace Onward

variable {opened : Disk}

theorem refl (opened : Disk) : Onward opened opened :=
  ⟨.refl opened, fun _ => rfl⟩

theorem answerStream (honward : Onward opened disk) (request : Stream.Request Side) :
    Onward opened (disk.answerStream request).2 := by
  refine ⟨honward.frame.trans (frame_answerStream request disk), fun side => ?_⟩
  rw [← honward.seekable side]
  cases hcall : request.call? with
  | none =>
      cases request with
      | note fact => cases side <;> rfl
      | _ => exact absurd hcall (by simp [Stream.Request.call?])
  | some addressed =>
      obtain ⟨touched, call⟩ := addressed
      have htouches := touches_answerStream hcall disk
      by_cases hside : side = touched
      · subst hside
        exact htouches.seekable
      · rw [htouches.other side hside]

end Onward

def Plan.Honest (plan : Plan) : Prop :=
  ∀ side method number, ∀ effect ∈ plan.schedule side method number, effect.Honest method

/-- A call leaves the tape of the other side, unless it writes to the same file. -/
theorem tape_answerStream_of_ne {request : Stream.Request Side} {call : Call} {place : Handle}
    (hcall : request.call? = some (side, call)) (hhandle : disk.handle? side = some handle)
    (hother : other ≠ side) (hplace : disk.handle? other = some place)
    (hbelow : handle.location.isOutward = false)
    (hapart : (∃ data, request = .write side data) → place.location ≠ handle.location) :
    (disk.answerStream request).2.tape other = disk.tape other := by
  have hkept : (disk.answerStream request).2.handle? other = some place :=
    ((touches_answerStream hcall disk).other other hother).trans hplace
  rw [tape_eq hkept, tape_eq hplace]
  have hlookup : (disk.answerStream request).2.tree.lookup place.location
      = disk.tree.lookup place.location := by
    by_cases hwrite : ∃ data, request = .write side data
    · obtain ⟨data, rfl⟩ := hwrite
      obtain ⟨step, hstep⟩ := tree_write hhandle data
      rw [hstep, FileTree.lookup_change _ _ _ _ hbelow, if_neg (hapart ⟨data, rfl⟩)]
    · rw [tree_answerStream disk]
      rintro touched data rfl
      obtain ⟨rfl, -⟩ := Prod.mk.inj (Option.some.inj hcall)
      exact hwrite ⟨data, rfl⟩
  rw [contentsAt, contentsAt, hlookup]

def Plan.ability (plan : Plan) : Side → Ability
  | .source => ⟨true, true, true, none⟩
  | .dest => ⟨true, true, plan.destSeekable, none⟩

theorem Plan.reaches_ability (plan : Plan) (side : Side) (position : Nat) :
    (plan.ability side).reaches position := by
  cases side <;> exact fun _ hroom => absurd hroom (by simp [Plan.ability])

/-- Both files of a build are open under a plan, each at its place. -/
def Engaged (plan : Plan) (place : Side → Location) (disk : Disk) : Prop :=
  ∀ side, ∃ handle, disk.Serves side handle ∧ handle.location = place side ∧
    handle.guard.schedule = plan.schedule side ∧ handle.ability = plan.ability side

namespace Engaged

variable {opened : Disk} {plan : Plan} {place : Side → Location} {request : Stream.Request Side}
  {obliged : Prop}

/-- Files that were opened are open still. -/
theorem onward (hengaged : Engaged plan place opened) (honward : Onward opened disk) :
    Engaged plan place disk := by
  intro side
  obtain ⟨handle, hserves, hplace, hschedule, hability⟩ := hengaged side
  have hlasting := honward.frame.handle side
  have hseekable := honward.seekable side
  rw [hserves.found, Option.map_some, Option.map_eq_some_iff] at hlasting
  obtain ⟨handle', hfound, hsame⟩ := hlasting
  rw [hserves.found, hfound, Option.map_some, Option.map_some, Option.some.injEq] at hseekable
  simp only [Handle.lasting, Prod.mk.injEq] at hsame
  obtain ⟨hlocation, hkept, -, hclosed⟩ := hsame
  obtain ⟨contents, hfile⟩ := hserves.file
  refine ⟨handle', ⟨hfound, hclosed.trans hserves.isOpen, ?_⟩, hlocation.trans hplace,
    hkept.trans hschedule, ?_⟩
  · rw [hlocation]
    exact honward.frame.shape.file hfile
  · rw [← hability, Handle.ability, Handle.ability, hseekable]

/-- What befalls files that were opened under an honest plan is honest. -/
theorem answersHonestly (hengaged : Engaged plan place disk) (hplan : plan.Honest)
    (request : Stream.Request Side) : disk.AnswersHonestly request := by
  rintro ⟨call, effect⟩ hstruck
  obtain ⟨⟨side, called⟩, -, hstruck⟩ := Option.bind_eq_some_iff.mp hstruck
  obtain ⟨handle, hhandle, hstruck⟩ := Option.bind_eq_some_iff.mp hstruck
  obtain ⟨struck, hmishap, hsame⟩ := Option.map_eq_some_iff.mp hstruck
  obtain ⟨rfl, rfl⟩ := Prod.mk.inj hsame
  obtain ⟨_, hserves, -, hschedule, -⟩ := hengaged side
  obtain rfl := Option.some.inj (hserves.found.symm.trans hhandle)
  rw [Guard.mishap, hschedule] at hmishap
  exact hplan side _ _ _ hmishap

theorem honest_of_course {calm : Prop} (hengaged : Engaged plan place disk)
    (hhonest : calm ∨ plan.Honest) (hwell : calm → disk.StreamGoesWell request) :
    disk.AnswersHonestly request := by
  obtain hcalm | hplan := hhonest
  · exact (hwell hcalm).answersHonestly
  · exact hengaged.answersHonestly hplan request

/-- Files at two places are two tapes, and so is one file until something is written. -/
theorem conduct_tape (hengaged : Engaged plan place disk)
    (hhonest : disk.AnswersHonestly request) (hwell : obliged → disk.StreamGoesWell request)
    (hapart : (∃ side data, request = .write side data) → place .source ≠ place .dest) :
    conduct plan.ability obliged request disk.tape (disk.answerStream request).1
      (disk.answerStream request).2.tape := by
  cases hcall : request.call? with
  | none =>
      cases request with
      | note fact => exact conduct_note hwell
      | _ => exact absurd hcall (by simp [Stream.Request.call?])
  | some addressed =>
      obtain ⟨side, call⟩ := addressed
      obtain ⟨handle, hserves, hplace, -, hability⟩ := hengaged side
      have hkeeps := conduct_answerStream hserves rfl hability.symm hcall hhonest hwell
      obtain ⟨contents, hfile⟩ := hserves.file
      have hbelow := FileTree.isOutward_eq_false (by rw [hfile]; simp)
      -- Only a write could show on the other tape, and then the files are at two places.
      have hafter : update disk.tape side ((disk.answerStream request).2.tape side)
          = (disk.answerStream request).2.tape := by
        funext other
        by_cases hother : other = side
        · rw [hother, Function.update_self]
        · obtain ⟨beside, hbeside, hthere, -, -⟩ := hengaged other
          rw [Function.update_of_ne hother]
          refine (tape_answerStream_of_ne hcall hserves.found hother hbeside.found hbelow ?_).symm
          rintro ⟨data, hwrite⟩
          have hne := hapart ⟨side, data, hwrite⟩
          rw [hthere, hplace]
          cases side with
          | source =>
              cases other with
              | source => exact absurd rfl hother
              | dest => exact hne.symm
          | dest =>
              cases other with
              | source => exact hne
              | dest => exact absurd rfl hother
      rwa [hafter] at hkeeps

/-- To work that leaves the source alone, the destination is a tape, whatever file the source is. -/
theorem conduct_dest (hengaged : Engaged plan place disk)
    (hhonest : disk.AnswersHonestly request) (hwell : obliged → disk.StreamGoesWell request)
    (hleft : request.stream? ≠ some .source) (fixed : Tape) :
    conduct plan.ability obliged request (update disk.tape .source fixed)
      (disk.answerStream request).1 (update (disk.answerStream request).2.tape .source fixed) := by
  cases hcall : request.call? with
  | none =>
      cases request with
      | note fact => exact conduct_note hwell
      | _ => exact absurd hcall (by simp [Stream.Request.call?])
  | some addressed =>
      obtain ⟨side, call⟩ := addressed
      have hdest : update disk.tape .source fixed .dest = disk.tape .dest :=
        Function.update_of_ne (by decide) _ _
      cases side with
      | source => exact absurd (by rw [request.stream?_eq, hcall]; rfl) hleft
      | dest =>
          obtain ⟨handle, hserves, -, -, hability⟩ := hengaged .dest
          have hkeeps := conduct_answerStream hserves hdest hability.symm hcall hhonest hwell
          have hafter : update (update disk.tape .source fixed) .dest
              ((disk.answerStream request).2.tape .dest)
              = update (disk.answerStream request).2.tape .source fixed := by
            funext side
            cases side <;> rfl
          rwa [hafter] at hkeeps

/-- What a disk answers while its two files are open is what two tapes answer. -/
theorem conduct_streamCourse {calm : Prop} (hengaged : Engaged plan place opened)
    (hhonest : calm ∨ plan.Honest)
    (hapart : (∃ side data, request = .write side data) → place .source ≠ place .dest)
    {answer : request.Answer} (honward : Onward opened disk)
    (hanswer : streamCourse calm request disk answer after) :
    conduct plan.ability calm request disk.tape answer after.tape ∧ Onward opened after := by
  obtain ⟨hanswer, hwell⟩ := hanswer
  obtain ⟨rfl, rfl⟩ := Prod.mk.inj hanswer
  have hstill := hengaged.onward honward
  exact ⟨hstill.conduct_tape (hstill.honest_of_course hhonest hwell) hwell hapart,
    honward.answerStream request⟩

section Ensures

variable {calm : Prop} {work : Stream.Work Side α} {scratch : Scratch}
  {kind : Stream.Request Side → Prop} {good : α → Scratch → (Side → Tape) → Prop}
  {bad : Failure → Scratch → (Side → Tape) → Prop}

/-- Work ensures on two files, or on one that it does not write to, what it does on two tapes. -/
theorem ensures_tape (hengaged : Engaged plan place opened) (hhonest : calm ∨ plan.Honest)
    (hasks : work.AsksOnly kind) (hapart : ∀ request, kind request →
      (∃ side data, request = .write side data) → place .source ≠ place .dest)
    (honward : Onward opened disk)
    (hwork : work.Ensures (conduct plan.ability calm) scratch disk.tape good bad) :
    work.Ensures (streamCourse calm) scratch disk
      (fun value scratch' after => good value scratch' after.tape ∧ Onward opened after)
      (fun failure scratch' after => bad failure scratch' after.tape ∧ Onward opened after) := by
  refine Task.Ensures.of_view Disk.tape (Onward opened) ?_ hasks honward hwork
  intro request disk answer after hkind
  exact hengaged.conduct_streamCourse hhonest (hapart request hkind)

/-- Work that leaves the source alone ensures on the destination what it does on a tape. -/
theorem ensures_dest (hengaged : Engaged plan place opened) (hhonest : calm ∨ plan.Honest)
    (hasks : work.AsksOnly kind) (hleft : ∀ request, kind request → request.stream? ≠ some .source)
    (honward : Onward opened disk) (fixed : Tape)
    (hwork : work.Ensures (conduct plan.ability calm) scratch (update disk.tape .source fixed)
      good bad) :
    work.Ensures (streamCourse calm) scratch disk
      (fun value scratch' after => good value scratch' (update after.tape .source fixed) ∧
        Onward opened after)
      (fun failure scratch' after => bad failure scratch' (update after.tape .source fixed) ∧
        Onward opened after) := by
  refine Task.Ensures.of_view (fun disk => update disk.tape .source fixed) (Onward opened) ?_ hasks
    honward hwork
  rintro request disk answer after hkind honward ⟨hanswer, hwell⟩
  obtain ⟨rfl, rfl⟩ := Prod.mk.inj hanswer
  have hstill := hengaged.onward honward
  exact ⟨hstill.conduct_dest (hstill.honest_of_course hhonest hwell) hwell (hleft request hkind)
    fixed, honward.answerStream request⟩

end Ensures

end Engaged

end Disk

end RomImage
