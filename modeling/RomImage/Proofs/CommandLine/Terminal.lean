import RomImage.CommandLine.Terminal
import RomImage.Proofs.Build.Unnoted

/-!
# Builds on a terminal

On a terminal the notes of a build go to the console or nowhere, so that the disk keeps none. What a
build comes to on such a disk it comes to on the terminal (`Terminal.run_onFiles`). Nothing is
printed for the user meanwhile, and all that is shown are lines with the name of the program
(`Terminal.run_onFiles_prints`).
-/

namespace RomImage

open CommandLine (program programLine)
open Console (onFiles)

namespace Disk

structure Under (plan : Plan) (disk : Disk) : Prop where
  plan_eq : disk.plan = plan
  schedule : ∀ side, ∀ handle ∈ disk.handle? side, handle.guard.schedule = plan.schedule side

namespace Under

variable {plan : Plan} {disk after : Disk} {side : Side} {handle : Handle}

theorem ofTree (tree : FileTree) (plan : Plan) : Under plan (.ofTree tree plan) :=
  ⟨rfl, fun side _ hhandle => by
    cases side <;> exact absurd hhandle (by simp [Disk.ofTree, handle?])⟩

theorem setHandle (hunder : Under plan disk)
    (hschedule : handle.guard.schedule = plan.schedule side) :
    Under plan (disk.setHandle side handle) := by
  refine ⟨(plan_setHandle _ _ _).trans hunder.plan_eq, fun other held hheld => ?_⟩
  rw [handle?_setHandle] at hheld
  split at hheld
  · rename_i hsame
    rw [← Option.some.inj hheld, hsame]
    exact hschedule
  · exact hunder.schedule other held hheld

theorem frame (hunder : Under plan disk) (hframe : Frame disk after) : Under plan after := by
  refine ⟨hframe.plan.trans hunder.plan_eq, fun side handle hhandle => ?_⟩
  have hlasting := hframe.handle side
  rw [Option.mem_def.mp hhandle, Option.map_some] at hlasting
  obtain ⟨held, hheld, hsame⟩ := Option.map_eq_some_iff.mp hlasting.symm
  have hschedule : held.guard.schedule = handle.guard.schedule :=
    congrArg (fun lasting => lasting.2.1) hsame
  rw [← hschedule]
  exact hunder.schedule side held hheld

theorem openFile (hunder : Under plan disk) (side : Side) (path : String) :
    Under plan (disk.openFile side path).2 := by
  obtain hafter | ⟨tree, handle, hschedule, hafter⟩ := disk.after_openFile side path
  · rwa [hafter]
  · have hunder' : Under plan { disk with tree } := ⟨hunder.plan_eq, hunder.schedule⟩
    rw [hafter]
    rw [hunder.plan_eq] at hschedule
    exact hunder'.setHandle hschedule

theorem close (hunder : Under plan disk) (side : Side) : Under plan (disk.close side).2 := by
  obtain ⟨-, hafter⟩ | ⟨handle, hhandle, hafter⟩ := disk.after_close side
  · rwa [hafter]
  · rw [hafter]
    exact hunder.setHandle (hunder.schedule side handle hhandle)

theorem remove (hunder : Under plan disk) (path : String) : Under plan (disk.remove path).2 := by
  rw [Disk.remove]
  split
  · exact hunder
  split
  · exact hunder
  · exact ⟨hunder.plan_eq, hunder.schedule⟩

/-- No request changes what a disk goes by. -/
theorem answer (hunder : Under plan disk) (request : Files.Request Side) :
    Under plan (disk.answer request).2 := by
  cases request with
  | stream request => exact hunder.frame (frame_answerStream request disk)
  | openFile side path => exact hunder.openFile side path
  | openUnnamed side => exact hunder
  | close side => exact hunder.close side
  | remove path => exact hunder.remove path

/-- Under a usual plan no fault but usual ones are met. -/
theorem meetsUsual (hunder : Under plan disk) (husual : plan.IsUsual)
    (request : Files.Request Side) : MeetsUsual request disk := by
  cases request with
  | stream request =>
      rintro call fault hstruck
      obtain ⟨⟨side, called⟩, -, hstruck⟩ := Option.bind_eq_some_iff.mp hstruck
      obtain ⟨handle, hhandle, hstruck⟩ := Option.bind_eq_some_iff.mp hstruck
      obtain ⟨effect, hmishap, hsame⟩ := Option.map_eq_some_iff.mp hstruck
      obtain ⟨rfl, rfl⟩ := Prod.mk.inj hsame
      rw [Stream.Guard.mishap, hunder.schedule side handle hhandle] at hmishap
      exact husual.schedule side _ _ fault hmishap
  | openFile side path | openUnnamed side =>
      intro fault hfault
      rw [hunder.plan_eq] at hfault
      exact husual.opening side fault hfault
  | close side =>
      intro handle hhandle fault hmishap
      rw [Stream.Guard.mishap, hunder.schedule side handle hhandle] at hmishap
      exact husual.schedule side _ _ fault hmishap
  | remove path =>
      intro fault hfault
      rw [hunder.plan_eq] at hfault
      exact husual.removal fault hfault

end Under

end Disk

namespace Terminal

open RomImage.Disk (Under MeetsUsual unnoted)

variable {α : Type} {usual : Prop} {plan : Disk.Plan} {terminal : Terminal} {scratch : Scratch}

/-- A terminal answers as it does. If faults are usual, so are those that requests to files meet. -/
def conduct (usual : Prop) : Conduct (Console.interface Side) Terminal :=
  fun request terminal answer after => (answer, after) = terminal.answer request ∧
    (usual → ∀ asked, request = .files asked → MeetsUsual asked terminal.disk)

theorem under_answer (hunder : terminal.disk.Under plan) (request : Console.Request Side) :
    (terminal.answer request).2.disk.Under plan := by
  cases request with
  | files request => exact hunder.answer request
  | print text | complain text => exact hunder

/-- Work on the console goes as it does under the conduct of the terminal. -/
theorem run_conduct {work : Console.Work Side α} {good : α → Scratch → Terminal → Prop}
    {bad : Failure → Scratch → Terminal → Prop} (hunder : terminal.disk.Under plan)
    (husual : usual → plan.IsUsual)
    (hwork : work.Ensures (conduct usual) scratch terminal good bad) :
    (∃ value scratch' after, (work scratch).run answer terminal = ((.ok value, scratch'), after) ∧
        good value scratch' after) ∨
      ∃ failure scratch' after,
        (work scratch).run answer terminal = ((.error failure, scratch'), after) ∧
        bad failure scratch' after := by
  refine hwork.run id (fun terminal => terminal.disk.Under plan) ?_ terminal hunder
  intro request terminal hunder
  refine ⟨⟨rfl, fun hall asked _ => hunder.meetsUsual (husual hall) asked⟩, ?_⟩
  exact under_answer hunder request

/-- Notes apart, the disk of a terminal answers a build. -/
theorem follows_steer (threshold : Nat) (showNote : Note → String) (request : Files.Request Side)
    (terminal : Terminal) :
    (Console.steer threshold showNote request ()).Follows (conduct usual) (unnoted usual)
      (fun _ terminal => terminal.disk) () terminal := by
  cases request with
  | stream request =>
      cases request with
      | note fact =>
          rw [Console.steer]
          split
          · rintro _ after ⟨hanswer, -⟩
            obtain rfl := congrArg Prod.snd hanswer
            exact ⟨rfl, rfl⟩
          · exact ⟨rfl, rfl⟩
      | _ =>
          rintro answer after ⟨hanswer, hmeets⟩
          obtain ⟨rfl, rfl⟩ := Prod.mk.inj hanswer
          exact ⟨rfl, fun hall => hmeets hall _ rfl⟩
  | _ =>
      rintro answer after ⟨hanswer, hmeets⟩
      obtain ⟨rfl, rfl⟩ := Prod.mk.inj hanswer
      exact ⟨rfl, fun hall => hmeets hall _ rfl⟩

/-- A build comes on a terminal to what it comes to on a disk whose notes go elsewhere. -/
theorem run_onFiles {work : Files.Work Side α} {good : α → Scratch → Disk → Prop}
    {bad : Failure → Scratch → Disk → Prop} (hunder : terminal.disk.Under plan)
    (husual : usual → plan.IsUsual) (threshold : Nat) (showNote : Note → String)
    (hwork : work.Ensures (unnoted usual) scratch terminal.disk good bad) :
    (∃ value scratch' after,
        (onFiles threshold showNote work scratch).run answer terminal
          = ((.ok value, scratch'), after) ∧ good value scratch' after.disk) ∨
      ∃ failure scratch' after,
        (onFiles threshold showNote work scratch).run answer terminal
          = ((.error failure, scratch'), after) ∧ bad failure scratch' after.disk := by
  have hrouted : (onFiles threshold showNote work).Ensures (conduct usual) scratch terminal
      (fun value scratch' after => ∃ _ : Unit, good value scratch' after.disk)
      (fun failure scratch' after => ∃ _ : Unit, bad failure scratch' after.disk) :=
    Task.Ensures.route (fun _ terminal => terminal.disk)
      (fun request _ terminal => follows_steer threshold showNote request terminal) hwork
  obtain ⟨value, scratch', after, hrun, _, hgood⟩ | ⟨failure, scratch', after, hrun, _, hbad⟩ :=
    run_conduct hunder husual hrouted
  · exact .inl ⟨value, scratch', after, hrun, hgood⟩
  · exact .inr ⟨failure, scratch', after, hrun, hbad⟩

def Lined (text : String) : Prop := text = "" ∨ ∃ body, text = body ++ "\n"

theorem Lined.append_programLine (before text : String) : Lined (before ++ programLine text) := by
  refine .inr ⟨before ++ (program ++ ": " ++ text), ?_⟩
  rw [programLine, ← String.append_assoc]

def IsQuiet : Console.Request Side → Prop
  | .files _ => True
  | .print _ => False
  | .complain text => ∃ line, text = programLine line

theorem onFiles_asksOnly (threshold : Nat) (work : Files.Work Side α) :
    (onFiles threshold (programLine ·.text) work).AsksOnly IsQuiet := by
  intro scratch
  refine Dialogue.AsksOnly.bind (Dialogue.AsksOnly.route ?_
    (.of_forall (fun _ => trivial) (work scratch)) ()) fun _ => trivial
  rintro request ⟨⟩ -
  cases request with
  | stream request =>
      cases request with
      | note fact =>
          rw [Console.steer]
          split
          · exact ⟨fact.text, rfl⟩
          · trivial
      | _ => trivial
  | _ => trivial

/-- A build prints nothing for the user, and about the run whole lines. -/
theorem run_onFiles_prints (threshold : Nat) (work : Files.Work Side α) (scratch : Scratch)
    (terminal : Terminal) (hlined : Lined terminal.complaints) :
    ((onFiles threshold (programLine ·.text) work scratch).run answer terminal).2.output
        = terminal.output ∧
      Lined ((onFiles threshold (programLine ·.text) work scratch).run answer terminal).2.complaints
      := by
  have hprints : (onFiles threshold (programLine ·.text) work scratch).Ensures (conduct False)
      (fun _ after => after.output = terminal.output ∧ Lined after.complaints) terminal := by
    refine Dialogue.AsksOnly.ensures ?_ (onFiles_asksOnly threshold work scratch) ⟨rfl, hlined⟩
    rintro request before _ after hquiet ⟨houtput, hbefore⟩ ⟨hanswer, -⟩
    obtain rfl := congrArg Prod.snd hanswer
    cases request with
    | files request => exact ⟨houtput, hbefore⟩
    | print text => exact hquiet.elim
    | complain text =>
        obtain ⟨line, rfl⟩ := hquiet
        exact ⟨houtput, .append_programLine _ _⟩
  refine (Dialogue.Ensures.run id (fun _ => True) ?_ trivial hprints).1
  exact fun _ _ _ => ⟨⟨rfl, False.elim⟩, trivial⟩

end Terminal

end RomImage
