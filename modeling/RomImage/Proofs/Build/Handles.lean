import RomImage.Proofs.Build.Steps
import RomImage.Proofs.Recorded

/-!
# The open files of a build

A build opens its source, then its destination, and closes what it opened. Here nothing is assumed
about the files: every request may be answered by anything, and every answer may be a fault, an
interruption among them, in the middle of the cleanup as well.

`Permitted` says which requests a build may make after those that it has made, and `Stage` where it
is between them. Each step of a build goes from one stage to the next, so no request is made that is
not permitted, and in the last stage everything is closed (`Build.files_closes`).
-/

namespace RomImage

namespace Files

variable {ι : Type}

abbrev Call (ι : Type) : Type := (interface ι).Exchange

def Request.file? : Request ι → Option ι
  | stream request => request.stream?
  | close file => some file
  | openFile _ _ | openUnnamed _ | remove _ => none

def WasOpened (side : Side) (path : String) (file : ι) (calls : List (Call ι)) : Prop :=
  ⟨.openFile side path, .ok file⟩ ∈ calls

def WasClosed (file : ι) (calls : List (Call ι)) : Prop :=
  ∃ answer, ⟨.close file, answer⟩ ∈ calls

def IsOpen (file : ι) (calls : List (Call ι)) : Prop :=
  (∃ side path, WasOpened side path file calls) ∧ ¬ WasClosed file calls

theorem WasOpened.append {side : Side} {path : String} {file : ι} {calls : List (Call ι)}
    (hopened : WasOpened side path file calls) (later : List (Call ι)) :
    WasOpened side path file (later ++ calls) :=
  List.mem_append_right later hopened

theorem WasClosed.append {file : ι} {calls : List (Call ι)} (hclosed : WasClosed file calls)
    (later : List (Call ι)) : WasClosed file (later ++ calls) :=
  hclosed.imp fun _ hmem => List.mem_append_right later hmem

end Files

namespace Build

open Files (Call WasOpened WasClosed IsOpen channel onStreams)

variable {ι : Type} {sourcePath destPath : String}

/-- What a build may ask for after the calls that it has made: the source first, the destination
while the source is open, calls on open files, a close of the source only after that of the
destination, and a removal of the destination only after it was closed. -/
def Permitted (sourcePath destPath : String) : Files.Request ι → List (Call ι) → Prop
  | .openFile .source path, earlier => path = sourcePath ∧ earlier = []
  | .openFile .dest path, earlier => path = destPath ∧
      ∃ source, WasOpened .source sourcePath source earlier ∧ ¬ WasClosed source earlier
  | .openUnnamed _, _ => False
  | .stream request, earlier => ∀ file ∈ request.stream?, IsOpen file earlier
  | .close file, earlier => IsOpen file earlier ∧ (WasOpened .source sourcePath file earlier →
      ∀ dest, WasOpened .dest destPath dest earlier → WasClosed dest earlier)
  | .remove path, earlier => path = destPath ∧
      ∃ dest, WasOpened .dest destPath dest earlier ∧ WasClosed dest earlier

def Orderly (sourcePath destPath : String) : List (Call ι) → Prop
  | [] => True
  | call :: earlier => Permitted sourcePath destPath call.1 earlier ∧
      Orderly sourcePath destPath earlier

theorem Orderly.permitted {later earlier : List (Call ι)} {call : Call ι}
    (horderly : Orderly sourcePath destPath (later ++ call :: earlier)) :
    Permitted sourcePath destPath call.1 earlier := by
  induction later with
  | nil => exact horderly.1
  | cons last later ih => exact ih horderly.2

/-- No call is made on a file after it was closed. -/
theorem Orderly.untouched {later earlier : List (Call ι)} {file : ι} {answer : Except Fault Unit}
    (horderly : Orderly sourcePath destPath (later ++ ⟨.close file, answer⟩ :: earlier)) :
    ∀ call ∈ later, call.1.file? ≠ some file := by
  intro call hcall hfile
  obtain ⟨last, between, rfl⟩ := List.append_of_mem hcall
  rw [List.append_assoc, List.cons_append] at horderly
  have hpermitted := horderly.permitted
  have hclosed : WasClosed file (between ++ ⟨.close file, answer⟩ :: earlier) :=
    ⟨answer, List.mem_append_right between List.mem_cons_self⟩
  obtain ⟨request, given⟩ := call
  cases request with
  | stream request => exact (hpermitted file hfile).2 hclosed
  | close other =>
      obtain rfl : other = file := Option.some.inj hfile
      exact hpermitted.1.2 hclosed
  | _ => exact absurd hfile (by simp [Files.Request.file?])

/-- A stage of a build: which files it has opened, and which of them it has closed. -/
structure Stage (sourcePath destPath : String) (source : ι) (dest? : Option ι) (closed : List ι)
    (calls : List (Call ι)) : Prop where
  orderly : Orderly sourcePath destPath calls
  opensSource : WasOpened .source sourcePath source calls
  opensDest : ∀ dest ∈ dest?, WasOpened .dest destPath dest calls
  onlySource : ∀ path file, WasOpened .source path file calls → file = source
  onlyDest : ∀ path file, WasOpened .dest path file calls → dest? = some file
  closes : ∀ file, WasClosed file calls ↔ file ∈ closed

def Opens (call : Call ι) : Prop := ∃ side path file, call = ⟨.openFile side path, .ok file⟩

def Closes (call : Call ι) : Prop := ∃ file answer, call = ⟨.close file, answer⟩

def Notes (request : Files.Request ι) : Prop := ∃ fact, request = .stream (.note fact)

theorem wasOpened_of_cons {call : Call ι} (hopens : ¬ Opens call) {side : Side} {path : String}
    {file : ι} {calls : List (Call ι)} (hopened : WasOpened side path file (call :: calls)) :
    WasOpened side path file calls := by
  obtain rfl | hopened := List.mem_cons.mp hopened
  · exact absurd ⟨side, path, file, rfl⟩ hopens
  · exact hopened

theorem wasClosed_of_cons {call : Call ι} (hcloses : ¬ Closes call) {file : ι}
    {calls : List (Call ι)} (hclosed : WasClosed file (call :: calls)) : WasClosed file calls := by
  obtain ⟨answer, hmem⟩ := hclosed
  obtain rfl | hmem := List.mem_cons.mp hmem
  · exact absurd ⟨file, answer, rfl⟩ hcloses
  · exact ⟨answer, hmem⟩

theorem permitted_note {request : Files.Request ι} {calls : List (Call ι)}
    (hnotes : Notes request) :
    Permitted sourcePath destPath request calls := by
  obtain ⟨fact, rfl⟩ := hnotes
  intro file hfile
  exact absurd hfile (by simp [Stream.Request.stream?])

namespace Stage

variable {source dest : ι} {dest? : Option ι} {closed : List ι} {calls : List (Call ι)}

theorem start (source : ι) : Stage sourcePath destPath source none []
    [⟨.openFile .source sourcePath, .ok source⟩] where
  orderly := ⟨⟨rfl, rfl⟩, trivial⟩
  opensSource := List.mem_singleton.mpr rfl
  opensDest := by simp
  onlySource path file hopened := by
    cases List.mem_singleton.mp hopened
    rfl
  onlyDest path file hopened := by
    cases List.mem_singleton.mp hopened
  closes file := by
    refine ⟨fun ⟨answer, hmem⟩ => ?_, fun hclosed => absurd hclosed List.not_mem_nil⟩
    cases List.mem_singleton.mp hmem

/-- A call that opens and closes nothing leaves the stage. -/
theorem quiet (hstage : Stage sourcePath destPath source dest? closed calls) {call : Call ι}
    (hopens : ¬ Opens call) (hcloses : ¬ Closes call)
    (hpermitted : Permitted sourcePath destPath call.1 calls) :
    Stage sourcePath destPath source dest? closed (call :: calls) where
  orderly := ⟨hpermitted, hstage.orderly⟩
  opensSource := hstage.opensSource.append [_]
  opensDest dest hdest := (hstage.opensDest dest hdest).append [_]
  onlySource path file hopened := hstage.onlySource path file (wasOpened_of_cons hopens hopened)
  onlyDest path file hopened := hstage.onlyDest path file (wasOpened_of_cons hopens hopened)
  closes file := by
    refine ⟨fun hclosed => (hstage.closes file).mp (wasClosed_of_cons hcloses hclosed), ?_⟩
    intro hclosed
    exact ((hstage.closes file).mpr hclosed).append [_]

theorem openDest (hstage : Stage sourcePath destPath source none [] calls) (dest : ι) :
    Stage sourcePath destPath source (some dest) []
      (⟨.openFile .dest destPath, .ok dest⟩ :: calls) where
  orderly := by
    refine ⟨⟨rfl, source, hstage.opensSource, fun hclosed => ?_⟩, hstage.orderly⟩
    exact absurd ((hstage.closes source).mp hclosed) List.not_mem_nil
  opensSource := hstage.opensSource.append [_]
  opensDest dest' hdest := by
    obtain rfl := Option.some.inj hdest
    exact List.mem_cons_self
  onlySource path file hopened := by
    obtain hfirst | hopened := List.mem_cons.mp hopened
    · cases hfirst
    · exact hstage.onlySource path file hopened
  onlyDest path file hopened := by
    obtain hfirst | hopened := List.mem_cons.mp hopened
    · cases hfirst
      rfl
    · exact absurd (hstage.onlyDest path file hopened) (by simp)
  closes file := by
    have hcloses : ¬ Closes (⟨.openFile .dest destPath, .ok dest⟩ : Call ι) := by
      rintro ⟨file, answer, hcall⟩
      cases hcall
    refine ⟨fun hclosed => (hstage.closes file).mp (wasClosed_of_cons hcloses hclosed), ?_⟩
    intro hclosed
    exact absurd hclosed List.not_mem_nil

theorem close (hstage : Stage sourcePath destPath source dest? closed calls) {file : ι}
    (hpermitted : Permitted sourcePath destPath (.close file) calls) (answer : Except Fault Unit) :
    Stage sourcePath destPath source dest? (file :: closed) (⟨.close file, answer⟩ :: calls) := by
  have hopens : ¬ Opens (⟨.close file, answer⟩ : Call ι) := by
    rintro ⟨side, path, file, hcall⟩
    cases hcall
  refine ⟨⟨hpermitted, hstage.orderly⟩, hstage.opensSource.append [_],
    fun dest hdest => (hstage.opensDest dest hdest).append [_],
    fun path file hopened => hstage.onlySource path file (wasOpened_of_cons hopens hopened),
    fun path file hopened => hstage.onlyDest path file (wasOpened_of_cons hopens hopened), ?_⟩
  intro other
  constructor
  · rintro ⟨given, hmem⟩
    obtain hfirst | hmem := List.mem_cons.mp hmem
    · cases hfirst
      exact List.mem_cons_self
    · exact List.mem_cons_of_mem _ ((hstage.closes other).mp ⟨given, hmem⟩)
  · intro hclosed
    obtain rfl | hclosed := List.mem_cons.mp hclosed
    · exact ⟨answer, List.mem_cons_self⟩
    · exact ((hstage.closes other).mpr hclosed).append [_]

theorem isOpen_source (hstage : Stage sourcePath destPath source dest? closed calls)
    (hopen : source ∉ closed) : IsOpen source calls :=
  ⟨⟨_, _, hstage.opensSource⟩, fun hclosed => hopen ((hstage.closes source).mp hclosed)⟩

theorem isOpen_dest (hstage : Stage sourcePath destPath source (some dest) closed calls)
    (hopen : dest ∉ closed) : IsOpen dest calls :=
  ⟨⟨_, _, hstage.opensDest dest rfl⟩, fun hclosed => hopen ((hstage.closes dest).mp hclosed)⟩

/-- Requests on streams and removals leave the stage, if they are permitted there. -/
theorem ensures {α : Type} {kind : Files.Request ι → Prop} {task : Files.Work ι α}
    (hasks : task.AsksOnly kind)
    (hkind : ∀ request, kind request →
      (∃ inner, request = .stream inner) ∨ ∃ path, request = .remove path)
    (hpermitted : ∀ request calls, kind request →
      Stage sourcePath destPath source dest? closed calls →
      Permitted sourcePath destPath request calls)
    {scratch : Scratch} (hstage : Stage sourcePath destPath source dest? closed calls) :
    task.Ensures recorded scratch calls
      (fun _ _ after => Stage sourcePath destPath source dest? closed after)
      (fun _ _ after => Stage sourcePath destPath source dest? closed after) := by
  refine hasks.ensures ?_ hstage
  rintro request calls answer _ hrequest hstage rfl
  refine hstage.quiet ?_ ?_ (hpermitted request calls hrequest hstage)
  · rintro ⟨side, path, file, hcall⟩
    obtain ⟨inner, rfl⟩ | ⟨path, rfl⟩ := hkind request hrequest
    · cases hcall
    · cases hcall
  · rintro ⟨file, answer, hcall⟩
    obtain ⟨inner, rfl⟩ | ⟨path, rfl⟩ := hkind request hrequest
    · cases hcall
    · cases hcall

theorem closes_ensures {α : Type} {file : ι} {f : Except Fault Unit → Files.Work ι α}
    (hrest : ∀ answer, (f answer).AsksOnly Notes) {scratch : Scratch}
    (hstage : Stage sourcePath destPath source dest? closed calls)
    (hpermitted : Permitted sourcePath destPath (.close file) calls) :
    (Files.close file >>= f).Ensures recorded scratch calls
      (fun _ _ after => Stage sourcePath destPath source dest? (file :: closed) after)
      (fun _ _ after => Stage sourcePath destPath source dest? (file :: closed) after) := by
  refine Task.Ensures.bind (Task.ensures_request _) ?_
  rintro answer scratch' _ ⟨rfl, rfl⟩
  refine ensures (hrest answer) ?_ (fun _ _ hnotes _ => permitted_note hnotes)
    (hstage.close hpermitted answer)
  rintro _ ⟨fact, rfl⟩
  exact .inl ⟨_, rfl⟩

theorem closeAt_ensures {file : ι} (path : String) {scratch : Scratch}
    (hstage : Stage sourcePath destPath source dest? closed calls)
    (hpermitted : Permitted sourcePath destPath (.close file) calls) :
    (closeAt file path).Ensures recorded scratch calls
      (fun _ _ after => Stage sourcePath destPath source dest? (file :: closed) after)
      (fun _ _ after => Stage sourcePath destPath source dest? (file :: closed) after) := by
  refine closes_ensures (fun answer => ?_) hstage hpermitted
  cases answer with
  | ok _ => exact .pure ()
  | error fault =>
      dsimp only
      split
      · exact .fail _
      · exact .fail _

theorem closeAfterFailure_ensures {file : ι} (path : String) {scratch : Scratch}
    (hstage : Stage sourcePath destPath source dest? closed calls)
    (hpermitted : Permitted sourcePath destPath (.close file) calls) :
    (closeAfterFailure file path).Ensures recorded scratch calls
      (fun _ _ after => Stage sourcePath destPath source dest? (file :: closed) after)
      (fun _ _ after => Stage sourcePath destPath source dest? (file :: closed) after) := by
  refine closes_ensures (fun answer => ?_) hstage hpermitted
  cases answer with
  | ok _ => exact .pure ()
  | error fault =>
      cases fault with
      | interrupt => exact .fail _
      | _ => exact note_asksOnly (fun fact => ⟨fact, rfl⟩) _

theorem discard_ensures {scratch : Scratch} (hclosed : dest ∈ closed)
    (hstage : Stage sourcePath destPath source (some dest) closed calls) :
    (discard destPath : Files.Work ι Unit).Ensures recorded scratch calls
      (fun _ _ after => Stage sourcePath destPath source (some dest) closed after)
      (fun _ _ after => Stage sourcePath destPath source (some dest) closed after) := by
  have hasks : (discard destPath : Files.Work ι Unit).AsksOnly fun request : Files.Request ι =>
      request = .remove destPath ∨ Notes request :=
    discard_asksOnly (.inl rfl) fun fact => .inr ⟨fact, rfl⟩
  refine ensures hasks ?_ ?_ hstage
  · rintro _ (rfl | ⟨fact, rfl⟩)
    · exact .inr ⟨_, rfl⟩
    · exact .inl ⟨_, rfl⟩
  · rintro _ calls (rfl | hnotes) hstage
    · exact ⟨rfl, dest, hstage.opensDest dest rfl, (hstage.closes dest).mpr hclosed⟩
    · exact permitted_note hnotes

theorem apply_ensures [Machine] (rule : Rule) {scratch : Scratch}
    (hstage : Stage sourcePath destPath source (some dest) [] calls) :
    (onStreams (rule.apply (channel source sourcePath) (channel dest destPath))).Ensures recorded
      scratch calls (fun _ _ after => Stage sourcePath destPath source (some dest) [] after)
      (fun _ _ after => Stage sourcePath destPath source (some dest) [] after) := by
  have hasks : (onStreams (rule.apply (channel source sourcePath)
      (channel dest destPath))).AsksOnly fun request : Files.Request ι =>
        ∃ inner, request = .stream inner ∧ ∀ file ∈ inner.stream?, file = source ∨ file = dest :=
    .rephrase (rule.apply_asksOnly_streams fun inner hstreams => ⟨inner, rfl, hstreams⟩)
  refine ensures hasks ?_ ?_ hstage
  · rintro _ ⟨inner, rfl, -⟩
    exact .inl ⟨inner, rfl⟩
  · rintro _ calls ⟨inner, rfl, hfiles⟩ hstage file hfile
    obtain rfl | rfl := hfiles file hfile
    · exact hstage.isOpen_source List.not_mem_nil
    · exact hstage.isOpen_dest List.not_mem_nil

theorem openDest_ensures {scratch : Scratch}
    (hstage : Stage sourcePath destPath source none [] calls) :
    (openAt .dest destPath).Ensures recorded scratch calls
      (fun dest _ after => Stage sourcePath destPath source (some dest) [] after)
      (fun _ _ after => Stage sourcePath destPath source none [] after) := by
  apply openAt_conduct
  · rintro dest _ rfl
    exact hstage.openDest dest
  · rintro fault _ rfl
    refine hstage.quiet ?_ ?_ ⟨rfl, source, hstage.opensSource, fun hclosed => ?_⟩
    · rintro ⟨side, path, file, hcall⟩
      cases hcall
    · rintro ⟨file, answer, hcall⟩
      cases hcall
    · exact absurd ((hstage.closes source).mp hclosed) List.not_mem_nil

theorem permitted_closeDest (hstage : Stage sourcePath destPath source (some dest) closed calls)
    (hapart : dest ≠ source) (hopen : dest ∉ closed) :
    Permitted sourcePath destPath (.close dest) calls :=
  ⟨hstage.isOpen_dest hopen, fun hsource => absurd (hstage.onlySource _ _ hsource) hapart⟩

theorem permitted_closeSource (hstage : Stage sourcePath destPath source dest? closed calls)
    (hopen : source ∉ closed) (hclosed : ∀ dest ∈ dest?, dest ∈ closed) :
    Permitted sourcePath destPath (.close source) calls := by
  refine ⟨hstage.isOpen_source hopen, fun _ dest hdest => ?_⟩
  exact (hstage.closes dest).mpr (hclosed dest (hstage.onlyDest _ _ hdest))

end Stage

def Shares (sourcePath destPath : String) (calls : List (Call ι)) : Prop :=
  ∃ file, WasOpened .source sourcePath file calls ∧ WasOpened .dest destPath file calls

theorem shares_ensures {α : Type} (task : Files.Work ι α) {scratch : Scratch}
    {calls : List (Call ι)} (hshares : Shares sourcePath destPath calls) :
    task.Ensures recorded scratch calls (fun _ _ after => Shares sourcePath destPath after)
      (fun _ _ after => Shares sourcePath destPath after) := by
  have hasks : task.AsksOnly fun _ => True := .of_forall (fun _ => trivial) task
  refine hasks.ensures ?_ hshares
  rintro request calls answer _ - ⟨file, hsource, hdest⟩ rfl
  exact ⟨file, hsource.append [_], hdest.append [_]⟩

def Returned (sourcePath destPath : String) (source : ι) (calls : List (Call ι)) : Prop :=
  Shares sourcePath destPath calls ∨ ∃ dest? closed,
    Stage sourcePath destPath source dest? closed calls ∧ source ∉ closed ∧
    ∀ dest ∈ dest?, dest ∈ closed

/-- A build is over: everything that it did was permitted, and everything is closed. -/
def Over (sourcePath destPath : String) (calls : List (Call ι)) : Prop :=
  Shares sourcePath destPath calls ∨ Orderly sourcePath destPath calls ∧
    ∀ side path file, WasOpened side path file calls → WasClosed file calls

theorem into_returns [Machine] (rule : Rule) {source : ι} {scratch : Scratch}
    {calls : List (Call ι)}
    (hstage : Stage sourcePath destPath source none [] calls) :
    (into rule (channel source sourcePath) destPath).Ensures recorded scratch calls
      (fun _ _ after => Returned sourcePath destPath source after)
      (fun _ _ after => Returned sourcePath destPath source after) := by
  rw [into]
  refine Task.Ensures.bind (hstage.openDest_ensures.bad_mono ?_) ?_
  · intro _ _ after hstage
    exact .inr ⟨none, [], hstage, List.not_mem_nil, by simp⟩
  intro dest _ calls hstage
  -- One file at both sides would be closed twice; nothing more is said of such a build.
  by_cases hsame : dest = source
  · subst hsame
    have hshares : Shares sourcePath destPath calls :=
      ⟨dest, hstage.opensSource, hstage.opensDest dest rfl⟩
    exact (shares_ensures _ hshares).mono (fun _ _ _ => .inl) fun _ _ _ => .inl
  -- Every way out leads through a close of the destination.
  have hreturned {calls : List (Call ι)}
      (hstage : Stage sourcePath destPath source (some dest) [dest] calls) :
      Returned sourcePath destPath source calls := by
    refine .inr ⟨some dest, [dest], hstage, fun hmem => hsame ?_, fun other hother => ?_⟩
    · exact (List.mem_singleton.mp hmem).symm
    · exact List.mem_singleton.mpr (Option.some.inj hother).symm
  refine Task.Ensures.bind (hstage.apply_ensures rule).attempt ?_
  intro outcome scratch calls hstage
  cases outcome with
  | error failure =>
      have hclose := hstage.permitted_closeDest hsame List.not_mem_nil
      refine Task.Ensures.bind ((hstage.closeAfterFailure_ensures destPath hclose).bad_mono
        fun _ _ _ => hreturned) ?_
      intro _ _ calls hstage
      refine Task.Ensures.bind ((hstage.discard_ensures List.mem_cons_self).bad_mono
        fun _ _ _ => hreturned) ?_
      intro _ _ calls hstage
      exact Task.ensures_fail (hreturned hstage)
  | ok summary =>
      have hclose := hstage.permitted_closeDest hsame List.not_mem_nil
      refine Task.Ensures.bind (hstage.closeAt_ensures destPath hclose).attempt ?_
      intro closed _ calls hstage
      cases closed with
      | ok _ => exact Task.ensures_pure (hreturned hstage)
      | error failure =>
          dsimp only
          split
          · refine Task.Ensures.bind ((hstage.discard_ensures List.mem_cons_self).bad_mono
              fun _ _ _ => hreturned) ?_
            intro _ _ calls hstage
            exact Task.ensures_fail (hreturned hstage)
          · exact Task.ensures_fail (hreturned hstage)

theorem openSource_ensures (scratch : Scratch) :
    (openAt .source sourcePath : Files.Work ι ι).Ensures recorded scratch []
      (fun source _ after => Stage sourcePath destPath source none [] after)
      (fun _ _ after => Over sourcePath destPath after) := by
  apply openAt_conduct
  · rintro source _ rfl
    exact .start source
  · rintro fault _ rfl
    refine .inr ⟨⟨⟨rfl, rfl⟩, trivial⟩, fun side path file hopened => ?_⟩
    cases List.mem_singleton.mp hopened

theorem withSource_ends [Machine] (rule : Rule) (scratch : Scratch) :
    (withSource sourcePath fun source : Stream.Channel ι => into rule source destPath).Ensures
      recorded scratch [] (fun _ _ after => Over sourcePath destPath after)
      (fun _ _ after => Over sourcePath destPath after) := by
  rw [withSource]
  refine Task.Ensures.bind (openSource_ensures scratch) ?_
  intro source scratch calls hstage
  refine Task.Ensures.bind (into_returns rule hstage).attempt ?_
  intro outcome scratch calls hreturned
  have hreturned : Returned sourcePath destPath source calls := by
    cases outcome with
    | ok summary => exact hreturned
    | error failure => exact hreturned
  obtain hshares | ⟨dest?, closed, hstage, hopen, hclosed⟩ := hreturned
  · exact (shares_ensures _ hshares).mono (fun _ _ _ => .inl) fun _ _ _ => .inl
  have hclose := hstage.permitted_closeSource hopen hclosed
  have hover {calls : List (Call ι)}
      (hstage : Stage sourcePath destPath source dest? (source :: closed) calls) :
      Over sourcePath destPath calls := by
    refine .inr ⟨hstage.orderly, fun side path file hopened => (hstage.closes file).mpr ?_⟩
    cases side with
    | source =>
        rw [hstage.onlySource path file hopened]
        exact List.mem_cons_self
    | dest => exact List.mem_cons_of_mem _ (hclosed file (hstage.onlyDest path file hopened))
  cases outcome with
  | error failure =>
      refine Task.Ensures.bind ((hstage.closeAfterFailure_ensures sourcePath hclose).bad_mono
        fun _ _ _ => hover) ?_
      intro _ _ calls hstage
      exact Task.ensures_fail (hover hstage)
  | ok summary =>
      refine Task.Ensures.bind ((hstage.closeAt_ensures sourcePath hclose).bad_mono
        fun _ _ _ => hover) ?_
      intro _ _ calls hstage
      exact Task.ensures_pure (hover hstage)

theorem Over.note {calls : List (Call ι)} (hover : Over sourcePath destPath calls)
    {request : Files.Request ι} (hnotes : Notes request) (answer : request.Answer) :
    Over sourcePath destPath (⟨request, answer⟩ :: calls) := by
  obtain ⟨file, hsource, hdest⟩ | ⟨horderly, hclosed⟩ := hover
  · exact .inl ⟨file, hsource.append [_], hdest.append [_]⟩
  refine .inr ⟨⟨permitted_note hnotes, horderly⟩, fun side path file hopened => ?_⟩
  have hopens : ¬ Opens (⟨request, answer⟩ : Call ι) := by
    rintro ⟨side, path, file, hcall⟩
    obtain ⟨fact, rfl⟩ := hnotes
    cases hcall
  exact (hclosed side path file (wasOpened_of_cons hopens hopened)).append [_]

theorem files_ends [Machine] (rule : Rule) (sourcePath destPath : String) (scratch : Scratch) :
    (files rule sourcePath destPath : Files.Work ι Summary).Ensures recorded scratch []
      (fun _ _ after => Over sourcePath destPath after)
      (fun _ _ after => Over sourcePath destPath after) := by
  have hnothing : Over sourcePath destPath ([] : List (Call ι)) :=
    .inr ⟨trivial, fun side path file hopened => absurd hopened List.not_mem_nil⟩
  have hbuffer : (Task.buffer : Files.Work ι Buffer).AsksOnly fun _ => False := .buffer
  rw [files]
  refine Task.Ensures.bind ((hbuffer.ensures (fun _ _ _ _ => False.elim) rfl :
    Task.Ensures _ _ _ _ (fun _ _ after => after = []) _).bad_mono ?_) ?_
  · rintro _ _ _ rfl
    exact hnothing
  rintro _ scratch _ rfl
  refine Task.Ensures.bind (withSource_ends rule scratch) ?_
  intro summary scratch calls hover
  have hnote : (do
      Files.note (.built summary.kind destPath summary.containerSize summary.freeBytes)
      return summary : Files.Work ι Summary).AsksOnly Notes :=
    .bind (note_asksOnly (fun fact => ⟨fact, rfl⟩) _) fun _ => .pure summary
  refine hnote.ensures ?_ hover
  rintro request calls answer _ hnotes hover rfl
  exact hover.note hnotes answer

/-- **Every file is closed once, and never used again.** Whatever the files answer and whatever goes
wrong, interruptions of the cleanup among it: every file that a build has opened is closed before
the build ends, it was not closed before that, and no call is made on it afterwards. The destination
is opened only while the source is open, the source is closed only after the destination, and the
destination is removed only after it was closed. -/
theorem files_closes [Machine] {σ : Type}
    {answer : (request : Files.Request ι) → σ → request.Answer × σ}
    {rule : Rule} {scratch scratch' : Scratch} {state after : σ} {outcome : Except Failure Summary}
    {calls : List (Call ι)}
    (hrun : (files rule sourcePath destPath scratch).run
      (recording (I := Files.interface ι) answer) (state, [])
      = ((outcome, scratch'), (after, calls)))
    (hapart : ∀ file, WasOpened .source sourcePath file calls →
      ¬ WasOpened .dest destPath file calls) :
    (∀ side path file, WasOpened side path file calls → ∃ later answer earlier,
      calls = later ++ ⟨.close file, answer⟩ :: earlier ∧ ¬ WasClosed file earlier ∧
      ∀ call ∈ later, call.1.file? ≠ some file) ∧
    ∀ later call earlier, calls = later ++ call :: earlier →
      Permitted sourcePath destPath call.1 earlier := by
  have hover : Over sourcePath destPath calls := by
    have hends := (files_ends rule sourcePath destPath scratch).run_recording
      (fun _ _ _ _ => rfl) hrun fun _ _ => trivial
    cases outcome with
    | ok summary => exact hends
    | error failure => exact hends
  obtain ⟨file, hsource, hdest⟩ | ⟨horderly, hclosed⟩ := hover
  · exact absurd hdest (hapart file hsource)
  refine ⟨fun side path file hopened => ?_, ?_⟩
  · obtain ⟨answer, hmem⟩ := hclosed side path file hopened
    obtain ⟨later, earlier, rfl⟩ := List.append_of_mem hmem
    have hpermitted : Permitted sourcePath destPath (.close file) earlier := horderly.permitted
    exact ⟨later, answer, earlier, rfl, hpermitted.1.2, horderly.untouched⟩
  · rintro later call earlier rfl
    exact horderly.permitted

def interrupted : (request : Files.Request Side) → Unit → request.Answer × Unit
  | .stream request, _ => (request.refused .interrupt, ())
  | .openFile side _, _ => ((.ok side : Except Fault Side), ())
  | .openUnnamed _, _ => (.interrupt, ())
  | .close _, _ => ((.error .interrupt : Except Fault Unit), ())
  | .remove _, _ => ((.error .interrupt : Except Fault Unit), ())

/-- The first call on the source is interrupted, then the close of the destination, and then that of
the source. -/
theorem files_closes_interrupted :
    ∃ scratch' calls, (files Rule.pak3 "in.bin" "out.bin" (.ready (.zeros 2))).run
        (recording (I := Files.interface Side) interrupted) ((), [])
        = ((.error (.fault .interrupt), scratch'), ((), calls)) ∧
      ∀ side, ∃ later answer earlier, calls = later ++ ⟨.close side, answer⟩ :: earlier ∧
        ¬ WasClosed side earlier ∧ ∀ call ∈ later, call.1.file? ≠ some side := by
  have hrun : (files Rule.pak3 "in.bin" "out.bin" (.ready (.zeros 2))).run
      (recording (I := Files.interface Side) interrupted) ((), [])
      = ((.error (.fault .interrupt), .ready (.zeros 2)), ((), [⟨.close .source, .error .interrupt⟩,
        ⟨.close .dest, .error .interrupt⟩, ⟨.stream (.tell .source), .error .interrupt⟩,
        ⟨.openFile .dest "out.bin", .ok .dest⟩, ⟨.openFile .source "in.bin", .ok .source⟩])) := rfl
  obtain ⟨hcloses, -⟩ := files_closes hrun fun file hsource hdest => by
    simp only [WasOpened, List.mem_cons, List.not_mem_nil, or_false] at hsource hdest
    obtain hcall | hcall | hcall | hcall | hcall := hsource <;> cases hcall
    obtain hcall | hcall | hcall | hcall | hcall := hdest <;> cases hcall
  refine ⟨_, _, hrun, fun side => ?_⟩
  cases side with
  | source => exact hcloses .source "in.bin" .source (by simp [WasOpened])
  | dest => exact hcloses .dest "out.bin" .dest (by simp [WasOpened])

end Build

end RomImage
