import RomImage.FileTree.Basic

/-!
# Where a path leads

What a path leads to depends on the directories along it and on nothing else, so a tree that keeps
its directories keeps the places of its paths (`FileTree.Leads.mono`). Opening, removing and looking
for a file are told apart by what stands at that place.
-/

namespace RomImage

def Node.isFile : Node → Bool
  | directory => false
  | file _ => true

namespace FileTree

variable {tree other : FileTree} {location : Location} {path : String}

theorem lookup_of_isOutward (houtward : location.isOutward = true) :
    tree.lookup location = some .directory := by
  rw [lookup, if_pos houtward]

/-- Below the top is whatever is no directory. -/
theorem isOutward_eq_false (hlookup : tree.lookup location ≠ some .directory) :
    location.isOutward = false := by
  cases houtward : location.isOutward with
  | false => rfl
  | true => exact absurd (lookup_of_isOutward houtward) hlookup

def KeepsDirectories (tree other : FileTree) : Prop :=
  ∀ location, tree.lookup location = some .directory → other.lookup location = some .directory

def SameShape (tree other : FileTree) : Prop :=
  ∀ location, (other.lookup location).map Node.isFile = (tree.lookup location).map Node.isFile

theorem SameShape.keepsDirectories (hshape : SameShape tree other) :
    KeepsDirectories tree other := by
  intro location hdirectory
  have hsame := hshape location
  rw [hdirectory] at hsame
  cases hother : other.lookup location with
  | none =>
      rw [hother] at hsame
      exact absurd hsame (by simp)
  | some node =>
      rw [hother] at hsame
      cases node with
      | directory => rfl
      | file contents => exact absurd hsame (by simp [Node.isFile])

theorem SameShape.file (hshape : SameShape tree other) {contents : Contents}
    (hfile : tree.lookup location = some (.file contents)) :
    ∃ contents', other.lookup location = some (.file contents') := by
  have hsame := hshape location
  rw [hfile] at hsame
  cases hother : other.lookup location with
  | none =>
      rw [hother] at hsame
      exact absurd hsame (by simp)
  | some node =>
      rw [hother] at hsame
      cases node with
      | directory => exact absurd hsame (by simp [Node.isFile])
      | file contents' => exact ⟨contents', rfl⟩

/-- A change of contents changes contents only. -/
theorem sameShape_change {α : Type} (tree : FileTree) (location : Location)
    (step : Contents → α × Contents) : SameShape tree (tree.change location step).2 := by
  intro place
  cases houtward : location.isOutward with
  | false =>
      rw [lookup_change _ _ _ _ houtward]
      split
      · rename_i hsame
        rw [hsame]
        cases tree.lookup location with
        | none => rfl
        | some node => cases node <;> rfl
      · rfl
  | true =>
      -- No entry of an outward location is ever looked at, so a change of one does not show.
      have hsame : (tree.change location step).2.lookup place = tree.lookup place := by
        by_cases hplace : place.isOutward = true
        · rw [lookup_of_isOutward hplace, lookup_of_isOutward hplace]
        · have hne : place ≠ location := fun hsame => hplace (hsame ▸ houtward)
          rw [lookup, if_neg hplace, lookup, if_neg hplace]
          exact (find_changeEntries location place step tree.entries).trans (if_neg hne)
      rw [hsame]

theorem keepsDirectories_put {node : Node} (hlookup : tree.lookup location ≠ some .directory) :
    KeepsDirectories tree (tree.put location node) := by
  intro place hdirectory
  rw [lookup_put _ _ _ _ (isOutward_eq_false hlookup)]
  split
  · rename_i hsame
    exact absurd (hsame ▸ hdirectory) hlookup
  · exact hdirectory

theorem keepsDirectories_erase (hlookup : tree.lookup location ≠ some .directory) :
    KeepsDirectories tree (tree.erase location) := by
  intro place hdirectory
  rw [lookup_erase _ _ _ (isOutward_eq_false hlookup)]
  split
  · rename_i hsame
    exact absurd (hsame ▸ hdirectory) hlookup
  · exact hdirectory

theorem KeepsDirectories.trans {last : FileTree} (hfirst : KeepsDirectories tree other)
    (hsecond : KeepsDirectories other last) : KeepsDirectories tree last :=
  fun location hdirectory => hsecond location (hfirst location hdirectory)

/-- Names lead where they led as long as the directories stay. -/
theorem walk_mono (hkeeps : KeepsDirectories tree other) {directory reached : Location}
    {names : List String} (hwalk : tree.walk directory names = .ok reached) :
    other.walk directory names = .ok reached := by
  induction names generalizing directory with
  | nil => exact hwalk
  | cons name rest ih =>
      rw [walk] at hwalk ⊢
      cases henter : enter directory name with
      | error fault =>
          rw [henter] at hwalk
          exact absurd hwalk (by simp)
      | ok next =>
          rw [henter] at hwalk
          dsimp only at hwalk ⊢
          cases hnext : tree.lookup next with
          | none =>
              rw [hnext] at hwalk
              exact absurd hwalk (by simp)
          | some node =>
              rw [hnext] at hwalk
              cases node with
              | file contents => exact absurd hwalk (by simp)
              | directory =>
                  rw [hkeeps next hnext]
                  exact ih hwalk

theorem parent_mono (hkeeps : KeepsDirectories tree other) {place : Location × String}
    (hparent : tree.parent path = .ok place) : other.parent path = .ok place := by
  rw [parent] at hparent ⊢
  split at hparent
  · exact absurd hparent (by simp)
  rename_i hnul
  split at hparent
  · exact absurd hparent (by simp)
  rename_i hempty
  split at hparent
  · exact absurd hparent (by simp)
  rename_i hlong
  rw [if_neg hnul, if_neg hempty, if_neg hlong]
  dsimp only at hparent ⊢
  cases hwalk : tree.walk [] (Path.names path).dropLast with
  | error fault =>
      rw [hwalk] at hparent
      exact absurd hparent (by simp [Except.map])
  | ok directory =>
      rw [walk_mono hkeeps hwalk]
      rwa [hwalk] at hparent

/-- The path leads to the location, whatever stands there, and names a place for a file. -/
def Leads (tree : FileTree) (path : String) (location : Location) : Prop :=
  ∃ directory name, tree.parent path = .ok (directory, name) ∧ Path.hasTrailingSlash path = false ∧
    isDots name = false ∧ enter directory name = .ok location

theorem Leads.mono (hleads : tree.Leads path location) (hkeeps : KeepsDirectories tree other) :
    other.Leads path location := by
  obtain ⟨directory, name, hparent, hfile⟩ := hleads
  exact ⟨directory, name, parent_mono hkeeps hparent, hfile⟩

theorem locateForWriting_eq_ok (hlocate : tree.locateForWriting path = .ok location) :
    tree.Leads path location ∧ tree.lookup location ≠ some .directory := by
  simp only [locateForWriting, bind, Except.bind] at hlocate
  split at hlocate
  · exact absurd hlocate (by simp)
  rename_i place hparent
  obtain ⟨directory, name⟩ := place
  dsimp only at hlocate
  split at hlocate
  · exact absurd hlocate (by simp)
  rename_i hfile
  obtain ⟨hslash, hdots⟩ : Path.hasTrailingSlash path = false ∧ isDots name = false := by
    simpa using hfile
  split at hlocate
  · exact absurd hlocate (by simp)
  rename_i found henter
  split at hlocate
  · exact absurd hlocate (by simp)
  rename_i hlookup
  obtain rfl : found = location := Except.ok.inj hlocate
  exact ⟨⟨directory, name, hparent, hslash, hdots, henter⟩, hlookup⟩

theorem Leads.locateForRemoval (hleads : tree.Leads path location) {contents : Contents}
    (hfile : tree.lookup location = some (.file contents)) :
    tree.locateForRemoval path = .ok location := by
  obtain ⟨directory, name, hparent, hslash, hdots, henter⟩ := hleads
  simp [FileTree.locateForRemoval, hparent, hdots, henter, hfile, hslash, bind, Except.bind]

theorem Leads.locateForReading (hleads : tree.Leads path location) {contents : Contents}
    (hfile : tree.lookup location = some (.file contents)) :
    tree.locateForReading path = .ok location := by
  obtain ⟨directory, name, hparent, hslash, hdots, henter⟩ := hleads
  simp [FileTree.locateForReading, hparent, henter, hfile, hslash, bind, Except.bind]

/-- Where nothing stands a file is missing. -/
theorem Leads.missing (hleads : tree.Leads path location) (hnone : tree.lookup location = none) :
    tree.locateForReading path = .error .missing := by
  obtain ⟨directory, name, hparent, -, -, henter⟩ := hleads
  simp [FileTree.locateForReading, hparent, henter, hnone, bind, Except.bind]

/-- What was erased is missing where its path leads. -/
theorem Leads.missing_erase (hleads : tree.Leads path location) {contents : Contents}
    (hfile : tree.lookup location = some (.file contents)) :
    (tree.erase location).locateForReading path = .error .missing := by
  have hlookup : tree.lookup location ≠ some .directory := by
    rw [hfile]
    simp
  have hnone : (tree.erase location).lookup location = none := by
    rw [lookup_erase _ _ _ (isOutward_eq_false hlookup), if_pos rfl]
  exact (hleads.mono (keepsDirectories_erase hlookup)).missing hnone

theorem Leads.locateForWriting (hleads : tree.Leads path location)
    (hlookup : tree.lookup location ≠ some .directory) :
    tree.locateForWriting path = .ok location := by
  obtain ⟨directory, name, hparent, hslash, hdots, henter⟩ := hleads
  simp only [FileTree.locateForWriting, hparent, hslash, hdots, henter, bind, Except.bind]
  cases hnode : tree.lookup location with
  | none => rfl
  | some node =>
      cases node with
      | directory => exact absurd hnode hlookup
      | file contents => rfl

theorem locateForRemoval_eq_ok (hlocate : tree.locateForRemoval path = .ok location) :
    tree.Leads path location ∧ tree.lookup location ≠ some .directory := by
  simp only [FileTree.locateForRemoval, bind, Except.bind] at hlocate
  split at hlocate
  · exact absurd hlocate (by simp)
  rename_i place hparent
  obtain ⟨directory, name⟩ := place
  dsimp only at hlocate
  split at hlocate
  · exact absurd hlocate (by simp)
  rename_i hdots
  split at hlocate
  · exact absurd hlocate (by simp)
  rename_i found henter
  split at hlocate
  · exact absurd hlocate (by simp)
  · exact absurd hlocate (by simp)
  rename_i contents hfile
  split at hlocate
  · exact absurd hlocate (by simp)
  rename_i hslash
  obtain rfl : found = location := Except.ok.inj hlocate
  refine ⟨⟨directory, name, hparent, by simpa using hslash, by simpa using hdots, henter⟩, ?_⟩
  rw [hfile]
  simp

theorem locateForReading_eq_ok : tree.locateForReading path = .ok location ↔
    ∃ directory name, tree.parent path = .ok (directory, name) ∧
      enter directory name = .ok location ∧ Path.hasTrailingSlash path = false ∧
      ∃ contents, tree.lookup location = some (.file contents) := by
  constructor
  · intro hlocate
    simp only [locateForReading, bind, Except.bind] at hlocate
    split at hlocate
    · exact absurd hlocate (by simp)
    rename_i place hparent
    split at hlocate
    · exact absurd hlocate (by simp)
    rename_i found henter
    split at hlocate
    · exact absurd hlocate (by simp)
    · exact absurd hlocate (by simp)
    rename_i contents hfile
    split at hlocate
    · exact absurd hlocate (by simp)
    rename_i hslash
    obtain rfl : found = location := Except.ok.inj hlocate
    exact ⟨place.1, place.2, hparent, henter, by simpa using hslash, contents, hfile⟩
  · rintro ⟨directory, name, hparent, henter, hslash, contents, hfile⟩
    simp [locateForReading, hparent, henter, hfile, hslash, bind, Except.bind]

theorem exists_file_of_locateForReading (hlocate : tree.locateForReading path = .ok location) :
    ∃ contents, tree.lookup location = some (.file contents) := by
  obtain ⟨-, -, -, -, -, hfile⟩ := locateForReading_eq_ok.mp hlocate
  exact hfile

/-- A path that a file is read by leads to it in every tree that keeps the directories and has a
file there. -/
theorem locateForReading_mono (hlocate : tree.locateForReading path = .ok location)
    (hkeeps : KeepsDirectories tree other) {contents : Contents}
    (hfile : other.lookup location = some (.file contents)) :
    other.locateForReading path = .ok location := by
  obtain ⟨directory, name, hparent, henter, hslash, -⟩ := locateForReading_eq_ok.mp hlocate
  exact locateForReading_eq_ok.mpr
    ⟨directory, name, parent_mono hkeeps hparent, henter, hslash, contents, hfile⟩

def Holds (tree : FileTree) (path : String) (bytes : Bytes) : Prop :=
  ∃ location contents, tree.locateForReading path = .ok location ∧
    tree.lookup location = some (.file contents) ∧ contents.bytes = bytes

theorem Holds.bytes_eq {first second : Bytes} (hfirst : tree.Holds path first)
    (hsecond : tree.Holds path second) : first = second := by
  obtain ⟨location, contents, hlocate, hfile, rfl⟩ := hfirst
  obtain ⟨place, other, hplace, hother, rfl⟩ := hsecond
  obtain rfl := Except.ok.inj (hlocate.symm.trans hplace)
  rw [hfile] at hother
  obtain rfl : contents = other := by simpa using hother
  rfl

/-- What is read by one path is the file that is written by the other. -/
def SameFile (tree : FileTree) (sourcePath destPath : String) : Prop :=
  ∃ location, tree.locateForReading sourcePath = .ok location ∧
    tree.locateForWriting destPath = .ok location

theorem change_answer {α : Type} (step : Contents → α × Contents) {contents : Contents}
    (hfile : tree.lookup location = some (.file contents)) :
    (tree.change location step).1 = some (step contents).1 := by
  have hfind : find location tree.entries = some (.file contents) := by
    rw [lookup] at hfile
    split at hfile
    · exact absurd hfile (by simp)
    · exact hfile
  obtain ⟨entries⟩ := tree
  clear hfile
  simp only [change]
  dsimp only at hfind
  induction entries with
  | nil => exact absurd hfind (by simp [find])
  | cons entry rest ih =>
      obtain ⟨key, node⟩ := entry
      rw [find] at hfind
      by_cases hkey : key = location
      · rw [if_pos hkey] at hfind
        obtain rfl := Option.some.inj hfind
        simp only [changeEntries, if_pos hkey]
      · rw [if_neg hkey] at hfind
        simp only [changeEntries, if_neg hkey]
        exact ih hfind

/-- A change that leaves all contents leaves the tree. -/
theorem change_of_same {α : Type} (tree : FileTree) (location : Location)
    {step : Contents → α × Contents} (hsame : ∀ contents, (step contents).2 = contents) :
    (tree.change location step).2 = tree := by
  obtain ⟨entries⟩ := tree
  simp only [change, mk.injEq]
  induction entries with
  | nil => rfl
  | cons entry rest ih =>
      obtain ⟨key, node⟩ := entry
      by_cases hkey : key = location
      · cases node with
        | directory => simp only [changeEntries, if_pos hkey]
        | file contents => simp only [changeEntries, if_pos hkey, hsame]
      · simp only [changeEntries, if_neg hkey, ih]

theorem put_put (tree : FileTree) (location : Location) (first second : Node) :
    (tree.put location first).put location second = tree.put location second := by
  simp [put, erase, List.filter_filter]

section Refused

def RefusedBySystem {α : Type} (outcome : Except Fault α) : Prop :=
  ∀ fault, outcome = .error fault → fault.isSystem = true

variable {α β : Type}

theorem RefusedBySystem.ok (value : α) : RefusedBySystem (.ok value) :=
  fun _ hrefused => absurd hrefused (by simp)

theorem RefusedBySystem.error {fault : Fault} (hsystem : fault.isSystem = true) :
    RefusedBySystem (.error fault : Except Fault α) :=
  fun _ hrefused => Except.error.inj hrefused ▸ hsystem

theorem RefusedBySystem.bind {outcome : Except Fault α} {f : α → Except Fault β}
    (houtcome : RefusedBySystem outcome) (hnext : ∀ value, RefusedBySystem (f value)) :
    RefusedBySystem (outcome >>= f) := by
  cases outcome with
  | ok value => exact hnext value
  | error fault => exact .error (houtcome fault rfl)

theorem refused_enter (directory : Location) (name : String) :
    RefusedBySystem (enter directory name) := by
  rw [enter]
  split
  · exact .ok _
  split
  · exact .ok _
  split
  · exact .error rfl
  · exact .ok _

theorem refused_walk (tree : FileTree) (directory : Location) (names : List String) :
    RefusedBySystem (tree.walk directory names) := by
  induction names generalizing directory with
  | nil => exact .ok directory
  | cons name rest ih =>
      have henter := refused_enter directory name
      rw [walk]
      cases hnext : enter directory name with
      | error fault => exact .error (henter fault hnext)
      | ok next =>
          dsimp only
          split
          · exact .error rfl
          · exact .error rfl
          · exact ih next

/-- A path without a NUL character is followed until the system refuses it. -/
theorem refused_parent (hnul : '\x00' ∉ path.toList) : RefusedBySystem (tree.parent path) := by
  rw [parent, if_neg (by simpa using hnul)]
  split
  · exact .error rfl
  split
  · exact .error rfl
  · have hwalk := refused_walk tree [] (Path.names path).dropLast
    dsimp only
    cases hreached : tree.walk [] (Path.names path).dropLast with
    | error fault => exact .error (hwalk fault hreached)
    | ok directory => exact .ok _

variable (hnul : '\x00' ∉ path.toList)

include hnul

theorem refused_locateForReading : RefusedBySystem (tree.locateForReading path) := by
  refine (refused_parent hnul).bind fun (directory, name) => ?_
  refine (refused_enter directory name).bind fun location => ?_
  split
  · exact .error rfl
  · exact .error rfl
  · split
    · exact .error rfl
    · exact .ok _

theorem refused_locateForWriting : RefusedBySystem (tree.locateForWriting path) := by
  refine (refused_parent hnul).bind fun (directory, name) => ?_
  dsimp only
  split
  · exact .error rfl
  refine (refused_enter directory name).bind fun location => ?_
  split
  · exact .error rfl
  · exact .ok _

theorem refused_locateForRemoval : RefusedBySystem (tree.locateForRemoval path) := by
  refine (refused_parent hnul).bind fun (directory, name) => ?_
  dsimp only
  split
  · exact .error rfl
  refine (refused_enter directory name).bind fun location => ?_
  split
  · exact .error rfl
  · exact .error rfl
  · split
    · exact .error rfl
    · exact .ok _

end Refused

end FileTree

end RomImage
