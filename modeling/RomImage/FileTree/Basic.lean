import RomImage.Bytes
import RomImage.Fault
import RomImage.FileTree.Path

/-!
# File trees

A file tree says what stands at each location, a location being the names that lead to it from the
top.  `lookup` is the view of a tree; `put`, `change` and `erase` act at one location and leave all
others alone (`lookup_put`, `lookup_change`, `lookup_erase`).

Paths are followed as the system does it: through directories only, name by name, with the fault of
the first name that does not lead on.  Two dots lead out of a directory, and from the top to the
directories around it, of which the tree knows only what was put there.

A tree is a plain one: it has no links, so that a location is all that tells two files apart, and no
permissions.  What is denied for other reasons is a fault of the plan that a disk goes by.
-/

namespace RomImage

/-- The names that lead from the top to a place in a tree, or around it after two dots. -/
abbrev Location := List String

def Location.isOutward (location : Location) : Bool := location.all (· = "..")

theorem Location.ne_of_isOutward {location other : Location} (outward : other.isOutward)
    (below : location.isOutward = false) : other ≠ location := by
  rintro rfl
  simp [outward] at below

inductive Node where
  | directory
  | file (contents : Contents)
  deriving DecidableEq

def Node.change {α : Type} (step : Contents → α × Contents) : Node → Node
  | directory => directory
  | file contents => file (step contents).2

/-- Directories and files below a top directory. -/
structure FileTree where
  entries : List (Location × Node)
  deriving DecidableEq

namespace FileTree

def empty : FileTree := ⟨[]⟩

def find (location : Location) : List (Location × Node) → Option Node
  | [] => none
  | (key, node) :: rest => if key = location then some node else find location rest

/-- What stands at a location; the top is a directory, and so is all that is around it. -/
def lookup (tree : FileTree) (location : Location) : Option Node :=
  if location.isOutward then some .directory else find location tree.entries

def inside (tree : FileTree) : List (Location × Node) :=
  tree.entries.filter (·.1.head? ≠ some "..")

def erase (tree : FileTree) (location : Location) : FileTree :=
  ⟨tree.entries.filter (·.1 ≠ location)⟩

def put (tree : FileTree) (location : Location) (node : Node) : FileTree :=
  ⟨(location, node) :: (tree.erase location).entries⟩

def changeEntries {α : Type} (location : Location) (change : Contents → α × Contents) :
    List (Location × Node) → Option α × List (Location × Node)
  | [] => (none, [])
  | (key, node) :: rest =>
    if key = location then
      match node with
      | .directory => (none, (key, .directory) :: rest)
      | .file contents =>
        let (answer, contents) := change contents
        (some answer, (key, .file contents) :: rest)
    else
      let (answer, rest) := changeEntries location change rest
      (answer, (key, node) :: rest)

def change {α : Type} (tree : FileTree) (location : Location)
    (step : Contents → α × Contents) : Option α × FileTree :=
  match tree with
  | ⟨entries⟩ =>
    let (answer, entries) := changeEntries location step entries
    (answer, ⟨entries⟩)

def enter (directory : Location) (name : String) : Except Fault Location :=
  if name = "." then .ok directory
  else if name = ".." then
    .ok (if directory.isOutward then directory ++ [".."] else directory.dropLast)
  else if Path.nameLimit < name.utf8ByteSize then .error .nameTooLong
  else .ok (directory ++ [name])

def walk (tree : FileTree) : Location → List String → Except Fault Location
  | directory, [] => .ok directory
  | directory, name :: rest =>
    match enter directory name with
    | .error fault => .error fault
    | .ok next =>
      match tree.lookup next with
      | none => .error .missing
      | some (.file _) => .error .notADirectory
      | some .directory => walk tree next rest

def parent (tree : FileTree) (path : String) : Except Fault (Location × String) :=
  if path.toList.contains '\x00' then .error .nulInPath
  else if path.isEmpty then .error .missing
  else if Path.pathLimit < path.utf8ByteSize then .error .nameTooLong
  else
    let names := Path.names path
    (tree.walk [] names.dropLast).map fun directory => (directory, names.getLast?.getD ".")

def isDots (name : String) : Bool :=
  name = "." || name = ".."

def locateForReading (tree : FileTree) (path : String) : Except Fault Location := do
  let (directory, name) ← tree.parent path
  let location ← enter directory name
  match tree.lookup location with
  | none => .error .missing
  | some .directory => .error .isADirectory
  | some (.file _) =>
    if Path.hasTrailingSlash path then .error .notADirectory else .ok location

/-- The location of the file that a path names for writing, there or not. -/
def locateForWriting (tree : FileTree) (path : String) : Except Fault Location := do
  let (directory, name) ← tree.parent path
  if Path.hasTrailingSlash path || isDots name then .error .isADirectory
  else
    let location ← enter directory name
    match tree.lookup location with
    | some .directory => .error .isADirectory
    | _ => .ok location

def locateForRemoval (tree : FileTree) (path : String) : Except Fault Location := do
  let (directory, name) ← tree.parent path
  if isDots name then .error .isADirectory
  else
    let location ← enter directory name
    match tree.lookup location with
    | none => .error .missing
    | some .directory => .error .isADirectory
    | some (.file _) =>
      if Path.hasTrailingSlash path then .error .notADirectory else .ok location

def makeDirectories (tree : FileTree) : Location → List String → FileTree
  | _, [] => tree
  | directory, name :: rest =>
    match enter directory name with
    | .error _ => tree
    | .ok next =>
      if (tree.lookup next).isNone then makeDirectories (tree.put next .directory) next rest
      else makeDirectories tree next rest

def write (tree : FileTree) (path : String) (contents : Contents) : FileTree :=
  match tree.locateForWriting path with
  | .ok location => tree.put location (.file contents)
  | .error _ => tree

theorem find_erase (tree : FileTree) (location other : Location) :
    find other (tree.erase location).entries =
      if other = location then none else find other tree.entries := by
  obtain ⟨entries⟩ := tree
  simp only [erase]
  induction entries with
  | nil => simp [find]
  | cons entry rest ih =>
    obtain ⟨key, node⟩ := entry
    by_cases same : key = location <;> by_cases hit : key = other <;>
      by_cases eq : other = location <;> simp_all [find]

/-- A put shows at its location and nowhere else. -/
theorem lookup_put (tree : FileTree) (location other : Location) (node : Node)
    (below : location.isOutward = false) :
    (tree.put location node).lookup other =
      if other = location then some node else tree.lookup other := by
  by_cases top : other.isOutward
  · simp [lookup, top, Location.ne_of_isOutward top below]
  · by_cases same : other = location
    · subst same
      simp [lookup, put, find, top]
    · simp [lookup, put, find, top, same, Ne.symm same, find_erase]

/-- An erasure shows at its location and nowhere else. -/
theorem lookup_erase (tree : FileTree) (location other : Location)
    (below : location.isOutward = false) :
    (tree.erase location).lookup other =
      if other = location then none else tree.lookup other := by
  by_cases top : other.isOutward
  · simp [lookup, top, Location.ne_of_isOutward top below]
  · simp [lookup, top, find_erase]

theorem find_changeEntries {α : Type} (location other : Location)
    (step : Contents → α × Contents) (entries : List (Location × Node)) :
    find other (changeEntries location step entries).2 =
      if other = location then (find location entries).map (Node.change step)
      else find other entries := by
  induction entries with
  | nil => simp [changeEntries, find]
  | cons entry rest ih =>
    obtain ⟨key, node⟩ := entry
    by_cases same : key = location
    · subst same
      by_cases eq : other = key
      · subst eq
        cases node <;> simp [changeEntries, find, Node.change]
      · cases node <;> simp [changeEntries, find, eq, Ne.symm eq]
    · by_cases hit : key = other
      · subst hit
        simp [changeEntries, find, same]
      · simp [changeEntries, find, same, hit, ih]

/-- A change shows in the contents at its location and nowhere else. -/
theorem lookup_change {α : Type} (tree : FileTree) (location other : Location)
    (step : Contents → α × Contents) (below : location.isOutward = false) :
    (tree.change location step).2.lookup other =
      if other = location then (tree.lookup location).map (Node.change step)
      else tree.lookup other := by
  by_cases top : other.isOutward
  · simp [lookup, top, Location.ne_of_isOutward top below]
  · simp [lookup, change, top, below, find_changeEntries]

end FileTree

end RomImage
