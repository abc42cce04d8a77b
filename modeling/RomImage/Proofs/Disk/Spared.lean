import RomImage.Proofs.Disk.Run
import RomImage.Proofs.Stream.Requests

/-!
# What a build spares

A build that opens, writes and removes no file but its output leaves everything else as it was:
every request that keeps to this does (`Disk.Spared.answer`), whatever goes wrong with it. Reading a
file changes nothing in the tree at all.
-/

namespace RomImage

namespace Disk

variable {tree : FileTree} {path : String} {disk after : Disk} {location : Location}

/-- Everything is as it was in a tree but the file that a path is written to, and that is the file
of the open destination. -/
structure Spared (tree : FileTree) (path : String) (disk : Disk) : Prop where
  lookup : ∀ location, disk.tree.lookup location = tree.lookup location ∨
    tree.locateForWriting path = .ok location ∧ disk.tree.lookup location ≠ some .directory
  dest : ∀ handle ∈ disk.handle? .dest, tree.locateForWriting path = .ok handle.location

namespace Spared

theorem ofTree (tree : FileTree) (path : String) (plan : Plan) :
    Spared tree path (.ofTree tree plan) :=
  ⟨fun _ => .inl rfl, fun _ hnone => absurd hnone (by simp [Disk.ofTree, handle?])⟩

/-- The directories are the same. -/
theorem directory_iff (hspared : Spared tree path disk) (location : Location) :
    disk.tree.lookup location = some .directory ↔ tree.lookup location = some .directory := by
  obtain hsame | ⟨hlocate, hother⟩ := hspared.lookup location
  · rw [hsame]
  · exact iff_of_false hother (FileTree.locateForWriting_eq_ok hlocate).2

/-- The place of the output is the same. -/
theorem locate (hspared : Spared tree path disk) (hleads : disk.tree.Leads path location)
    (hlookup : disk.tree.lookup location ≠ some .directory) :
    tree.locateForWriting path = .ok location := by
  have hkeeps : FileTree.KeepsDirectories disk.tree tree :=
    fun place => (hspared.directory_iff place).mp
  exact (hleads.mono hkeeps).locateForWriting fun hdirectory =>
    hlookup ((hspared.directory_iff location).mpr hdirectory)

/-- What another path leads to is readable still. -/
theorem holds {sourcePath : String} {bytes : Bytes} (hspared : Spared tree path disk)
    (hholds : tree.Holds sourcePath bytes) (hapart : ¬ tree.SameFile sourcePath path) :
    disk.tree.Holds sourcePath bytes := by
  obtain ⟨location, contents, hlocate, hfile, hbytes⟩ := hholds
  have hkept : disk.tree.lookup location = some (.file contents) := by
    obtain hsame | ⟨hwriting, -⟩ := hspared.lookup location
    · rw [hsame, hfile]
    · exact absurd ⟨location, hlocate, hwriting⟩ hapart
  have hkeeps : FileTree.KeepsDirectories tree disk.tree :=
    fun place => (hspared.directory_iff place).mpr
  exact ⟨location, contents, FileTree.locateForReading_mono hlocate hkeeps hkept, hkept, hbytes⟩

/-- A change at the place of the output spares the rest, if it leaves no directory there. -/
theorem of_lookup (hspared : Spared tree path disk)
    (hlocate : tree.locateForWriting path = .ok location)
    (hother : ∀ place ≠ location, after.tree.lookup place = disk.tree.lookup place)
    (houtput : after.tree.lookup location ≠ some .directory)
    (hdest : ∀ handle ∈ after.handle? .dest,
      tree.locateForWriting path = .ok handle.location) : Spared tree path after := by
  refine ⟨fun place => ?_, hdest⟩
  by_cases hplace : place = location
  · subst hplace
    exact .inr ⟨hlocate, houtput⟩
  · rw [hother place hplace]
    exact hspared.lookup place

theorem of_tree (hspared : Spared tree path disk) (htree : after.tree = disk.tree)
    (hdest : ∀ handle ∈ after.handle? .dest, tree.locateForWriting path = .ok handle.location) :
    Spared tree path after := by
  refine ⟨fun place => ?_, hdest⟩
  rw [htree]
  exact hspared.lookup place

theorem of_location (hspared : Spared tree path disk)
    (hlocation : (after.handle? .dest).map Handle.location
      = (disk.handle? .dest).map Handle.location) :
    ∀ handle ∈ after.handle? .dest, tree.locateForWriting path = .ok handle.location := by
  intro handle hhandle
  rw [hhandle, Option.map_some, eq_comm, Option.map_eq_some_iff] at hlocation
  obtain ⟨old, hold, hsame⟩ := hlocation
  rw [← hsame]
  exact hspared.dest old hold

/-- What keeps the frame keeps the location of the open destination. -/
theorem dest_of_frame (hspared : Spared tree path disk) (hframe : Frame disk after) :
    ∀ handle ∈ after.handle? .dest, tree.locateForWriting path = .ok handle.location := by
  refine hspared.of_location ?_
  have hsame := congrArg (Option.map Prod.fst) (hframe.handle .dest)
  rwa [Option.map_map, Option.map_map] at hsame

end Spared

/-- Requests that touch no file but the one at a path: nothing else is opened for writing or
removed, and what was opened for reading is not written to. -/
def Sparing (path : String) : Files.Request Side → Prop
  | .stream (.write .source _) => False
  | .openFile .dest other => other = path
  | .remove other => other = path
  | _ => True

namespace Spared

theorem write_dest (hspared : Spared tree path disk) (data : Bytes) :
    Spared tree path (disk.answerStream (.write .dest data)).2 := by
  have hdest := hspared.dest_of_frame (frame_answerStream (.write .dest data) disk)
  cases hhandle : disk.handle? .dest with
  | none =>
      rw [answerStream, access]
      simp only [hhandle]
      exact hspared
  | some handle =>
      have hlocate : tree.locateForWriting path = .ok handle.location := hspared.dest handle hhandle
      have hplace : tree.lookup handle.location ≠ some .directory :=
        (FileTree.locateForWriting_eq_ok hlocate).2
      obtain ⟨step, hstep⟩ := tree_write hhandle data
      have hlookup (place : Location) := congrArg (FileTree.lookup · place) hstep
      simp only [FileTree.lookup_change _ _ _ _ (FileTree.isOutward_eq_false hplace)] at hlookup
      refine hspared.of_lookup hlocate (fun place hother => ?_) ?_ hdest
      · rw [hlookup, if_neg hother]
      · rw [hlookup, if_pos rfl]
        intro hdirectory
        obtain ⟨node, hnode, hsame⟩ := Option.map_eq_some_iff.mp hdirectory
        cases node with
        | directory => exact hplace ((hspared.directory_iff _).mp hnode)
        | file contents => exact absurd hsame (by simp [Node.change])

theorem openFile (hspared : Spared tree path disk) (side : Side) {other : String}
    (hpath : side = .dest → other = path) : Spared tree path (disk.openFile side other).2 := by
  cases hopened : disk.openFile side other with
  | mk answer after =>
  cases answer with
  | error fault =>
      rw [openFile_error hopened]
      exact hspared
  | ok file =>
      obtain ⟨-, -, hopen⟩ := openFile_eq_ok.mp hopened
      cases side with
      | source =>
          obtain ⟨location, -, rfl⟩ := hopen
          exact hspared.of_tree (tree_setHandle _ _ _) hspared.dest
      | dest =>
          obtain rfl := hpath rfl
          obtain ⟨location, hlocate, rfl⟩ := hopen
          obtain ⟨hleads, hlookup⟩ := FileTree.locateForWriting_eq_ok hlocate
          have hplace := hspared.locate hleads hlookup
          have hput (place : Location) := disk.tree.lookup_put location place (.file .empty)
            (FileTree.isOutward_eq_false hlookup)
          refine hspared.of_lookup hplace (fun place hother => ?_) ?_ ?_
          · exact (hput place).trans (if_neg hother)
          · rw [tree_setHandle, hput, if_pos rfl]
            simp
          · intro handle hhandle
            obtain rfl : _ = handle := Option.some.inj hhandle
            exact hplace

theorem close (hspared : Spared tree path disk) (side : Side) :
    Spared tree path (disk.close side).2 := by
  refine hspared.of_tree (tree_close disk side) (hspared.of_location ?_)
  obtain ⟨-, hafter⟩ | ⟨handle, hhandle, hafter⟩ := disk.after_close side
  · rw [hafter]
  · rw [hafter, handle?_setHandle]
    split
    · rename_i hside
      rw [hside, hhandle]
      rfl
    · rfl

theorem remove (hspared : Spared tree path disk) : Spared tree path (disk.remove path).2 := by
  rw [Disk.remove]
  split
  · exact hspared
  · split
    · exact hspared
    · rename_i location hlocate
      obtain ⟨hleads, hlookup⟩ := FileTree.locateForRemoval_eq_ok hlocate
      have herase (place : Location) := disk.tree.lookup_erase location place
        (FileTree.isOutward_eq_false hlookup)
      refine hspared.of_lookup (hspared.locate hleads hlookup) (fun place hother => ?_) ?_
        hspared.dest
      · exact (herase place).trans (if_neg hother)
      · rw [herase, if_pos rfl]
        simp

/-- Requests that spare the rest do, whatever comes of them. -/
theorem answer (hspared : Spared tree path disk) (request : Files.Request Side)
    (hsparing : Sparing path request) : Spared tree path (disk.answer request).2 := by
  cases request with
  | stream request =>
      by_cases hwrite : ∃ side data, request = .write side data
      · obtain ⟨side, data, rfl⟩ := hwrite
        cases side with
        | source => exact hsparing.elim
        | dest => exact hspared.write_dest data
      · refine hspared.of_tree (tree_answerStream disk fun side data hsame => ?_) ?_
        · exact hwrite ⟨side, data, hsame⟩
        · exact hspared.dest_of_frame (frame_answerStream request disk)
  | openFile side other =>
      refine hspared.openFile side fun hside => ?_
      subst hside
      exact hsparing
  | openUnnamed side => exact hspared
  | close side => exact hspared.close side
  | remove other =>
      obtain rfl : other = path := hsparing
      exact hspared.remove

end Spared

end Disk

end RomImage
