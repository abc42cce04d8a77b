import RomImage.Container.Spec
import RomImage.Size

/-!
# The known containers

The specification of each kind.  That of plain padding has no target size; the caller supplies it.
-/

namespace RomImage

namespace Table

/-- Where the board of the PAK/3 starts to execute. -/
def jumpOffset : Nat := 0x40030

/-- The instruction `JMP $E00000` of the 68000. -/
def jumpInstruction : Bytes := [0x4e, 0xf9, 0x00, 0xe0, 0x00, 0x00]

def pad : Spec := ⟨.pad, "", none, none, none, none⟩

def pak3 : Spec :=
  ⟨.pak3, "PAK/3", some (512 * kib), some (256 * kib), none, some ⟨jumpOffset, jumpInstruction⟩⟩

def stc : Spec :=
  ⟨.stc, "Steem Engine cartridge", some (128 * kib), none, some ⟨4, 0⟩, none⟩

end Table

def Kind.spec : Kind → Spec
  | .pad => Table.pad
  | .pak3 => Table.pak3
  | .stc => Table.stc

end RomImage
