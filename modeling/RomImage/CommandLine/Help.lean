import RomImage.Container.Kind

/-!
# Texts of the command line

The texts that the command line prints on request or with an error about its use.
-/

namespace RomImage

namespace CommandLine

def program : String := "mkrom"

def version : String := "0.1.0"

def versionText : String := program ++ " " ++ version ++ "\n"

def usageText : String :=
  "usage:\n" ++
  "  # Generic zero padding\n" ++
  "  mkrom pad <size> <source> <destination>\n" ++
  "\n" ++
  "  # Steem Engine cartridge image\n" ++
  "  mkrom stc <source.img> <destination.stc>\n" ++
  "\n" ++
  "  # PAK/3 image\n" ++
  "  mkrom pak3 <source.img> <destination.img>\n"

def programHelp : String :=
  "usage: mkrom [-h] [--version] <command> ...\n" ++
  "\n" ++
  "Pad a raw binary image or wrap it into a cartridge container.\n" ++
  "\n" ++
  "positional arguments:\n" ++
  "  <command>\n" ++
  "    pad       Generic zero padding.\n" ++
  "    stc       Steem Engine cartridge image.\n" ++
  "    pak3      PAK/3 512 KB image.\n" ++
  "\n" ++
  "options:\n" ++
  "  -h, --help  show this help message and exit\n" ++
  "  --version   show program's version number and exit\n"

def optionsHelp : String :=
  "options:\n" ++
  "  -h, --help   show this help message and exit\n" ++
  "  --json       Print a JSON build report instead of progress lines.\n"

def commandHelp : Kind → String
  | .pad =>
    "usage: mkrom pad [-h] [--json] size source destination\n" ++
    "\n" ++
    "positional arguments:\n" ++
    "  size         Target size, e.g. 1024, 256k, 4M, 1G.\n" ++
    "  source       Input image.\n" ++
    "  destination  Output image.\n" ++
    "\n" ++ optionsHelp
  | .stc =>
    "usage: mkrom stc [-h] [--json] source destination\n" ++
    "\n" ++
    "positional arguments:\n" ++
    "  source       Input image (source.img).\n" ++
    "  destination  Output cartridge (destination.stc).\n" ++
    "\n" ++ optionsHelp
  | .pak3 =>
    "usage: mkrom pak3 [-h] [--json] source destination\n" ++
    "\n" ++
    "positional arguments:\n" ++
    "  source       Input image (source.img, at most 256 KB).\n" ++
    "  destination  Output image (destination.img).\n" ++
    "\n" ++ optionsHelp

end CommandLine

end RomImage
