import RomImage.Failure

/-!
# Notes

While a build runs it notes what it does.  A note is a fact; `Note.text` words it, `Note.level` says
how much it matters, and `Note.origin` which part of the work it comes from.  A note with a number
that has too many digits cannot be worded, and `Note.keep` refuses it.
-/

namespace RomImage

inductive Level where
  | debug
  | info
  | warning
  deriving DecidableEq, Repr

/-- The rank of a level: a note is shown if its rank reaches the threshold. -/
def Level.rank : Level → Nat
  | debug => 10
  | info => 20
  | warning => 30

inductive Origin where
  | transfer
  | rule
  | patching
  | build
  deriving DecidableEq, Repr

inductive Note where
  | copied (count : Int) (source dest : String)
  | filled (count : Int) (value : UInt8) (dest : String)
  | building (kind : Kind) (imageSize ceiling container : Int)
  /-- The destination cannot be moved, so the container is made in memory first. -/
  | staging
  | patched (count offset : Nat)
  | closeFailed (path reason : String)
  | removed (path : String)
  | removalFailed (path reason : String)
  | built (kind : Kind) (path : String) (container free : Int)
  deriving DecidableEq, Repr

namespace Note

def level : Note → Level
  | copied .. | filled .. | building .. | staging | patched .. | removed _ => .debug
  | built .. => .info
  | closeFailed .. | removalFailed .. => .warning

def origin : Note → Origin
  | copied .. | filled .. => .transfer
  | building .. => .rule
  | staging | patched .. => .patching
  | closeFailed .. | removed _ | removalFailed .. | built .. => .build

def text : Note → String
  | copied count source dest => s!"Copied {count} bytes from {source} to {dest}"
  | filled count value dest =>
    s!"Filled {count} bytes of 0x{String.ofList (Text.paddedHex 2 value.toNat)} into {dest}"
  | building kind imageSize ceiling container =>
    s!"Building {kind.name} container: {imageSize} byte image, " ++
      s!"ceiling {ceiling}, container {container}"
  | staging => "Destination is not seekable; staging PAK/3 image in memory"
  | patched count offset => s!"Patched {count} bytes at {Text.hexadecimal offset}"
  | closeFailed path reason => s!"{path}: close failed: {reason}"
  | removed path => s!"Removed partial output {path}"
  | removalFailed path reason => s!"{path}: could not remove partial output: {reason}"
  | built kind path container free =>
    s!"Built {kind.name} container {path} ({container} bytes, {free} bytes free)"

/-- The numbers that the wording gives in decimal. -/
def numbers : Note → List Int
  | copied count _ _ => [count]
  | filled count _ _ => [count]
  | building _ imageSize ceiling container => [imageSize, ceiling, container]
  | patched count _ => [count]
  | built _ _ container free => [container, free]
  | staging | closeFailed _ _ | removed _ | removalFailed _ _ => []

def isWritable (note : Note) : Bool :=
  note.numbers.all fun number => (Text.decimal? number).isSome

/-- Keeps a note in front of the earlier ones; one that cannot be worded is refused. -/
def keep (note : Note) (notes : List Note) : Except Fault Unit × List Note :=
  if note.isWritable then (.ok (), note :: notes)
  else (.error (.wrongValue Misuse.unprintableText), notes)

end Note

end RomImage
