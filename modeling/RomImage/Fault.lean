/-!
# Faults

A fault is what a stream, a file, the machine or the user may do to a running build: the system
reports an error, a stream does not support a call, a value or its kind is wrong, the machine has no
room for a number or for bytes, something else breaks, or the user interrupts.  Which faults a step
turns into a failure of its own depends on the class of the fault.
-/

namespace RomImage

/-- What can come back from the outside instead of an answer. -/
inductive Fault where
  | system (code : Option Int) (text : String)
  /-- The stream does not support the call; this counts as a system error and as a wrong value. -/
  | unsupported (text : String)
  | wrongValue (text : String)
  | wrongKind (text : String)
  | tooLarge (text : String)
  | outOfMemory
  | breakdown (text : String)
  | interrupt
  deriving DecidableEq, Repr

namespace Fault

def isSystem : Fault → Bool
  | system _ _ | unsupported _ => true
  | _ => false

def isSystemOrValue : Fault → Bool
  | system _ _ | unsupported _ | wrongValue _ => true
  | _ => false

def isMissingFile : Fault → Bool
  | system (some 2) _ => true
  | _ => false

/-- The reason that a message gives: the system's text, or the number where the text is empty. -/
def reason : Fault → String
  | system (some code) text => if text.isEmpty then s!"[Errno {code}] " else text
  | system none text | unsupported text | wrongValue text | wrongKind text | tooLarge text
  | breakdown text => text
  | outOfMemory | interrupt => ""

def text : Fault → String
  | system (some code) text => s!"[Errno {code}] " ++ text
  | system none text | unsupported text | wrongValue text | wrongKind text | tooLarge text
  | breakdown text => text
  | outOfMemory | interrupt => ""

def missing : Fault := system (some 2) "No such file or directory"

def isADirectory : Fault := system (some 21) "Is a directory"

def notADirectory : Fault := system (some 20) "Not a directory"

def nameTooLong : Fault := system (some 36) "File name too long"

def invalidArgument : Fault := system (some 22) "Invalid argument"

def offsetTooLarge : Fault := wrongValue "cannot fit 'int' into an offset-sized integer"

def noPath : Fault := wrongKind "expected str, bytes or os.PathLike object, not list"

def noSizeText : Fault := wrongKind "expected string or bytes-like object, got 'list'"

def nulInPath : Fault := wrongValue "embedded null byte"

def closedStream : Fault := wrongValue "I/O operation on closed file."

def unorderedOffset : Fault :=
  wrongKind "'<' not supported between instances of 'NoneType' and 'int'"

def missingOffset : Fault := wrongKind "'NoneType' object cannot be interpreted as an integer"

/-- Sizes of bytes in memory, and positions there, are below this bound. -/
def sizeBound : Nat := Nat.pow 2 63

def positionTooLarge : Fault := tooLarge "Python int too large to convert to C ssize_t"

def negativeIndent : Fault := tooLarge "can't convert negative int to unsigned"

end Fault

end RomImage
