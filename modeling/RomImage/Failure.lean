import RomImage.Container.Kind
import RomImage.Fault
import RomImage.Text.Numeral
import RomImage.Text.Quoted

/-!
# Failures

A build ends with a failure for one of four reasons: the build itself failed (`BuildError`), it was
set up wrongly (`Misuse`), a fault came through that no step turns into a failure of its own, or a
record did not pass validation (`Issue`).

Each is a cause; the wording is in `BuildError.message`, `Misuse.message` and `Defect.message`.
-/

namespace RomImage

/-- A failure of the build itself, with what it names: normally the file involved. -/
inductive BuildError where
  | general (context detail : String)
  | invalidSize (text : String)
  | imageTooLarge (name : String) (size ceiling : Int)
  | shortRead (name detail : String)
  | shortWrite (name detail : String)
  | seekFailure (name detail : String)
  | openFailure (path detail : String)
  | closeFailure (path detail : String)
  | usage (detail : String)
  deriving DecidableEq, Repr

namespace BuildError

def excess (size ceiling : Int) : Int := size - ceiling

def context : BuildError → String
  | general context _ => context
  | invalidSize text => text
  | imageTooLarge name _ _ => name
  | shortRead name _ | shortWrite name _ | seekFailure name _ => name
  | openFailure path _ | closeFailure path _ => path
  | usage _ => "usage"

def detail : BuildError → String
  | general _ detail => detail
  | invalidSize _ => "invalid size."
  | imageTooLarge _ size ceiling => s!"{excess size ceiling} extra bytes"
  | shortRead _ detail | shortWrite _ detail | seekFailure _ detail => detail
  | openFailure _ detail | closeFailure _ detail => detail
  | usage detail => detail

def summary (error : BuildError) : String :=
  error.context ++ ": " ++ error.detail

def message : BuildError → String
  | imageTooLarge name size ceiling => s!"{name} is too big: {excess size ceiling} extra bytes"
  | error => error.summary

end BuildError

inductive Misuse where
  | negativeCount (count : Int)
  | fillOutOfRange (value : Int)
  | emptyScratch (size : Int)
  | unreadableSetting (text : String)
  | nonPositiveSetting (size : Int)
  | missingTarget (kind : Kind)
  | missingLead
  | missingPatch
  | overlongRead
  | longNumeral (digits : Nat)
  | unprintableNumber
  /-- A stream gave no position at its end, so that the size of the image is not known. -/
  | unknownSize
  | noProgress
  deriving DecidableEq, Repr

namespace Misuse

def unprintableText : String :=
  s!"Exceeds the limit ({Text.digitLimit} digits) for integer string conversion; " ++
    "use sys.set_int_max_str_digits() to increase the limit"

/-- A text that ends with a number, or the complaint that the number cannot be written. -/
def withNumber (text : String) (number : Int) : String :=
  match Text.decimal? number with
  | some digits => text ++ digits
  | none => unprintableText

def message : Misuse → String
  | negativeCount count => withNumber "count must be >= 0, got " count
  | fillOutOfRange value => withNumber "fill value must be a byte (0..255), got " value
  | emptyScratch size => withNumber "buffer size must be positive, got " size
  | unreadableSetting text => "MKROM_BUFFER_SIZE must be an integer, got " ++ Text.quoted text
  | nonPositiveSetting size => withNumber "MKROM_BUFFER_SIZE must be positive, got " size
  | missingTarget kind => s!"rule '{kind.name}' needs a target size"
  | missingLead => "'NoneType' object has no attribute 'fill'"
  | missingPatch => "'NoneType' object has no attribute 'offset'"
  | overlongRead => "memoryview assignment: lvalue and rvalue have different structures"
  | longNumeral digits =>
    s!"Exceeds the limit ({Text.digitLimit} digits) for integer string conversion: " ++
      s!"value has {digits} digits; use sys.set_int_max_str_digits() to increase the limit"
  | unprintableNumber => unprintableText
  | unknownSize => "'>' not supported between instances of 'NoneType' and 'int'"
  | noProgress => "the transfer makes no progress"

end Misuse

/-- What is wrong with a record as a whole, although each of its fields is right. -/
inductive Conflict where
  | limitAboveTarget (limit target : Nat)
  /-- A patch in a container of no fixed size. -/
  | patchWithoutTarget
  /-- A patch that ends behind the container. -/
  | patchPastEnd (patchEnd container : Nat)
  deriving DecidableEq, Repr

def Conflict.message : Conflict → String
  | limitAboveTarget limit target =>
    match Text.decimal? limit, Text.decimal? target with
    | some limit, some target => s!"max_input_size ({limit}) exceeds target_size ({target})"
    | _, _ => Misuse.unprintableText
  | patchWithoutTarget => "a patch needs a fixed target_size"
  | patchPastEnd patchEnd container =>
    s!"patch ends at {Text.hexadecimal patchEnd}, past the " ++
      s!"{Text.hexadecimal container}-byte container"

inductive Defect where
  | missing
  | notARecord (record : String)
  | unknownKind
  | notText
  | notBytes
  | noBytes
  | notAnInteger
  | unreadableInteger
  | overlongInteger
  | notFinite
  | fraction
  | tooSmall (least : Int)
  | tooLarge (greatest : Int)
  | frozen
  | conflict (cause : Conflict)
  deriving DecidableEq, Repr

namespace Defect

def code : Defect → String
  | missing => "missing"
  | notARecord _ => "model_type"
  | unknownKind => "enum"
  | notText => "string_type"
  | notBytes => "bytes_type"
  | noBytes => "bytes_too_short"
  | notAnInteger => "int_type"
  | unreadableInteger => "int_parsing"
  | overlongInteger => "int_parsing_size"
  | notFinite => "finite_number"
  | fraction => "int_from_float"
  | tooSmall _ => "greater_than_equal"
  | tooLarge _ => "less_than_equal"
  | frozen => "frozen_instance"
  | conflict _ => "value_error"

def message : Defect → String
  | missing => "Field required"
  | notARecord record => "Input should be a valid dictionary or instance of " ++ record
  | unknownKind => "Input should be 'pad', 'pak3' or 'stc'"
  | notText => "Input should be a valid string"
  | notBytes => "Input should be a valid bytes"
  | noBytes => "Data should have at least 1 byte"
  | notAnInteger => "Input should be a valid integer"
  | unreadableInteger => "Input should be a valid integer, unable to parse string as an integer"
  | overlongInteger => "Unable to parse input string as an integer, exceeded maximum size"
  | notFinite => "Input should be a finite number"
  | fraction => "Input should be a valid integer, got a number with a fractional part"
  | tooSmall least => s!"Input should be greater than or equal to {least}"
  | tooLarge greatest => s!"Input should be less than or equal to {greatest}"
  | frozen => "Instance is frozen"
  | conflict cause => "Value error, " ++ cause.message

end Defect

/-- A defect and the names of the fields that lead to it, from the outermost record on. -/
structure Issue where
  path : List String
  defect : Defect
  deriving DecidableEq, Repr

def Issue.within (field : String) (issue : Issue) : Issue :=
  { issue with path := field :: issue.path }

inductive Failure where
  | build (error : BuildError)
  | misuse (cause : Misuse)
  | fault (fault : Fault)
  | rejected (issues : List Issue)
  deriving DecidableEq, Repr

namespace Failure

def message : Failure → String
  | .build error => error.message
  | .misuse cause => cause.message
  | .fault cause => cause.text
  | .rejected issues =>
    "; ".intercalate <| issues.map fun issue =>
      ".".intercalate issue.path ++ ": " ++ issue.defect.message

/-- The failure of an image that is larger than the ceiling, if its excess can be written. -/
def imageTooLarge (name : String) (size ceiling : Int) : Failure :=
  match Text.decimal? (BuildError.excess size ceiling) with
  | some _ => build (.imageTooLarge name size ceiling)
  | none => misuse .unprintableNumber

end Failure

end RomImage
