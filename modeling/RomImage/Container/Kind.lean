/-!
# Container kinds

The kinds of container that the tool knows.  Their names double as the commands of the command line.
-/

namespace RomImage

inductive Kind where
  | pad
  | pak3
  | stc
  deriving DecidableEq, Repr

namespace Kind

def all : List Kind := [pad, pak3, stc]

def name : Kind → String
  | pad => "pad"
  | pak3 => "pak3"
  | stc => "stc"

def ofName? (name : String) : Option Kind :=
  all.find? (·.name = name)

@[simp] theorem ofName?_name (kind : Kind) : ofName? kind.name = some kind := by
  cases kind <;> decide

end Kind

end RomImage
