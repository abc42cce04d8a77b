/-!
# Paths

A path is a text of names between slashes.  Empty names count for nothing, so that only the names
and a trailing slash matter; `normalise` gives the plain text of a path.  All paths are followed
from the top of a tree: a slash in front is kept in the text, and leads nowhere else.
-/

namespace RomImage

namespace Path

def pieces : List Char → List (List Char)
  | [] => [[]]
  | c :: rest =>
    if c = '/' then [] :: pieces rest
    else
      match pieces rest with
      | [] => [[c]]
      | piece :: others => (c :: piece) :: others

def names (path : String) : List String :=
  ((pieces path.toList).filter (!·.isEmpty)).map String.ofList

def hasTrailingSlash (path : String) : Bool :=
  path.toList.getLast? = some '/'

/-- The slashes in front of a plain path: exactly two stay two, any other number becomes one. -/
def root (path : String) : String :=
  match (path.toList.takeWhile (· = '/')).length with
  | 0 => ""
  | 2 => "//"
  | _ => "/"

/--
The plain text of a path: names are separated by one slash, names of one dot are dropped, and names
of two dots stay.
-/
def normalise (path : String) : String :=
  let plain := root path ++ "/".intercalate ((names path).filter (· ≠ "."))
  if plain.isEmpty then "." else plain

def pathLimit : Nat := 4095

def nameLimit : Nat := 255

end Path

end RomImage
