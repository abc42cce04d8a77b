import RomImage.Text.Quoted

/-!
# JSON

Values and their text.  Members keep their order.  In a string only the two characters that have to
be escaped and the controls below the space are; everything else stands for itself.
-/

namespace RomImage

/-- A JSON value with integers for numbers. -/
inductive Json where
  | null
  | boolean (value : Bool)
  | number (value : Int)
  | text (value : String)
  | array (items : List Json)
  | object (members : List (String × Json))

namespace Json

inductive Style where
  | compact
  /-- One item or member on a line, indented by so many spaces for each level. -/
  | indented (width : Nat)
  deriving DecidableEq, Repr

def escapeChar (c : Char) : List Char :=
  if c = '"' then ['\\', '"']
  else if c = '\\' then ['\\', '\\']
  else if c = '\x08' then ['\\', 'b']
  else if c = '\t' then ['\\', 't']
  else if c = '\n' then ['\\', 'n']
  else if c = '\x0c' then ['\\', 'f']
  else if c = '\r' then ['\\', 'r']
  else if c.toNat < 0x20 then '\\' :: 'u' :: Text.paddedHex 4 c.toNat
  else [c]

def writeString (text : String) : List Char :=
  '"' :: text.toList.flatMap escapeChar ++ ['"']

def lineBreak : Style → Nat → List Char
  | .compact, _ => []
  | .indented width, depth => '\n' :: List.replicate (width * depth) ' '

def colon : Style → List Char
  | .compact => [':']
  | .indented _ => [':', ' ']

mutual

def write (style : Style) (depth : Nat) : Json → List Char
  | null => "null".toList
  | boolean value => (if value then "true" else "false").toList
  | number value => (toString value).toList
  | text value => writeString value
  | array [] => ['[', ']']
  | array (item :: items) =>
    '[' :: (lineBreak style (depth + 1) ++ write style (depth + 1) item ++
      writeItems style (depth + 1) items ++ lineBreak style depth ++ [']'])
  | object [] => ['\x7b', '\x7d']
  | object (member :: members) =>
    '\x7b' :: (lineBreak style (depth + 1) ++ writeMember style (depth + 1) member ++
      writeMembers style (depth + 1) members ++ lineBreak style depth ++ ['\x7d'])

def writeItems (style : Style) (depth : Nat) : List Json → List Char
  | [] => []
  | item :: items =>
    ',' :: (lineBreak style depth ++ write style depth item ++ writeItems style depth items)

def writeMember (style : Style) (depth : Nat) : String × Json → List Char
  | (name, value) => writeString name ++ colon style ++ write style depth value

def writeMembers (style : Style) (depth : Nat) : List (String × Json) → List Char
  | [] => []
  | member :: members =>
    ',' :: (lineBreak style depth ++ writeMember style depth member ++
      writeMembers style depth members)

end

def render (style : Style) (value : Json) : String :=
  String.ofList (value.write style 0)

end Json

end RomImage
