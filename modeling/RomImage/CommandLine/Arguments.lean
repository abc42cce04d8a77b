import RomImage.CommandLine.Help
import RomImage.Text.DecimalDigit
import RomImage.Text.Quoted

/-!
# Command line arguments

A command line has options, a command, and what belongs to the command: options again and operands.
Each argument is first told apart by its form, as a word, a known flag or an unknown option; all
that follows a first `--` are words.  A second `--` can take the place of an operand, which then has
no text.  Long options may be shortened as long as one flag alone fits.

Flags act in the order in which they stand, so that a request for help is answered before anything
is said about what is missing or not known.  Missing operands are reported before arguments that are
not known.

Arguments are texts of Unicode characters; bytes that stand for no character are not considered.
-/

namespace RomImage

namespace CommandLine

inductive Flag where
  | help
  | version
  | json
  deriving DecidableEq, Repr

def Flag.spellings : Flag → List String
  | .help => ["-h", "--help"]
  | .version => ["--version"]
  | .json => ["--json"]

def Flag.display (flag : Flag) : String :=
  "/".intercalate flag.spellings

inductive Token where
  | word (text : String)
  | flag (flag : Flag) (short : Bool) (attached : Option String) (text : String)
  | unknown (text : String)
  deriving DecidableEq, Repr

def Token.text : Token → String
  | word text => text
  | flag _ _ _ text => text
  | unknown text => text

inductive Stop where
  | usage (detail : String)
  | shown (text : String)
  deriving DecidableEq, Repr

/-- An operand, which has no text if it held nothing but a separator. -/
abbrev Operand := Option String

def Operand.shown (operand : Operand) : String := operand.getD "[]"

inductive Target where
  | pad (size : Operand)
  | stc
  | pak3
  deriving DecidableEq, Repr

structure Invocation where
  target : Target
  source : Operand
  destination : Operand
  json : Bool
  deriving DecidableEq, Repr

def commands : List Kind := [.pad, .stc, .pak3]

def operands : Kind → List String
  | .pad => ["size", "source", "destination"]
  | .stc | .pak3 => ["source", "destination"]

def separator : String := "--"

def spelled (flags : List Flag) : List (Flag × String) :=
  flags.flatMap fun flag => flag.spellings.map fun spelling => (flag, spelling)

/-- Whether an argument looks like a negative number; a line break may stand behind it. -/
def looksNegative (text : List Char) : Bool :=
  let isDigit (c : Char) : Bool := (Text.decimalDigit? c).isSome
  match text with
  | '-' :: rest =>
    let number := if rest.getLast? = some '\n' then rest.dropLast else rest
    match number.dropWhile isDigit with
    | [] => !number.isEmpty
    | '.' :: fraction => !fraction.isEmpty && fraction.all isDigit
    | _ => false
  | _ => false

def candidates (flags : List Flag) (text : List Char) : List (Flag × String × Option String) :=
  match text with
  | '-' :: '-' :: _ =>
    let name := text.takeWhile (· ≠ '=')
    let attached := match text.dropWhile (· ≠ '=') with
      | [] => none
      | _ :: value => some (String.ofList value)
    (spelled flags).filterMap fun (flag, spelling) =>
      if name.isPrefixOf spelling.toList then some (flag, spelling, attached) else none
  | '-' :: letter :: attached =>
    (spelled flags).filterMap fun (flag, spelling) =>
      if spelling.toList = ['-', letter] then some (flag, spelling, some (String.ofList attached))
      else none
  | _ => []

def isShort (spelling : String) : Bool :=
  spelling.length = 2

def classify (flags : List Flag) (text : String) : Except Stop Token :=
  let chars := text.toList
  let exact (spelling : List Char) : Option (Flag × String) :=
    (spelled flags).find? fun entry => entry.2.toList = spelling
  if chars.head? ≠ some '-' then .ok (.word text)
  else
    match exact chars with
    | some (flag, spelling) => .ok (.flag flag (isShort spelling) none text)
    | none =>
      if chars.length = 1 then .ok (.word text)
      else
        match chars.dropWhile (· ≠ '='), exact (chars.takeWhile (· ≠ '=')) with
        | _ :: value, some (flag, spelling) =>
          .ok (.flag flag (isShort spelling) (some (String.ofList value)) text)
        | _, _ =>
          match candidates flags chars with
          | [(flag, spelling, attached)] => .ok (.flag flag (isShort spelling) attached text)
          | [] =>
            if looksNegative chars || chars.contains ' ' then .ok (.word text)
            else .ok (.unknown text)
          | several =>
            let matching := ", ".intercalate (several.map (·.2.1))
            .error (.usage s!"ambiguous option: {text} could match {matching}")

/--
The text that a flag must not have attached, if there is such.  A short flag may have further copies
of its letter attached.
-/
def excessText? (short : Bool) (attached : Option String) : Option String :=
  match attached with
  | none => none
  | some text =>
    let rest := text.toList.dropWhile (· = 'h')
    if short && !text.isEmpty then
      if rest.isEmpty then none else some (String.ofList rest)
    else some text

def checkAttached (flag : Flag) (short : Bool) (attached : Option String) : Except Stop Unit :=
  match excessText? short attached with
  | none => .ok ()
  | some text =>
    .error (.usage s!"argument {flag.display}: ignored explicit argument {Text.quoted text}")

def tokenize (flags : List Flag) (arguments : List String) :
    Except Stop (List Token × Option (List String)) :=
  ((arguments.takeWhile (· ≠ separator)).mapM (classify flags)).map fun tokens =>
    (tokens, (arguments.dropWhile (· ≠ separator)).tail?)

structure Reading where
  operands : List Operand
  json : Bool
  extras : Array String
  /-- Whether the last argument was read as an operand. -/
  attaching : Bool
  deriving DecidableEq, Repr

namespace Reading

def start : Reading := ⟨[], false, #[], false⟩

def word (slots : Nat) (reading : Reading) (operand : Operand) (text : String) : Reading :=
  if reading.operands.length < slots then
    { reading with operands := reading.operands ++ [operand], attaching := true }
  else { reading with extras := reading.extras.push text, attaching := false }

def token (kind : Kind) (reading : Reading) : Token → Except Stop Reading
  | .word text => .ok (reading.word (CommandLine.operands kind).length (some text) text)
  | .unknown text => .ok { reading with extras := reading.extras.push text, attaching := false }
  | .flag flag short attached _ => do
    checkAttached flag short attached
    match flag with
    | .json => .ok { reading with json := true, attaching := false }
    | .help => .error (.shown (commandHelp kind))
    | .version => .error (.shown versionText)

def plainWord (slots : Nat) (reading : Reading) (text : String) : Reading :=
  reading.word slots (if text = separator then none else some text) text

/--
Reads the words behind the separator.  The separator belongs to the operand before it, or to the
operand after it, or is left over.
-/
def behind (slots : Nat) (reading : Reading) (words : List String) : Reading :=
  if reading.attaching then words.foldl (plainWord slots) reading
  else
    match words with
    | first :: rest =>
      if reading.operands.length < slots then
        rest.foldl (plainWord slots) (reading.word slots (some first) first)
      else { reading with extras := reading.extras.push separator ++ words }
    | [] => { reading with extras := reading.extras.push separator }

end Reading

def missing (names : List String) : Stop :=
  .usage ("the following arguments are required: " ++ ", ".intercalate names)

def invocation (kind : Kind) (json : Bool) (operands : List Operand) : Invocation :=
  let operand (index : Nat) : Operand := operands.getD index none
  match kind with
  | .pad => ⟨.pad (operand 0), operand 1, operand 2, json⟩
  | .stc => ⟨.stc, operand 0, operand 1, json⟩
  | .pak3 => ⟨.pak3, operand 0, operand 1, json⟩

def readCommand (kind : Kind) (arguments : List String) (extras : Array String) :
    Except Stop Invocation := do
  let (tokens, rest) ← tokenize [.help, .json] arguments
  let names := operands kind
  let reading ← tokens.foldlM (Reading.token kind) Reading.start
  let reading := match rest with
    | none => reading
    | some words => reading.behind names.length words
  let unfilled := names.drop reading.operands.length
  if !unfilled.isEmpty then .error (missing unfilled)
  else
    let left := extras ++ reading.extras
    if !left.isEmpty then
      .error (.usage ("unrecognized arguments: " ++ " ".intercalate left.toList))
    else .ok (invocation kind reading.json reading.operands)

def invalidCommand (text : String) : Stop :=
  let choices := ", ".intercalate (commands.map fun kind => Text.quoted kind.name)
  .usage s!"argument <command>: invalid choice: {Text.quoted text} (choose from {choices})"

def readTokens (rest : Option (List String)) : List Token → Array String → Except Stop Invocation
  | [], _ =>
    match rest with
    | some (_ :: _) => .error (invalidCommand separator)
    | _ => .error (missing ["<command>"])
  | .unknown text :: tokens, extras => readTokens rest tokens (extras.push text)
  | .flag flag short attached _ :: _, _ => do
    checkAttached flag short attached
    match flag with
    | .version => .error (.shown versionText)
    | _ => .error (.shown programHelp)
  | .word text :: tokens, extras =>
    match commands.find? (·.name = text) with
    | none => .error (invalidCommand text)
    | some kind =>
      let behind := match rest with
        | none => []
        | some words => separator :: words
      readCommand kind (tokens.map Token.text ++ behind) extras

def readArguments (arguments : List String) : Except Stop Invocation := do
  let (tokens, rest) ← tokenize [.help, .version] arguments
  readTokens rest tokens #[]

end CommandLine

end RomImage
