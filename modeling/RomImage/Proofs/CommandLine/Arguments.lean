import RomImage.CommandLine.Arguments

/-!
# What is read of arguments

An argument is told apart by its form and keeps its text, whichever form that is. So what an
invocation has as an operand is one of the arguments, or it has no text, which the first operand
always has (`readArguments_sound`). And a text that is shown instead of an invocation is one of the
helps or the version (`readArguments_shown`).
-/

namespace RomImage

namespace CommandLine

variable {flags : List Flag} {arguments words : List String} {kind : Kind}

theorem bind_eq_ok {α β : Type} {outcome : Except Stop α} {f : α → Except Stop β} {value : β}
    (hbind : outcome >>= f = .ok value) : ∃ first, outcome = .ok first ∧ f first = .ok value := by
  cases outcome with
  | error stop => exact absurd hbind (by simp [bind, Except.bind])
  | ok first => exact ⟨first, rfl, hbind⟩

theorem classify_text {text : String} {token : Token}
    (hclassify : classify flags text = .ok token) : token.text = text := by
  simp only [classify] at hclassify
  split at hclassify
  · exact Except.ok.inj hclassify ▸ rfl
  split at hclassify
  · exact Except.ok.inj hclassify ▸ rfl
  split at hclassify
  · exact Except.ok.inj hclassify ▸ rfl
  split at hclassify
  · exact Except.ok.inj hclassify ▸ rfl
  split at hclassify
  · exact Except.ok.inj hclassify ▸ rfl
  · split at hclassify
    · exact Except.ok.inj hclassify ▸ rfl
    · exact Except.ok.inj hclassify ▸ rfl
  · exact absurd hclassify (by simp)

theorem mapM_classify_text {tokens : List Token}
    (hclassify : arguments.mapM (classify flags) = .ok tokens) :
    tokens.map Token.text = arguments := by
  induction arguments generalizing tokens with
  | nil =>
      obtain rfl := Except.ok.inj hclassify
      rfl
  | cons text rest ih =>
      rw [List.mapM_cons] at hclassify
      obtain ⟨token, hfirst, hclassify⟩ := bind_eq_ok hclassify
      obtain ⟨tokens', hrest, hclassify⟩ := bind_eq_ok hclassify
      obtain rfl := Except.ok.inj hclassify
      rw [List.map_cons, classify_text hfirst, ih hrest]

/-- What is told apart are the arguments before a first separator, and the others are left as they
are. -/
theorem tokenize_text {tokens : List Token} {rest : Option (List String)}
    (htokenize : tokenize flags arguments = .ok (tokens, rest)) :
    (∀ token ∈ tokens, token.text ∈ arguments) ∧
      ∀ words ∈ rest, separator ∈ arguments ∧ ∀ word ∈ words, word ∈ arguments := by
  rw [tokenize] at htokenize
  cases hclassify : (arguments.takeWhile (· ≠ separator)).mapM (classify flags) with
  | error stop =>
      rw [hclassify] at htokenize
      exact absurd htokenize (by simp [Except.map])
  | ok tokens' =>
      rw [hclassify] at htokenize
      obtain ⟨rfl, rfl⟩ := Prod.mk.inj (Except.ok.inj htokenize)
      constructor
      · intro token htoken
        have htext : token.text ∈ tokens'.map Token.text := List.mem_map_of_mem htoken
        rw [mapM_classify_text hclassify] at htext
        exact (List.takeWhile_prefix _).subset htext
      · intro words hwords
        cases hdrop : arguments.dropWhile (· ≠ separator) with
        | nil =>
            rw [hdrop] at hwords
            exact absurd hwords (by simp)
        | cons first behind =>
            rw [hdrop] at hwords
            obtain rfl := Option.some.inj hwords
            have hsubset : first :: behind ⊆ arguments :=
              hdrop ▸ (List.dropWhile_suffix (· ≠ separator)).subset
            have hfirst : first = separator := by
              have hne : arguments.dropWhile (· ≠ separator) ≠ [] := hdrop ▸ List.cons_ne_nil _ _
              have hstop := List.head_dropWhile_not _ hne
              simp only [hdrop, List.head_cons] at hstop
              simpa using hstop
            exact ⟨hfirst ▸ hsubset (List.mem_cons_self ..),
              fun word hword => hsubset (List.mem_cons_of_mem _ hword)⟩

/-- The operands that have a text are among some words, and the first operand has one. -/
structure Reading.Sound (words : List String) (reading : Reading) : Prop where
  texts : ∀ text, some text ∈ reading.operands → text ∈ words
  first : reading.operands.head? ≠ some none
  /-- A word can only be attached to an operand that is there. -/
  attached : reading.attaching = true → reading.operands ≠ []

namespace Reading

variable {reading after : Reading}

theorem sound_start (words : List String) : Reading.start.Sound words :=
  ⟨fun _ hoperand => absurd hoperand (by simp [start]), by simp [start], by simp [start]⟩

theorem Sound.word (hsound : reading.Sound words) (slots : Nat) {operand : Operand}
    (hoperand : ∀ text ∈ operand, text ∈ words) (hfirst : reading.operands = [] → operand ≠ none)
    (text : String) : (reading.word slots operand text).Sound words := by
  rw [Reading.word]
  split
  · refine ⟨fun other hother => ?_, ?_, fun _ => by simp⟩
    · obtain hold | hnew := List.mem_append.mp hother
      · exact hsound.texts other hold
      · exact hoperand other (List.mem_singleton.mp hnew).symm
    · cases hoperands : reading.operands with
      | nil => simpa using hfirst hoperands
      | cons first rest => simpa [hoperands] using hsound.first
  · exact ⟨hsound.texts, hsound.first, fun hattaching => absurd hattaching (by simp)⟩

theorem word_ne_nil (slots : Nat) (operand : Operand) (text : String)
    (hsome : reading.operands ≠ []) : (reading.word slots operand text).operands ≠ [] := by
  rw [Reading.word]
  split
  · simp
  · exact hsome

theorem Sound.token (hsound : reading.Sound words) {token : Token} (htoken : token.text ∈ words)
    (hread : reading.token kind token = .ok after) : after.Sound words := by
  cases token with
  | word text =>
      obtain rfl := Except.ok.inj hread
      refine hsound.word _ ?_ (fun _ => by simp) _
      rintro _ ⟨⟩
      exact htoken
  | unknown text =>
      obtain rfl := Except.ok.inj hread
      exact ⟨hsound.texts, hsound.first, fun hattaching => absurd hattaching (by simp)⟩
  | flag flag short attached text =>
      obtain ⟨-, -, hread⟩ := bind_eq_ok hread
      cases flag with
      | json =>
          obtain rfl := Except.ok.inj hread
          exact ⟨hsound.texts, hsound.first, fun hattaching => absurd hattaching (by simp)⟩
      | help | version => exact absurd hread (by simp)

theorem Sound.tokens {tokens : List Token} (hsound : reading.Sound words)
    (htokens : ∀ token ∈ tokens, token.text ∈ words)
    (hread : tokens.foldlM (Reading.token kind) reading = .ok after) : after.Sound words := by
  induction tokens generalizing reading with
  | nil =>
      obtain rfl := Except.ok.inj hread
      exact hsound
  | cons token rest ih =>
      rw [List.foldlM_cons] at hread
      obtain ⟨between, hfirst, hread⟩ := bind_eq_ok hread
      exact ih (hsound.token (htokens token (List.mem_cons_self ..)) hfirst)
        (fun token htoken => htokens token (List.mem_cons_of_mem _ htoken)) hread

/-- A second separator is an operand without a text, but never the first one. -/
theorem Sound.plainWords {plain : List String} (hsound : reading.Sound words)
    (hsome : reading.operands ≠ []) (hplain : ∀ word ∈ plain, word ∈ words) (slots : Nat) :
    (plain.foldl (plainWord slots) reading).Sound words := by
  induction plain generalizing reading with
  | nil => exact hsound
  | cons word rest ih =>
      refine ih (hsound.word _ ?_ (absurd · hsome) _) (word_ne_nil _ _ _ hsome)
        fun other hother => hplain other (List.mem_cons_of_mem _ hother)
      intro text htext
      split at htext
      · exact absurd htext (by simp)
      · exact Option.some.inj htext ▸ hplain word (List.mem_cons_self ..)

theorem Sound.behind {plain : List String} (hsound : reading.Sound words)
    (hplain : ∀ word ∈ plain, word ∈ words) (slots : Nat) :
    (reading.behind slots plain).Sound words := by
  unfold Reading.behind
  split
  · rename_i hattaching
    exact hsound.plainWords (hsound.attached hattaching) hplain slots
  cases plain with
  | nil => exact ⟨hsound.texts, hsound.first, hsound.attached⟩
  | cons first rest =>
      dsimp only
      split
      · rename_i hroom
        refine Sound.plainWords (hsound.word _ ?_ (fun _ => by simp) _) ?_
          (fun word hword => hplain word (List.mem_cons_of_mem _ hword)) slots
        · rintro _ ⟨⟩
          exact hplain first (List.mem_cons_self ..)
        · rw [Reading.word, if_pos hroom]
          simp
      · exact ⟨hsound.texts, hsound.first, hsound.attached⟩

end Reading

structure Invocation.Sound (words : List String) (invocation : Invocation) : Prop where
  source : ∀ path ∈ invocation.source, path ∈ words
  destination : ∀ path ∈ invocation.destination, path ∈ words
  size : invocation.target ≠ .pad none

theorem Reading.Sound.invocation {reading : Reading} (hsound : reading.Sound words)
    (hfilled : (CommandLine.operands kind).length ≤ reading.operands.length) (json : Bool) :
    (CommandLine.invocation kind json reading.operands).Sound words := by
  have hoperand (index : Nat) : ∀ text ∈ reading.operands.getD index none, text ∈ words := by
    intro text htext
    rw [List.getD_eq_getElem?_getD] at htext
    cases hfound : reading.operands[index]? with
    | none =>
        rw [hfound] at htext
        exact absurd htext (by simp)
    | some operand =>
        rw [hfound, Option.getD_some] at htext
        exact hsound.texts text (htext ▸ List.mem_of_getElem? hfound)
  cases kind with
  | pad =>
      refine ⟨hoperand 1, hoperand 2, ?_⟩
      have hfirst := hsound.first
      cases hoperands : reading.operands with
      | nil =>
          rw [hoperands] at hfilled
          exact absurd hfilled (by decide)
      | cons first rest =>
          rw [hoperands] at hfirst
          simpa [CommandLine.invocation] using hfirst
  | stc | pak3 => exact ⟨hoperand 0, hoperand 1, by simp [CommandLine.invocation]⟩

theorem readCommand_sound {extras : Array String} {read : Invocation}
    (hread : readCommand kind arguments extras = .ok read) : read.Sound arguments := by
  obtain ⟨⟨tokens, rest⟩, htokenize, hread⟩ := bind_eq_ok hread
  obtain ⟨reading, hreading, hread⟩ := bind_eq_ok hread
  obtain ⟨htokens, hrest⟩ := tokenize_text htokenize
  have hsound := (Reading.sound_start arguments).tokens htokens hreading
  have hfilled {settled : Reading}
      (hunfilled : ¬ (!((operands kind).drop settled.operands.length).isEmpty) = true) :
      (operands kind).length ≤ settled.operands.length := by
    simpa [List.drop_eq_nil_iff] using hunfilled
  cases rest with
  | none =>
      dsimp only at hread
      split at hread
      · exact absurd hread (by simp)
      rename_i hunfilled
      split at hread
      · exact absurd hread (by simp)
      exact Except.ok.inj hread ▸ hsound.invocation (hfilled hunfilled) _
  | some plain =>
      dsimp only at hread
      split at hread
      · exact absurd hread (by simp)
      rename_i hunfilled
      split at hread
      · exact absurd hread (by simp)
      exact Except.ok.inj hread ▸
        (hsound.behind (hrest plain rfl).2 _).invocation (hfilled hunfilled) _

theorem Invocation.Sound.mono {read : Invocation} (hsound : read.Sound arguments)
    (hsubset : ∀ word ∈ arguments, word ∈ words) : read.Sound words :=
  ⟨fun path hpath => hsubset path (hsound.source path hpath),
    fun path hpath => hsubset path (hsound.destination path hpath), hsound.size⟩

theorem readTokens_sound {tokens : List Token} {rest : Option (List String)}
    {extras : Array String} {read : Invocation}
    (hrest : ∀ plain ∈ rest, separator ∈ words ∧ ∀ word ∈ plain, word ∈ words)
    (htokens : ∀ token ∈ tokens, token.text ∈ words)
    (hread : readTokens rest tokens extras = .ok read) : read.Sound words := by
  induction tokens generalizing extras with
  | nil =>
      unfold readTokens at hread
      split at hread
      · exact absurd hread (by simp [invalidCommand])
      · exact absurd hread (by simp [missing])
  | cons token tokens ih =>
      have hothers : ∀ token ∈ tokens, token.text ∈ words :=
        fun token htoken => htokens token (List.mem_cons_of_mem _ htoken)
      cases token with
      | unknown text => exact ih hothers hread
      | flag flag short attached text =>
          obtain ⟨-, -, hread⟩ := bind_eq_ok hread
          cases flag with
          | version | help | json => exact absurd hread (by simp)
      | word text =>
          unfold readTokens at hread
          split at hread
          · exact absurd hread (by simp [invalidCommand])
          · refine (readCommand_sound hread).mono fun word hword => ?_
            obtain htold | hplain := List.mem_append.mp hword
            · obtain ⟨token, htoken, rfl⟩ := List.mem_map.mp htold
              exact hothers token htoken
            cases rest with
            | none => exact absurd hplain (by simp)
            | some plain =>
                obtain ⟨hseparator, hbehind⟩ := hrest plain rfl
                obtain rfl | hplain := List.mem_cons.mp hplain
                · exact hseparator
                · exact hbehind word hplain

/-- The paths of an invocation are arguments, and its size has a text. -/
theorem readArguments_sound {read : Invocation} (hread : readArguments arguments = .ok read) :
    read.Sound arguments := by
  obtain ⟨⟨tokens, rest⟩, htokenize, hread⟩ := bind_eq_ok hread
  obtain ⟨htokens, hrest⟩ := tokenize_text htokenize
  exact readTokens_sound hrest htokens hread

section Shown

variable {stop : Stop} {text : String}

theorem bind_eq_error {α β : Type} {outcome : Except Stop α} {f : α → Except Stop β}
    (hbind : outcome >>= f = .error stop) :
    outcome = .error stop ∨ ∃ first, outcome = .ok first ∧ f first = .error stop := by
  cases outcome with
  | error other => exact .inl (congrArg Except.error (Except.error.inj hbind))
  | ok first => exact .inr ⟨first, rfl, hbind⟩

def IsOnRequest (text : String) : Prop :=
  text = programHelp ∨ text = versionText ∨ ∃ kind, text = commandHelp kind

theorem classify_ne_shown (argument : String) : classify flags argument ≠ .error (.shown text) := by
  simp only [classify]
  split
  · simp
  split
  · simp
  split
  · simp
  split
  · simp
  split
  · simp
  · split <;> simp
  · simp

theorem tokenize_ne_shown : tokenize flags arguments ≠ .error (.shown text) := by
  have hmapM (words : List String) : words.mapM (classify flags) ≠ .error (.shown text) := by
    induction words with
    | nil => simp [pure, Except.pure]
    | cons word rest ih =>
        rw [List.mapM_cons]
        intro hshown
        obtain hfirst | ⟨token, -, hrest⟩ := bind_eq_error hshown
        · exact classify_ne_shown word hfirst
        obtain hrest | ⟨tokens, -, hdone⟩ := bind_eq_error hrest
        · exact ih hrest
        · exact absurd hdone (by simp [pure, Except.pure])
  intro hshown
  rw [tokenize] at hshown
  cases htokens : (arguments.takeWhile (· ≠ separator)).mapM (classify flags) with
  | ok tokens =>
      rw [htokens] at hshown
      exact absurd hshown (by simp [Except.map])
  | error other =>
      rw [htokens] at hshown
      exact hmapM _ (htokens.trans (congrArg Except.error (Except.error.inj hshown)))

theorem checkAttached_ne_shown (flag : Flag) (short : Bool) (attached : Option String) :
    checkAttached flag short attached ≠ .error (.shown text) := by
  rw [checkAttached]
  split <;> simp

theorem Reading.token_shown {reading : Reading} {token : Token}
    (hread : reading.token kind token = .error (.shown text)) : IsOnRequest text := by
  cases token with
  | word argument | unknown argument => exact absurd hread (by simp [Reading.token])
  | flag flag short attached argument =>
      obtain hattached | ⟨-, -, hread⟩ := bind_eq_error hread
      · exact absurd hattached (checkAttached_ne_shown _ _ _)
      cases flag with
      | json => exact absurd hread (by simp)
      | help => exact .inr (.inr ⟨kind, (Stop.shown.inj (Except.error.inj hread)).symm⟩)
      | version => exact .inr (.inl (Stop.shown.inj (Except.error.inj hread)).symm)

theorem readCommand_shown {extras : Array String}
    (hread : readCommand kind arguments extras = .error (.shown text)) : IsOnRequest text := by
  have htokens (tokens : List Token) (reading : Reading)
      (hread : tokens.foldlM (Reading.token kind) reading = .error (.shown text)) :
      IsOnRequest text := by
    induction tokens generalizing reading with
    | nil => exact absurd hread (by simp [pure, Except.pure])
    | cons token rest ih =>
        rw [List.foldlM_cons] at hread
        obtain hfirst | ⟨between, -, hrest⟩ := bind_eq_error hread
        · exact Reading.token_shown hfirst
        · exact ih between hrest
  obtain htokenize | ⟨⟨tokens, rest⟩, -, hread⟩ := bind_eq_error hread
  · exact absurd htokenize tokenize_ne_shown
  obtain hreading | ⟨reading, -, hread⟩ := bind_eq_error hread
  · exact htokens tokens _ hreading
  cases rest with
  | none | some plain =>
      dsimp only at hread
      split at hread
      · exact absurd hread (by simp [missing])
      split at hread
      · exact absurd hread (by simp)
      · exact absurd hread (by simp)

theorem readTokens_shown {tokens : List Token} {rest : Option (List String)}
    {extras : Array String} (hread : readTokens rest tokens extras = .error (.shown text)) :
    IsOnRequest text := by
  induction tokens generalizing extras with
  | nil =>
      unfold readTokens at hread
      split at hread
      · exact absurd hread (by simp [invalidCommand])
      · exact absurd hread (by simp [missing])
  | cons token tokens ih =>
      cases token with
      | unknown argument => exact ih hread
      | flag flag short attached argument =>
          obtain hattached | ⟨-, -, hread⟩ := bind_eq_error hread
          · exact absurd hattached (checkAttached_ne_shown _ _ _)
          cases flag with
          | version => exact .inr (.inl (Stop.shown.inj (Except.error.inj hread)).symm)
          | help | json => exact .inl (Stop.shown.inj (Except.error.inj hread)).symm
      | word argument =>
          unfold readTokens at hread
          split at hread
          · exact absurd hread (by simp [invalidCommand])
          · exact readCommand_shown hread

/-- What is shown instead of an invocation is a help, or the version. -/
theorem readArguments_shown (hread : readArguments arguments = .error (.shown text)) :
    IsOnRequest text := by
  obtain htokenize | ⟨⟨tokens, rest⟩, -, hread⟩ := bind_eq_error hread
  · exact absurd htokenize tokenize_ne_shown
  · exact readTokens_shown hread

end Shown

section Words

/-- Arguments of which none is the separator are told apart one by one. -/
theorem tokenize_of_classify {form : String → Token}
    (hwords : ∀ word ∈ words, word ≠ separator ∧ classify flags word = .ok (form word)) :
    tokenize flags words = .ok (words.map form, none) := by
  have hplain : ∀ word ∈ words, decide (word ≠ separator) = true :=
    fun word hword => decide_eq_true (hwords word hword).1
  have htake : (words ++ []).takeWhile (· ≠ separator) = words ++ [] :=
    List.takeWhile_append_of_pos hplain
  have hdrop : (words ++ []).dropWhile (· ≠ separator) = [] :=
    List.dropWhile_append_of_pos hplain
  rw [List.append_nil] at htake hdrop
  have hmapM (rest : List String)
      (hrest : ∀ word ∈ rest, classify flags word = .ok (form word)) :
      rest.mapM (classify flags) = .ok (rest.map form) := by
    induction rest with
    | nil => rfl
    | cons word rest ih =>
        have hothers := ih fun other hother => hrest other (List.mem_cons_of_mem _ hother)
        rw [List.mapM_cons, hrest word (List.mem_cons_self ..), hothers]
        rfl
  rw [tokenize, htake, hdrop, hmapM words fun word hword => (hwords word hword).2]
  rfl

/-- A text without a dash in front is a word. -/
theorem classify_word {word : String} (hword : word.toList.head? ≠ some '-') :
    classify flags word = .ok (.word word) := by
  simp only [classify]
  rw [if_pos hword]

theorem ne_separator_of_word {word : String} (hword : word.toList.head? ≠ some '-') :
    word ≠ separator := by
  rintro rfl
  exact hword (by decide)

/-- Arguments of which none looks like an option are words. -/
theorem tokenize_words (hwords : ∀ word ∈ words, word.toList.head? ≠ some '-') :
    tokenize flags words = .ok (words.map .word, none) :=
  tokenize_of_classify fun word hword =>
    ⟨ne_separator_of_word (hwords word hword), classify_word (hwords word hword)⟩

/-- Plain operands are read as they stand. -/
theorem readArguments_pad {size source dest : String}
    (hwords : ∀ word ∈ [size, source, dest], word.toList.head? ≠ some '-') :
    readArguments ["pad", size, source, dest]
      = .ok ⟨.pad (some size), some source, some dest, false⟩ := by
  have hall : ∀ word ∈ ["pad", size, source, dest], word.toList.head? ≠ some '-' := by
    intro word hword
    obtain rfl | hword := List.mem_cons.mp hword
    · decide
    · exact hwords word hword
  rw [readArguments, tokenize_words hall]
  change readCommand .pad [size, source, dest] #[] = _
  rw [readCommand, tokenize_words hwords]
  rfl

end Words

end CommandLine

end RomImage
