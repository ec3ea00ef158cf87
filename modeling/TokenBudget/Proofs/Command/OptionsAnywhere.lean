import TokenBudget.Command.Run
import TokenBudget.Files.Tree

namespace TokenBudget.Command

/-!
# Options anywhere on the command line

A command line is a list of words with options spliced in, each option with its
value right after it: `Spliced`.  Reading accepts exactly such lines, where no word
is spelled like an option, `Arguments.read_eq_ok_iff`, and what is read depends on the
words in their order and on the options alone.  So options that are each given once
may stand anywhere, `options_anywhere`: the run is the same as with all of them first.
-/

/-- How options are spelled. -/
def optionNames : List String :=
  ["--json", "--config", "--plays", "--at"]

/-- An option that is given, with its value if it takes one. -/
inductive GivenOption where
  | settingsFile (path : String)
  | playLog (path : String)
  | instant (text : String)
  | asJson
  deriving Repr, DecidableEq

namespace GivenOption

/-- How the option is spelled. -/
def name : GivenOption → String
  | .settingsFile _ => "--config"
  | .playLog _ => "--plays"
  | .instant _ => "--at"
  | .asJson => "--json"

/-- The arguments that give the option. -/
def spelled : GivenOption → List String
  | .settingsFile path => ["--config", path]
  | .playLog path => ["--plays", path]
  | .instant text => ["--at", text]
  | .asJson => ["--json"]

end GivenOption

/-- A line of some words with some options spliced in, both in their order. -/
inductive Spliced : List GivenOption → List String → List String → Prop
  | nothing : Spliced [] [] []
  | word
      (word : String)
      {options : List GivenOption}
      {words line : List String}
      (later : Spliced options words line) :
      Spliced options (word :: words) (word :: line)
  | option
      (option : GivenOption)
      {options : List GivenOption}
      {words line : List String}
      (later : Spliced options words line) :
      Spliced (option :: options) words (option.spelled ++ line)

/-- Options may all stand before the words. -/
theorem spliced_optionsFirst
    (options : List GivenOption)
    (words : List String) :
    Spliced options words (options.flatMap GivenOption.spelled ++ words) := by
  induction options with
  | nil =>
      induction words with
      | nil => exact .nothing
      | cons word later inductionHypothesis => exact .word word inductionHypothesis
  | cons option later inductionHypothesis =>
      rw [List.flatMap_cons, List.append_assoc]
      exact .option option inductionHypothesis

namespace Arguments

/-- One more option is given. -/
def give (read : Arguments) : GivenOption → Arguments
  | .settingsFile path => { read with settingsFile := some path }
  | .playLog path => { read with playLog := some path }
  | .instant text => { read with instant := some text }
  | .asJson => { read with asJson := true }

/-- More options and words are given. -/
def told
    (read : Arguments)
    (options : List GivenOption)
    (words : List String) :
    Arguments :=
  options.foldl give { read with words := read.words ++ words }

/-- The option was given, with this value if it takes one. -/
def Has (read : Arguments) : GivenOption → Prop
  | .settingsFile path => read.settingsFile = some path
  | .playLog path => read.playLog = some path
  | .instant text => read.instant = some text
  | .asJson => read.asJson = true

/-!
## What is read
-/

theorem told_option
    (read : Arguments)
    (option : GivenOption)
    (options : List GivenOption)
    (words : List String) :
    read.told (option :: options) words = (read.give option).told options words := by
  cases option <;> rfl

theorem told_word
    (read : Arguments)
    (word : String)
    (options : List GivenOption)
    (words : List String) :
    read.told options (word :: words) =
      { read with words := read.words ++ [word] }.told options words := by
  simp [told]

/-- An option is read with its value, whatever that looks like. -/
theorem readAfter_option
    (read : Arguments)
    (option : GivenOption)
    (later : List String) :
    readAfter read (option.spelled ++ later) = readAfter (read.give option) later := by
  cases option <;> simp [GivenOption.spelled, readAfter, give]

/-- A word that is no option is kept among the words. -/
theorem readAfter_word
    {word : String}
    (plain : word ∉ optionNames)
    (read : Arguments)
    (later : List String) :
    readAfter read (word :: later) =
      readAfter { read with words := read.words ++ [word] } later := by
  simp only [optionNames, List.mem_cons, List.not_mem_nil, or_false, not_or] at plain
  obtain ⟨notJson, notConfig, notPlays, notAt⟩ := plain
  rw [readAfter.eq_def]
  split <;> simp_all

/-- Words with options spliced in are read, wherever the options stand. -/
theorem readAfter_spliced
    {options : List GivenOption}
    {words line : List String}
    (plain : ∀ word ∈ words, word ∉ optionNames)
    (spliced : Spliced options words line)
    (read : Arguments) :
    readAfter read line = .ok (read.told options words) := by
  induction spliced generalizing read with
  | nothing =>
      simp [readAfter, told]
  | word word later inductionHypothesis =>
      rw [List.forall_mem_cons] at plain
      rw [readAfter_word plain.1, told_word]
      exact inductionHypothesis plain.2 _
  | option option later inductionHypothesis =>
      rw [readAfter_option, told_option]
      exact inductionHypothesis plain _

/-- An option before a line that was read is one option more. -/
theorem exists_spliced_option
    {read result : Arguments}
    {line : List String}
    (option : GivenOption)
    (later :
      ∃ options words,
        (∀ word ∈ words, word ∉ optionNames) ∧
          Spliced options words line ∧
          result = (read.give option).told options words) :
    ∃ options words,
      (∀ word ∈ words, word ∉ optionNames) ∧
        Spliced options words (option.spelled ++ line) ∧
        result = read.told options words := by
  obtain ⟨options, words, plain, spliced, rfl⟩ := later
  exact ⟨option :: options, words, plain, .option option spliced, (told_option _ _ _ _).symm⟩

/-- Nothing else is read than words with options spliced in. -/
theorem exists_spliced_of_readAfter
    {read result : Arguments}
    {line : List String}
    (reads : readAfter read line = .ok result) :
    ∃ options words,
      (∀ word ∈ words, word ∉ optionNames) ∧
        Spliced options words line ∧
        result = read.told options words := by
  -- The cases are those of reading, which takes the value together with its option.
  fun_induction readAfter read line with
  | case1 read =>
      cases reads
      exact ⟨[], [], by simp, .nothing, by simp [told]⟩
  | case2 read later inductionHypothesis =>
      exact exists_spliced_option .asJson (inductionHypothesis reads)
  | case3 read path later inductionHypothesis =>
      exact exists_spliced_option (.settingsFile path) (inductionHypothesis reads)
  | case4 read path later inductionHypothesis =>
      exact exists_spliced_option (.playLog path) (inductionHypothesis reads)
  | case5 read text later inductionHypothesis =>
      exact exists_spliced_option (.instant text) (inductionHypothesis reads)
  | case6 read word later =>
      contradiction
  | case7 read word later notJson _ _ _ takesNoValue inductionHypothesis =>
      obtain ⟨options, words, plain, spliced, rfl⟩ := inductionHypothesis reads
      have plainWord : word ∉ optionNames := by
        simp only [optionNames, List.mem_cons, List.not_mem_nil, or_false]
        rintro (isJson | takesValue)
        · exact notJson isJson
        · exact takesNoValue takesValue
      exact ⟨options, word :: words, List.forall_mem_cons.mpr ⟨plainWord, plain⟩,
        .word word spliced, (told_word _ _ _ _).symm⟩

/-- Exactly those lines are read that are words with options spliced in. -/
theorem read_eq_ok_iff
    {line : List String}
    {result : Arguments} :
    read line = .ok result ↔
      ∃ options words,
        (∀ word ∈ words, word ∉ optionNames) ∧
          Spliced options words line ∧
          result = none.told options words := by
  constructor
  · exact exists_spliced_of_readAfter
  · rintro ⟨options, words, plain, spliced, rfl⟩
    exact readAfter_spliced plain spliced none

/-!
## What the arguments hold
-/

/-- Of an option given twice the last value counts, and other options are left alone. -/
theorem has_give_iff
    (read : Arguments)
    (given option : GivenOption) :
    (read.give given).Has option ↔
      given = option ∨ option.name ≠ given.name ∧ read.Has option := by
  cases given <;> cases option <;> simp [give, Has, GivenOption.name]

/-- Options that are each given once are all kept, and others stay as they were. -/
theorem has_foldl_give_iff
    {options : List GivenOption}
    (once : (options.map GivenOption.name).Nodup)
    (read : Arguments)
    (option : GivenOption) :
    (options.foldl give read).Has option ↔
      option ∈ options ∨ option.name ∉ options.map GivenOption.name ∧ read.Has option := by
  induction options generalizing read with
  | nil =>
      simp
  | cons given later inductionHypothesis =>
      rw [List.map_cons, List.nodup_cons] at once
      rw [List.foldl_cons, inductionHypothesis once.2, has_give_iff]
      by_cases same : given = option
      · simp [← same, once.1]
      · simp [same, Ne.symm same, and_assoc, and_left_comm]

theorem words_foldl_give
    (options : List GivenOption)
    (read : Arguments) :
    (options.foldl give read).words = read.words := by
  induction options generalizing read with
  | nil =>
      rfl
  | cons option later inductionHypothesis =>
      rw [List.foldl_cons, inductionHypothesis]
      cases option <;> rfl

theorem words_told
    (options : List GivenOption)
    (words : List String) :
    (none.told options words).words = words :=
  words_foldl_give options _

/-- The arguments have exactly the options that are given. -/
theorem has_told_iff
    {options : List GivenOption}
    (once : (options.map GivenOption.name).Nodup)
    (words : List String)
    (option : GivenOption) :
    (none.told options words).Has option ↔ option ∈ options := by
  rw [told, has_foldl_give_iff once]
  cases option <;> simp [Has, none]

/-- Arguments are the same that have the same words and options. -/
theorem eq_of_has_iff
    {left right : Arguments}
    (sameWords : left.words = right.words)
    (alike : ∀ option, left.Has option ↔ right.Has option) :
    left = right := by
  have sameSettings : left.settingsFile = right.settingsFile :=
    Option.ext fun path => alike (.settingsFile path)
  have sameLog : left.playLog = right.playLog :=
    Option.ext fun path => alike (.playLog path)
  have sameInstant : left.instant = right.instant :=
    Option.ext fun text => alike (.instant text)
  have sameForm : left.asJson = right.asJson :=
    Bool.eq_iff_iff.mpr (alike .asJson)
  rw [mk.injEq]
  exact ⟨sameSettings, sameLog, sameInstant, sameForm, sameWords⟩

/-- The order of options that are each given once does not matter. -/
theorem told_of_perm
    {options order : List GivenOption}
    (once : (options.map GivenOption.name).Nodup)
    (inOrder : order.Perm options)
    (words : List String) :
    none.told order words = none.told options words := by
  have onceInOrder : (order.map GivenOption.name).Nodup :=
    (inOrder.map GivenOption.name).nodup_iff.mpr once
  refine eq_of_has_iff ?_ fun option => ?_
  · rw [words_told, words_told]
  · rw [has_told_iff onceInOrder, has_told_iff once, inOrder.mem_iff]

end Arguments

/-!
## Options anywhere
-/

/--
Options that are each given once may be spliced in any order anywhere among words that
are not spelled like options.  The line is read as it is with all options first, to the
words in their order and exactly these options.  So the run is the same: it puts out the
same texts, ends with the same status, and does the same to the files.
-/
theorem options_anywhere
    {options order : List GivenOption}
    {words line : List String}
    (plain : ∀ word ∈ words, word ∉ optionNames)
    (once : (options.map GivenOption.name).Nodup)
    (inOrder : order.Perm options)
    (spliced : Spliced order words line) :
    ∃ read : Arguments,
      Arguments.read line = .ok read ∧
        Arguments.read (options.flatMap GivenOption.spelled ++ words) = .ok read ∧
        read.words = words ∧
        (∀ option, read.Has option ↔ option ∈ options) ∧
        ∀ {Action : Type → Type} [Monad Action] [FileAccess Action]
          (surroundings : Surroundings),
          (run surroundings line : Action Outcome) =
            run surroundings (options.flatMap GivenOption.spelled ++ words) := by
  have reads : Arguments.read line = .ok (Arguments.none.told options words) :=
    Arguments.read_eq_ok_iff.mpr
      ⟨order, words, plain, spliced, (Arguments.told_of_perm once inOrder words).symm⟩
  have readsFirst :
      Arguments.read (options.flatMap GivenOption.spelled ++ words) =
        .ok (Arguments.none.told options words) :=
    Arguments.read_eq_ok_iff.mpr
      ⟨options, words, plain, spliced_optionsFirst options words, rfl⟩
  refine ⟨_, reads, readsFirst, Arguments.words_told options words,
    Arguments.has_told_iff once words, ?_⟩
  intro Action _ _ surroundings
  rw [run, run, reads, readsFirst]

/-- A line with options among the words, and values that are spelled like options. -/
def scatteredLine : List String :=
  ["--json", "play", "--at", "--json", "ann", "sum", "--config", "--at", "first", "--plays", "log"]

/-- The same options and words with the options first, and in another order. -/
def orderedLine : List String :=
  ["--config", "--at", "--plays", "log", "--at", "--json", "--json", "play", "ann", "sum", "first"]

/-- Values that are spelled like options stay values wherever their options stand. -/
theorem options_anywhere_namesAsValues :
    Spliced [.asJson, .instant "--json", .settingsFile "--at", .playLog "log"]
        ["play", "ann", "sum", "first"] scatteredLine ∧
      ∃ read : Arguments,
        Arguments.read scatteredLine = .ok read ∧
          Arguments.read orderedLine = .ok read ∧
          read.words = ["play", "ann", "sum", "first"] ∧
          read.settingsFile = some "--at" ∧
          read.instant = some "--json" ∧
          ∀ surroundings tree,
            (run surroundings scatteredLine : FileTree.Session Outcome) tree =
              (run surroundings orderedLine : FileTree.Session Outcome) tree := by
  have spliced :
      Spliced [.asJson, .instant "--json", .settingsFile "--at", .playLog "log"]
        ["play", "ann", "sum", "first"] scatteredLine :=
    .option .asJson <| .word "play" <| .option (.instant "--json") <| .word "ann" <|
      .word "sum" <| .option (.settingsFile "--at") <| .word "first" <|
        .option (.playLog "log") .nothing
  have once :
      (([.settingsFile "--at", .playLog "log", .instant "--json", .asJson] :
        List GivenOption).map GivenOption.name).Nodup := by
    decide
  obtain ⟨read, reads, readsOrdered, words, has, runs⟩ :=
    options_anywhere (by decide) once (by decide) spliced
  exact ⟨spliced, read, reads, readsOrdered, words,
    (has (.settingsFile "--at")).mpr (by decide), (has (.instant "--json")).mpr (by decide),
    fun surroundings tree => congrFun (runs surroundings) tree⟩

end TokenBudget.Command
