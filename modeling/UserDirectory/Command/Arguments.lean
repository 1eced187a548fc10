import UserDirectory.Config.Json

/-!
# The command line

A command line names a subcommand and gives options, which are written `--name value`,
`--name=value`, `-n value`, `-nvalue` or `-n=value`. Options of the program may stand before the
subcommand and behind it, those of a subcommand only behind it. No option may be given twice in one
place; of an option of the program that is given in both places the later counts. Behind `--`
nothing is an option.
-/

namespace UserDirectory

/-- **A subcommand** with its options. -/
inductive Subcommand where
  /-- Accepts the configuration, or says what is wrong with it. -/
  | check
  /-- Prints the request of a search. -/
  | query (model : String) (filter : Option String)
  /-- Prints the body of a record. -/
  | serialize (model : String) (data : String) (options : Option String)
  /-- Searches and prints the users. -/
  | users (model : String) (filter : Option String)
  deriving DecidableEq, Repr

/-- **A command line** that was understood. -/
structure CommandLine where
  /-- The file of the configuration. -/
  config : String
  /-- A format of log lines that takes the place of the configured one. -/
  logFormat : Option LogFormat
  command : Subcommand
  deriving DecidableEq, Repr

/-- **Why nothing is run.** -/
inductive Refusal where
  /-- Help was asked for. -/
  | help
  /-- The version was asked for. -/
  | version
  /-- The command line was not understood. -/
  | usage
  deriving DecidableEq, Repr

/-- An option: its name, the letter that stands for it, and the values that it takes. -/
structure OptionSpec where
  name : String
  letter : Option Char
  accepts : String → Bool := fun _ => true

/-- The options of a place with their values, latest first. -/
abbrev GivenOptions := List (String × String)

/-- The options of the program. -/
def globalOptions : List OptionSpec :=
  [{ name := "config", letter := some 'c', accepts := fun v => !v.isEmpty },
    { name := "log-format", letter := none, accepts := fun v => (LogFormat.ofName? v).isSome }]

/-- The options of a subcommand. -/
def subcommandOptions : String → Option (List OptionSpec)
  | "check" => some []
  | "query" | "users" =>
    some [{ name := "model", letter := some 'm' }, { name := "filter", letter := some 'f' }]
  | "serialize" =>
    some [{ name := "model", letter := some 'm' }, { name := "data", letter := some 'd' },
      { name := "options", letter := some 'o' }]
  | _ => none

/-- **A word of the command line.** -/
inductive Argument where
  /-- The mark behind which nothing is an option. -/
  | rest
  /-- A long option, with a value if one is attached. -/
  | long (name : String) (value : Option String)
  /-- A letter, with a value if one is attached. -/
  | short (letter : Char) (value : Option String)
  /-- Any other word. -/
  | word (text : String)
  deriving DecidableEq, Repr

/-- What kind of word a text is. -/
def Argument.ofText (text : String) : Argument :=
  match text.toList with
  | ['-', '-'] => .rest
  | '-' :: '-' :: cs =>
    let name := String.ofList (cs.takeWhile (· != '='))
    match cs.dropWhile (· != '=') with
    | [] => .long name none
    | _ :: value => .long name (some (String.ofList value))
  | ['-', c] => .short c none
  | '-' :: c :: '=' :: value => .short c (some (String.ofList value))
  | '-' :: c :: value => .short c (some (String.ofList value))
  | _ => .word text

/-- Adds an option with its value. -/
def GivenOptions.add (given : GivenOptions) (spec : OptionSpec) (value : String) :
    Except Refusal GivenOptions :=
  if (given.lookup spec.name).isSome || !spec.accepts value then .error .usage
  else .ok ((spec.name, value) :: given)

/-- What stands behind the options of a place. -/
inductive Ending where
  /-- Nothing. -/
  | finished
  /-- A word, and what follows it. -/
  | word (text : String) (rest : List String)

/-- **The options of a place**, up to the first word that is none. -/
def scanOptions (specs : List OptionSpec) (versioned : Bool) :
    GivenOptions → List String → Except Refusal (GivenOptions × Ending)
  | given, [] => .ok (given, .finished)
  | given, text :: rest =>
    match Argument.ofText text with
    | .rest => if rest.isEmpty then .ok (given, .finished) else .error .usage
    | .word text => .ok (given, .word text rest)
    | .long "help" none | .short 'h' _ => .error .help
    | .long "version" none | .short 'V' _ => .error (if versioned then .version else .usage)
    | .long name value => take (specs.find? (·.name == name)) value given rest
    | .short letter value => take (specs.find? (·.letter == some letter)) value given rest
where
  /-- The value of an option: the one attached, or the next word unless it looks like an option. -/
  take : Option OptionSpec → Option String → GivenOptions → List String →
      Except Refusal (GivenOptions × Ending)
    | none, _, _, _ => .error .usage
    | some spec, some value, given, rest => do
      scanOptions specs versioned (← given.add spec value) rest
    | some _, none, _, [] => .error .usage
    | some spec, none, given, value :: rest =>
      match Argument.ofText value with
      | .word value => do scanOptions specs versioned (← given.add spec value) rest
      | _ => .error .usage

/-- The subcommand of a name with the options given to it. -/
def Subcommand.ofOptions? (name : String) (given : GivenOptions) : Option Subcommand :=
  let model := (given.lookup "model").getD "User"
  match name with
  | "check" => some .check
  | "query" => some (.query model (given.lookup "filter"))
  | "users" => some (.users model (given.lookup "filter"))
  | "serialize" =>
    (given.lookup "data").map fun data => .serialize model data (given.lookup "options")
  | _ => none

/-- The file of the configuration unless one is named. -/
def defaultConfigFile : String := "auth0-directory.toml"

/-- What is said to a request for help about the words behind it. -/
def helpRefusal (words : List String) : Refusal :=
  match words with
  | [] => .help
  | [name] => if name == "help" || (subcommandOptions name).isSome then .help else .usage
  | _ => .usage

/-- **Reads a command line**, without the name of the program. -/
def CommandLine.ofArguments (arguments : List String) : Except Refusal CommandLine := do
  let (outer, ending) ← scanOptions globalOptions true [] arguments
  match ending with
  | .finished => .error .usage
  | .word "help" rest => .error (helpRefusal rest)
  | .word name rest =>
    match subcommandOptions name with
    | none => .error .usage
    | some specs =>
      let (inner, ending) ← scanOptions (specs ++ globalOptions) false [] rest
      match ending, Subcommand.ofOptions? name inner with
      | .finished, some command =>
        let global (option : String) : Option String :=
          (inner.lookup option).or (outer.lookup option)
        pure {
          config := (global "config").getD defaultConfigFile
          logFormat := (global "log-format").bind LogFormat.ofName?
          command }
      | _, _ => .error .usage

end UserDirectory
