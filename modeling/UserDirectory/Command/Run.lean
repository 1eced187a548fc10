import UserDirectory.Command.Arguments
import UserDirectory.Config.File
import UserDirectory.Connector.Events
import UserDirectory.Connector.Operations
import UserDirectory.Connector.Signing
import UserDirectory.Json.Printer
import UserDirectory.Log.Filter

/-!
# Running a command line

A run reads the configuration file, carries out the subcommand and leaves an exit code and what is
printed. Everything that it needs of its surroundings is in a `Host`: files, variables, the time,
and the way to the directory.
-/

namespace UserDirectory

/-- **The surroundings of a run.** -/
structure Host (m : Type → Type) where
  /-- The text of a file, if it can be read. -/
  fileText : String → m (Option String)
  /-- The value of a variable of the environment. -/
  variableText : String → m (Option String)
  /-- The way of requests to the directory. -/
  transport : Transport m
  /-- The time in nanoseconds of the epoch. -/
  clock : m Nat
  /-- A fresh name for a token. -/
  newTokenId : m String

/-- **What a run leaves.** -/
structure Outcome where
  code : Nat
  stdout : String := ""
  stderr : String := ""
  deriving DecidableEq, Repr

/-- What a subcommand has to say: events, and its output or the reason why there is none. -/
structure Report where
  events : List LogEvent := []
  result : Except String String

/-- The name of the variable that holds a filter of log lines. -/
def logVariable : String := "RUST_LOG"

/-! ## Readers of options -/

/-- A value of a structure in JSON text; none is the default. -/
def readOption {α : Type} (what : String) (read : Json → Option α) (default : α) :
    Option String → Except String α
  | none => .ok default
  | some text =>
    match ((Json.readRaw? text).map Json.orderedBelow).bind read with
    | some a => .ok a
    | none => .error ("Invalid " ++ what ++ ": it cannot be read")

/-- The bundle that an option gives. -/
def readBundle (filter : Option String) : Except String SearchBundle :=
  readOption "filter" (SearchBundle.ofJson? ·) {} filter

/-- The record that an option gives. -/
def readRecord (data : String) : Except String Record :=
  readOption "data" (fun v => v.ordered.record?) [] (some data)

/-- The settings of a configuration. -/
def readSettings (config : ConnectorConfig) : Except String ConnectorSettings :=
  (ConnectorSettings.ofConfig config).mapError fun e => "Invalid configuration: " ++ e.message

/-- The output of a value. -/
def printed (v : Json) : String := v.pretty ++ "\n"

/-! ## Subcommands -/

/-- The report of a failure without events. -/
def Report.failure (text : String) : Report := { result := .error text }

/-- The report of a computation without events. -/
def Report.ofResult (result : Except String String) : Report := { result }

/-- **Accepts a configuration.** -/
def reportCheck (config : ConnectorConfig) : Report :=
  match readSettings config with
  | .error e => .failure e
  | .ok _ =>
    { events := [config.acceptedEvent]
      result := .ok ("Configuration OK: " ++ config.domain ++ " (" ++ toString config.models.length
        ++ " model overrides)\n") }

/-- **Shows the request of a search.** -/
def reportQuery (config : ConnectorConfig) (model : String) (filter : Option String) : Report :=
  match (do pure (← readSettings config, ← readBundle filter)) with
  | .error e => .failure e
  | .ok (settings, bundle) =>
    { events := settings.searchEvents model bundle.condition
      result :=
        match settings.buildQuery model bundle with
        | .ok query => .ok (printed (.obj query.presentFields))
        | .error e => .error ("Invalid filter: " ++ e.message) }

/-- **Shows the body of a record.** -/
def reportSerialize (config : ConnectorConfig) (model data : String) (options : Option String) :
    Report :=
  .ofResult do
    let settings ← readSettings config
    let record ← readRecord data
    let options ← readOption "options" SerializeOptions.ofJson? {} options
    pure (printed (.obj (settings.serialize model record options)))

/-- **Searches.** -/
def reportUsers {m : Type → Type} [Monad m] (host : Host m) (config : ConnectorConfig)
    (model : String) (filter : Option String) : m Report :=
  match ConnectorSettings.ofConfig config with
  | .error e => pure (.failure ("Failed to create connector: " ++ e.message))
  | .ok settings =>
    match readBundle filter with
    | .error e => pure (.failure e)
    | .ok bundle => do
      let connector := Connector.signing settings host.transport host.clock host.newTokenId
      let events := settings.searchEvents model bundle.condition
      let (result, _) ← ((connector.all model bundle).run).run connector.noHandles
      pure <|
        match result with
        | .error e => { events, result := .error ("Search failed: " ++ e.message) }
        | .ok users =>
          { events := events ++ [foundEvent model users.length]
            result := .ok (printed (.arr (users.map .obj))) }

/-- Carries out a subcommand. -/
def report {m : Type → Type} [Monad m] (host : Host m) (config : ConnectorConfig) :
    Subcommand → m Report
  | .check => pure (reportCheck config)
  | .query model filter => pure (reportQuery config model filter)
  | .serialize model data options => pure (reportSerialize config model data options)
  | .users model filter => reportUsers host config model filter

/-! ## Runs -/

/-- The names of the variables that a text may ask for. -/
def placeholderNames : List Char → List String
  | [] => []
  | '$' :: '\x7b' :: rest =>
    ((placeholderName? rest).toList.map (·.1)) ++ placeholderNames rest
  | _ :: rest => placeholderNames rest

section
variable {m : Type → Type} [Monad m]

/-- The variables with these names. -/
def Host.environment (host : Host m) (names : List String) : m Environment := do
  let found ← names.mapM fun name => do
    pure ((← host.variableText name).toList.map (name, ·))
  pure (.ofTable (.ofList found.flatten))

/-- The configuration in a file. -/
def Host.loadConfig (host : Host m) (path : String) : m (ConfigResult ConnectorConfig) := do
  match ← host.fileText path with
  | none => pure (.error .unreadable)
  | some text =>
    let env ← host.environment (placeholderNames text.toList)
    pure (ConnectorConfig.ofFile env text)

/-- The log lines of events, one after another. -/
def logText (config : LoggingConfig) (filter : LogFilter) (time : Option String)
    (events : List LogEvent) : String :=
  String.join ((events.filter filter.allows).map (·.line config.format time))

/-- The outcome of a report. -/
def Report.outcome (r : Report) (log : String) : Outcome :=
  match r.result with
  | .ok output => { code := 0, stdout := log ++ output }
  | .error text => { code := 1, stdout := log, stderr := text ++ "\n" }

/-- The time of log lines, if they show it. -/
def Host.logTime (host : Host m) (config : LoggingConfig) : m (Option String) := do
  if !config.timestamps then pure none
  else pure ((Instant.ofEpochMillis? ((← host.clock) / 1000000 : Nat)).map (·.text))

/-- Carries out a command line that was understood. -/
def CommandLine.run (line : CommandLine) (host : Host m) : m Outcome := do
  match ← host.loadConfig line.config with
  | .error e =>
    pure {
      code := 1
      stderr := "Failed to load config " ++ line.config ++ ": " ++ e.message ++ "\n" }
  | .ok config =>
    let logging := { config.logging with format := line.logFormat.getD config.logging.format }
    let filter := LogFilter.ofConfig logging (← host.variableText logVariable)
    let r ← report host { config with logging } line.command
    pure (r.outcome (logText logging filter (← host.logTime logging) r.events))

end

/-- What is printed for a request for help. -/
def helpText : String :=
  "Usage: auth0-directory [OPTIONS] <COMMAND>\n\n" ++
  "Commands:\n" ++
  "  check      Validate the configuration file and exit\n" ++
  "  query      Print the search request a filter compiles to\n" ++
  "  serialize  Print the outbound directory record for a caller record\n" ++
  "  users      Search the directory and print the normalized records\n\n" ++
  "Options:\n" ++
  "  -c, --config <CONFIG>          Path to config file [default: " ++ defaultConfigFile ++ "]\n" ++
  "      --log-format <LOG_FORMAT>  Override the configured log format\n"

/-- What is printed for a request for the version. -/
def versionText : String := "auth0-directory 0.0.0-alpha.1\n"

/-- The outcome of a command line that is not run. -/
def Refusal.outcome : Refusal → Outcome
  | .help => { code := 0, stdout := helpText }
  | .version => { code := 0, stdout := versionText }
  | .usage => { code := 2, stderr := helpText }

/-- **Runs a command line**, without the name of the program. -/
def runCommand {m : Type → Type} [Monad m] (host : Host m) (arguments : List String) :
    m Outcome :=
  match CommandLine.ofArguments arguments with
  | .error refusal => pure refusal.outcome
  | .ok line => line.run host

end UserDirectory
