import UserDirectory.Config.Basic
import UserDirectory.Json.Printer
import UserDirectory.Text.Debug

/-!
# Log lines

An event has a level, a target, which says what part of the program it comes from, a message, and
named values. It is written as one line, in which values stand behind the message, or as a line of
JSON.
-/

namespace UserDirectory

/-- The name of a level in a log line. -/
def LogLevel.label : LogLevel → String
  | .trace => "TRACE"
  | .debug => "DEBUG"
  | .info => "INFO"
  | .warn => "WARN"
  | .error => "ERROR"

/-- A value of an event. -/
inductive LogValue where
  /-- A text, quoted in lines that are not JSON. -/
  | quoted (text : String)
  /-- A text that is never quoted in such lines. -/
  | plain (text : String)
  | number (n : Nat)
  deriving DecidableEq, Repr

/-- **An event.** -/
structure LogEvent where
  level : LogLevel
  target : String
  message : String
  values : List (String × LogValue) := []
  deriving DecidableEq, Repr

/-- The text of a value in a line that is not JSON. -/
def LogValue.text : LogValue → String
  | .quoted text => debugText text
  | .plain text => text
  | .number n => toString n

/-- The value in JSON. -/
def LogValue.toJson : LogValue → Json
  | .quoted text | .plain text => .str text
  | .number n => .ofNat n

namespace LogEvent

/-- The level, right-aligned in five columns. -/
def paddedLevel (e : LogEvent) : String :=
  String.ofList (List.replicate (5 - e.level.label.length) ' ') ++ e.level.label

/-- **The compact line**: level, target, message, and each value behind its name. -/
def compact (e : LogEvent) : String :=
  e.paddedLevel ++ " " ++ e.target ++ ": " ++
    " ".intercalate (e.message :: e.values.map fun (name, v) => name ++ "=" ++ v.text)

/-- The line for readers, with an empty line behind it. -/
def pretty (e : LogEvent) : String :=
  e.paddedLevel ++ " " ++ e.target ++ ": " ++
    ", ".intercalate (e.message :: e.values.map fun (name, v) => name ++ ": " ++ v.text) ++ "\n"

/-- **The line of JSON**, perhaps with the time; the message is the first of the values. -/
def json (e : LogEvent) (time : Option String) : String :=
  Json.text <| .obj <|
    (time.toList.map fun t => ("timestamp", Json.str t)) ++
    [("level", .str e.level.label),
      ("fields", .obj (("message", .str e.message) :: e.values.map fun (n, v) => (n, v.toJson))),
      ("target", .str e.target)]

/-- **The event in a format**, perhaps with the time. -/
def line (e : LogEvent) (format : LogFormat) (time : Option String) : String :=
  let stamped (text : String) : String :=
    match time with
    | some t => t ++ " " ++ text
    | none => text
  match format with
  | .compact => stamped e.compact ++ "\n"
  | .pretty => "  " ++ stamped e.pretty ++ "\n"
  | .json => e.json time ++ "\n"

end LogEvent

end UserDirectory
