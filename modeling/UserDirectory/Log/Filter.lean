import UserDirectory.Config.Json
import UserDirectory.Log.Event
import UserDirectory.Search.Order
import UserDirectory.Text.Alphanumeric
import UserDirectory.Text.Numeral

/-!
# What is logged

A filter is a list of directives with commas between them, such as `info,web=warn`. A directive
gives a verbosity to the targets that begin with its own, or to all of them. Of the directives for a
target the one with the longest target counts, and of two with the same target the later one.

A directive in brackets is about spans of time. There are none in this program, so that such a
directive reads, but never meets an event.
-/

namespace UserDirectory

/-- How verbose a level is: more verbose levels come later. -/
def LogLevel.verbosity : LogLevel → Nat
  | .error => 1
  | .warn => 2
  | .info => 3
  | .debug => 4
  | .trace => 5

/-- The verbosity that a word names, in either case, or that a digit gives. -/
def verbosity? (word : String) : Option Nat :=
  match word64? word with
  | some n => if n ≤ 5 then some n else none
  | none =>
    ["off", "error", "warn", "info", "debug", "trace"].findIdx? (· == lowerAscii word)

/-- **A directive.** -/
structure LogDirective where
  /-- What targets begin with; any, if there is none. -/
  target : Option String
  verbosity : Nat
  /-- Whether it is about spans. -/
  ofSpans : Bool := false
  deriving DecidableEq, Repr

namespace LogDirective

/-- The verbosity behind an equals sign; all of it if nothing is named. -/
def named? (word : List Char) : Option Nat :=
  if word.isEmpty then some 5 else verbosity? (String.ofList word)

/-- The verbosity behind the brackets. -/
def spanVerbosity? (cs : List Char) : Option Nat :=
  match cs.dropWhile (· != ']') with
  | [']'] => some 5
  | ']' :: '=' :: word => named? word
  | _ => none

/-- A target may begin with these characters. -/
def isTargetStart (c : Char) : Bool := c == '-' || c == ':' || c == '_' || isAlphanumeric c

/-- **Reads a directive**: a verbosity, a target, or a target and its verbosity. -/
def ofText? (text : String) : Option LogDirective :=
  let cs := text.toList
  let isMark (c : Char) : Bool := c == '=' || c == '['
  let target := String.ofList (cs.takeWhile (!isMark ·))
  match cs with
  | [] => none
  | '[' :: rest => (spanVerbosity? rest).map fun v => ⟨none, v, true⟩
  | c :: _ =>
    if !isTargetStart c then none
    else
      match cs.dropWhile (!isMark ·) with
      | [] =>
        match verbosity? text with
        | some v => some ⟨none, v, false⟩
        | none => some ⟨some text, 5, false⟩
      | '[' :: rest => (spanVerbosity? rest).map fun v => ⟨some target, v, true⟩
      | _ :: word => (named? word).map fun v => ⟨some target, v, false⟩

/-- The directive is for a target. -/
def covers (d : LogDirective) (target : String) : Bool :=
  !d.ofSpans && d.target.all fun t => t.toList.isPrefixOf target.toList

/-- How special a directive is. -/
def specificity (d : LogDirective) : Nat :=
  match d.target with
  | some t => t.utf8ByteSize + 1
  | none => 0

end LogDirective

/-- **A filter.** -/
abbrev LogFilter := List LogDirective

namespace LogFilter

/-- Reads a filter; empty directives do not count. -/
def ofText? (text : String) : Option LogFilter :=
  ((splitAtChar ',' text).filter (!·.isEmpty)).mapM LogDirective.ofText?

/-- The more special of two directives, and the second if neither is. -/
def prefer (best : Option LogDirective) (d : LogDirective) : Option LogDirective :=
  match best with
  | some b => if d.specificity < b.specificity then some b else some d
  | none => some d

/-- **The verbosity of a target.** A filter without directives lets errors through. -/
def verbosity (f : LogFilter) (target : String) : Nat :=
  if f.isEmpty then 1
  else
    match (f.filter (·.covers target)).foldl prefer none with
    | some d => d.verbosity
    | none => 0

/-- **Whether an event is logged.** -/
def allows (f : LogFilter) (e : LogEvent) : Bool := e.level.verbosity ≤ f.verbosity e.target

/-- The filter of a level alone. -/
def ofLevel (level : LogLevel) : LogFilter := [⟨none, level.verbosity, false⟩]

/-- **The filter of a configuration**, unless the environment has one. One that does not read gives
way to the configured level. -/
def ofConfig (c : LoggingConfig) (environment : Option String) : LogFilter :=
  match environment, c.filter with
  | some text, _ => (ofText? text).getD (ofLevel c.level)
  | none, some text => (ofText? (c.level.name ++ "," ++ text)).getD (ofLevel c.level)
  | none, none => ofLevel c.level

end LogFilter

end UserDirectory
