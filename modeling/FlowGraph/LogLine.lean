import FlowGraph.Json.Decode

/-! # Log lines

    What the library reports to its host beside its results.  A level is also a
    filter: `off` lets nothing through. -/

namespace FlowGraph

/-- The level of a log line, or the least important level that is let through. -/
inductive LogLevel where
  | off
  | error
  | warn
  | info
  | debug
  | trace
  deriving DecidableEq, Inhabited, Repr

namespace LogLevel

/-- The name, in capitals. -/
def name : LogLevel → String
  | .off => "OFF"
  | .error => "ERROR"
  | .warn => "WARN"
  | .info => "INFO"
  | .debug => "DEBUG"
  | .trace => "TRACE"

/-- Read a name; the case of its ASCII letters does not matter. -/
def ofName? (s : String) : Option LogLevel :=
  match String.ofList (s.toList.map Char.toUpper) with
  | "OFF" => some .off
  | "ERROR" => some .error
  | "WARN" => some .warn
  | "INFO" => some .info
  | "DEBUG" => some .debug
  | "TRACE" => some .trace
  | _ => none

/-- Read a level from JSON. -/
def decode : Source → Except Fault LogLevel :=
  Source.choice ofName?

end LogLevel

/-- A line of the log. -/
structure LogLine where
  level : LogLevel
  text : String
  deriving DecidableEq, Inhabited, Repr

/-- The lines of a run, oldest first. -/
abbrev Log := Array LogLine

namespace Log

/-- One more line. -/
def add (log : Log) (level : LogLevel) (text : String) : Log :=
  Array.push log ⟨level, text⟩

end Log
end FlowGraph
