import FlowGraph.LogLine
import FlowGraph.Json.Printer
import FlowGraph.Text.Blank
import FlowGraph.Text.Quoted

/-! # Engine configuration

    The limits of a dispatch, which events it reports, and the log level.  The
    level may be overridden by the environment variable `CERES_LOG`. -/

namespace FlowGraph

/-- The configuration of an engine. -/
structure EngineConfig where
  logLevel : LogLevel := .info
  /-- How deep sub-executions and calls may nest. -/
  maxForwardDepth : Nat := 256
  /-- How many nodes a dispatch may execute. -/
  maxChainSteps : Option Nat := none
  /-- Whether the start and the completion of each node are reported. -/
  emitNodeEvents : Bool := true
  deriving DecidableEq, Inhabited, Repr

namespace EngineConfig

/-- The JSON form; an absent limit is not written. -/
def toJson (c : EngineConfig) : Json :=
  .obj ([("logLevel", .str c.logLevel.name), ("maxForwardDepth", .int c.maxForwardDepth)]
    ++ (match c.maxChainSteps with
      | some n => [("maxChainSteps", .int n)]
      | none => [])
    ++ [("emitNodeEvents", .bool c.emitNodeEvents)])

/-- Read the JSON form. -/
def decode (s : Source) : Except Fault EngineConfig := do
  let r ← Record.ofSource ["logLevel", "maxForwardDepth", "maxChainSteps", "emitNodeEvents"] s
  r.finish <| mk
    <$> r.withDefault "logLevel" .info LogLevel.decode
    <*> r.withDefault "maxForwardDepth" 256 Source.natural
    <*> r.withDefault "maxChainSteps" none (Source.optional Source.natural)
    <*> r.withDefault "emitNodeEvents" true Source.truth

/-- Read a JSON text. -/
def parse (text : String) : Except Fault EngineConfig := (Document.ofText text).decode decode

/-- The environment variable that overrides the log level. -/
def logVariable : String := "CERES_LOG"

/-- Take the log level from the value of the environment variable, if it is set.
    A value that names no level is left out, with a warning. -/
def override (c : EngineConfig) (setting : Option String) : EngineConfig × List LogLine :=
  match setting with
  | none => (c, [])
  | some value =>
    match LogLevel.ofName? (Text.trim value) with
    | some level => ({ c with logLevel := level }, [])
    | none => (c, [⟨.warn, "Ignoring " ++ logVariable ++ "=" ++ Text.quoted value ++ ": *"⟩])

/-- The configuration of a file's text, or the default one without a file, with
    the level of the environment. -/
def load (file setting : Option String) : Except Fault (EngineConfig × List LogLine) := do
  let c ← match file with
    | some text => parse text
    | none => .ok {}
  .ok (c.override setting)

end EngineConfig
end FlowGraph
