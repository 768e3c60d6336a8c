import FlowGraph.CommandLine

/-! # The program

    Reads the files that the arguments name and writes the answer. -/

open FlowGraph

/-- What stands in a file. -/
def readContent (name : String) : IO CommandLine.FileContent := do
  try
    return .text (← IO.FS.readFile name)
  catch e =>
    match e with
    | .noFileOrDirectory .. => return .missing
    | _ => return .unreadable

/-- Write the lines of an answer; its exit code. -/
def writeAnswer (a : CommandLine.Answer) : IO UInt32 := do
  for line in a.lines do
    IO.println line
  for line in a.log do
    IO.eprintln (line.level.name ++ " " ++ line.text)
  return UInt32.ofNat a.exitCode

/-- Run the command line. -/
def main (arguments : List String) : IO UInt32 := do
  let environment ← IO.getEnv CommandLine.configVariable
  let level ← IO.getEnv EngineConfig.logVariable
  let request := CommandLine.Request.ofArguments arguments environment
  match request with
  | .run o =>
    let config ← readContent o.config
    let graph ← readContent o.graph
    writeAnswer (CommandLine.run o config graph level)
  | _ => writeAnswer (request.answer (fun _ => .missing) level)
