import FlowGraph.Session
import FlowGraph.Validation

/-! # The command line

    One run loads a saved graph, compiles it with the types of the library, dispatches
    one event and writes the reported events, one JSON text a line, and the returned
    value if there is one.

    Usage: `GRAPH [EVENT] [-c FILE | --config FILE] [--arg JSON]…`.  Arguments are read
    from left to right, and the first one that asks for help, asks for the version or is
    wrong decides. -/

namespace FlowGraph.CommandLine

/-! ## Options -/

/-- What a run is asked to do. -/
structure Options where
  /-- The file of the saved graph. -/
  graph : String
  event : String
  /-- The file of the configuration, which need not exist. -/
  config : String
  arguments : List Value

/-- What the arguments ask for. -/
inductive Request where
  /-- Help, with what the environment says about the configuration file. -/
  | help (environment : Option String)
  | version
  /-- They are wrong. -/
  | misuse
  | run (options : Options)

/-- The event that is dispatched if none is named. -/
def defaultEvent : String := "Start"

/-- The configuration file if none is named. -/
def defaultConfig : String := "ceres.json"

/-- The environment variable that names the configuration file. -/
def configVariable : String := "CERES_CONFIG"

/-- The options read so far. -/
structure Given where
  graph : Option String := none
  event : Option String := none
  config : Option String := none
  arguments : List Value := []

namespace Given

/-- One more positional argument; a file has a name. -/
def addPositional (g : Given) (s : String) : Option Given :=
  match g.graph, g.event with
  | none, _ => if s = "" then none else some { g with graph := some s }
  | some _, none => some { g with event := some s }
  | some _, some _ => none

/-- The configuration file, which is named once. -/
def setConfig (g : Given) (s : String) : Option Given :=
  if s = "" || g.config.isSome then none else some { g with config := some s }

/-- One more argument of the event. -/
def addArgument (g : Given) (s : String) : Option Given :=
  match Json.parse s with
  | .ok j => some { g with arguments := g.arguments ++ [Value.ofJson j] }
  | .error _ => none

/-- The request, once all arguments are read. -/
def request (g : Given) (environment : Option String) : Request :=
  match g.graph, g.config.or environment with
  | none, _ => .misuse
  | some _, some "" => .misuse
  | some graph, config =>
    .run ⟨graph, g.event.getD defaultEvent, config.getD defaultConfig, g.arguments⟩

end Given

/-- An argument on its own. -/
inductive Argument where
  | help
  | version
  /-- The configuration file, in the argument itself or in the next one. -/
  | config (value : Option String)
  /-- An argument of the event, likewise. -/
  | value (value : Option String)
  /-- All further arguments are positional. -/
  | rest
  | positional (s : String)
  | unknown
  deriving DecidableEq

/-- The text before and after the first equals sign. -/
def splitValue (cs : List Char) : String × Option String :=
  match TypeIdentity.splitFirst '=' cs with
  | some (name, value) => (String.ofList name, some (String.ofList value))
  | none => (String.ofList cs, none)

/-- Read a long option, after its dashes. -/
def longOption (cs : List Char) : Argument :=
  match splitValue cs with
  | ("help", none) => .help
  | ("version", none) => .version
  | ("config", value) => .config value
  | ("arg", value) => .value value
  | _ => .unknown

/-- Read short options, after the dash. -/
def shortOption : List Char → Argument
  | 'h' :: _ => .help
  | 'V' :: _ => .version
  | ['c'] => .config none
  | 'c' :: '=' :: value => .config (some (String.ofList value))
  | 'c' :: value => .config (some (String.ofList value))
  | _ => .unknown

/-- Read an argument. -/
def Argument.ofText (s : String) : Argument :=
  match s.toList with
  | ['-', '-'] => .rest
  | '-' :: '-' :: cs => longOption cs
  | ['-'] => .positional s
  | '-' :: cs => shortOption cs
  | _ => .positional s

/-- Whether an argument can be the value of the option before it. -/
def isValue (s : String) : Bool := Argument.ofText s = .positional s

/-- Go on with the options, unless the last argument was wrong. -/
def proceed (given : Option Given) (next : Given → Request) : Request :=
  match given with
  | some g => next g
  | none => .misuse

/-- Read positional arguments only. -/
def readPositional (environment : Option String) : List String → Given → Request
  | [], g => g.request environment
  | s :: rest, g => proceed (g.addPositional s) (readPositional environment rest)

/-- Read arguments. -/
def readArguments (environment : Option String) : List String → Given → Request
  | [], g => g.request environment
  | s :: rest, g =>
    match Argument.ofText s with
    | .help => .help environment
    | .version => .version
    | .unknown => .misuse
    | .rest => readPositional environment rest g
    | .positional s => proceed (g.addPositional s) (readArguments environment rest)
    | .config (some file) => proceed (g.setConfig file) (readArguments environment rest)
    | .value (some text) => proceed (g.addArgument text) (readArguments environment rest)
    | .config none =>
      match rest with
      | [] => .misuse
      | file :: rest =>
        if isValue file then proceed (g.setConfig file) (readArguments environment rest)
        else .misuse
    | .value none =>
      match rest with
      | [] => .misuse
      | text :: rest => proceed (g.addArgument text) (readArguments environment rest)

/-- The request of some arguments.  `environment` names the configuration file unless
    they do. -/
def Request.ofArguments (arguments : List String) (environment : Option String) : Request :=
  readArguments environment arguments {}

/-! ## Running -/

/-- What is found under a file name. -/
inductive FileContent where
  | missing
  | unreadable
  | text (s : String)
  deriving DecidableEq, Inhabited

/-- Files in memory, by the names of the directories on the way and their own. -/
abbrev Folder := List (List String × String)

namespace Folder

/-- How many bytes a name and a path have at most. -/
def nameLimit : Nat := 255

def pathLimit : Nat := 4095

/-- A folder with some files. -/
def ofFiles (files : List (String × String)) : Folder :=
  files.map fun (name, s) =>
    ((name.splitOn "/").filter fun part => part ≠ "" && part ≠ ".", s)

/-- The text of a file. -/
def text? (folder : Folder) (path : List String) : Option String :=
  (List.find? (fun f => f.1 = path) folder).map Prod.snd

/-- Whether a path names a directory. -/
def isDirectory (folder : Folder) (path : List String) : Bool :=
  path.isEmpty || List.any folder fun f => path.isPrefixOf f.1 && f.1 ≠ path

/-- What a path leads to. -/
def lookUp (folder : Folder) (path : List String) : FileContent :=
  if folder.isDirectory path then .unreadable
  else
    match folder.text? path with
    | some s => .text s
    | none => .missing

/-- What stands below the root of every system, none of it a text of use here. -/
def systemPlaces : List (List String) :=
  [[], ["bin"], ["boot"], ["dev"], ["dev", "null"], ["etc"], ["etc", "hosts"],
    ["etc", "passwd"], ["home"], ["lib"], ["media"], ["mnt"], ["opt"], ["proc"], ["root"],
    ["run"], ["sbin"], ["srv"], ["sys"], ["tmp"], ["usr"], ["usr", "bin"], ["usr", "lib"],
    ["var"], ["var", "tmp"]]

/-- Go on from one of these places; all others are missing. -/
def walkSystem (place : List String) : List String → FileContent
  | [] => .unreadable
  | "" :: rest => walkSystem place rest
  | "." :: rest => walkSystem place rest
  | ".." :: rest => walkSystem place.dropLast rest
  | part :: rest =>
    let place := place ++ [part]
    if nameLimit < part.utf8ByteSize then .unreadable
    else if place ∈ systemPlaces then walkSystem place rest
    else .missing

/-- Go on from a directory, one part of a name at a time.  Only from a directory does
    the way go on.  The folder stands among the temporary files of the system. -/
def walk (folder : Folder) (place : List String) : List String → FileContent
  | [] => folder.lookUp place
  | "" :: rest => walk folder place rest
  | "." :: rest => walk folder place rest
  | ".." :: rest =>
    if place.isEmpty then walkSystem ["tmp"] rest else walk folder place.dropLast rest
  | part :: rest =>
    let place := place ++ [part]
    if nameLimit < part.utf8ByteSize then .unreadable
    else
      match folder.lookUp place with
      | .missing => .missing
      | .unreadable => walk folder place rest
      | .text s => if rest.isEmpty then .text s else .unreadable

/-- What stands in a file. -/
def content (folder : Folder) (path : String) : FileContent :=
  if pathLimit < path.utf8ByteSize then .unreadable
  else
    let way := path.splitOn "/"
    if path.startsWith "/" then walkSystem [] way else folder.walk [] way

end Folder

/-- What a run answers. -/
structure Answer where
  exitCode : Nat
  /-- The lines of its output. -/
  lines : List String := []
  /-- What it logs. -/
  log : List LogLine := []
  deriving Inhabited

/-- A run that failed before it wrote anything. -/
def failure (log : List LogLine) (reason : String) : Answer :=
  { exitCode := 1, log := log ++ [⟨.error, reason⟩] }

/-- The configuration of a file, and the warnings about the log level. -/
def readConfig (file : FileContent) (level : Option String) :
    Except GraphError (EngineConfig × List LogLine) :=
  match file with
  | .missing => (EngineConfig.load none level).mapError .serialization
  | .text s => (EngineConfig.load (some s) level).mapError .serialization
  | .unreadable => .error .fileNotFound

/-- The saved graph of a file. -/
def readGraph (file : FileContent) : Except GraphError GraphData :=
  match file with
  | .text s => (GraphData.parse s).mapError .serialization
  | _ => .error .fileNotFound

/-- The line of a returned value. -/
def returnedLine (outcome : DispatchOutcome) : List String :=
  match outcome.returned with
  | some v => [v.toJson.compact]
  | none => []

/-- Dispatch the event to a compiled graph. -/
def dispatchEvent (s : Session) (g : Graph) (o : Options) (log : List LogLine) : Answer :=
  let (result, s) := s.dispatch g (DispatchRequest.withArguments ⟨.event o.event, none, none⟩ o.arguments)
  let lines := s.store.events.toList.map fun e => e.toJson.compact
  let log := log ++ s.store.log.toList
  match result with
  | some (.ok outcome) => { exitCode := 0, lines := lines ++ returnedLine outcome, log }
  | some (.error e) => { exitCode := 1, lines, log := log ++ [⟨.error, e.message⟩] }
  | none => { exitCode := 1, lines, log }

/-- Run a saved graph with a configuration. -/
def runGraph (o : Options) (config : EngineConfig) (data : GraphData) (log : List LogLine) :
    Answer :=
  let s : Session := { engine := { config } }
  let problems := (data.validate s.registry s.conversions).map fun p => ⟨.warn, p.message⟩
  match s.build "graph" data with
  | (.error e, s) => failure (log ++ problems ++ s.store.log.toList) e.message
  | (.ok g, s) => dispatchEvent s g o (log ++ problems)

/-- Run with the contents of the two files.  `level` is the log level of the
    environment. -/
def run (o : Options) (configFile graphFile : FileContent) (level : Option String) : Answer :=
  match readConfig configFile level with
  | .error e => failure [] ("Failed to load config " ++ Text.quoted o.config ++ ": " ++ e.message)
  | .ok (config, log) =>
    match readGraph graphFile with
    | .error e => failure log e.message
    | .ok data => runGraph o config data log

/-- The program and its version. -/
def versionText : String := "ceres-runner 0.1.0"

/-- How the program is called. -/
def usageText : String := "Usage: ceres-runner [OPTIONS] <GRAPH> [EVENT]"

/-- What the program does and what it can be told.  `environment` is what the
    environment says about the configuration file. -/
def helpLines (environment : Option String) : List String :=
  ["Load a Ceres graph and dispatch one event", "", usageText, "",
    "Arguments:",
    "  <GRAPH>  Persisted graph (JSON)",
    "  [EVENT]  Event to dispatch [default: " ++ defaultEvent ++ "]", "",
    "Options:",
    "  -c, --config <CONFIG>  Engine config file, defaults apply when it does not exist [env: "
      ++ configVariable ++ "=" ++ environment.getD "" ++ "] [default: " ++ defaultConfig ++ "]",
    "      --arg <JSON>       Positional event argument as JSON; repeat for more",
    "  -h, --help             Print help",
    "  -V, --version          Print version"]

/-- The answer to a request, given what stands in the files. -/
def Request.answer (r : Request) (file : String → FileContent) (level : Option String) : Answer :=
  match r with
  | .help environment => { exitCode := 0, lines := helpLines environment }
  | .version => { exitCode := 0, lines := [versionText] }
  | .misuse => { exitCode := 2, log := [⟨.error, usageText⟩] }
  | .run o => CommandLine.run o (file o.config) (file o.graph) level

end FlowGraph.CommandLine
