import ModuleMock.CommandLine.Arguments
import ModuleMock.Render

/-!
# Invocations

The commands of the program, and how arguments name them.

- `Command`: what can be asked for;
- `Invocation.ofArguments`: the invocation that arguments stand for, or why there is none.
-/

namespace ModuleMock.CommandLine

inductive Command where
  /-- Show the surface of a module. -/
  | analyze (file : String)
  /-- Write mock files beside the module that a manifest names. -/
  | scaffold (config mount : String)
  /-- Write the script for the host. -/
  | bundle (config compiled out mount : String)
  /-- Answer requests. -/
  | serve (host : String) (port : Int)

structure Invocation where
  verbose : Bool
  command : Command

/-! ## Switches -/

def helpSwitch : Switch := ⟨["-h", "--help"], .help, false⟩
def verboseSwitch : Switch := ⟨["-v", "--verbose"], .flag, false⟩
def configSwitch : Switch := ⟨["--config"], .text, false⟩
def mountSwitch : Switch := ⟨["--mount-name"], .text, false⟩
def compiledSwitch : Switch := ⟨["--compiled"], .text, true⟩
def outSwitch : Switch := ⟨["--out"], .text, true⟩
def hostSwitch : Switch := ⟨["--host"], .text, false⟩
def portSwitch : Switch := ⟨["--port"], .number, false⟩

/-! ## The program and its commands -/

def programName : String := "preload-mock"

def commandNames : List String := ["analyze", "scaffold", "bundle", "serve"]

def lines (ls : List String) : String := String.join (ls.map (· ++ "\n"))

def programSpec : Spec where
  program := programName
  usage := "usage: preload-mock [-h] [-v] \x7banalyze,scaffold,bundle,serve\x7d ...\n"
  help := lines [
    "Mock generation and bundle cleanup for plugin preload scripts.",
    "",
    "positional arguments:",
    "  \x7banalyze,scaffold,bundle,serve\x7d",
    "    analyze             Print the export surface of a module.",
    "    scaffold            Write mock files beside the preload entry.",
    "    bundle              Clean a compiled CommonJS preload bundle.",
    "    serve               Start the HTTP API.",
    "",
    "options:",
    "  -h, --help            show this help message and exit",
    "  -v, --verbose         Log debug output from the analyzer."]
  switches := [helpSwitch, verboseSwitch]
  operand := some (.command "command" commandNames)

def analyzeSpec : Spec where
  program := "preload-mock analyze"
  usage := "usage: preload-mock analyze [-h] file\n"
  help := lines [
    "positional arguments:",
    "  file        Path to the module to analyze.",
    "",
    "options:",
    "  -h, --help  show this help message and exit"]
  switches := [helpSwitch]
  operand := some (.plain "file")

def scaffoldSpec : Spec where
  program := "preload-mock scaffold"
  usage := "usage: preload-mock scaffold [-h] [--config CONFIG] [--mount-name MOUNT_NAME]\n"
  help := lines [
    "options:",
    "  -h, --help            show this help message and exit",
    "  --config CONFIG       Path to plugin.json (default: ./plugin.json).",
    "  --mount-name MOUNT_NAME",
    "                        Window property the named exports are mounted on",
    "                        (default: preload)."]
  switches := [helpSwitch, configSwitch, mountSwitch]
  operand := none

def bundleSpec : Spec where
  program := "preload-mock bundle"
  usage := lines [
    "usage: preload-mock bundle [-h] [--config CONFIG] --compiled COMPILED --out",
    "                           OUT [--mount-name MOUNT_NAME]"]
  help := lines [
    "options:",
    "  -h, --help            show this help message and exit",
    "  --config CONFIG       Path to plugin.json.",
    "  --compiled COMPILED   Compiled CommonJS bundle to clean.",
    "  --out OUT             Where to write the cleaned preload script.",
    "  --mount-name MOUNT_NAME"]
  switches := [helpSwitch, configSwitch, compiledSwitch, outSwitch, mountSwitch]
  operand := none

def serveSpec : Spec where
  program := "preload-mock serve"
  usage := "usage: preload-mock serve [-h] [--host HOST] [--port PORT]\n"
  help := lines [
    "options:",
    "  -h, --help   show this help message and exit",
    "  --host HOST  Host interface to bind the server to (default: 127.0.0.1).",
    "  --port PORT  Port to run the server on (default: 8000)."]
  switches := [helpSwitch, hostSwitch, portSwitch]
  operand := none

/-! ## From arguments to invocations -/

/-- Help or a complaint, with the program or command it is about. -/
structure Notice where
  spec : Spec
  stop : Stop

def Notice.text (n : Notice) : String :=
  match n.stop with
  | .help => n.spec.usage ++ "\n" ++ n.spec.help
  | .fault f => n.spec.usage ++ n.spec.program ++ ": error: " ++ f.message ++ "\n"

namespace Spec

/-- The last value given to a switch. -/
def lastValue? (given : List Given) (s : Switch) : Option String :=
  (given.filterMap fun
    | .switch s' value => if s' = s then value else none
    | _ => none).getLast?

def operandText (given : List Given) : String :=
  (given.findSome? fun
    | .operand text => some text
    | _ => none).getD ""

def command? (given : List Given) : Option (String × List String) :=
  given.findSome? fun
    | .command name arguments => some (name, arguments)
    | _ => none

end Spec

def specOf (command : String) : Spec :=
  match command with
  | "analyze" => analyzeSpec
  | "scaffold" => scaffoldSpec
  | "bundle" => bundleSpec
  | _ => serveSpec

def defaultConfig : String := "plugin.json"
def defaultHost : String := "127.0.0.1"
def defaultPort : Int := 8000

/-- The command of a name with what is given to it. -/
def Command.ofGiven (name : String) (given : List Spec.Given) : Command :=
  let value (s : Switch) (fallback : String) : String := (Spec.lastValue? given s).getD fallback
  match name with
  | "analyze" => .analyze (Spec.operandText given)
  | "scaffold" => .scaffold (value configSwitch defaultConfig) (value mountSwitch defaultMount)
  | "bundle" =>
    .bundle (value configSwitch defaultConfig) (value compiledSwitch "") (value outSwitch "")
      (value mountSwitch defaultMount)
  | _ => .serve (value hostSwitch defaultHost)
      (((Spec.lastValue? given portSwitch).bind Text.wholeNumber?).getD defaultPort)

/-- The invocation that arguments stand for. What the program and the command leave over is refused by the program. -/
def Invocation.ofArguments (arguments : List String) : Except Notice Invocation := do
  let outer ← (programSpec.read arguments).mapError (Notice.mk programSpec)
  let (name, rest) := (Spec.command? outer.given).getD ("", [])
  let inner ← ((specOf name).read rest).mapError (Notice.mk (specOf name))
  match outer.extras ++ inner.extras with
  | [] => return ⟨outer.given.any (Spec.Given.isSwitch verboseSwitch), .ofGiven name inner.given⟩
  | extras => throw ⟨programSpec, .fault (.unrecognized extras)⟩

end ModuleMock.CommandLine
