import ModuleMock.CommandLine.Invocation
import ModuleMock.Json.Writer
import ModuleMock.Manifest
import ModuleMock.Scaffold
import ModuleMock.Surface.Json

/-!
# Running the program

`run` takes arguments and a file tree to what the program prints, how it ends, and the tree after it.
-/

namespace ModuleMock.CommandLine

open Text (Str EncodingFault)

/-- How a run ends. -/
inductive Ending where
  | done
  /-- The arguments make no sense. -/
  | misused
  /-- Nothing can be done, for the given reason. -/
  | refused (message : Str)
  | failed (fault : FileFault)
  /-- The name of a file has no bytes. -/
  | unencodable (fault : EncodingFault)
  /-- The run goes on as a server. -/
  | serving (host : String) (port : Int)

def Ending.exitCode : Ending → UInt32
  | .done => 0
  | .misused => 2
  | .refused _ => 1
  | .failed _ => 1
  | .unencodable _ => 1
  | .serving _ _ => 0

structure Outcome where
  ending : Ending
  output : String
  /-- What is said on the side: complaints about arguments, and the log. -/
  remarks : String
  tree : FileTree

/-- A report in words. -/
def reportText (r : Report) : String :=
  lines (r.written.map ("📝 Wrote " ++ ·) ++ r.skipped.map ("⏭️  Kept existing " ++ ·) ++
    r.errors.map ("⚠️  " ++ ·))

/-- The outcome of a job that starts with the given log, after some output. -/
def jobOutcome (verbose : Bool) (tree : FileTree) (log : List LogEntry) (output : String) (job : Job Report) :
    Outcome :=
  let (result, desk) := job.run.run ⟨tree, log⟩
  match result with
  | .ok r => ⟨.done, output ++ reportText r, logText verbose desk.log, desk.tree⟩
  | .error fault => ⟨.failed fault, output, logText verbose desk.log, desk.tree⟩

variable (w : Workspace)

def analyzeOutcome (verbose : Bool) (file : String) : Outcome :=
  let target := ((Path.ofString file).absolute w.cwd).toString
  if !w.tree.isFileAt w.cwd target then ⟨.refused (.whole s!"File does not exist: {target}"), "", "", w.tree⟩
  else
    match w.tree.readText w.cwd target with
    | .error fault => ⟨.failed fault, "", "", w.tree⟩
    | .ok text =>
      let shown := Json.indented "" (Modules.surface w [] target text).toJson
      ⟨.done, shown ++ "\n", logText verbose (Modules.trace w target text), w.tree⟩

/-- How a run ends that needs a manifest which cannot be used. -/
def refusal : Manifest.Fault → Ending
  | .unencodable fault => .unencodable fault
  | fault => .refused ("❌ " ++ fault.message)

/-- Goes on with the manifest at a path, if it can be used. -/
def withManifest (config : String) (next : Manifest String → Outcome) : Outcome :=
  match Manifest.load w config with
  | .error fault => ⟨refusal fault, "", "", w.tree⟩
  | .ok m => next m

def scaffoldOutcome (verbose : Bool) (config mount : String) : Outcome :=
  withManifest w config fun m =>
    jobOutcome verbose w.tree [Manifest.loadedEntry w config m] s!"📂 Preload entry: {m.preload}\n"
      (scaffold w.cwd m.preload mount)

def bundleOutcome (verbose : Bool) (config compiled out mount : String) : Outcome :=
  withManifest w config fun m =>
    let log := [Manifest.loadedEntry w config m]
    let source := ((Path.ofString compiled).absolute w.cwd).toString
    let target := ((Path.ofString out).absolute w.cwd).toString
    if !w.tree.isFileAt w.cwd source then
      ⟨.refused (.whole s!"Compiled bundle does not exist: {source}"), "", logText verbose log, w.tree⟩
    else
      jobOutcome verbose w.tree log s!"📦 Cleaning compiled bundle {source}\n"
        (bundle w.cwd source target m.preload mount)

def serveOutcome (host : String) (port : Int) : Outcome :=
  ⟨.serving host port, lines [s!"🚀 Starting server at http://{host}:{port}", "   Press Ctrl+C to stop."], "", w.tree⟩

/-- The outcome of an invocation. -/
def Invocation.outcome (i : Invocation) : Outcome :=
  match i.command with
  | .analyze file => analyzeOutcome w i.verbose file
  | .scaffold config mount => scaffoldOutcome w i.verbose config mount
  | .bundle config compiled out mount => bundleOutcome w i.verbose config compiled out mount
  | .serve host port => serveOutcome w host port

/-- The outcome of a run with the given arguments. -/
def run (arguments : List String) : Outcome :=
  match Invocation.ofArguments arguments with
  | .ok i => i.outcome w
  | .error n =>
    match n.stop with
    | .help => ⟨.done, n.text, "", w.tree⟩
    | .fault _ => ⟨.misused, "", n.text, w.tree⟩

end ModuleMock.CommandLine
