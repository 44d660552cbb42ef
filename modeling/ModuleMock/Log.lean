/-!
# Logs

What a run has to say on the side: entries with a level and the part of the program they come from.
-/

namespace ModuleMock

inductive Level where
  | debug
  | info
  | warning
deriving DecidableEq

/-- Parts of the program that write to the log. -/
inductive Reporter where
  | analysis
  | manifest
  | purifier
  | scaffold
deriving DecidableEq

structure LogEntry where
  level : Level
  reporter : Reporter
  message : String
deriving DecidableEq

def Level.name : Level → String
  | .debug => "DEBUG"
  | .info => "INFO"
  | .warning => "WARNING"

def Reporter.name : Reporter → String
  | .analysis => "preload_mock.services.export_analysis"
  | .manifest => "preload_mock.services.project"
  | .purifier => "preload_mock.services.purify"
  | .scaffold => "preload_mock.services.scaffold"

/-- An entry as a line. -/
def LogEntry.line (e : LogEntry) : String := s!"{e.level.name} {e.reporter.name}: {e.message}\n"

/-- The lines of a log; debug entries are left out unless asked for. -/
def logText (verbose : Bool) (log : List LogEntry) : String :=
  String.join ((log.filter fun e => verbose || e.level ≠ .debug).map LogEntry.line)

end ModuleMock
