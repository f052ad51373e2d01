import Variability.Command.Files
import Variability.Command.Options
import Variability.Command.SettingsFile
import Variability.Markup.Loader
import Variability.Report.Json
import Variability.Report.Text

/-! The command: settings, project, report. It reads through the files that it
is given, and says what it does in a log. -/
namespace Variability

inductive LogLevel where
  | debug
  | info
  | warn
  deriving DecidableEq, Repr

def LogLevel.name : LogLevel → String
  | .debug => "DEBUG"
  | .info => "INFO"
  | .warn => "WARN"

structure LogEntry where
  level : LogLevel
  message : String
  deriving DecidableEq, Repr

structure Logged (α : Type) where
  log : List LogEntry
  result : α

inductive RunError where
  | unreadable (path : String) (fault : ReadFault)
  | malformed (error : Markup.LoadError)

def RunError.message : RunError → String
  | .unreadable path fault => "failed to read " ++ path ++ ": " ++ fault.message
  | .malformed error => "malformed project: " ++ error.message

def settingsFileName : String := "splasp.config.json"

def Settings.describe (s : Settings) : String := s.toJson.compact

namespace Command

/-- A file that cannot be read or understood counts as one without contents,
but not silently. -/
def readSettings (files : Files) (path : String) : Logged SettingsFile :=
  match files path with
  | .error fault => ⟨[⟨.warn, "Failed to read " ++ path ++ ": " ++ fault.message⟩], {}⟩
  | .ok content =>
    match (String.fromUTF8? content).bind SettingsFile.parse? with
    | some file => ⟨[⟨.debug, "loaded " ++ path ++ ": " ++ file.analysis.describe⟩], file⟩
    | none => ⟨[⟨.warn, "Failed to parse " ++ path⟩], {}⟩

/-- The file that is asked for, or the usual one if it is there. -/
def loadSettings (files : Files) (explicit : Option String) : Logged SettingsFile :=
  match explicit with
  | some path => readSettings files path
  | none =>
    if files.holds settingsFileName then readSettings files settingsFileName
    else ⟨[⟨.debug, "no " ++ settingsFileName ++ " found, using defaults"⟩], {}⟩

/-- Flags win over the file. -/
def effective (s : Settings) (includeLibraryDefs excludeUnknown : Bool) : Settings :=
  { ignoreLibraryDefinitions := s.ignoreLibraryDefinitions && !includeLibraryDefs
    includeUnknownEvents := s.includeUnknownEvents && !excludeUnknown }

def analyzeFile (files : Files) (settings : Settings) (path : String) :
    Logged (Except RunError Analysis) :=
  match files path with
  | .error fault => ⟨[], .error (.unreadable path fault)⟩
  | .ok content =>
    let read : LogEntry := ⟨.info, s!"read {path} ({content.size} bytes)"⟩
    match Markup.loadBytes content with
    | .error error => ⟨[read], .error (.malformed error)⟩
    | .ok project =>
      let analysis := analyzeProject settings project
      let dropped : List LogEntry :=
        if project.discarded == 0 then []
        else [⟨.debug, s!"discarded {project.discarded} heavy subtrees while loading"⟩]
      ⟨[read, ⟨.info, "loaded project tree"⟩] ++ dropped ++
        [⟨.info, s!"analyzed {analysis.totalScripts} scripts (project level " ++
          Report.levelText analysis.projectLevel ++ ")"⟩], .ok analysis⟩

def report (json includeUnknown : Bool) (a : Analysis) : String :=
  if json then (Report.toJson a includeUnknown).pretty else Report.toText a includeUnknown

/-- The report lists unknown events exactly when the analysis kept them. -/
def run (files : Files) (o : Options) : Logged (Except RunError String) :=
  let loaded := loadSettings files o.config
  let settings := effective loaded.result.analysis o.includeLibraryDefs o.excludeUnknown
  let analyzed := analyzeFile files settings o.path
  ⟨loaded.log ++ [⟨.debug, "analysis config: " ++ settings.describe⟩] ++ analyzed.log,
    analyzed.result.map (report o.json settings.includeUnknownEvents)⟩

structure Outcome where
  exitCode : Nat
  stdout : String := ""
  stderr : String := ""
  log : List LogEntry := []
  /-- The arguments were refused. -/
  usageError : Bool := false

def versionText : String := "splasp 0.1.0\n"

def helpText : String :=
  "SPLASP! - Analyze software variability in Snap! projects\n\n" ++
  "Usage: splasp [OPTIONS] <PATH>\n\n" ++
  "Options:\n" ++
  "      --json                  report as JSON\n" ++
  "      --include-library-defs  analyze the library's own definitions too\n" ++
  "      --exclude-unknown       leave out changes of blocks that could not be told\n" ++
  "  -c, --config <CONFIG>       settings file\n" ++
  "      --verbose               log what is done\n" ++
  "  -h, --help                  print help\n" ++
  "  -V, --version               print version\n"

/-- Warnings are always logged, the rest on demand. -/
def isLogged (verbose : Bool) (entry : LogEntry) : Bool :=
  verbose || entry.level == .warn

def execute (files : Files) (args : List String) : Outcome :=
  match Options.parse args with
  | .error .version => { exitCode := 0, stdout := versionText }
  | .error .help => { exitCode := 0, stdout := helpText }
  | .error (.refused message) =>
    { exitCode := 2, stderr := "error: " ++ message ++ "\n", usageError := true }
  | .ok o =>
    let ran := run files o
    let log := ran.log.filter (isLogged o.verbose)
    match ran.result with
    | .ok text => { exitCode := 0, stdout := Text.trimEnd text ++ "\n", log }
    | .error error =>
      { exitCode := 2, log,
        stderr := "Error analyzing '" ++ o.path ++ "': " ++ error.message ++ "\n" }

end Command
end Variability
