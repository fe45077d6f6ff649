/-
# The program

What the program prints, and the exit status it ends with, for a command line and what the path
in it leads to. Reports go to the standard output, as lines of text or as a document; errors and
the trace go to the standard error. A `Breakdown` ends the program before it has printed anything.

`checkNames_of_named` says that names are refused only where one is missing.
-/
import SigScan.CommandLine.Request

namespace SigScan.CommandLine

/-- What a call of the program leaves behind. -/
structure Printed where
  exit : Nat
  stdout : String
  stderr : String
  deriving DecidableEq, Repr

/-- Lines of text, each with its line end. -/
def unlines (lines : List String) : String := String.join (lines.map (· ++ "\n"))

/-- The usage of the program. -/
def usageText : String := unlines [
  "usage: modscan [-h] [--arch \x7bx64,x86,ppc-be\x7d] [--section SECTIONS] [--raw]",
  "               [--base BASE] [--json] [-v] [--debug]",
  "               sample"]

/-- The help of the program. -/
def helpText : String := usageText ++ unlines [
  "",
  "modscan: locate the runtime module data pointer in code sections",
  "",
  "positional arguments:",
  "  sample                Path to PE/ELF binary (or raw code blob with --raw)",
  "",
  "options:",
  "  -h, --help            show this help message and exit",
  "  --arch \x7bx64,x86,ppc-be\x7d",
  "                        Architecture signature to scan for (repeatable;",
  "                        default: all)",
  "  --section SECTIONS    Only scan this section (repeatable)",
  "  --raw                 Treat the file as a single raw code section",
  "  --base BASE           Load address of the raw section (requires --raw;",
  "                        default 0)",
  "  --json                Print a JSON report",
  "  -v, --verbose         Print scan log",
  "  --debug               Enable debug logging to stderr"]

/-- What is printed where the reading of the command line stops. -/
def Stop.print : Stop → Printed
  | .help => ⟨0, helpText, ""⟩
  | .refused e => ⟨2, "", usageText ++ s!"modscan: error: {e.message}\n"⟩

/-- The exit status for a report. -/
def exitStatus (r : Report) : Nat := if r.error.isNone && r.hasMatches then 0 else 1

/-- The standard output for a report. -/
def standardOutput (request : Request) (r : Report) : String :=
  if request.json then r.json.render ++ "\n"
  else unlines ((if request.verbose then r.log else []) ++ r.lines)

/-- The standard error for the outcome of a run. -/
def standardError (request : Request) (o : Outcome) : String :=
  unlines ((if request.debug then o.trace.map TraceStep.line else []) ++
    o.report.error.toList.map fun e => s!"Error: {e}")

/-- What is printed for the outcome of a run. -/
def present (request : Request) (o : Outcome) : Printed :=
  ⟨exitStatus o.report, standardOutput request o.report, standardError request o⟩

/-! ## Calls -/

/-- What ends the program before it has printed anything. -/
inductive Breakdown where
  /-- The run is ended without a report. -/
  | run (a : Abort)
  /-- An architecture is asked for without a name. -/
  | namelessArch
  /-- Sections are to be kept by a name that is none. -/
  | namelessSection
  /-- The document has an integer of too many digits. -/
  | longInteger
  deriving DecidableEq, Repr

/-- The message for what ends the program. -/
def Breakdown.message : Breakdown → String
  | .run a => a.message
  | .namelessArch => "[] is not a valid Arch"
  | .namelessSection => "unhashable type: 'list'"
  | .longInteger => Text.TooManyDigits.message ⟨none⟩

/-- Does a request get as far as keeping sections by their names? -/
def keepsNamed (request : Request) (found : Lookup) : Bool :=
  !request.options.raw &&
    match found.isFile, loadAll request.path found with
    | .ok true, .ok (some _) => true
    | _, _ => false

/-- Refuses names that are none, once they are looked at. -/
def checkNames (request : Request) (found : Lookup) : Except Breakdown Unit :=
  if request.namelessArch then .error .namelessArch
  else if request.namelessSection && keepsNamed request found then .error .namelessSection
  else .ok ()

/-- Where every name is one, none is refused. -/
theorem checkNames_of_named {request : Request} {found : Lookup}
    (ha : request.namelessArch = false) (hs : request.namelessSection = false) :
    checkNames request found = .ok () := by
  simp [checkNames, ha, hs]

/-- Refuses a document that cannot be written. -/
def checkDocument (request : Request) (r : Report) : Except Breakdown Unit :=
  if request.json && !r.json.isWritable then .error .longInteger else .ok ()

/-- Carries out a request. -/
def perform (request : Request) (found : Lookup) : Except Breakdown Printed := do
  checkNames request found
  let o ← (run .defaults request.path request.options found).mapError .run
  checkDocument request o.report
  return present request o

/-- Calls the program; `find` tells what a path leads to. -/
def execute (arguments : List String) (find : Path → Lookup) : Except Breakdown Printed :=
  match parse arguments with
  | .error stop => .ok stop.print
  | .ok request => perform request (find request.path)

end SigScan.CommandLine
