/-
# Scanning a sample

A run asks for the sample, reads it, lists its code and scans each section for the signatures of the
chosen architectures. Whatever goes wrong with the sample is told in the report; only an `Abort`
leaves no report. A trace for debugging goes with the report.

* `run_file`: a file that is read;
* `run_of_not_file`, `run_of_unreadable`: what is not read.
-/
import SigScan.Load
import SigScan.Registry
import SigScan.Report

namespace SigScan

/-- The choices for a run. -/
structure Options where
  archs : List Arch := Arch.all
  /-- The sections to scan; all of them if none is listed. -/
  sectionNames : List String := []
  /-- Take the whole file as code? -/
  raw : Bool := false
  /-- Where a raw file is loaded. -/
  rawBase : Int := 0
  deriving DecidableEq, Repr

/-- Why a run finds nothing to scan. -/
inductive RunFailure where
  | notAFile (path : Path)
  | load (e : LoadError)
  | unknownFormat (path : Path)
  | noCode
  deriving DecidableEq, Repr

/-- The message for a run that finds nothing to scan. -/
def RunFailure.message : RunFailure → String
  | .notAFile path => s!"File not found: {path}"
  | .load e => e.message
  | .unknownFormat path => s!"Unsupported format (not PE or ELF): {path}"
  | .noCode => "No executable sections to scan"

/-! ## The trace -/

/-- A step of a run that is traced. -/
inductive TraceStep where
  /-- The code sections of the sample were listed. -/
  | listed (path : Path) (format : Format) (sections : Nat)
  /-- A section was scanned for one architecture. -/
  | scanned (arch : Arch) (found size : Nat) (base : Int)
  /-- All sections were scanned. -/
  | finished (path : Path) (found sections : Nat)
  deriving DecidableEq, Repr

/-- The line for a traced step. -/
def TraceStep.line : TraceStep → String
  | .listed path format sections =>
    s!"modscan.loader.sections: {path}: {format.name}, {sections} executable section(s)"
  | .scanned arch found size base =>
    s!"modscan.collector: {arch.name}: {found} match(es) in {size} bytes at {Text.hex base}"
  | .finished path found sections =>
    s!"modscan.orchestrator: {path}: {found} match(es) in {sections} section(s)"

/-! ## Scanned sections -/

/-- A section with the matches of each architecture in it. -/
structure ScannedSection where
  code : Section
  byArch : List (Arch × List Match)
  deriving DecidableEq, Repr

namespace ScannedSection

/-- Scans a section for the signatures of the wanted architectures. -/
def scan (r : Registry) (wanted : List Arch) (code : Section) :
    Except ScanFault ScannedSection := do
  let byArch ← r.findByArch code.content code.base wanted
  return ⟨code, byArch⟩

/-- All matches in the section. -/
def found (s : ScannedSection) : List Match := s.byArch.flatMap (·.2)

/-- The section with its address range, for the log. -/
def title (code : Section) : String :=
  let name := if code.name = "" then "<unnamed>" else code.name
  s!"{name} [{Text.hex code.base}-{Text.hex code.limit})"

/-- The log line for a match. -/
def matchLine (m : Match) : String :=
  s!"  {m.arch.name} match at +{Text.hex m.offset} -> {Text.hex m.address}"

/-- The log lines for a section. -/
def log (wanted : List Arch) (s : ScannedSection) : List String :=
  let names := ", ".intercalate (wanted.map Arch.name)
  s!"scanning {title s.code} for {names}" :: s.found.map matchLine

/-- The traced steps of a section. -/
def trace (s : ScannedSection) : List TraceStep :=
  s.byArch.map fun a => .scanned a.1 a.2.length s.code.content.size s.code.base

end ScannedSection

/-! ## Outcomes -/

/-- A report, and the steps that led to it. -/
structure Outcome where
  report : Report
  trace : List TraceStep
  deriving DecidableEq, Repr

namespace Outcome

/-- The outcome of a run that found nothing to scan. -/
def ofFailure (path : Path) (format : Option String) (log : List String)
    (trace : List TraceStep) (f : RunFailure) : Outcome :=
  ⟨{ sample := path.text, format, log, error := some f.message }, trace⟩

/-- The outcome of a run that scanned sections. -/
def ofScans (path : Path) (format : String) (wanted : List Arch) (trace : List TraceStep)
    (scans : List ScannedSection) : Outcome :=
  let found := scans.flatMap ScannedSection.found
  ⟨{ sample := path.text
     format := some format
     sections := scans.map (·.code)
     found
     foundIn := scans.flatMap fun s => s.found.map fun _ => s.code.name
     log := formatLine format :: scans.flatMap (·.log wanted) },
   trace ++ scans.flatMap ScannedSection.trace ++
     [.finished path found.length scans.length]⟩
where
  formatLine (format : String) : String := s!"format: {format}"

end Outcome

/-! ## The run -/

/-- The format of a raw file, and the one name of its code. -/
def rawName : String := "raw"

/-- Scans sections of a sample. -/
def scanSections (r : Registry) (path : Path) (options : Options) (format : String)
    (trace : List TraceStep) (sections : List Section) : Except Abort Outcome :=
  if sections.isEmpty then
    .ok (.ofFailure path format [Outcome.ofScans.formatLine format] trace .noCode)
  else do
    let scans ← (sections.mapM (ScannedSection.scan r options.archs)).mapError .scan
    return .ofScans path format options.archs trace scans

/-- Scans the code of an image. -/
def runImage (r : Registry) (path : Path) (options : Options) (found : Lookup) :
    Except Abort Outcome :=
  match loadAll path found with
  | .error (.abort a) => .error a
  | .error (.error e) => .ok (.ofFailure path none [] [] (.load e))
  | .ok none => .ok (.ofFailure path none [] [] (.unknownFormat path))
  | .ok (some (format, sections)) =>
    scanSections r path options format.name [.listed path format sections.length]
      (Section.keepNamed options.sectionNames sections)

/-- Scans a sample as one section of code. -/
def runRaw (r : Registry) (path : Path) (options : Options) (found : Lookup) :
    Except Abort Outcome :=
  match readSample path found with
  | .error (.abort a) => .error a
  | .error (.error e) => .ok (.ofFailure path rawName [] [] (.load e))
  | .ok content => scanSections r path options rawName [] [⟨rawName, content, options.rawBase⟩]

/-- Scans the sample at a path, given what the path leads to. -/
def run (r : Registry) (path : Path) (options : Options) (found : Lookup) :
    Except Abort Outcome :=
  match found.isFile with
  | .error e => .error (.refused path e)
  | .ok false => .ok (.ofFailure path none [] [] (.notAFile path))
  | .ok true => if options.raw then runRaw r path options found else runImage r path options found

/-- A file that can be read is scanned as the options ask. -/
theorem run_file {r : Registry} {path : Path} {options : Options} {content : Bytes} :
    run r path options (.file content) =
      if options.raw then
        scanSections r path options rawName [] [⟨rawName, content, options.rawBase⟩]
      else runImage r path options (.file content) := rfl

/-- What is no file is not read. -/
theorem run_of_not_file {r : Registry} {path : Path} {options : Options} {found : Lookup}
    (h : found.isFile = .ok false) :
    run r path options found = .ok (.ofFailure path none [] [] (.notAFile path)) := by
  unfold run
  rw [h]

/-- A file that cannot be read is told as such, and as raw where its content was asked for. -/
theorem run_of_unreadable {r : Registry} {path : Path} {options : Options} {e : ReadError} :
    run r path options (.unreadable e) = .ok (.ofFailure path
      (if options.raw then some rawName else none) [] [] (.load (.unreadable path e))) := by
  unfold run
  cases options.raw <;> rfl

end SigScan
