/-
# Loading the code of a sample

A sample is an image file. Its format is told by its first bytes; a file of no known format has
no code. Failures to read or parse the sample are `LoadError`s, which a report can tell. What
ends the work for good is a `LoadFault.abort`.

`codeOf_eq_none_iff` tells a file of no known format.
-/
import SigScan.FileTree
import SigScan.Image.Elf.File
import SigScan.Image.Pe.File
import SigScan.Signature.Match

namespace SigScan

/-- Why a sample has no code to offer. -/
inductive LoadError where
  /-- The file cannot be read. -/
  | unreadable (path : Path) (e : ReadError)
  /-- The headers of a PE file are refused. -/
  | peHeaders (f : Pe.Fault)
  /-- The header of an ELF file is refused. -/
  | elfHeader (f : Elf.HeaderFault)
  /-- A table of an ELF file is refused. -/
  | elfTables (f : Elf.TableFault)
  deriving DecidableEq, Repr

/-- The message for a sample that has no code to offer. -/
def LoadError.message : LoadError → String
  | .unreadable path e => s!"Cannot read {path}: {e.textAt path}"
  | .peHeaders f => s!"PE parse failed: {Text.quoted f.message}"
  | .elfHeader f => s!"ELF parse failed: {f.message}"
  | .elfTables f => s!"ELF section table: {f.message}"

/-- What ends the work without a report. -/
inductive Abort where
  /-- A table names a position or length that no file has. -/
  | unreachable (u : Elf.Unreachable)
  /-- The path has a zero character in it. -/
  | unnameable
  /-- The system does not tell whether the path leads to a file. -/
  | refused (path : Path) (e : SystemError)
  /-- The code cannot be scanned with the signatures in use. -/
  | scan (f : ScanFault)
  deriving DecidableEq, Repr

/-- The message for what ends the work. -/
def Abort.message : Abort → String
  | .unreachable u => u.message
  | .unnameable => "embedded null byte"
  | .refused path e => e.textAt path
  | .scan f => f.message

/-- Why loading fails. -/
inductive LoadFault where
  | error (e : LoadError)
  | abort (a : Abort)
  deriving DecidableEq, Repr

/-- A fault of the walk through the tables, as a failure to load. -/
def LoadFault.ofWalk : Elf.WalkFault → LoadFault
  | .table f => .error (.elfTables f)
  | .unreachable u => .abort (.unreachable u)

/-- The code sections of an image of a known format. -/
def Format.codeOf (f : Format) (image : Bytes) : Except LoadFault (List Section) :=
  match f with
  | .pe => ((Pe.Image.read image).mapError (.error <| .peHeaders ·)).map (·.codeOf image)
  | .elf => do
    let header ← (Elf.Header.read image).mapError (.error <| .elfHeader ·)
    (Elf.codeOf image header).mapError .ofWalk

/-- The format and the code sections of an image; nothing if the format is unknown. -/
def codeOf (image : Bytes) : Except LoadFault (Option (Format × List Section)) :=
  match Format.ofHead? image with
  | none => .ok none
  | some f => (f.codeOf image).map fun sections => some (f, sections)

/-- What cannot be opened at a path. -/
def LoadFault.unopened (path : Path) (e : SystemError) : LoadFault :=
  .error (.unreadable path (.unopened e))

/-- The content of the sample at a path. What the system does not tell of cannot be opened
either. -/
def readSample (path : Path) : Lookup → Except LoadFault Bytes
  | .file content | .special (.content content) => .ok content
  | .unreadable e | .special (.failed e) => .error (.error (.unreadable path e))
  | .missing => .error (.unopened path .missing)
  | .directory => .error (.unopened path .directory)
  | .notADirectory => .error (.unopened path .notADirectory)
  | .refused e => .error (.unopened path e)
  | .unnameable => .error (.abort .unnameable)

/-- All code of the sample at a path. -/
def loadAll (path : Path) (found : Lookup) :
    Except LoadFault (Option (Format × List Section)) := do
  codeOf (← readSample path found)

/-- The code of the sample at a path in the sections with one of the names, or in all sections if
there are no names. -/
def load (path : Path) (found : Lookup) (names : List String) :
    Except LoadFault (Option (Format × List Section)) :=
  (loadAll path found).map (·.map fun c => (c.1, Section.keepNamed names c.2))

/-- A file has no code to offer, and is no failure, when its format is unknown. -/
theorem codeOf_eq_none_iff {image : Bytes} :
    codeOf image = .ok none ↔ Format.ofHead? image = none := by
  unfold codeOf
  cases Format.ofHead? image with
  | none => simp
  | some f =>
    cases h : f.codeOf image with
    | error e => simp [Except.map, h]
    | ok sections => simp [Except.map, h]

end SigScan
