/-
# Options of the command line

The options with their spellings, and why a command line is refused.

`ofSpelling?_of_mem` says that each spelling is that of its option.
-/
import SigScan.Arch

namespace SigScan.CommandLine

/-! ## Options -/

/-- An option of the command line. -/
inductive Opt where
  | help
  | arch
  | sectionName
  | raw
  | base
  | json
  | verbose
  | debug
  deriving DecidableEq, Repr

/-- The spellings of all options, in the order in which they are listed. -/
def Opt.spellings : List (String × Opt) :=
  [("-h", .help), ("--help", .help), ("--arch", .arch), ("--section", .sectionName),
    ("--raw", .raw), ("--base", .base), ("--json", .json), ("-v", .verbose),
    ("--verbose", .verbose), ("--debug", .debug)]

/-- The option with this very spelling. -/
def Opt.ofSpelling? (text : List Char) : Option Opt := Opt.spellings.lookup (String.ofList text)

/-- The option with this letter behind a single dash. -/
def Opt.ofLetter? (c : Char) : Option Opt := Opt.ofSpelling? ['-', c]

/-- The options whose spelling starts with the text. -/
def Opt.startingWith (text : List Char) : List (String × Opt) :=
  Opt.spellings.filter fun s => text.isPrefixOf s.1.toList

/-- Is the option followed by a value? -/
def Opt.takesValue : Opt → Bool
  | .arch | .sectionName | .base => true
  | .help | .raw | .json | .verbose | .debug => false

/-- All spellings of the option, for messages. -/
def Opt.title (o : Opt) : String :=
  "/".intercalate ((Opt.spellings.filter (·.2 = o)).map (·.1))

/-! ## Errors -/

/-- Why a command line is refused. -/
inductive UsageError where
  /-- Several options start like the argument. -/
  | ambiguous (argument : String) (candidates : List String)
  /-- A value is attached to an option that takes none. -/
  | ignoredValue (o : Opt) (value : String)
  /-- An option is not followed by its value. -/
  | noValue (o : Opt)
  /-- The value is no architecture. -/
  | unknownArch (value : String)
  /-- The value is no address. -/
  | badBase (value : String)
  /-- There is no sample. -/
  | noSample
  /-- Some arguments have no meaning. -/
  | unrecognized (arguments : List String)
  /-- A load address is given for a sample that is not raw. -/
  | baseWithoutRaw
  deriving DecidableEq, Repr

/-- A message about an option. -/
def aboutOption (o : Opt) (text : String) : String := s!"argument {o.title}: {text}"

/-- The message for a refused command line. -/
def UsageError.message : UsageError → String
  | .ambiguous argument candidates =>
    s!"ambiguous option: {argument} could match " ++ ", ".intercalate candidates
  | .ignoredValue o value => aboutOption o s!"ignored explicit argument {Text.quoted value}"
  | .noValue o => aboutOption o "expected one argument"
  | .unknownArch value =>
    let choices := ", ".intercalate (Arch.all.map fun a => Text.quoted a.name)
    aboutOption .arch s!"invalid choice: {Text.quoted value} (choose from {choices})"
  | .badBase value => aboutOption .base s!"invalid _int_auto value: {Text.quoted value}"
  | .noSample => "the following arguments are required: sample"
  | .unrecognized arguments => "unrecognized arguments: " ++ " ".intercalate arguments
  | .baseWithoutRaw => "--base requires --raw"

/-- What ends the reading of a command line. -/
inductive Stop where
  /-- Help is asked for. -/
  | help
  /-- The command line is refused. -/
  | refused (e : UsageError)
  deriving DecidableEq, Repr

/-- Each spelling is that of its option. -/
theorem Opt.ofSpelling?_of_mem {s : String × Opt} (h : s ∈ Opt.spellings) :
    Opt.ofSpelling? s.1.toList = some s.2 := by
  simp only [Opt.spellings, List.mem_cons, List.not_mem_nil, or_false] at h
  rcases h with rfl | rfl | rfl | rfl | rfl | rfl | rfl | rfl | rfl | rfl <;> rfl

end SigScan.CommandLine
