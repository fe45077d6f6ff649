/-
# Requests

The words of a command line are taken from left to right, and the first one that does not fit
stops the reading. Short options may share one dash. The value `--`, which can only be attached to
an option, is nothing in place of a value. What is missing or left over is told at the end;
otherwise the settings make a request.

`Settings.finish_ok` says what a complete command line has.
-/
import SigScan.CommandLine.Word
import SigScan.Run

namespace SigScan.CommandLine

/-! ## Settings -/

/-- What the words read so far have set. -/
structure Settings where
  sample : Option String := none
  archs : List Arch := []
  sectionNames : List String := []
  raw : Bool := false
  base : Option Int := none
  json : Bool := false
  verbose : Bool := false
  debug : Bool := false
  /-- Is an architecture asked for without a name? -/
  namelessArch : Bool := false
  /-- Is a section asked for without a name? -/
  namelessSection : Bool := false
  /-- The arguments without a meaning. -/
  extras : List String := []
  deriving DecidableEq, Repr

namespace Settings

/-- The settings with one more argument without a meaning. -/
def leave (s : Settings) (argument : String) : Settings :=
  { s with extras := s.extras ++ [argument] }

/-- Sets an option with a value. -/
def set (s : Settings) (o : Opt) (value : String) : Except Stop Settings :=
  match o with
  | .arch =>
    match Arch.ofName? value with
    | some a => .ok { s with archs := s.archs ++ [a] }
    | none => .error (.refused (.unknownArch value))
  | .base =>
    match Text.readInteger .marked value with
    | .ok n => .ok { s with base := some n }
    | .error _ => .error (.refused (.badBase value))
  | .sectionName => .ok { s with sectionNames := s.sectionNames ++ [value] }
  | _ => .ok s

/-- Sets an option to nothing in place of a value. Nothing as an address is zero. -/
def setNothing (s : Settings) : Opt → Settings
  | .arch => { s with namelessArch := true }
  | .sectionName => { s with namelessSection := true }
  | .base => { s with base := some 0 }
  | _ => s

/-- Sets an option with an attached value, which is nothing if it is `--`. -/
def setAttached (s : Settings) (o : Opt) (value : String) : Except Stop Settings :=
  if value = dashes then .ok (s.setNothing o) else s.set o value

/-- Sets an option without a value. -/
def switch (s : Settings) : Opt → Except Stop Settings
  | .help => .error .help
  | .raw => .ok { s with raw := true }
  | .json => .ok { s with json := true }
  | .verbose => .ok { s with verbose := true }
  | .debug => .ok { s with debug := true }
  | _ => .ok s

end Settings

/-- The options that share a dash: `o`, and those of the letters that follow it. -/
def sharedDash (o : Opt) : List Char → Except UsageError (List Opt)
  | [] => .ok [o]
  | c :: rest =>
    match Opt.ofLetter? c with
    | some next => (sharedDash next rest).map (o :: ·)
    | none => .error (.ignoredValue o (String.ofList (c :: rest)))

/-- The options of a word whose option takes no value. -/
def switches (o : Opt) (oneDash : Bool) : Option (List Char) → Except UsageError (List Opt)
  | none => .ok [o]
  | some attached =>
    if oneDash && !attached.isEmpty then sharedDash o attached
    else .error (.ignoredValue o (String.ofList attached))

/-- Takes the words from left to right. -/
def take (s : Settings) : List Word → Except Stop Settings
  | [] => .ok s
  | .value text :: rest =>
    match s.sample, rest with
    | none, .dashes :: more => take { s with sample := some text } more
    | none, more => take { s with sample := some text } more
    | some _, more => take (s.leave text) more
  | .stray text :: rest => take (s.leave text) rest
  | .dashes :: rest =>
    match s.sample, rest with
    | none, .value text :: more => take { s with sample := some text } more
    | none, more => take s more
    | some _, more => take (s.leave dashes) more
  | .option o oneDash attached :: rest =>
    if o.takesValue then
      match attached, rest with
      | some value, more => do take (← s.setAttached o (String.ofList value)) more
      | none, .value value :: more => do take (← s.set o value) more
      | none, _ => .error (.refused (.noValue o))
    else do
      let os ← (switches o oneDash attached).mapError .refused
      take (← os.foldlM Settings.switch s) rest

/-! ## Requests -/

/-- A complete command line. -/
structure Request where
  path : Path
  options : Options
  json : Bool
  verbose : Bool
  debug : Bool
  /-- Is an architecture asked for without a name? -/
  namelessArch : Bool
  /-- Is a section asked for without a name? -/
  namelessSection : Bool
  deriving DecidableEq, Repr

/-- The request that complete settings make. -/
def Settings.finish (s : Settings) : Except UsageError Request :=
  match s.sample with
  | none => .error .noSample
  | some sample =>
    if s.extras ≠ [] then .error (.unrecognized s.extras)
    else if s.base.isSome ∧ !s.raw then .error .baseWithoutRaw
    else
      .ok {
        path := .ofString sample
        options := {
          archs := if s.archs.isEmpty then Arch.all else s.archs
          sectionNames := s.sectionNames
          raw := s.raw
          rawBase := s.base.getD 0 }
        json := s.json
        verbose := s.verbose
        debug := s.debug
        namelessArch := s.namelessArch
        namelessSection := s.namelessSection }

/-- A complete command line has a sample and nothing without a meaning. -/
theorem Settings.finish_ok {s : Settings} {r : Request} (h : s.finish = .ok r) :
    s.extras = [] ∧ ∃ sample, s.sample = some sample ∧ r.path = .ofString sample := by
  unfold Settings.finish at h
  split at h
  · contradiction
  · next sample hs =>
    split at h
    · contradiction
    · next hx =>
      split at h
      · contradiction
      · cases h
        exact ⟨by simpa using hx, sample, hs, rfl⟩

/-- Reads a command line. -/
def parse (arguments : List String) : Except Stop Request := do
  let sorted ← (words arguments).mapError .refused
  let settings ← take {} sorted
  settings.finish.mapError .refused

end SigScan.CommandLine
