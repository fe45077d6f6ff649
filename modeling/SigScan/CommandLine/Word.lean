/-
# Words of the command line

Arguments are sorted into words: options, with a value attached by `=` or none, values, and what
looks like an option but is none. A long option may be shortened as long as one option alone
starts that way. The word `--` ends the options.

* `classify_of_not_dash`: what does not start with a dash is a value;
* `words_dashes`: behind `--` every argument is a value.
-/
import SigScan.CommandLine.Option
import SigScan.Unicode.Digit

namespace SigScan.CommandLine

/-- An argument, sorted. -/
inductive Word where
  | value (text : String)
  /-- An option, behind one dash or two, and what is attached to it. -/
  | option (o : Opt) (oneDash : Bool) (attached : Option (List Char))
  /-- Something like an option that is none. -/
  | stray (text : String)
  /-- The end of the options. -/
  | dashes
  deriving DecidableEq, Repr

/-- The word that ends the options. -/
def dashes : String := "--"

/-- Text before and after the first equals sign; nothing if there is none. -/
def splitEquals? : List Char → Option (List Char × List Char)
  | [] => none
  | c :: rest =>
    if c = '=' then some ([], rest)
    else (splitEquals? rest).map fun p => (c :: p.1, p.2)

/-- Is the text one decimal digit or more? -/
def isDigits (text : List Char) : Bool :=
  !text.isEmpty && text.all fun c => (Unicode.decimalDigit? c).isSome

/-- Is the text a number, with a decimal point or without? -/
def isNumber (text : List Char) : Bool :=
  let whole := text.takeWhile fun c => (Unicode.decimalDigit? c).isSome
  match text.drop whole.length with
  | [] => isDigits whole
  | '.' :: rest => isDigits rest
  | _ => false

/-- Does the text behind a dash make the argument a negative number? A line end may follow. -/
def isNegativeNumber (afterDash : List Char) : Bool :=
  isNumber afterDash || (afterDash.getLast? = some '\n' && isNumber afterDash.dropLast)

/-- An argument that starts with a dash and is no option. -/
def nonOption (text : List Char) : Word :=
  if isNegativeNumber (text.drop 1) || text.contains ' ' then .value (String.ofList text)
  else .stray (String.ofList text)

/-- An argument that starts with two dashes and is no option as it stands. -/
def shortened (text : List Char) : Except UsageError Word :=
  let (start, attached) := match splitEquals? text with
    | some (before, after) => (before, some after)
    | none => (text, none)
  match Opt.startingWith start with
  | [] => .ok (nonOption text)
  | [(_, o)] => .ok (.option o false attached)
  | several => .error (.ambiguous (String.ofList text) (several.map (·.1)))

/-- Sorts an argument in front of the end of the options. -/
def classify (argument : String) : Except UsageError Word :=
  match argument.toList with
  | '-' :: second :: rest =>
    let text := '-' :: second :: rest
    match Opt.ofSpelling? text, splitEquals? text with
    | some o, _ => .ok (.option o (second != '-') none)
    | none, split =>
      match split.bind fun p => (Opt.ofSpelling? p.1).map fun o => (o, p.2) with
      | some (o, attached) => .ok (.option o (second != '-') (some attached))
      | none =>
        if second = '-' then shortened text
        else
          match Opt.ofLetter? second with
          | some o => .ok (.option o true (some rest))
          | none => .ok (nonOption text)
  | _ => .ok (.value argument)

/-- Sorts the arguments. -/
def words : List String → Except UsageError (List Word)
  | [] => .ok []
  | argument :: rest =>
    if argument = dashes then .ok (.dashes :: rest.map .value)
    else do
      let word ← classify argument
      let more ← words rest
      return word :: more

/-- What does not start with a dash is a value. -/
theorem classify_of_not_dash {argument : String} (h : argument.toList.head? ≠ some '-') :
    classify argument = .ok (.value argument) := by
  unfold classify
  split
  · next second rest heq => simp [heq] at h
  · rfl

/-- Behind `--` every argument is a value. -/
theorem words_dashes (rest : List String) :
    words (dashes :: rest) = .ok (.dashes :: rest.map .value) := by
  simp [words]

end SigScan.CommandLine
