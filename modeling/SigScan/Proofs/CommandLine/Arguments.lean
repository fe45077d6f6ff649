/-
# Command lines for what is wanted

Whatever is wanted of a run can be written as a command line: the values stand behind an equals
sign, the options in any order, and the sample behind `--`. A value behind an equals sign is not
looked at, and neither is what stands behind `--`, so names that look like options or numbers do no
harm, and nor does a sample that starts with a dash.

The order of the options does not count, but for the architectures and for the section names, which
are kept in the order in which they are listed.

* `classify_text`: an argument is sorted as it is meant;
* `take_words`, `given_arguments`: arguments are taken one by one, and what they set in the end;
* `parse_commandLine`: the command line is read as the request it is written for;
* `execute_commandLine`: a call with it is a run for what is wanted, printed as it is wanted.
-/
import Mathlib
import SigScan.CommandLine.Program
import SigScan.Proofs.Fallible
import SigScan.Proofs.Text.Hexadecimal

namespace SigScan.CommandLine

/-! ## Arguments -/

/-- An argument in front of the sample. -/
inductive Argument where
  | arch (a : Arch)
  | sectionName (name : String)
  | base (n : Int)
  | raw
  | json
  | verbose
  | debug
  deriving DecidableEq, Repr

namespace Argument

/-- The text of an argument. -/
def text : Argument → String
  | .arch a => "--arch=" ++ a.name
  | .sectionName name => "--section=" ++ name
  | .base n => "--base=" ++ Text.hex n
  | .raw => "--raw"
  | .json => "--json"
  | .verbose => "-v"
  | .debug => "--debug"

/-- The word that an argument is meant as. -/
def word : Argument → Word
  | .arch a => .option .arch false (some a.name.toList)
  | .sectionName name => .option .sectionName false (some name.toList)
  | .base n => .option .base false (some (Text.hex n).toList)
  | .raw => .option .raw false none
  | .json => .option .json false none
  | .verbose => .option .verbose true none
  | .debug => .option .debug false none

/-- The architecture that is asked for. -/
def arch? : Argument → Option Arch
  | .arch a => some a
  | _ => none

/-- The section that is asked for. -/
def sectionName? : Argument → Option String
  | .sectionName name => some name
  | _ => none

/-- The address that is given. -/
def base? : Argument → Option Int
  | .base n => some n
  | _ => none

end Argument

/-! ## Sorting -/

/-- The first equals sign is where a text is split. -/
theorem splitEquals?_append {front : List Char} (h : '=' ∉ front) (value : List Char) :
    splitEquals? (front ++ '=' :: value) = some (front, value) := by
  induction front with
  | nil => rfl
  | cons c front ih =>
    have hc : c ≠ '=' := fun heq => h (heq ▸ List.mem_cons_self)
    have hfront : '=' ∉ front := fun hmem => h (List.mem_cons_of_mem c hmem)
    rw [List.cons_append, splitEquals?, if_neg hc, ih hfront]
    rfl

/-- No spelling of an option has an equals sign in it. -/
theorem equals_not_mem_spelling : ∀ s ∈ Opt.spellings, '=' ∉ s.1.toList := by decide

/-- So a text with an equals sign is no spelling. -/
theorem ofSpelling?_of_equals {text : List Char} (h : '=' ∈ text) :
    Opt.ofSpelling? text = none := by
  rw [Opt.ofSpelling?, List.lookup_eq_none_iff]
  intro s hs
  rw [bne_iff_ne]
  rintro heq
  have hnone := equals_not_mem_spelling s hs
  rw [← heq, String.toList_ofList] at hnone
  exact hnone h

/-- **A value behind an equals sign is not looked at.** -/
theorem classify_attached (spelling : String) {o : Opt} {name : List Char}
    (hs : (spelling, o) ∈ Opt.spellings) (hlong : spelling.toList = '-' :: '-' :: name)
    (value : String) :
    classify (spelling ++ "=" ++ value) = .ok (.option o false (some value.toList)) := by
  have hsplit := splitEquals?_append (equals_not_mem_spelling _ hs) value.toList
  have hspelling := Opt.ofSpelling?_of_mem hs
  have htext : (spelling ++ "=" ++ value).toList = spelling.toList ++ '=' :: value.toList := by
    simp
  have hnone : Opt.ofSpelling? (spelling.toList ++ '=' :: value.toList) = none :=
    ofSpelling?_of_equals (List.mem_append_right _ List.mem_cons_self)
  rw [hlong] at hsplit hspelling htext hnone
  simp only [List.cons_append] at hsplit htext hnone
  unfold classify
  rw [htext]
  simp [hsplit, hspelling, hnone]

/-- **An argument is sorted as it is meant.** -/
theorem classify_text (t : Argument) : classify t.text = .ok t.word := by
  cases t with
  | arch a => exact classify_attached "--arch" (by decide) rfl a.name
  | sectionName name => exact classify_attached "--section" (by decide) rfl name
  | base n => exact classify_attached "--base" (by decide) rfl (Text.hex n)
  | raw => rfl
  | json => rfl
  | verbose => rfl
  | debug => rfl

/-- No argument ends the options. -/
theorem text_ne_dashes (t : Argument) : t.text ≠ dashes := by
  intro h
  have hrefused : (classify dashes).toOption = none := by decide +kernel
  rw [← h, classify_text] at hrefused
  cases hrefused

/-- Arguments are sorted one by one. -/
theorem words_append {rest : List String} {more : List Word} (h : words rest = .ok more)
    (ts : List Argument) :
    words (ts.map Argument.text ++ rest) = .ok (ts.map Argument.word ++ more) := by
  induction ts with
  | nil => exact h
  | cons t ts ih =>
    rw [List.map_cons, List.cons_append, words, if_neg (text_ne_dashes t), classify_text, ih]
    rfl

/-! ## Settings -/

/-- The settings with one argument more. -/
def Settings.given (s : Settings) : Argument → Settings
  | .arch a => { s with archs := s.archs ++ [a] }
  | .sectionName name => { s with sectionNames := s.sectionNames ++ [name] }
  | .base n => { s with base := some n }
  | .raw => { s with raw := true }
  | .json => { s with json := true }
  | .verbose => { s with verbose := true }
  | .debug => { s with debug := true }

/-- A value that is not `--` is set. -/
theorem setAttached_of_ne {s : Settings} {o : Opt} {value : String} (h : value ≠ dashes) :
    s.setAttached o value = s.set o value := if_neg h

/-- No number in hexadecimal is `--`. -/
theorem hex_ne_dashes (n : Int) : Text.hex n ≠ dashes := by
  intro h
  have hrefused : (Text.readInteger .marked dashes).toOption = none := by decide +kernel
  rw [← h, Text.readInteger_hex] at hrefused
  cases hrefused

/-- An option with an attached value is set to it. -/
theorem take_attached {o : Opt} (ho : o.takesValue = true) (s : Settings) (oneDash : Bool)
    (value : String) (rest : List Word) :
    take s (.option o oneDash (some value.toList) :: rest) =
      s.setAttached o value >>= fun s => take s rest := by
  rw [take, if_pos ho, String.ofList_toList]

/-- Options without a value are switched on, those that share a dash one by one. -/
theorem take_switches {o : Opt} (ho : o.takesValue = false) (s : Settings) (oneDash : Bool)
    (attached : Option (List Char)) (rest : List Word) :
    take s (.option o oneDash attached :: rest) =
      (switches o oneDash attached).mapError .refused >>= fun os =>
        os.foldlM Settings.switch s >>= fun s => take s rest := by
  rw [take.eq_def]
  exact if_neg (by rw [ho]; exact Bool.false_ne_true)

/-- An option without a value is switched on. -/
theorem take_switch {o : Opt} (ho : o.takesValue = false) (s : Settings) (oneDash : Bool)
    (rest : List Word) :
    take s (.option o oneDash none :: rest) = s.switch o >>= fun s => take s rest := by
  rw [take_switches ho]
  show [o].foldlM Settings.switch s >>= (fun s => take s rest) = _
  rw [List.foldlM_cons, bind_assoc]
  rfl

/-- **An argument sets what it says**, unless it asks for the section `--`. -/
theorem take_word {t : Argument} (h : t ≠ .sectionName dashes) (s : Settings) (rest : List Word) :
    take s (t.word :: rest) = take (s.given t) rest := by
  cases t with
  | arch a =>
    have hname : a.name ≠ dashes := by
      cases a <;> decide
    rw [Argument.word, take_attached rfl, setAttached_of_ne hname, Settings.set, Arch.ofName?_name]
    rfl
  | sectionName name =>
    have hname : name ≠ dashes := fun heq => h (heq ▸ rfl)
    rw [Argument.word, take_attached rfl, setAttached_of_ne hname]
    rfl
  | base n =>
    rw [Argument.word, take_attached rfl, setAttached_of_ne (hex_ne_dashes n), Settings.set,
      Text.readInteger_hex]
    rfl
  | raw => exact take_switch rfl s false rest
  | json => exact take_switch rfl s false rest
  | verbose => exact take_switch rfl s true rest
  | debug => exact take_switch rfl s false rest

/-- Arguments are taken one by one. -/
theorem take_words {ts : List Argument} (h : .sectionName dashes ∉ ts) (s : Settings)
    (rest : List Word) :
    take s (ts.map Argument.word ++ rest) = take (ts.foldl Settings.given s) rest := by
  induction ts generalizing s with
  | nil => rfl
  | cons t ts ih =>
    rw [List.map_cons, List.cons_append, take_word (fun heq => h (heq ▸ List.mem_cons_self)),
      ih fun hmem => h (List.mem_cons_of_mem t hmem), List.foldl_cons]

/-- What arguments set in the end: lists grow in the order of the arguments, and of several
addresses the last one counts. -/
theorem given_arguments (ts : List Argument) (s : Settings) :
    ts.foldl Settings.given s =
      { s with
        archs := s.archs ++ ts.filterMap Argument.arch?
        sectionNames := s.sectionNames ++ ts.filterMap Argument.sectionName?
        base := (ts.filterMap Argument.base?).getLast?.or s.base
        raw := s.raw || ts.contains .raw
        json := s.json || ts.contains .json
        verbose := s.verbose || ts.contains .verbose
        debug := s.debug || ts.contains .debug } := by
  induction ts generalizing s with
  | nil => simp
  | cons t ts ih =>
    rw [List.foldl_cons, ih]
    cases t <;> simp [Settings.given, List.filterMap_cons, Argument.arch?, Argument.sectionName?,
      Argument.base?, List.getLast?_cons, -List.getLast?_filterMap]

/-! ## Command lines -/

/-- What is wanted of a run, and how its outcome is to be printed. -/
structure Demand where
  sample : String
  /-- The architectures to scan for; all of them if none is listed. -/
  archs : List Arch := []
  /-- The sections to scan; all of them if none is listed. -/
  sectionNames : List String := []
  raw : Bool := false
  /-- Where a raw sample is loaded. -/
  base : Option Int := none
  json : Bool := false
  verbose : Bool := false
  debug : Bool := false
  /-- Only a raw sample is given an address. -/
  raw_of_base : base ≠ none → raw = true := by decide
  /-- No section can be asked for by the name `--`. -/
  dashes_not_mem : dashes ∉ sectionNames := by decide

namespace Demand

/-- The argument for a switch, if it is wanted. -/
def switch (wanted : Bool) (t : Argument) : List Argument := if wanted then [t] else []

/-- The arguments that say what is wanted, in one of their orders. -/
def arguments (d : Demand) : List Argument :=
  d.archs.map Argument.arch ++ d.sectionNames.map Argument.sectionName ++
    d.base.toList.map Argument.base ++ switch d.raw .raw ++ switch d.json .json ++
    switch d.verbose .verbose ++ switch d.debug .debug

/-- The arguments in another order, which is free but for architectures and for section names. -/
structure IsOrder (d : Demand) (ts : List Argument) : Prop where
  perm : ts.Perm d.arguments
  archs : ts.filterMap Argument.arch? = d.archs
  sectionNames : ts.filterMap Argument.sectionName? = d.sectionNames

/-- The command line with arguments in some order. -/
def commandLine (d : Demand) (ts : List Argument) : List String :=
  ts.map Argument.text ++ [dashes, d.sample]

/-- The path of the sample. -/
def path (d : Demand) : Path := .ofString d.sample

/-- The choices for the run. -/
def options (d : Demand) : Options where
  archs := if d.archs = [] then Arch.all else d.archs
  sectionNames := d.sectionNames
  raw := d.raw
  rawBase := d.base.getD 0

/-- The request for it. -/
def request (d : Demand) : Request where
  path := d.path
  options := d.options
  json := d.json
  verbose := d.verbose
  debug := d.debug
  namelessArch := false
  namelessSection := false

/-- A switch is there if it is wanted. -/
theorem mem_switch {wanted : Bool} {t u : Argument} :
    u ∈ switch wanted t ↔ wanted = true ∧ u = t := by
  cases wanted <;> simp [switch]

/-- The switches that are among the arguments. -/
theorem mem_arguments (d : Demand) :
    (.raw ∈ d.arguments ↔ d.raw = true) ∧ (.json ∈ d.arguments ↔ d.json = true) ∧
      (.verbose ∈ d.arguments ↔ d.verbose = true) ∧ (.debug ∈ d.arguments ↔ d.debug = true) := by
  simp [arguments, mem_switch]

/-- The address that is among the arguments. -/
theorem filterMap_base?_arguments (d : Demand) :
    d.arguments.filterMap Argument.base? = d.base.toList := by
  have hswitch : ∀ wanted t, t.base? = none → (switch wanted t).filterMap Argument.base? = [] := by
    intro wanted t ht
    rw [List.filterMap_eq_nil_iff]
    intro u hu
    rw [(mem_switch.1 hu).2, ht]
  simp only [arguments, List.filterMap_append, List.filterMap_map, hswitch d.raw .raw rfl,
    hswitch d.json .json rfl, hswitch d.verbose .verbose rfl, hswitch d.debug .debug rfl]
  simp [Function.comp_def, Argument.base?]

namespace IsOrder

variable {d : Demand} {ts : List Argument}

/-- A switch is on the command line if it is wanted. -/
theorem contains_eq (h : d.IsOrder ts) {t : Argument} {wanted : Bool}
    (ht : t ∈ d.arguments ↔ wanted = true) : ts.contains t = wanted := by
  rw [Bool.eq_iff_iff, List.contains_iff_mem, h.perm.mem_iff, ht]

/-- The address on the command line. -/
theorem base_eq (h : d.IsOrder ts) : (ts.filterMap Argument.base?).getLast? = d.base := by
  have hperm := h.perm.filterMap Argument.base?
  rw [filterMap_base?_arguments] at hperm
  cases hbase : d.base with
  | none =>
    rw [hbase] at hperm
    rw [List.perm_nil.1 hperm]
    rfl
  | some n =>
    rw [hbase] at hperm
    rw [List.perm_singleton.1 hperm]
    rfl

/-- No section is asked for by the name `--`. -/
theorem dashes_not_mem (h : d.IsOrder ts) : Argument.sectionName dashes ∉ ts := by
  intro hmem
  apply d.dashes_not_mem
  rw [← h.sectionNames]
  exact List.mem_filterMap.2 ⟨_, hmem, rfl⟩

/-- What the arguments set. -/
theorem settings_eq (h : d.IsOrder ts) :
    ts.foldl Settings.given {} =
      { archs := d.archs, sectionNames := d.sectionNames, raw := d.raw, base := d.base,
        json := d.json, verbose := d.verbose, debug := d.debug } := by
  obtain ⟨hraw, hjson, hverbose, hdebug⟩ := d.mem_arguments
  rw [given_arguments, h.archs, h.sectionNames, h.base_eq, h.contains_eq hraw,
    h.contains_eq hjson, h.contains_eq hverbose, h.contains_eq hdebug]
  simp

end IsOrder

/-- **A command line is read as the request it is written for.** -/
theorem parse_commandLine {d : Demand} {ts : List Argument} (h : d.IsOrder ts) :
    parse (d.commandLine ts) = .ok d.request := by
  have hwords : words (d.commandLine ts) =
      .ok (ts.map Argument.word ++ [.dashes, .value d.sample]) :=
    words_append (words_dashes [d.sample]) ts
  have htake : take {} (ts.map Argument.word ++ [.dashes, .value d.sample]) =
      .ok { sample := some d.sample, archs := d.archs, sectionNames := d.sectionNames, raw := d.raw,
            base := d.base, json := d.json, verbose := d.verbose, debug := d.debug } := by
    rw [take_words h.dashes_not_mem, h.settings_eq]
    rfl
  have hbase : ¬(d.base.isSome ∧ !d.raw) := by
    rintro ⟨hsome, hraw⟩
    rw [d.raw_of_base (Option.isSome_iff_ne_none.1 hsome)] at hraw
    cases hraw
  rw [parse, hwords]
  refine bind_eq_ok_iff.2 ⟨_, rfl, bind_eq_ok_iff.2 ⟨_, htake, mapError_eq_ok_iff.2 ?_⟩⟩
  simp only [Settings.finish, ne_eq, not_true_eq_false, if_false, if_neg hbase]
  simp [request, options, path]

end Demand

/-! ## Calls -/

/-- What is printed for a run, if it has a report and this can be written. -/
def Request.print (request : Request) (run : Except Abort Outcome) : Except Breakdown Printed := do
  let o ← run.mapError .run
  checkDocument request o.report
  return present request o

/-- Where every name is one, a request is a run that is printed. -/
theorem perform_eq_print {request : Request} {found : Lookup}
    (h : checkNames request found = .ok ()) :
    perform request found =
      request.print (run .defaults request.path request.options found) := by
  rw [perform, h]
  rfl

/-- **A call with the command line for a demand is the run that is wanted**, printed as it is
wanted, in whatever order the arguments stand. -/
theorem execute_commandLine {d : Demand} {ts : List Argument} (h : d.IsOrder ts) :
    parse (d.commandLine ts) = .ok d.request ∧
      ∀ find, execute (d.commandLine ts) find =
        d.request.print (run .defaults d.path d.options (find d.path)) := by
  have hparse := Demand.parse_commandLine h
  refine ⟨hparse, fun find => ?_⟩
  rw [execute, hparse]
  exact perform_eq_print (checkNames_of_named rfl rfl)

/-- A demand with names that look like other things. -/
def hostileDemand : Demand where
  sample := "--json"
  archs := [.ppcBE, .x64, .ppcBE]
  sectionNames := ["-v", "", "--section=a b", "-0x10"]
  raw := true
  base := some (-0x10)
  verbose := true

/-- The arguments for it, in some order. -/
def hostileArguments : List Argument :=
  [.sectionName "-v", .verbose, .arch .ppcBE, .sectionName "", .base (-0x10), .arch .x64,
    .sectionName "--section=a b", .raw, .sectionName "-0x10", .arch .ppcBE]

/-- The command line for `hostileDemand` is what one would type, and asks for just that. -/
theorem execute_hostileArguments :
    hostileDemand.commandLine hostileArguments =
      ["--section=-v", "-v", "--arch=ppc-be", "--section=", "--base=-0x10", "--arch=x64",
        "--section=--section=a b", "--raw", "--section=-0x10", "--arch=ppc-be", "--", "--json"] ∧
    hostileDemand.IsOrder hostileArguments ∧
    parse (hostileDemand.commandLine hostileArguments) = .ok hostileDemand.request ∧
      ∀ find, execute (hostileDemand.commandLine hostileArguments) find =
        hostileDemand.request.print
          (run .defaults hostileDemand.path hostileDemand.options (find hostileDemand.path)) := by
  have horder : hostileDemand.IsOrder hostileArguments :=
    ⟨by decide, by decide, by decide⟩
  exact ⟨by decide, horder, execute_commandLine horder⟩

end SigScan.CommandLine
