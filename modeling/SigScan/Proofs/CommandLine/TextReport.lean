/-
# The lines of a text report

A text report has a line for each match, and prints the names of sections as they are. So a line
feed in a name is one in the report: the text has as many line feeds as there are matches and line
feeds in the names, and its lines are the lines of the matches exactly if no name has one.

* `linesOf_unlines_iff`: printed lines are the lines of the text if there are no other line feeds;
* `lineFeeds_matchLine`: a match line has the line feeds of its section's name;
* `printsMatches`: what a call prints for a sample with matches.
-/
import SigScan.CommandLine.Program
import SigScan.Proofs.Elf.SectionImage
import SigScan.Proofs.MatchLine
import SigScan.Proofs.Transcript

namespace SigScan

/-! ## Lines -/

namespace CommandLine

/-- How often a text has a line feed. -/
def lineFeeds (text : String) : Nat := text.toList.count '\n'

/-- The lines of a text, each up to its line feed; what is behind the last one is no line. -/
def linesOf (text : String) : List (List Char) := (text.toList.splitOn '\n').dropLast

/-- A text has as many lines as line feeds. -/
theorem length_linesOf (text : String) : (linesOf text).length = lineFeeds text := by
  have hpieces : ∀ l : List Char, (l.splitOn '\n').length = l.count '\n' + 1 := by
    intro l
    induction l with
    | nil => rfl
    | cons c l ih =>
      rw [List.splitOn_cons_eq_if_modifyHead, List.count_cons]
      split
      · rw [List.length_cons, ih]
      · rw [List.length_modifyHead, ih, Nat.add_zero]
  rw [linesOf, List.length_dropLast, hpieces, Nat.add_sub_cancel]
  rfl

/-- The characters of lines with their line ends. -/
theorem toList_unlines (lines : List String) :
    (unlines lines).toList = ['\n'].intercalate (lines.map String.toList ++ [[]]) := by
  rw [unlines, String.toList_join]
  induction lines with
  | nil => rfl
  | cons line rest ih =>
    have hmore : rest.map String.toList ++ [[]] ≠ [] := by simp
    rw [List.map_cons, List.flatMap_cons, ih, List.map_cons, List.cons_append,
      List.intercalate_cons_of_ne_nil hmore, String.toList_append]
    rfl

/-- The line feeds of lines with their line ends. -/
theorem lineFeeds_unlines (lines : List String) :
    lineFeeds (unlines lines) = lines.length + (lines.map lineFeeds).sum := by
  unfold lineFeeds
  rw [unlines, String.toList_join]
  induction lines with
  | nil => rfl
  | cons line rest ih =>
    have hend : (line ++ "\n").toList.count '\n' = line.toList.count '\n' + 1 := by
      rw [String.toList_append, List.count_append]
      rfl
    rw [List.map_cons, List.flatMap_cons, List.count_append, ih, hend, List.map_cons,
      List.sum_cons, List.length_cons]
    omega

/-- **Printed lines are the lines of the text** exactly if they have no line feeds themselves. -/
theorem linesOf_unlines_iff {lines : List String} :
    linesOf (unlines lines) = lines.map String.toList ↔ ∀ line ∈ lines, lineFeeds line = 0 := by
  constructor
  · intro h
    have hlength := congrArg List.length h
    rw [length_linesOf, lineFeeds_unlines, List.length_map] at hlength
    have hsum : (lines.map lineFeeds).sum = 0 := by omega
    intro line hline
    exact List.sum_eq_zero_iff.1 hsum _ (List.mem_map_of_mem hline)
  · intro h
    have hapart : ∀ l ∈ lines.map String.toList ++ [[]], '\n' ∉ l := by
      rw [List.forall_mem_append]
      refine ⟨?_, by decide⟩
      intro l hl
      obtain ⟨line, hline, rfl⟩ := List.mem_map.1 hl
      exact List.count_eq_zero.1 (h line hline)
    rw [linesOf, toList_unlines, List.splitOn_intercalate '\n' hapart (by simp),
      List.dropLast_concat]

end CommandLine

/-! ## Match lines -/

namespace Report

open CommandLine

/-- The characters of a number in hexadecimal are no line feeds. -/
theorem lineFeeds_hex (n : Int) : lineFeeds (Text.hex n) = 0 := by
  rw [lineFeeds, List.count_eq_zero]
  exact Text.not_mem_hex (by decide) n

/-- Zeros do not change that. -/
theorem lineFeeds_paddedHex (width : Nat) (n : Int) : lineFeeds (Text.paddedHex width n) = 0 := by
  rw [lineFeeds, List.count_eq_zero]
  exact Text.not_mem_paddedHex (by decide) width n

/-- Spaces behind a text are no line feeds. -/
theorem lineFeeds_padRight (width : Nat) (s : String) :
    lineFeeds (padRight width s) = lineFeeds s := by
  rw [lineFeeds, toList_padRight, List.count_append, List.count_replicate]
  rfl

/-- **A match line has the line feeds of its section's name.** -/
theorem lineFeeds_matchLine (m : Match × String) : lineFeeds (matchLine m) = lineFeeds m.2 := by
  have happend : ∀ s t : String, lineFeeds (s ++ t) = lineFeeds s + lineFeeds t := by
    intro s t
    rw [lineFeeds, String.toList_append, List.count_append]
    rfl
  have harch : lineFeeds m.1.arch.name = 0 := by
    cases m.1.arch <;> decide
  have hbetween : lineFeeds " " = 0 ∧ lineFeeds " +" = 0 ∧ lineFeeds "  " = 0 ∧
      lineFeeds "moduledata=" = 0 := by decide
  rw [matchLine_eq]
  simp only [happend, lineFeeds_padRight, lineFeeds_paddedHex, lineFeeds_hex, harch]
  omega

end Report

/-! ## Calls -/

namespace CommandLine

/-- What is printed for the matches of a report. -/
structure PrintsMatches (printed : Printed) (r : Report) : Prop where
  /-- Finding something is success. -/
  exit : printed.exit = 0
  /-- The output is the lines of the matches, one behind the other. -/
  stdout : printed.stdout = unlines (r.placedMatches.map Report.matchLine)
  /-- There is a line for each match. -/
  matched : r.placedMatches.length = r.found.length
  /-- Each match and each line feed in the name of its section is a line feed of the output. -/
  lineFeeds : lineFeeds printed.stdout = r.found.length + (r.foundIn.map lineFeeds).sum
  /-- The lines of the output are those of the matches exactly if no name has a line feed. -/
  lines_iff : linesOf printed.stdout = r.placedMatches.map (fun m => (Report.matchLine m).toList) ↔
    ∀ name ∈ r.foundIn, CommandLine.lineFeeds name = 0

/-- What is presented of a report with matches, in text without a log. -/
theorem present_printsMatches {request : Request} {o : Outcome} {wanted : List Arch}
    (hjson : request.json = false) (hverbose : request.verbose = false)
    (htells : o.report.Transcribes .defaults wanted) (hfound : o.report.found ≠ []) :
    PrintsMatches (present request o) o.report := by
  have hnames : o.report.placedMatches.map (·.2) = o.report.foundIn :=
    List.map_snd_zip (Nat.le_of_eq htells.aligned.symm)
  have hmatched : o.report.placedMatches.length = o.report.found.length := by
    rw [Report.placedMatches, List.length_zip, ← htells.aligned, Nat.min_self]
  have herror : o.report.error = none := by
    by_contra herror
    exact hfound (htells.nothing_of_error herror).1
  have hany : o.report.hasMatches = true := by
    rw [Report.hasMatches, List.isEmpty_eq_false_iff.2 hfound]
    rfl
  have hlines : o.report.lines = o.report.placedMatches.map Report.matchLine := by
    rw [Report.lines, hany, Bool.not_true, Bool.and_false]
    exact List.append_nil _
  have hstdout : (present request o).stdout =
      unlines (o.report.placedMatches.map Report.matchLine) := by
    show standardOutput request o.report = _
    rw [standardOutput, hjson, hverbose, hlines]
    rfl
  constructor
  case exit =>
    show exitStatus o.report = 0
    rw [exitStatus, herror, hany]
    rfl
  case stdout => exact hstdout
  case matched => exact hmatched
  case lineFeeds =>
    have hsum : (o.report.placedMatches.map Report.matchLine).map CommandLine.lineFeeds =
        o.report.foundIn.map CommandLine.lineFeeds := by
      rw [← hnames, List.map_map, List.map_map]
      apply List.map_congr_left
      intro m _
      exact Report.lineFeeds_matchLine m
    rw [hstdout, lineFeeds_unlines, List.length_map, hmatched, hsum]
  case lines_iff =>
    have hmap : o.report.placedMatches.map (fun m => (Report.matchLine m).toList) =
        (o.report.placedMatches.map Report.matchLine).map String.toList := by
      rw [List.map_map]
      rfl
    rw [hstdout, hmap, linesOf_unlines_iff, ← hnames, List.forall_mem_map, List.forall_mem_map]
    simp only [Report.lineFeeds_matchLine]

/-- A call in text that runs to its end prints the outcome. -/
theorem execute_eq_present {arguments : List String} {find : Path → Lookup} {request : Request}
    {o : Outcome} (hparse : parse arguments = .ok request) (hjson : request.json = false)
    (hnames : checkNames request (find request.path) = .ok ())
    (hrun : run .defaults request.path request.options (find request.path) = .ok o) :
    execute arguments find = .ok (present request o) := by
  have hdocument : checkDocument request o.report = .ok () := by
    rw [checkDocument, hjson]
    rfl
  rw [execute, hparse]
  exact bind_eq_ok_iff.2 ⟨(), hnames, bind_eq_ok_iff.2 ⟨o, mapError_eq_ok_iff.2 hrun,
    bind_eq_ok_iff.2 ⟨(), hdocument, rfl⟩⟩⟩

/-- **A text report has a line for each match**, and the line feeds in the names besides. -/
theorem printsMatches {arguments : List String} {find : Path → Lookup} {request : Request}
    {o : Outcome} (hparse : parse arguments = .ok request) (hjson : request.json = false)
    (hverbose : request.verbose = false)
    (hnames : checkNames request (find request.path) = .ok ())
    (hrun : run .defaults request.path request.options (find request.path) = .ok o)
    (hfound : o.report.found ≠ []) :
    ∃ printed, execute arguments find = .ok printed ∧ PrintsMatches printed o.report :=
  ⟨present request o, execute_eq_present hparse hjson hnames hrun,
    present_printsMatches hjson hverbose (transcribes_of_run hrun) hfound⟩

/-! ## A sample with one match -/

/-- A file with one code section, and one match in it. -/
def namedFile (name : String) : Bytes :=
  Elf.SectionImage.file {
    wordSize := .bits64
    order := .little
    machine := Elf.machineX64
    preamble := ⟨2, 1, 0x401000, 0⟩
    sections := [⟨name, .stored, 6, 0x401000, 16, rawIdiom⟩]
    filler := #[] }

/-- A directory with the file in it. -/
def namedTree (name : String) : FileTree := .ofLists [] [("a", namedFile name)]

/-- The request of a call with nothing but the path of the file. -/
def plainRequest : Request := ⟨Path.ofString "a", {}, false, false, false, false, false⟩

/-- A call with nothing but the path of the file makes that request. -/
theorem parse_plainRequest : parse ["a"] = .ok plainRequest := by decide +kernel

/-- The path leads to the file. -/
theorem lookup_namedTree (name : String) :
    (namedTree name).lookup plainRequest.path = .file (namedFile name) :=
  FileTree.lookup_single _ (by decide) (by decide) (by decide) (by decide)

/-- A run of the file that is seen to have one match, in the section of the name. -/
theorem run_namedTree (name : String)
    (h : (run .defaults plainRequest.path plainRequest.options
      (.file (namedFile name))).toOption.map (fun o => (o.report.found, o.report.foundIn)) =
        some ([⟨.x64, 0, 0x66EA96⟩], [name])) :
    ∃ o, run .defaults plainRequest.path plainRequest.options
        ((namedTree name).lookup plainRequest.path) = .ok o ∧
      o.report.found = [⟨.x64, 0, 0x66EA96⟩] ∧ o.report.foundIn = [name] := by
  rw [lookup_namedTree]
  obtain ⟨o, hrun, htold⟩ := exists_of_toOption_map h
  obtain ⟨hfound, hfoundIn⟩ := Prod.mk.inj htold
  exact ⟨o, hrun, hfound, hfoundIn⟩

/-- A name without line feeds: the output is one line. -/
theorem printsMatches_plainName : ∃ o printed,
    parse ["a"] = .ok plainRequest ∧ plainRequest.json = false ∧ plainRequest.verbose = false ∧
    checkNames plainRequest ((namedTree ".text").lookup plainRequest.path) = .ok () ∧
    run .defaults plainRequest.path plainRequest.options
      ((namedTree ".text").lookup plainRequest.path) = .ok o ∧
    o.report.found ≠ [] ∧
    execute ["a"] (namedTree ".text").lookup = .ok printed ∧ PrintsMatches printed o.report := by
  obtain ⟨o, hrun, hfound, -⟩ := run_namedTree ".text" (by decide +kernel)
  have hne : o.report.found ≠ [] := by
    rw [hfound]
    exact List.cons_ne_nil _ _
  obtain ⟨printed, hprinted, hprints⟩ :=
    printsMatches parse_plainRequest rfl rfl (checkNames_of_named rfl rfl) hrun hne
  exact ⟨o, printed, parse_plainRequest, rfl, rfl, checkNames_of_named rfl rfl, hrun, hne, hprinted,
    hprints⟩

/-- **A name with a line feed breaks the line of its match**: one match, two line feeds. -/
theorem lineFeeds_brokenName : ∃ o printed,
    parse ["a"] = .ok plainRequest ∧ plainRequest.json = false ∧ plainRequest.verbose = false ∧
    run .defaults plainRequest.path plainRequest.options
      ((namedTree ".te\nxt").lookup plainRequest.path) = .ok o ∧
    o.report.found.length = 1 ∧
    execute ["a"] (namedTree ".te\nxt").lookup = .ok printed ∧
    lineFeeds printed.stdout = 2 ∧
    linesOf printed.stdout ≠ o.report.placedMatches.map fun m => (Report.matchLine m).toList := by
  obtain ⟨o, hrun, hfound, hfoundIn⟩ := run_namedTree ".te\nxt" (by decide +kernel)
  have hne : o.report.found ≠ [] := by
    rw [hfound]
    exact List.cons_ne_nil _ _
  have hprints : PrintsMatches (present plainRequest o) o.report :=
    present_printsMatches rfl rfl (transcribes_of_run hrun) hne
  refine ⟨o, present plainRequest o, parse_plainRequest, rfl, rfl, hrun, by rw [hfound]; rfl,
    execute_eq_present parse_plainRequest rfl (checkNames_of_named rfl rfl) hrun, ?_, ?_⟩
  · rw [hprints.lineFeeds, hfound, hfoundIn]
    decide
  · intro hlines
    have hmem : ".te\nxt" ∈ o.report.foundIn := by
      rw [hfoundIn]
      exact List.mem_singleton_self _
    have hname := hprints.lines_iff.1 hlines _ hmem
    revert hname
    decide

end CommandLine

end SigScan
