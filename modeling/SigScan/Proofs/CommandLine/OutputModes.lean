/-
# One outcome in all output modes

Command lines that differ only in what is to be printed ask for the same run, end with the same exit
status, and tell the same matches: as lines of text, with the log or without, or as a document. The
trace and the error go to the standard error.

One thing comes between. A document has its numbers in decimal, and a number of more digits than may
be written in decimal ends a call for a document, though the text of the same report, in
hexadecimal, can be printed. Addresses in an image are short enough, but that of a raw sample need
not be.

* `isWritable_json_of_run_iff`: which reports of runs can be written as a document;
* `fitsDecimal_iff_of_run`: for a file of any real size, all but those of raw samples at long
  addresses;
* `present_tells`: what is printed of an outcome;
* `execute_others`: the calls for one outcome in all output modes.
-/
import SigScan.Proofs.CommandLine.Display
import SigScan.Proofs.CommandLine.TextReport
import SigScan.Proofs.Document
import SigScan.Proofs.LoadAddress
import SigScan.Proofs.Signature.Safety

namespace SigScan

/-! ## Documents that can be written -/

namespace Text.Json

/-- A list can be written if its items can. -/
theorem isWritable_list_iff {items : List Json} :
    (Json.list items).isWritable = true ↔ ∀ v ∈ items, v.isWritable = true := by
  rw [isWritable]
  induction items with
  | nil => simp [itemsWritable]
  | cons v rest ih => rw [itemsWritable, Bool.and_eq_true, ih, List.forall_mem_cons]

/-- A record can be written if the values of its fields can. -/
theorem isWritable_record_iff {fields : List (String × Json)} :
    (Json.record fields).isWritable = true ↔ ∀ f ∈ fields, f.2.isWritable = true := by
  rw [isWritable]
  induction fields with
  | nil => simp [fieldsWritable]
  | cons f rest ih => rw [fieldsWritable, Bool.and_eq_true, ih, List.forall_mem_cons]

end Text.Json

namespace Report

/-- Is a number short enough to be written in decimal? -/
def Short (n : Int) : Prop := n.natAbs < 10 ^ Text.digitLimit

instance : DecidablePred Short := fun n =>
  inferInstanceAs (Decidable (n.natAbs < 10 ^ Text.digitLimit))

/-- The addresses and the sizes of the sections are short enough to be written in decimal. -/
def FitsDecimal (r : Report) : Prop :=
  ∀ s ∈ r.sections, Short s.base ∧ Short s.content.size

instance (r : Report) : Decidable r.FitsDecimal :=
  inferInstanceAs (Decidable (∀ s ∈ r.sections, Short s.base ∧ Short s.content.size))

/-- A section can be written if its address and its size can. -/
theorem isWritable_jsonSection_iff {s : Section} :
    (jsonSection s).isWritable = true ↔ Short s.base ∧ Short s.content.size := by
  rw [jsonSection, Text.Json.isWritable_record_iff]
  simp [Text.Json.isWritable, Text.isWritable_iff, Short]

/-- A match can be written if its offset and its address can. -/
theorem isWritable_jsonMatch_iff {m : Match × String} :
    (jsonMatch m).isWritable = true ↔ Short m.1.offset ∧ Short m.1.address := by
  rw [jsonMatch, Text.Json.isWritable_record_iff]
  simp [Text.Json.isWritable, Text.isWritable_iff, Short]

/-- A report can be written if its sections and its matches can. -/
theorem isWritable_json_iff {r : Report} :
    r.json.isWritable = true ↔
      r.FitsDecimal ∧ ∀ m ∈ r.placedMatches, Short m.1.offset ∧ Short m.1.address := by
  have htext : ∀ t, (jsonText? t).isWritable = true := by
    intro t
    cases t <;> rfl
  rw [json, Text.Json.isWritable_record_iff]
  simp only [List.forall_mem_cons, Text.Json.isWritable_list_iff, List.forall_mem_map,
    isWritable_jsonSection_iff, isWritable_jsonMatch_iff, htext, FitsDecimal]
  simp [Text.Json.isWritable]

/-- The addresses of an architecture are short. -/
theorem short_of_lt_addressLimit {s : Signature} {n : Int} (hpos : 0 ≤ n)
    (hlt : n < s.addressLimit) : Short n := by
  have hlimit : s.addressLimit ≤ 2 ^ 64 := by
    cases s with
    | x64 | ppcBE => exact Int.le_of_eq rfl
    | x86 => exact (by decide : (0x100000000 : Int) ≤ 2 ^ 64)
  have hshort : 2 ^ 64 < 10 ^ Text.digitLimit := by decide +kernel
  unfold Short
  omega

/-- A match is told in short numbers, where the size of the code is short. -/
theorem short_of_mem_find {r : Registry} {code : Bytes} {base : Int} {wanted : List Arch}
    {found : List Match} (h : r.find code base wanted = .ok found) (hsize : Short code.size)
    {m : Match} (hm : m ∈ found) : Short m.offset ∧ Short m.address := by
  obtain ⟨s, -, part, hresolve, hm⟩ := Registry.exists_resolve_of_mem_find h hm
  rw [Signature.eq_listing_of_resolve hresolve] at hm
  obtain ⟨offset, hoccurs, address, haddress, rfl⟩ := Signature.mem_listing.1 hm
  obtain ⟨hpos, hlt⟩ := Signature.address_range haddress
  have hle : offset + Pattern.size s.pattern ≤ code.size := hoccurs.1
  refine ⟨?_, short_of_lt_addressLimit hpos hlt⟩
  unfold Short at hsize ⊢
  simp only
  omega

/-- **The document of a run can be written** if the addresses and sizes of the sections can. -/
theorem isWritable_json_of_run_iff {r : Registry} {path : Path} {options : Options}
    {found : Lookup} {o : Outcome} (h : run r path options found = .ok o) :
    o.report.json.isWritable = true ↔ o.report.FitsDecimal := by
  have htold := transcribes_of_run h
  rw [isWritable_json_iff, and_iff_left_of_imp]
  intro hfits m hm
  rw [htold.placed, List.mem_flatMap] at hm
  obtain ⟨s, hs, hplaced⟩ := hm
  obtain ⟨n, hn, rfl⟩ := List.mem_map.1 hplaced
  exact short_of_mem_find (htold.scanned s hs) (hfits s hs).2 hn

/-- **Which documents of files can be written**: for a file of any real size, all of them but those
of raw samples at long addresses. -/
theorem fitsDecimal_iff_of_run {r : Registry} {path : Path} {options : Options} {file : Bytes}
    {o : Outcome} (h : run r path options (.file file) = .ok o) (hsize : Short file.size) :
    o.report.FitsDecimal ↔ (options.raw = true → Short options.rawBase) := by
  have hsizes : ∀ s ∈ o.report.sections, Short s.content.size := by
    intro s hs
    obtain ⟨p, hle, -⟩ := isFrom_of_run h s hs
    unfold Short at hsize ⊢
    omega
  have hfits : o.report.FitsDecimal ↔ ∀ s ∈ o.report.sections, Short s.base :=
    forall₂_congr fun s hs => and_iff_left (hsizes s hs)
  rw [hfits]
  rcases run_eq_ok h with ⟨hnothing, _, f, rfl⟩ | ⟨format, sections, trace, htoScan, hscan⟩
  · refine iff_of_true (fun s hs => absurd hs List.not_mem_nil) fun htrue => ?_
    cases hnothing with
    | noFile hno => cases hno
    | corrupt hraw => simp [hraw] at htrue
    | unknownFormat hraw => simp [hraw] at htrue
  · rw [(sections_of_scanSections hscan).1]
    cases htoScan with
    | raw _ hraw =>
      rw [List.forall_mem_singleton]
      exact ⟨fun hbase _ => hbase, fun hbase => hbase hraw⟩
    | image hraw hload =>
      refine iff_of_true ?_ fun htrue => by simp [hraw] at htrue
      intro s hs
      obtain ⟨loaded, hall, rfl⟩ := load_eq_some_iff.1 hload
      obtain ⟨hpos, hlt⟩ := base_of_mem_loadAll hall (Section.mem_keepNamed.1 hs).1
      have hshort : 2 ^ 65 < 10 ^ Text.digitLimit := by decide +kernel
      unfold Short
      omega

end Report

/-! ## What is printed -/

namespace CommandLine

/-- Lines behind other lines. -/
theorem unlines_append (lines more : List String) :
    unlines (lines ++ more) = unlines lines ++ unlines more := by
  rw [unlines, List.map_append, String.join_append]
  rfl

/-- What is printed of an outcome: its exit status, its error and all of its matches, in the form
that is asked for. -/
structure Tells (request : Request) (o : Outcome) (printed : Printed) : Prop where
  /-- Finding something is success, and nothing else is. -/
  exit : printed.exit = if o.report.found = [] then 1 else 0
  /-- The trace, if it is asked for, and the error, if there is one. -/
  stderr : printed.stderr = unlines (if request.debug then o.trace.map TraceStep.line else []) ++
    o.report.error.elim "" fun e => s!"Error: {e}\n"
  /-- The document is printed alone. -/
  document : request.json = true → printed.stdout = o.report.json.render ++ "\n"
  /-- What is read back from the document is what the report tells. -/
  readBack : (Text.Json.read? o.report.json.render).bind Contents.ofJson? = some o.report.contents
  /-- In text there is the log, if it is asked for, and a line for each match in order. If nothing
  went wrong and nothing was found, there is a line to say so. -/
  text : request.json = false → printed.stdout = unlines (
    (if request.verbose then o.report.log else []) ++ o.report.placedMatches.map Report.matchLine ++
      if o.report.error = none ∧ o.report.found = [] then ["No module data reference found"] else [])
  /-- Those lines are for the matches and the places that the document has. -/
  placed : o.report.placedMatches.map (·.1) = o.report.contents.found ∧
    o.report.placedMatches.map (·.2) = o.report.contents.foundIn

/-- **What is presented of an outcome tells it.** -/
theorem present_tells {r : Registry} {wanted : List Arch} {o : Outcome}
    (htold : o.report.Transcribes r wanted) (request : Request) :
    Tells request o (present request o) where
  exit := by
    show exitStatus o.report = _
    rw [exitStatus, Report.hasMatches]
    by_cases hfound : o.report.found = []
    · simp [hfound]
    · have herror : o.report.error = none := by
        by_contra herror
        exact hfound (htold.nothing_of_error herror).1
      simp [hfound, herror]
  stderr := by
    show standardError request o = _
    rw [standardError, unlines_append]
    cases o.report.error with
    | none => rfl
    | some e => rfl
  document := by
    intro hjson
    show standardOutput request o.report = _
    rw [standardOutput, if_pos hjson]
  readBack := by
    rw [Text.Json.read?_render, Option.bind_some, Report.ofJson?_json htold.aligned]
  text := by
    intro hjson
    show standardOutput request o.report = _
    rw [standardOutput, if_neg (by rw [hjson]; exact Bool.false_ne_true), Report.lines,
      Report.hasMatches, List.append_assoc]
    simp
  placed := ⟨List.map_fst_zip (Nat.le_of_eq htold.aligned),
    List.map_snd_zip (Nat.le_of_eq htold.aligned.symm)⟩

/-! ## Calls -/

/-- A request whose run has an outcome has it printed, unless it asks for a document that cannot be
written. -/
theorem perform_of_run {request : Request} {found : Lookup} {o : Outcome}
    (hnames : checkNames request found = .ok ())
    (hrun : run .defaults request.path request.options found = .ok o) :
    perform request found =
      if request.json = true ∧ ¬ o.report.FitsDecimal then .error .longInteger
      else .ok (present request o) := by
  have hcheck : (request.json && !o.report.json.isWritable) = true ↔
      request.json = true ∧ ¬ o.report.FitsDecimal := by
    rw [Bool.and_eq_true, Bool.not_eq_true', ← Report.isWritable_json_of_run_iff hrun,
      Bool.not_eq_true]
  rw [perform_eq_print hnames, hrun]
  show checkDocument request o.report >>= (fun _ => .ok (present request o)) = _
  rw [checkDocument]
  simp only [hcheck]
  split <;> rfl

/-- **Command lines that differ in displays alone have one outcome**, each in its own output mode.
The outcome is printed as a whole, unless a document is asked for and has a number that is too long
for it. -/
theorem execute_others {arguments others : List String} {find : Path → Lookup}
    {request other : Request} {o : Outcome} (hrequest : parse arguments = .ok request)
    (hnames : checkNames request (find request.path) = .ok ())
    (hrun : run .defaults request.path request.options (find request.path) = .ok o)
    (hother : parse others = .ok other)
    (hplain : plainArguments others = plainArguments arguments) :
    run .defaults other.path other.options (find other.path) = .ok o ∧
      execute others find =
        (if other.json = true ∧ ¬ o.report.FitsDecimal then .error .longInteger
        else .ok (present other o)) ∧
      Tells other o (present other o) := by
  obtain ⟨plain, d, e, rfl, rfl⟩ := eq_shown_of_plainArguments hrequest hother hplain
  -- a display changes neither what the request runs nor what is asked for without a name
  have hrun' : run .defaults (plain.shown e).path (plain.shown e).options
      (find (plain.shown e).path) = .ok o := hrun
  have hnames' : checkNames (plain.shown e) (find (plain.shown e).path) = .ok () := hnames
  refine ⟨hrun', ?_, present_tells (transcribes_of_run hrun) _⟩
  rw [execute, hother]
  exact perform_of_run hnames' hrun'

/-! ## Raw samples -/

/-- A directory with a raw sample in it. -/
def rawTree : FileTree := .ofLists [] [("a", rawIdiom)]

/-- The path of the sample leads to it. -/
theorem lookup_rawTree : rawTree.lookup (Path.ofString "a") = .file rawIdiom :=
  FileTree.lookup_single _ (by decide) (by decide) (by decide) (by decide)

/-- A demand for the sample, loaded at an address. -/
def rawDemand (base : Int) : Demand where
  sample := "a"
  raw := true
  base := some base
  raw_of_base := fun _ => rfl

/-- The command line for it. -/
def rawArguments (base : Int) : List String := (rawDemand base).commandLine [.base base, .raw]

/-- The request that it makes. -/
def rawRequest (base : Int) : Request := (rawDemand base).request

/-- The command line makes the request. -/
theorem parse_rawArguments (base : Int) : parse (rawArguments base) = .ok (rawRequest base) :=
  Demand.parse_commandLine ⟨List.Perm.refl _, rfl, rfl⟩

/-- A document of the outcome can be asked for. -/
theorem parse_documentArguments (base : Int) :
    parse ("--json" :: rawArguments base) = .ok ((rawRequest base).shown ⟨true, false, false⟩) :=
  (parse_display (by decide) (parse_rawArguments base)).1

/-- Every name in the request is one. -/
theorem checkNames_rawRequest (base : Int) (found : Lookup) :
    checkNames (rawRequest base) found = .ok () := checkNames_of_named rfl rfl

/-- A run of the sample that is seen to have one match. -/
theorem run_rawRequest (base address : Int)
    (h : (run .defaults (rawRequest base).path (rawRequest base).options
      (.file rawIdiom)).toOption.map (·.report.found) = some [⟨.x64, 0, address⟩]) :
    ∃ o, run .defaults (rawRequest base).path (rawRequest base).options
        (rawTree.lookup (rawRequest base).path) = .ok o ∧
      o.report.found = [⟨.x64, 0, address⟩] := by
  have hlookup : rawTree.lookup (rawRequest base).path = .file rawIdiom := lookup_rawTree
  rw [hlookup]
  exact exists_of_toOption_map h

/-- A document of the sample can be written if its address is short. -/
theorem fitsDecimal_rawRequest {base : Int} {o : Outcome}
    (h : run .defaults (rawRequest base).path (rawRequest base).options
      (rawTree.lookup (rawRequest base).path) = .ok o) :
    o.report.FitsDecimal ↔ Report.Short base := by
  have hlookup : rawTree.lookup (rawRequest base).path = .file rawIdiom := lookup_rawTree
  rw [hlookup] at h
  rw [Report.fitsDecimal_iff_of_run h (by decide +kernel)]
  exact ⟨fun hshort => hshort rfl, fun hshort _ => hshort⟩

/-- The sample is told in text on its command line, and as a document on another one. -/
theorem execute_others_raw : ∃ o,
    parse (rawArguments 0x401000) = .ok (rawRequest 0x401000) ∧
    checkNames (rawRequest 0x401000) (rawTree.lookup (rawRequest 0x401000).path) = .ok () ∧
    run .defaults (rawRequest 0x401000).path (rawRequest 0x401000).options
      (rawTree.lookup (rawRequest 0x401000).path) = .ok o ∧
    o.report.found = [⟨.x64, 0, 0x66EA96⟩] ∧
    plainArguments ["-v", "--base=0x401000", "--json", "--raw", "--debug", "--", "a"] =
      plainArguments (rawArguments 0x401000) ∧
    ∃ other, parse ["-v", "--base=0x401000", "--json", "--raw", "--debug", "--", "a"] = .ok other ∧
      other.json = true ∧
      execute ["-v", "--base=0x401000", "--json", "--raw", "--debug", "--", "a"] rawTree.lookup =
        .ok (present other o) ∧
      Tells other o (present other o) := by
  obtain ⟨o, hrun, hfound⟩ := run_rawRequest 0x401000 0x66EA96 (by decide +kernel)
  have hnames := checkNames_rawRequest 0x401000 (rawTree.lookup (rawRequest 0x401000).path)
  have hplain : plainArguments ["-v", "--base=0x401000", "--json", "--raw", "--debug", "--", "a"] =
      plainArguments (rawArguments 0x401000) := by decide +kernel
  have hother : parse ["-v", "--base=0x401000", "--json", "--raw", "--debug", "--", "a"] =
      .ok ((rawRequest 0x401000).shown ⟨true, true, true⟩) := by decide +kernel
  obtain ⟨-, hexecute, htells⟩ :=
    execute_others (parse_rawArguments 0x401000) hnames hrun hother hplain
  have hfits : o.report.FitsDecimal := (fitsDecimal_rawRequest hrun).2 (by decide +kernel)
  rw [if_neg fun h => h.2 hfits] at hexecute
  exact ⟨o, parse_rawArguments 0x401000, hnames, hrun, hfound, hplain, _, hother, rfl, hexecute,
    htells⟩

/-- A call for a document of the sample ends without one if its address is long, though the call
for a text prints the same outcome. -/
theorem execute_rawArguments {base : Int} {o : Outcome} (hlong : ¬ Report.Short base)
    (hrun : run .defaults (rawRequest base).path (rawRequest base).options
      (rawTree.lookup (rawRequest base).path) = .ok o) :
    execute (rawArguments base) rawTree.lookup = .ok (present (rawRequest base) o) ∧
      execute ("--json" :: rawArguments base) rawTree.lookup = .error .longInteger := by
  have hfits := mt (fitsDecimal_rawRequest hrun).1 hlong
  constructor
  · have hjson : (rawRequest base).json ≠ true := Bool.false_ne_true
    rw [execute, parse_rawArguments]
    exact (perform_of_run (checkNames_rawRequest base _) hrun).trans (if_neg fun h => hjson h.1)
  · have hdocument : perform ((rawRequest base).shown ⟨true, false, false⟩)
        (rawTree.lookup (rawRequest base).path) = _ :=
      perform_of_run (checkNames_of_named rfl rfl) hrun
    rw [execute, parse_documentArguments]
    exact hdocument.trans (if_pos ⟨rfl, hfits⟩)

/-- An address of 4302 decimal digits. -/
def longAddress : Int := 16 ^ 3572

/-- **A document that ends the call**: the sample has a match and is told in text, but its address
has more digits than may be written in decimal. -/
theorem execute_longAddress : ∃ o,
    parse (rawArguments longAddress) = .ok (rawRequest longAddress) ∧
    (∃ other, parse ("--json" :: rawArguments longAddress) = .ok other) ∧
    run .defaults (rawRequest longAddress).path (rawRequest longAddress).options
      (rawTree.lookup (rawRequest longAddress).path) = .ok o ∧
    o.report.found = [⟨.x64, 0, 0x26DA96⟩] ∧
    execute (rawArguments longAddress) rawTree.lookup =
      .ok (present (rawRequest longAddress) o) ∧
    (present (rawRequest longAddress) o).exit = 0 ∧
    execute ("--json" :: rawArguments longAddress) rawTree.lookup = .error .longInteger := by
  obtain ⟨o, hrun, hfound⟩ := run_rawRequest longAddress 0x26DA96 (by decide +kernel)
  have hlong : ¬ Report.Short longAddress := by decide +kernel
  obtain ⟨htext, hjson⟩ := execute_rawArguments hlong hrun
  have hexit : (present (rawRequest longAddress) o).exit = 0 := by
    rw [(present_tells (transcribes_of_run hrun) _).exit, hfound]
    rfl
  exact ⟨o, parse_rawArguments _, ⟨_, parse_documentArguments _⟩, hrun, hfound, htext, hexit, hjson⟩

end CommandLine

end SigScan
