/-
# The report of a run

A run fills the lists of a report section by section and match by match, and ends early where
there is nothing to scan. `Report.Transcribes` is what holds of the report however the run ends:
the lists go together, and the log tells the whole scan. `ToScan` and `NothingToRead` tell apart
what a run finds at the path of its sample.

A line for a match is told from the other lines of the log by the two spaces it starts with, and
the words of the line are the match: `matchOfLine?` reads it back.

* `matchOfLine?_matchLine`: a line is read back as its match;
* `scanSections_transcribes`: the report of a scan;
* `run_eq_ok`: how a run ends with a report;
* `run_transcribes`: the report of a run.
-/
import SigScan.Proofs.Elf.SectionImage
import SigScan.Proofs.Fallible
import SigScan.Proofs.Text.Hexadecimal
import SigScan.Run

namespace SigScan

/-! ## Reading the log -/

/-- The log line that announces a section. -/
def scanLine (wanted : List Arch) (code : Section) : String :=
  let names := ", ".intercalate (wanted.map Arch.name)
  s!"scanning {ScannedSection.title code} for {names}"

/-- The integer that a word of the log stands for. -/
def integerOfWord? (word : List Char) : Option Int :=
  (Text.readInteger .marked (String.ofList word)).toOption

/-- The match that a line of the log tells; nothing for the other lines. -/
def matchOfLine? (line : String) : Option Match :=
  match line.toList.splitOn ' ' with
  | [[], [], arch, ['m', 'a', 't', 'c', 'h'], ['a', 't'], '+' :: offset, ['-', '>'], address] => do
    let arch ← Arch.ofName? (String.ofList arch)
    let offset ← integerOfWord? offset
    let address ← integerOfWord? address
    return ⟨arch, offset, address⟩
  | _ => none

/-- The words of the line for a match; the first two are empty. -/
def matchWords (m : Match) : List (List Char) :=
  [[], [], m.arch.name.toList, ['m', 'a', 't', 'c', 'h'], ['a', 't'],
    '+' :: (Text.hex m.offset).toList, ['-', '>'], (Text.hex m.address).toList]

/-- The line for a match consists of its words. -/
theorem toList_matchLine (m : Match) :
    (ScannedSection.matchLine m).toList = [' '].intercalate (matchWords m) := by
  show ("  " ++ m.arch.name ++ " match at +" ++ Text.hex m.offset ++ " -> " ++
    Text.hex m.address).toList = _
  simp [matchWords, List.intercalate]

/-- A number in hexadecimal has no space in it. -/
theorem space_not_mem_hex (n : Int) : ' ' ∉ (Text.hex n).toList := Text.not_mem_hex (by decide) n

/-- No word has a space in it. -/
theorem space_not_mem_matchWords (m : Match) : ∀ word ∈ matchWords m, ' ' ∉ word := by
  have harch : ' ' ∉ m.arch.name.toList := by
    cases m.arch <;> decide
  intro word hword
  simp only [matchWords, List.mem_cons, List.not_mem_nil, or_false] at hword
  rcases hword with rfl | rfl | rfl | rfl | rfl | rfl | rfl | rfl
  · decide
  · decide
  · exact harch
  · decide
  · decide
  · intro h
    rcases List.mem_cons.1 h with hplus | hdigit
    · cases hplus
    · exact space_not_mem_hex m.offset hdigit
  · decide
  · exact space_not_mem_hex m.address

/-- The line for a match falls apart into its words again. -/
theorem splitOn_matchLine (m : Match) :
    (ScannedSection.matchLine m).toList.splitOn ' ' = matchWords m := by
  rw [toList_matchLine]
  exact List.splitOn_intercalate ' ' (space_not_mem_matchWords m) (List.cons_ne_nil _ _)

/-- A number in hexadecimal is a word that is read back. -/
theorem integerOfWord?_hex (n : Int) : integerOfWord? (Text.hex n).toList = some n := by
  unfold integerOfWord?
  rw [String.ofList_toList, Text.readInteger_hex]
  rfl

/-- **A line for a match is read back as that match.** -/
theorem matchOfLine?_matchLine (m : Match) :
    matchOfLine? (ScannedSection.matchLine m) = some m := by
  unfold matchOfLine?
  rw [splitOn_matchLine]
  simp only [matchWords, String.ofList_toList, Arch.ofName?_name, integerOfWord?_hex]
  rfl

/-- A line that does not start with a space tells no match. -/
theorem matchOfLine?_of_head {line : String} {c : Char} (h : line.toList.head? = some c)
    (hc : c ≠ ' ') : matchOfLine? line = none := by
  obtain ⟨rest, hrest⟩ : ∃ rest, line.toList = c :: rest := by
    cases hl : line.toList with
    | nil => simp [hl] at h
    | cons d rest =>
      simp only [hl, List.head?_cons, Option.some.injEq] at h
      subst h
      exact ⟨rest, rfl⟩
  -- The first word has the character in it, and the first word of a match is empty.
  obtain ⟨word, words, hwords⟩ := List.exists_cons_of_ne_nil (List.splitOn_ne_nil ' ' rest)
  unfold matchOfLine?
  rw [hrest, List.splitOn_cons_eq_if_modifyHead, if_neg (by simpa using hc), hwords]
  rfl

/-- The line with the format tells no match. -/
theorem matchOfLine?_formatLine (format : String) :
    matchOfLine? (Outcome.ofScans.formatLine format) = none := by
  refine matchOfLine?_of_head (c := 'f') ?_ (by decide)
  show ("format: " ++ format).toList.head? = some 'f'
  simp

/-- The line that announces a section tells no match. -/
theorem matchOfLine?_scanLine (wanted : List Arch) (code : Section) :
    matchOfLine? (scanLine wanted code) = none := by
  refine matchOfLine?_of_head (c := 's') ?_ (by decide)
  show ("scanning " ++ ScannedSection.title code ++ " for " ++
    ", ".intercalate (wanted.map Arch.name)).toList.head? = some 's'
  simp

/-! ## The scan of one section -/

/-- The matches in a section. -/
def Registry.matchesIn (r : Registry) (wanted : List Arch) (code : Section) : List Match :=
  match r.find code.content code.base wanted with
  | .ok found => found
  | .error _ => []

/-- A section that is scanned is kept, with the matches that are found in it. -/
theorem scan_eq_ok {r : Registry} {wanted : List Arch} {code : Section} {s : ScannedSection}
    (h : ScannedSection.scan r wanted code = .ok s) :
    s.code = code ∧ r.find code.content code.base wanted = .ok s.found := by
  obtain ⟨byArch, hbyArch, hpure⟩ := bind_eq_ok_iff.1 h
  cases hpure
  refine ⟨rfl, ?_⟩
  unfold Registry.find
  rw [hbyArch]
  rfl

/-- What is found is what `matchesIn` says. -/
theorem matchesIn_of_find {r : Registry} {wanted : List Arch} {code : Section}
    {found : List Match} (h : r.find code.content code.base wanted = .ok found) :
    r.matchesIn wanted code = found := by
  unfold Registry.matchesIn
  rw [h]

/-- Sections that are scanned are kept in their order, each with the matches in it. -/
theorem mapM_scan_eq_ok {r : Registry} {wanted : List Arch} {sections : List Section}
    {scans : List ScannedSection}
    (h : sections.mapM (ScannedSection.scan r wanted) = .ok scans) :
    scans.map (·.code) = sections ∧
      ∀ s ∈ scans, r.find s.code.content s.code.base wanted = .ok s.found := by
  have hall := mapM_eq_ok_iff.1 h
  clear h
  -- section by section, each beside its scan
  induction hall with
  | nil => exact ⟨rfl, by simp⟩
  | cons hs _ ih =>
    obtain ⟨hcode, hfind⟩ := scan_eq_ok hs
    obtain ⟨hcodes, hfinds⟩ := ih
    constructor
    · rw [List.map_cons, hcode, hcodes]
    · intro s hmem
      rcases List.mem_cons.1 hmem with rfl | hrest
      · rw [hcode]
        exact hfind
      · exact hfinds s hrest

/-! ## What holds of a report -/

/-- The report tells the scan of its sections, or why nothing was scanned. -/
structure Report.Transcribes (r : Registry) (wanted : List Arch) (report : Report) : Prop where
  /-- Every section of the report was scanned. -/
  scanned : ∀ code ∈ report.sections,
    r.find code.content code.base wanted = .ok (r.matchesIn wanted code)
  /-- Each match has a section. -/
  aligned : report.found.length = report.foundIn.length
  /-- The matches of each section follow one another, with the name of that section. -/
  placed : report.placedMatches =
    report.sections.flatMap fun code => (r.matchesIn wanted code).map fun m => (m, code.name)
  /-- An error leaves nothing else. -/
  nothing_of_error : report.error ≠ none →
    report.found = [] ∧ report.foundIn = [] ∧ report.sections = []
  /-- There is no error just where there is something to scan. -/
  error_eq_none_iff : report.error = none ↔ report.format ≠ none ∧ report.sections ≠ []
  /-- The log is empty, for which there is an error, or it tells the format, and then each section
  and the matches in it. -/
  log_eq : report.log = [] ∧ report.error ≠ none ∨ ∃ format, report.format = some format ∧
    report.log = s!"format: {format}" :: report.sections.flatMap fun code =>
      scanLine wanted code :: (r.matchesIn wanted code).map ScannedSection.matchLine
  /-- The matches are read back from the log. -/
  readBack : report.log.filterMap matchOfLine? = report.found

/-- A report of nothing but an error tells so, whether or not it got as far as the format. -/
theorem transcribes_ofFailure (r : Registry) (wanted : List Arch) (path : Path)
    (format : Option String) (trace : List TraceStep) (f : RunFailure) {log : List String}
    (hlog : log = [] ∨ ∃ name, format = some name ∧ log = [Outcome.ofScans.formatLine name]) :
    (Outcome.ofFailure path format log trace f).report.Transcribes r wanted where
  scanned := by
    intro code hcode
    cases hcode
  aligned := rfl
  placed := rfl
  nothing_of_error := fun _ => ⟨rfl, rfl, rfl⟩
  error_eq_none_iff := by
    constructor
    · intro h
      cases h
    · rintro ⟨-, hsections⟩
      exact absurd rfl hsections
  log_eq := by
    rcases hlog with rfl | ⟨name, rfl, rfl⟩
    · exact .inl ⟨rfl, Option.some_ne_none _⟩
    · exact .inr ⟨name, rfl, rfl⟩
  readBack := by
    rcases hlog with rfl | ⟨name, rfl, rfl⟩
    · rfl
    · show List.filterMap matchOfLine? [Outcome.ofScans.formatLine name] = []
      rw [List.filterMap_cons_none (matchOfLine?_formatLine name), List.filterMap_nil]

/-- Matches that are listed section by section go with the names of their sections. -/
theorem zip_found_names (scans : List ScannedSection) :
    (scans.flatMap ScannedSection.found).zip
        (scans.flatMap fun s => s.found.map fun _ => s.code.name) =
      scans.flatMap fun s => s.found.map fun m => (m, s.code.name) := by
  induction scans with
  | nil => rfl
  | cons s rest ih =>
    -- both lists go on by as many members as the section has matches
    have hhead : s.found.zip (s.found.map fun _ => s.code.name) =
        s.found.map fun m => (m, s.code.name) := by
      have hboth : (s.found.map id).zip (s.found.map fun _ => s.code.name) =
          s.found.map fun m => (id m, s.code.name) := List.zip_map'
      rwa [List.map_id] at hboth
    simp only [List.flatMap_cons]
    rw [List.zip_append (by rw [List.length_map]), ih, hhead]

/-- The lines for a section tell the matches in it. -/
theorem filterMap_log (wanted : List Arch) (s : ScannedSection) :
    (s.log wanted).filterMap matchOfLine? = s.found := by
  show List.filterMap matchOfLine?
    (scanLine wanted s.code :: s.found.map ScannedSection.matchLine) = s.found
  rw [List.filterMap_cons_none (matchOfLine?_scanLine wanted s.code), List.filterMap_map]
  have hread : matchOfLine? ∘ ScannedSection.matchLine = some := by
    funext m
    exact matchOfLine?_matchLine m
  rw [hread, List.filterMap_some]

/-- What is made of each section and its matches is made of the scans. -/
theorem flatMap_matchesIn {γ : Type} {r : Registry} {wanted : List Arch}
    {scans : List ScannedSection} (g : Section → List Match → List γ)
    (h : ∀ s ∈ scans, r.find s.code.content s.code.base wanted = .ok s.found) :
    ((scans.map (·.code)).flatMap fun code => g code (r.matchesIn wanted code)) =
      scans.flatMap fun s => g s.code s.found := by
  rw [List.flatMap_map]
  apply List.flatMap_congr
  intro s hs
  rw [matchesIn_of_find (h s hs)]

/-- A report of scans tells them. -/
theorem transcribes_ofScans {r : Registry} {wanted : List Arch} (path : Path) (format : String)
    (trace : List TraceStep) {scans : List ScannedSection} (hne : scans ≠ [])
    (h : ∀ s ∈ scans, r.find s.code.content s.code.base wanted = .ok s.found) :
    (Outcome.ofScans path format wanted trace scans).report.Transcribes r wanted where
  scanned := by
    intro code hcode
    obtain ⟨s, hs, rfl⟩ := List.mem_map.1 hcode
    rw [matchesIn_of_find (h s hs)]
    exact h s hs
  aligned := by
    show (scans.flatMap ScannedSection.found).length =
      (scans.flatMap fun s => s.found.map fun _ => s.code.name).length
    simp only [List.length_flatMap, List.length_map]
  placed := by
    have hpairs := flatMap_matchesIn (fun code found => found.map fun m => (m, code.name)) h
    exact (zip_found_names scans).trans hpairs.symm
  nothing_of_error := fun herror => absurd rfl herror
  error_eq_none_iff := by
    constructor
    · intro _
      refine ⟨Option.some_ne_none _, ?_⟩
      intro hsections
      exact hne (List.map_eq_nil_iff.1 hsections)
    · intro _
      rfl
  log_eq := by
    have hlines := flatMap_matchesIn
      (fun code found => scanLine wanted code :: found.map ScannedSection.matchLine) h
    exact .inr ⟨format, rfl, congrArg (Outcome.ofScans.formatLine format :: ·) hlines.symm⟩
  readBack := by
    show List.filterMap matchOfLine?
      (Outcome.ofScans.formatLine format :: scans.flatMap (·.log wanted)) =
        scans.flatMap ScannedSection.found
    rw [List.filterMap_cons_none (matchOfLine?_formatLine format), List.filterMap_flatMap]
    apply List.flatMap_congr
    intro s _
    exact filterMap_log wanted s

/-! ## The run -/

/-- The report of a scan tells it, and names the format. -/
theorem scanSections_transcribes {r : Registry} {path : Path} {options : Options}
    {format : String} {trace : List TraceStep} {sections : List Section} {o : Outcome}
    (h : scanSections r path options format trace sections = .ok o) :
    o.report.Transcribes r options.archs ∧ o.report.format = some format ∧ o.report.log ≠ [] := by
  unfold scanSections at h
  split at h
  · cases h
    refine ⟨?_, rfl, List.cons_ne_nil _ _⟩
    exact transcribes_ofFailure r options.archs path format trace .noCode (.inr ⟨format, rfl, rfl⟩)
  · next hsections =>
    obtain ⟨scans, hscans, hpure⟩ := bind_eq_ok_iff.1 h
    cases hpure
    obtain ⟨hcodes, hfinds⟩ := mapM_scan_eq_ok (mapError_eq_ok_iff.1 hscans)
    have hne : scans ≠ [] := by
      rintro rfl
      rw [← hcodes] at hsections
      exact hsections rfl
    exact ⟨transcribes_ofScans path format trace hne hfinds, rfl, List.cons_ne_nil _ _⟩

/-- The sections of a scan, and the one thing that can be wrong with it. -/
theorem sections_of_scanSections {r : Registry} {path : Path} {options : Options} {format : String}
    {trace : List TraceStep} {sections : List Section} {o : Outcome}
    (h : scanSections r path options format trace sections = .ok o) :
    o.report.sections = sections ∧
      o.report.error = if sections = [] then some RunFailure.noCode.message else none := by
  unfold scanSections at h
  split at h
  · next hempty =>
    cases h
    have hnil : sections = [] := List.isEmpty_iff.1 hempty
    subst hnil
    exact ⟨rfl, rfl⟩
  · next hsections =>
    obtain ⟨scans, hscans, hpure⟩ := bind_eq_ok_iff.1 h
    cases hpure
    have hne : sections ≠ [] := fun hnil => hsections (List.isEmpty_iff.2 hnil)
    refine ⟨(mapM_scan_eq_ok (mapError_eq_ok_iff.1 hscans)).1, ?_⟩
    rw [if_neg hne]
    rfl

/-! ### What there is to scan -/

/-- What a run scans, under the name of a format: the whole file, if it is taken as raw, and else
the sections that loading gives. -/
inductive ToScan (path : Path) (options : Options) : Lookup → String → List Section → Prop
  | raw (file : Bytes) : options.raw = true →
      ToScan path options (.file file) rawName [⟨rawName, file, options.rawBase⟩]
  | image {file : Bytes} {format : Format} {sections : List Section} : options.raw = false →
      load path (.file file) options.sectionNames = .ok (some (format, sections)) →
        ToScan path options (.file file) format.name sections

/-- A run has nothing to read: there is no file, the file cannot be read, or its image is refused or
of no known format. -/
inductive NothingToRead (path : Path) (options : Options) : Lookup → Prop
  | noFile {found : Lookup} : found.isFile = .ok false → NothingToRead path options found
  | unreadable (e : ReadError) : NothingToRead path options (.unreadable e)
  | corrupt {file : Bytes} {e : LoadError} : options.raw = false →
      load path (.file file) options.sectionNames = .error (.error e) →
        NothingToRead path options (.file file)
  | unknownFormat {file : Bytes} : options.raw = false →
      load path (.file file) options.sectionNames = .ok none →
        NothingToRead path options (.file file)

/-- Where there is something to scan, there was something to read. -/
theorem ToScan.not_nothingToRead {path : Path} {options : Options} {found : Lookup}
    {format : String} {sections : List Section} (h : ToScan path options found format sections) :
    ¬ NothingToRead path options found := by
  intro hnothing
  cases h with
  | raw file hraw =>
    cases hnothing with
    | noFile hno => cases hno
    | corrupt himage => simp [hraw] at himage
    | unknownFormat himage => simp [hraw] at himage
  | image himage hload =>
    cases hnothing with
    | noFile hno => cases hno
    | corrupt _ herror => simp [hload] at herror
    | unknownFormat _ hnone => simp [hload] at hnone

/-- Loading keeps the sections with a chosen name. -/
theorem load_eq_some_iff {path : Path} {found : Lookup} {names : List String} {format : Format}
    {sections : List Section} :
    load path found names = .ok (some (format, sections)) ↔ ∃ loaded,
      loadAll path found = .ok (some (format, loaded)) ∧
        Section.keepNamed names loaded = sections := by
  unfold load
  rw [map_eq_ok_iff]
  constructor
  · rintro ⟨_ | ⟨format', loaded⟩, hall, hsome⟩
    · cases hsome
    · cases hsome
      exact ⟨loaded, hall, rfl⟩
  · rintro ⟨loaded, hall, rfl⟩
    exact ⟨some (format, loaded), hall, rfl⟩

/-- Otherwise loading is as loading all sections. -/
theorem load_eq_none_iff {path : Path} {found : Lookup} {names : List String} :
    load path found names = .ok none ↔ loadAll path found = .ok none := by
  unfold load
  rw [map_eq_ok_iff]
  simp

/-- **How a run ends with a report**: it tells why there is nothing to read, and has an empty log,
or it scans what there is. -/
theorem run_eq_ok {r : Registry} {path : Path} {options : Options} {found : Lookup} {o : Outcome}
    (h : run r path options found = .ok o) :
    (NothingToRead path options found ∧ ∃ format f, o = .ofFailure path format [] [] f) ∨
      ∃ format sections trace, ToScan path options found format sections ∧
        scanSections r path options format trace sections = .ok o := by
  cases found with
  | file file =>
    rw [run_file] at h
    split at h
    · next hraw => exact .inr ⟨rawName, _, [], .raw file hraw, h⟩
    · next hraw =>
      have himage : options.raw = false := Bool.eq_false_iff.2 hraw
      unfold runImage at h
      split at h
      · cases h
      · next e hall =>
        cases h
        exact .inl ⟨.corrupt himage (map_eq_error_iff.2 hall), none, .load e, rfl⟩
      · next hall =>
        cases h
        exact .inl ⟨.unknownFormat himage (load_eq_none_iff.2 hall), none, .unknownFormat path, rfl⟩
      · next format sections hall =>
        exact .inr ⟨format.name, _, _, .image himage (load_eq_some_iff.2 ⟨sections, hall, rfl⟩), h⟩
  | unreadable e =>
    rw [run_of_unreadable] at h
    cases h
    exact .inl ⟨.unreadable e, _, _, rfl⟩
  | refused e => cases h
  | directory | special | missing | notADirectory | unnameable =>
    cases h
    exact .inl ⟨.noFile rfl, none, .notAFile path, rfl⟩

/-! ### What is reported -/

/-- The report of a run tells what was scanned, or why nothing was. -/
theorem transcribes_of_run {r : Registry} {path : Path} {options : Options} {found : Lookup}
    {o : Outcome} (h : run r path options found = .ok o) :
    o.report.Transcribes r options.archs := by
  rcases run_eq_ok h with ⟨-, format, f, rfl⟩ | ⟨format, sections, trace, -, hscan⟩
  · exact transcribes_ofFailure r options.archs path format [] f (.inl rfl)
  · exact (scanSections_transcribes hscan).1

/-- A report tells the run on what the path leads to. -/
structure Report.TellsRun (r : Registry) (path : Path) (options : Options) (found : Lookup)
    (report : Report) : Prop extends report.Transcribes r options.archs where
  /-- The log is empty just where there was nothing to read. -/
  log_eq_nil_iff : report.log = [] ↔ NothingToRead path options found
  /-- Otherwise the report is about what there was to scan, section by section. -/
  exists_toScan : ¬ NothingToRead path options found → ∃ format,
    report.format = some format ∧ ToScan path options found format report.sections

/-- **However a run ends, its report tells the run**: what was scanned, or, without a log, why there
was nothing to read. -/
theorem run_transcribes {r : Registry} {path : Path} {options : Options} {found : Lookup}
    {o : Outcome} (h : run r path options found = .ok o) :
    o.report.TellsRun r path options found := by
  have htranscribes := transcribes_of_run h
  rcases run_eq_ok h with ⟨hnothing, format, f, rfl⟩ | ⟨format, sections, trace, htoScan, hscan⟩
  · exact ⟨htranscribes, iff_of_true rfl hnothing, fun hsome => absurd hnothing hsome⟩
  · obtain ⟨-, hformat, hlog⟩ := scanSections_transcribes hscan
    have hsections := (sections_of_scanSections hscan).1
    refine ⟨htranscribes, iff_of_false hlog htoScan.not_nothingToRead, fun _ => ?_⟩
    rw [hsections]
    exact ⟨format, hformat, htoScan⟩

/-- A raw sample: the instructions that the x64 signature looks for. -/
def rawIdiom : Bytes :=
  #[0x48, 0x8D, 0x0D, 0x8F, 0xDA, 0x26, 0x00, 0xEB, 0x0D, 0x48, 0x8B, 0x89, 0x30, 0x02, 0x00, 0x00,
    0x66, 0x0F, 0x1F, 0x44, 0x00, 0x00]

/-- An image with three code sections, two of them of one name, and an idiom in each. -/
def threeIdioms : Elf.SectionImage where
  wordSize := .bits32
  order := .big
  machine := 20
  preamble := ⟨2, 1, 0x10000, 0⟩
  sections :=
    [⟨".text", .stored, 6, 0x10000, 4, rawIdiom⟩, ⟨".init", .stored, 6, 0x20000, 4, rawIdiom⟩,
      ⟨".text", .stored, 6, 0x30000, 4, #[0x3C, 0x80, 0x00, 0x2C, 0x38, 0x84, 0x80, 0x00, 0x48, 0x00,
        0x00, 0x08, 0xE8, 0x84, 0x02, 0x30, 0x7C, 0x24, 0x00, 0x00, 0x41, 0x82, 0x01, 0xA8]⟩]
  filler := #[]

/-- The log of a run on the three idioms has three stretches, each with its match. -/
theorem run_transcribes_threeIdioms : ∃ o,
    run Registry.defaults (Path.ofString "a.elf") {} (.file threeIdioms.file) = .ok o ∧
    o.report.log = ["format: elf",
      "scanning .text [0x10000-0x10016) for x64, x86, ppc-be", "  x64 match at +0x0 -> 0x27da96",
      "scanning .init [0x20000-0x20016) for x64, x86, ppc-be", "  x64 match at +0x0 -> 0x28da96",
      "scanning .text [0x30000-0x30018) for x64, x86, ppc-be",
      "  ppc-be match at +0x0 -> 0x2b8000"] ∧
    o.report.TellsRun Registry.defaults (Path.ofString "a.elf") {} (.file threeIdioms.file) := by
  have hlog : (run Registry.defaults (Path.ofString "a.elf") {}
      (.file threeIdioms.file)).toOption.map (·.report.log) = some ["format: elf",
        "scanning .text [0x10000-0x10016) for x64, x86, ppc-be", "  x64 match at +0x0 -> 0x27da96",
        "scanning .init [0x20000-0x20016) for x64, x86, ppc-be", "  x64 match at +0x0 -> 0x28da96",
        "scanning .text [0x30000-0x30018) for x64, x86, ppc-be",
        "  ppc-be match at +0x0 -> 0x2b8000"] := by
    decide +kernel
  obtain ⟨o, hrun, hlines⟩ := exists_of_toOption_map hlog
  exact ⟨o, hrun, hlines, run_transcribes hrun⟩

end SigScan
