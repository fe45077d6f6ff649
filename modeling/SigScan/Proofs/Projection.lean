/-
# Runs with a choice of architectures and sections

A run for some architectures and section names tells a part of what the run for all of them tells:
of the matches those of the chosen architectures in the sections with the chosen names, in the order
of the whole run. So the order in which architectures and names are listed does not count, nor does
it count when one is listed twice.

* `matchesIn_eq_filter`: fewer architectures in one section;
* `placed_keepNamed`: fewer architectures in fewer sections;
* `scanSections_isPart`, `runImage_isPart`: the two scans of the same sections, and of an image;
* `run_isPart`: the two runs on a sample.
-/
import SigScan.Proofs.Elf.SectionImage
import SigScan.Proofs.Escape
import SigScan.Proofs.Registry.ScanOrder
import SigScan.Proofs.Transcript

namespace SigScan

/-! ## Chosen matches -/

/-- The match is of a chosen architecture, and in a section with a chosen name if any is chosen. -/
def Options.Chooses (options : Options) (p : Match × String) : Prop :=
  p.1.arch ∈ options.archs ∧ (options.sectionNames = [] ∨ p.2 ∈ options.sectionNames)

instance (options : Options) (p : Match × String) : Decidable (options.Chooses p) :=
  inferInstanceAs (Decidable (_ ∧ _))

/-- Fewer architectures leave out the matches of the others in a section. -/
theorem matchesIn_eq_filter {r : Registry} {code : Section}
    (h : r.find code.content code.base Arch.all = .ok (r.matchesIn Arch.all code))
    (wanted : List Arch) :
    r.matchesIn wanted code = (r.matchesIn Arch.all code).filter fun m => wanted.contains m.arch :=
  matchesIn_of_find (Registry.find_filter h wanted)

/-- The matches in a section, each with the name of the section. -/
def placedIn (r : Registry) (wanted : List Arch) (code : Section) : List (Match × String) :=
  (r.matchesIn wanted code).map fun m => (m, code.name)

/-- Of the matches in a section with a chosen name those of the chosen architectures count. -/
theorem filter_placedIn_of_name {r : Registry} {options : Options} {code : Section}
    (h : r.find code.content code.base Arch.all = .ok (r.matchesIn Arch.all code))
    (hname : options.sectionNames = [] ∨ code.name ∈ options.sectionNames) :
    (placedIn r Arch.all code).filter (options.Chooses ·) = placedIn r options.archs code := by
  unfold placedIn
  rw [matchesIn_eq_filter h options.archs, List.filter_map]
  congr 1
  apply List.filter_congr
  intro m _
  simp [Options.Chooses, hname]

/-- Of the matches in a section with another name none counts. -/
theorem filter_placedIn_of_not_name {r : Registry} {options : Options} {code : Section}
    (hname : ¬ (options.sectionNames = [] ∨ code.name ∈ options.sectionNames)) :
    (placedIn r Arch.all code).filter (options.Chooses ·) = [] := by
  rw [List.filter_eq_nil_iff]
  intro p hp
  obtain ⟨m, -, rfl⟩ := List.mem_map.1 hp
  rw [decide_eq_true_iff]
  exact fun hchosen => hname hchosen.2

/-- The kept sections are those with a chosen name, or all of them if none is chosen. -/
theorem keepNamed_eq_filter (names : List String) (sections : List Section) :
    Section.keepNamed names sections =
      sections.filter fun code => names = [] ∨ code.name ∈ names := by
  unfold Section.keepNamed
  by_cases hnone : names = []
  · simp [hnone]
  · simp [hnone, List.contains_eq_mem]

/-- **Fewer architectures in fewer sections leave out matches, and do not move the others.** -/
theorem placed_keepNamed {r : Registry} (options : Options) {sections : List Section}
    (h : ∀ code ∈ sections,
      r.find code.content code.base Arch.all = .ok (r.matchesIn Arch.all code)) :
    (Section.keepNamed options.sectionNames sections).flatMap (placedIn r options.archs) =
      (sections.flatMap (placedIn r Arch.all)).filter (options.Chooses ·) := by
  rw [keepNamed_eq_filter]
  induction sections with
  | nil => rfl
  | cons code rest ih =>
    have hcode := h code List.mem_cons_self
    have hrest := ih fun c hc => h c (List.mem_cons_of_mem code hc)
    rw [List.flatMap_cons, List.filter_append, ← hrest]
    by_cases hname : options.sectionNames = [] ∨ code.name ∈ options.sectionNames
    · rw [filter_placedIn_of_name hcode hname, List.filter_cons_of_pos (by simpa using hname),
        List.flatMap_cons]
    · rw [filter_placedIn_of_not_name hname, List.filter_cons_of_neg (by simpa using hname),
        List.nil_append]

/-! ## Two reports -/

/-- A report tells the part of another one that is chosen. -/
structure Report.IsPart (options : Options) (part whole : Report) : Prop where
  /-- The matches are the chosen ones, in the order of the whole. -/
  placed : part.placedMatches = whole.placedMatches.filter (options.Chooses ·)
  /-- The sections are those with a chosen name, in the order of the whole. -/
  sections_eq : part.sections = Section.keepNamed options.sectionNames whole.sections
  /-- What is wrong with the whole is wrong with the part. -/
  error_of_error : whole.error ≠ none → part.error = whole.error
  /-- Else the part has an error just when names are chosen that no section has. -/
  error_iff : whole.error = none → (part.error ≠ none ↔
    options.sectionNames ≠ [] ∧ ∀ code ∈ whole.sections, code.name ∉ options.sectionNames)

/-- A report of nothing but an error is a part of itself. -/
theorem isPart_ofFailure (options : Options) (path : Path) (format : Option String)
    (log log' : List String) (trace trace' : List TraceStep) (f : RunFailure) :
    (Outcome.ofFailure path format log trace f).report.IsPart options
      (Outcome.ofFailure path format log' trace' f).report where
  placed := rfl
  sections_eq := by
    unfold Section.keepNamed
    split <;> rfl
  error_of_error := fun _ => rfl
  error_iff := by
    intro h
    cases h

/-- No section is kept just when names are chosen that no section has, or there is no section. -/
theorem keepNamed_eq_nil_iff {names : List String} {sections : List Section} :
    Section.keepNamed names sections = [] ↔
      sections = [] ∨ names ≠ [] ∧ ∀ code ∈ sections, code.name ∉ names := by
  rw [List.eq_nil_iff_forall_not_mem, List.eq_nil_iff_forall_not_mem]
  simp only [Section.mem_keepNamed, not_and, not_or]
  constructor
  · intro h
    by_cases hsections : ∀ code, code ∉ sections
    · exact .inl hsections
    · push Not at hsections
      obtain ⟨code, hcode⟩ := hsections
      exact .inr ⟨(h code hcode).1, fun c hc => (h c hc).2⟩
  · rintro (hnone | ⟨hnames, hother⟩) code hcode
    · exact absurd hcode (hnone code)
    · exact ⟨hnames, hother code hcode⟩

/-- **Two scans of the sections of a sample**, one for everything and one for what is chosen. -/
theorem scanSections_isPart {r : Registry} {path : Path} {options : Options} {format : String}
    {trace trace' : List TraceStep} {sections : List Section} {part whole : Outcome}
    (hpart : scanSections r path options format trace
      (Section.keepNamed options.sectionNames sections) = .ok part)
    (hwhole : scanSections r path {} format trace' sections = .ok whole) :
    part.report.IsPart options whole.report := by
  obtain ⟨hpartSections, hpartError⟩ := sections_of_scanSections hpart
  obtain ⟨hwholeSections, hwholeError⟩ := sections_of_scanSections hwhole
  have hpartTold := (scanSections_transcribes hpart).1
  have hwholeTold := (scanSections_transcribes hwhole).1
  constructor
  case placed =>
    rw [hpartTold.placed, hwholeTold.placed, hpartSections, hwholeSections]
    refine placed_keepNamed options ?_
    rw [← hwholeSections]
    exact hwholeTold.scanned
  case sections_eq => rw [hpartSections, hwholeSections]
  case error_of_error =>
    intro herror
    rw [hwholeError] at herror
    by_cases hnil : sections = []
    · rw [hpartError, hwholeError, if_pos hnil, if_pos (keepNamed_eq_nil_iff.2 (.inl hnil))]
    · exact absurd (if_neg hnil) herror
  case error_iff =>
    intro hgood
    have hne : sections ≠ [] := by
      intro hnil
      rw [hwholeError, if_pos hnil] at hgood
      cases hgood
    rw [hpartError, hwholeSections, ne_eq, ite_eq_right_iff]
    simp only [reduceCtorEq, imp_false, not_not, keepNamed_eq_nil_iff, hne, false_or]

/-! ## Two runs -/

/-- **Two runs on an image.** Both end early for the same reason, or scan what the same loading
gives. -/
theorem runImage_isPart {r : Registry} (hr : r.Accepted) {path : Path} {options : Options}
    {found : Lookup} {part : Outcome} (hpart : runImage r path options found = .ok part) :
    ∃ whole, runImage r path {} found = .ok whole ∧ part.report.IsPart options whole.report := by
  unfold runImage at hpart ⊢
  split at hpart
  · cases hpart
  · next e hload =>
    cases hpart
    exact ⟨_, rfl, isPart_ofFailure options path none [] [] [] [] (.load e)⟩
  · next hload =>
    cases hpart
    exact ⟨_, rfl, isPart_ofFailure options path none [] [] [] [] (.unknownFormat path)⟩
  · next format sections hload =>
    obtain ⟨whole, hwhole⟩ := scanSections_of_accepted hr path {} format.name
      [.listed path format sections.length] sections
    exact ⟨whole, hwhole, scanSections_isPart hpart hwhole⟩

/-- **A run for some architectures and section names tells its part of the run for all**, and ends
without a report just when that does. -/
theorem run_isPart {r : Registry} (hr : r.Accepted) (path : Path) {options : Options}
    (hraw : options.raw = false) (found : Lookup) :
    (∀ a, run r path options found = .error a ↔ run r path {} found = .error a) ∧
      ∀ part, run r path options found = .ok part →
        ∃ whole, run r path {} found = .ok whole ∧ part.report.IsPart options whole.report := by
  constructor
  · intro a
    rw [run_eq_error_iff hr, run_eq_error_iff hr]
    exact endsRun_congr hraw
  · intro part hpart
    cases found with
    | file content =>
      simp only [run_file, hraw, Bool.false_eq_true, if_false] at hpart ⊢
      exact runImage_isPart hr hpart
    | unreadable e =>
      rw [run_of_unreadable, hraw] at hpart
      cases hpart
      exact ⟨_, rfl, isPart_ofFailure options path none [] [] [] [] (.load _)⟩
    | refused e => cases hpart
    | directory | special | missing | notADirectory | unnameable =>
      cases hpart
      exact ⟨_, rfl, isPart_ofFailure options path none [] [] [] [] (.notAFile path)⟩

/-- A choice that lists things twice and in another order than they are scanned in. -/
def textOptions : Options where
  archs := [.ppcBE, .x64, .ppcBE]
  sectionNames := [".text", ".fini", ".text"]

/-- Of the three idioms of `threeIdioms` two are in sections with a chosen name. -/
theorem run_threeIdioms : ∃ part whole,
    Registry.defaults.Accepted ∧ textOptions.raw = false ∧
    run Registry.defaults (Path.ofString "a.elf") textOptions (.file threeIdioms.file) = .ok part ∧
    run Registry.defaults (Path.ofString "a.elf") {} (.file threeIdioms.file) = .ok whole ∧
    part.report.placedMatches =
      [(⟨.x64, 0, 0x27DA96⟩, ".text"), (⟨.ppcBE, 0, 0x2B8000⟩, ".text")] ∧
    part.report.IsPart textOptions whole.report := by
  have hplaced : (run Registry.defaults (Path.ofString "a.elf") textOptions
      (.file threeIdioms.file)).toOption.map (·.report.placedMatches) =
        some [(⟨.x64, 0, 0x27DA96⟩, ".text"), (⟨.ppcBE, 0, 0x2B8000⟩, ".text")] := by
    decide +kernel
  cases hpart : run Registry.defaults (Path.ofString "a.elf") textOptions
      (.file threeIdioms.file) with
  | error a =>
    rw [hpart] at hplaced
    cases hplaced
  | ok part =>
    rw [hpart] at hplaced
    obtain ⟨whole, hwhole, hisPart⟩ := (run_isPart Registry.accepted_defaults
      (Path.ofString "a.elf") (by rfl : textOptions.raw = false) (.file threeIdioms.file)).2
      part hpart
    exact ⟨part, whole, Registry.accepted_defaults, rfl, rfl, hwhole, Option.some.inj hplaced,
      hisPart⟩

end SigScan
