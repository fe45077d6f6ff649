/-
# What ends without a report

Loading a sample gives its code or a `LoadError`, and a run gives a report that tells the error,
with two exceptions. An ELF file whose tables have a number out of reach ends both for good; and a
run ends for good where the system does not tell whether there is a file, which loading takes for
one more reason that the file cannot be read.

The scan itself never fails, because the signatures are accepted ones; that leaves the walk
through the tables, whose ends `Elf.codeOf_eq_unreachable_iff` tells.

* `EndsLoad`, `EndsRun`: the exceptions;
* `loadAll_eq_abort_iff`, `run_eq_error_iff`: there are no others;
* `failures_told`: what holds of every sample.
-/
import SigScan.Proofs.Elf.Encoding
import SigScan.Proofs.Elf.Reach
import SigScan.Proofs.Signature.Acceptance
import SigScan.Run

namespace SigScan

/-! ## Loading -/

/-- The bytes are an ELF file whose tables have such a number out of reach. -/
def OutOfReach (file : Bytes) (u : Elf.Unreachable) : Prop :=
  ∃ h, Elf.Header.read file = .ok h ∧ Elf.CodeBeyond file h u

/-- What ends loading for good: what can be read there is out of reach. -/
def EndsLoad (found : Lookup) (a : Abort) : Prop :=
  ∃ file u, (found = .file file ∨ found = .special (.content file)) ∧ OutOfReach file u ∧
    a = .unreachable u

/-- The walk of an ELF file ends for good with the number that is out of reach. -/
theorem ofWalk_eq_abort_iff {f : Elf.WalkFault} {a : Abort} :
    LoadFault.ofWalk f = .abort a ↔ ∃ u, f = .unreachable u ∧ a = .unreachable u := by
  cases f with
  | table f =>
    constructor
    · intro h
      cases h
    · rintro ⟨u, h, -⟩
      cases h
  | unreachable u =>
    constructor
    · intro h
      cases h
      exact ⟨u, rfl, rfl⟩
    · rintro ⟨v, h, rfl⟩
      cases h
      rfl

/-- Loading gives code or a `LoadError` when it does not end for good. -/
theorem returns_iff {α : Type} {x : Except LoadFault α} :
    ((∃ c, x = .ok c) ∨ ∃ e, x = .error (.error e)) ↔ ∀ a, x ≠ .error (.abort a) := by
  cases x with
  | ok c => simp
  | error f =>
    cases f with
    | error e => simp
    | abort a => simp

/-- Reading the code of an image ends for good just when it is an ELF image out of reach. -/
theorem codeOf_eq_abort_iff {image : Bytes} {a : Abort} :
    codeOf image = .error (.abort a) ↔ ∃ u, OutOfReach image u ∧ a = .unreachable u := by
  have hformat : ∀ u, OutOfReach image u → Format.ofHead? image = some .elf := by
    rintro u ⟨h, hread, -⟩
    exact Format.ofHead?_eq_elf_iff.2 (Elf.Header.read_magic hread)
  unfold codeOf
  constructor
  · intro hcode
    split at hcode
    · cases hcode
    · next f hf =>
      have hfault := map_eq_error_iff.1 hcode
      cases f with
      | pe =>
        obtain ⟨e, -, he⟩ := mapError_eq_error_iff.1 (map_eq_error_iff.1 hfault)
        cases he
      | elf =>
        rcases bind_eq_error_iff.1 hfault with hheader | ⟨h, hheader, hwalk⟩
        · obtain ⟨e, -, he⟩ := mapError_eq_error_iff.1 hheader
          cases he
        · obtain ⟨w, hw, habort⟩ := mapError_eq_error_iff.1 hwalk
          obtain ⟨u, rfl, rfl⟩ := ofWalk_eq_abort_iff.1 habort
          exact ⟨u, ⟨h, mapError_eq_ok_iff.1 hheader, Elf.codeOf_eq_unreachable_iff.1 hw⟩, rfl⟩
  · rintro ⟨u, hout, rfl⟩
    rw [hformat u hout]
    obtain ⟨h, hread, hbeyond⟩ := hout
    have hwalk := Elf.codeOf_eq_unreachable_iff.2 hbeyond
    refine map_eq_error_iff.2 (bind_eq_error_iff.2 (.inr ⟨h, mapError_eq_ok_iff.2 hread, ?_⟩))
    exact mapError_eq_error_iff.2 ⟨_, hwalk, rfl⟩

/-- A sample is read unless there is a reason not to, or its path is not looked up at all. -/
theorem readSample_eq_ok_iff {path : Path} {found : Lookup} {file : Bytes} :
    readSample path found = .ok file ↔ found = .file file ∨ found = .special (.content file) := by
  cases found with
  | special r => cases r <;> simp [readSample]
  | _ => simp [readSample]

/-- What is not read is told as a `LoadError`. -/
theorem readSample_ne_abort {path : Path} {found : Lookup} {a : Abort}
    (hname : found ≠ .unnameable) : readSample path found ≠ .error (.abort a) := by
  cases found with
  | unnameable => exact absurd rfl hname
  | special r => cases r <;> simp [readSample]
  | _ => simp [readSample, LoadFault.unopened]

/-- **Loading ends for good** just when what it reads is out of reach. -/
theorem loadAll_eq_abort_iff {path : Path} {found : Lookup} {a : Abort}
    (hname : found ≠ .unnameable) :
    loadAll path found = .error (.abort a) ↔ EndsLoad found a := by
  unfold loadAll EndsLoad
  rw [bind_eq_error_iff, or_iff_right (readSample_ne_abort hname)]
  simp only [readSample_eq_ok_iff, codeOf_eq_abort_iff, ← exists_and_left]

/-- Picking sections by their names neither mends nor breaks anything. -/
theorem load_eq_abort_iff {path : Path} {found : Lookup} {names : List String} {a : Abort}
    (hname : found ≠ .unnameable) :
    load path found names = .error (.abort a) ↔ EndsLoad found a :=
  map_eq_error_iff.trans (loadAll_eq_abort_iff hname)

/-! ## Running -/

/-- Sections are scanned to the end with accepted signatures. -/
theorem scanSections_of_accepted {r : Registry} (hr : r.Accepted) (path : Path)
    (options : Options) (format : String) (trace : List TraceStep) (sections : List Section) :
    ∃ o, scanSections r path options format trace sections = .ok o := by
  unfold scanSections
  split
  · exact ⟨_, rfl⟩
  · obtain ⟨scans, hscans⟩ : ∃ scans,
        sections.mapM (ScannedSection.scan r options.archs) = .ok scans := by
      apply exists_mapM_eq_ok
      intro code _
      obtain ⟨byArch, hbyArch⟩ :=
        Registry.findByArch_of_accepted hr code.content code.base options.archs
      exact ⟨_, bind_eq_ok_iff.2 ⟨byArch, hbyArch, rfl⟩⟩
    exact ⟨_, bind_eq_ok_iff.2 ⟨scans, mapError_eq_ok_iff.2 hscans, rfl⟩⟩

/-- A run on an image ends without a report just when the image is out of reach. -/
theorem runImage_eq_error_iff {r : Registry} (hr : r.Accepted) {path : Path} {options : Options}
    {found : Lookup} {a : Abort} :
    runImage r path options found = .error a ↔ loadAll path found = .error (.abort a) := by
  unfold runImage
  cases hload : loadAll path found with
  | error f =>
    cases f with
    | error e => simp
    | abort b => simp
  | ok c =>
    cases c with
    | none => simp
    | some c =>
      obtain ⟨o, ho⟩ := scanSections_of_accepted hr path options c.1.name
        [.listed path c.1 c.2.length] (Section.keepNamed options.sectionNames c.2)
      simp only [ho, reduceCtorEq]

/-- What ends a run for good: the system does not tell whether there is a file, or the file has to
be loaded and is out of reach. -/
inductive EndsRun (path : Path) (options : Options) : Lookup → Abort → Prop
  | refused (e : SystemError) : EndsRun path options (.refused e) (.refused path e)
  | unreachable {file : Bytes} {u : Elf.Unreachable} : options.raw = false → OutOfReach file u →
      EndsRun path options (.file file) (.unreachable u)

/-- What ends a run ends it whatever else is chosen. -/
theorem endsRun_congr {path : Path} {options other : Options} {found : Lookup} {a : Abort}
    (h : options.raw = other.raw) :
    EndsRun path options found a ↔ EndsRun path other found a := by
  have himp : ∀ {o o' : Options}, o.raw = o'.raw → EndsRun path o found a →
      EndsRun path o' found a := by
    rintro o o' hraw (e | ⟨hfalse, hout⟩)
    · exact .refused e
    · exact .unreachable (hraw ▸ hfalse) hout
  exact ⟨himp h, himp h.symm⟩

/-- A file ends a run just if it ends loading, and is not taken as raw. -/
theorem endsRun_file_iff {path : Path} {options : Options} {file : Bytes} {a : Abort} :
    EndsRun path options (.file file) a ↔ options.raw = false ∧ EndsLoad (.file file) a := by
  constructor
  · rintro (_ | ⟨hraw, hout⟩)
    exact ⟨hraw, file, _, .inl rfl, hout, rfl⟩
  · rintro ⟨hraw, file', u, hfile | hspecial, hout, rfl⟩
    · cases hfile
      exact .unreachable hraw hout
    · cases hspecial

/-- **A run ends without a report** just when the system refuses to tell of its sample, or it has to
load one that is out of reach. -/
theorem run_eq_error_iff {r : Registry} (hr : r.Accepted) {path : Path} {options : Options}
    {found : Lookup} {a : Abort} :
    run r path options found = .error a ↔ EndsRun path options found a := by
  cases found with
  | file file =>
    have hload : loadAll path (.file file) = .error (.abort a) ↔ _ := loadAll_eq_abort_iff (by simp)
    rw [endsRun_file_iff, ← hload, run_file]
    cases hraw : options.raw with
    | true =>
      obtain ⟨o, ho⟩ := scanSections_of_accepted hr path options rawName []
        [⟨rawName, file, options.rawBase⟩]
      simp [ho]
    | false => simp [runImage_eq_error_iff hr]
  | unreadable e =>
    rw [run_of_unreadable]
    exact iff_of_false (by simp) (by rintro ⟨⟩)
  | refused e =>
    constructor
    · intro h
      cases h
      exact .refused e
    · rintro ⟨⟩
      rfl
  | directory | special | missing | notADirectory | unnameable =>
    rw [run_of_not_file rfl]
    exact iff_of_false (by simp) (by rintro ⟨⟩)

/-- The error that loading gives is told in the report. -/
theorem run_of_load_error {r : Registry} {path : Path} {options : Options} {content : Bytes}
    {e : LoadError} (hraw : options.raw = false)
    (hload : load path (.file content) options.sectionNames = .error (.error e)) :
    run r path options (.file content) = .ok (.ofFailure path none [] [] (.load e)) := by
  have hall : loadAll path (.file content) = .error (.error e) := map_eq_error_iff.1 hload
  simp only [run_file, hraw, Bool.false_eq_true, if_false, runImage, hall]

/-! ## Every sample -/

/-- A path may lead to anything, and is left unread just if it has a zero character in it. -/
def Lookup.Suits (found : Lookup) (path : Path) : Prop := found = .unnameable ↔ path.hasZero = true

/-- What a path leads to in a tree of files suits it. -/
theorem suits_lookup (t : FileTree) (path : Path) : (t.lookup path).Suits path :=
  t.lookup_eq_unnameable_iff path

/-- What loading and running come to. -/
structure FailuresTold (r : Registry) (path : Path) (options : Options) (names : List String)
    (found : Lookup) : Prop where
  /-- Loading gives code or a `LoadError`, unless something ends it. -/
  load_iff : ((∃ c, load path found names = .ok c) ∨
      ∃ e, load path found names = .error (.error e)) ↔ ∀ a, ¬ EndsLoad found a
  /-- What ends loading is what it ends with. -/
  load_abort : ∀ a, load path found names = .error (.abort a) ↔ EndsLoad found a
  /-- A run gives a report, unless something ends it. -/
  run_iff : (∃ o, run r path options found = .ok o) ↔ ∀ a, ¬ EndsRun path options found a
  /-- What ends a run is what it ends with. -/
  run_abort : ∀ a, run r path options found = .error a ↔ EndsRun path options found a
  /-- The report tells what loading a file fails with. -/
  told : ∀ file e, found = .file file → options.raw = false →
    load path found options.sectionNames = .error (.error e) →
      ∃ o, run r path options found = .ok o ∧ o.report.error = some e.message
  /-- To loading, a refusal to tell of the sample is a reason why it cannot be opened. -/
  refused : ∀ e, found = .refused e →
    load path found names = .error (.error (.unreadable path (.unopened e)))
  /-- The report tells why a file cannot be read, as loading does. -/
  unreadable : ∀ e, found = .unreadable e →
    load path found names = .error (.error (.unreadable path e)) ∧
      ∃ o, run r path options found = .ok o ∧
        o.report.error = some s!"Cannot read {path}: {e.textAt path}"
  /-- The report tells that there is no file. -/
  missing : found.isFile = .ok false →
    ∃ o, run r path options found = .ok o ∧ o.report.error = some s!"File not found: {path}"

/-- **Whatever a path leads to, its failures are told**, with the two exceptions. -/
theorem failures_told {r : Registry} (hr : r.Accepted) {path : Path} (hpath : path.hasZero = false)
    {found : Lookup} (hfound : found.Suits path) (options : Options) (names : List String) :
    FailuresTold r path options names found := by
  have hname : found ≠ .unnameable := by
    intro hno
    rw [hfound.1 hno] at hpath
    cases hpath
  have habort : ∀ a, load path found names = .error (.abort a) ↔ EndsLoad found a :=
    fun _ => load_eq_abort_iff hname
  have hrun : ∀ a, run r path options found = .error a ↔ EndsRun path options found a :=
    fun _ => run_eq_error_iff hr
  constructor
  case load_abort => exact habort
  case run_abort => exact hrun
  case load_iff =>
    rw [returns_iff]
    exact forall_congr' fun a => not_congr (habort a)
  case run_iff =>
    rw [exists_eq_ok_iff]
    exact forall_congr' fun a => not_congr (hrun a)
  case told =>
    rintro file e rfl hraw hload
    exact ⟨_, run_of_load_error hraw hload, rfl⟩
  case refused =>
    rintro e rfl
    rfl
  case unreadable =>
    rintro e rfl
    exact ⟨rfl, _, run_of_unreadable, rfl⟩
  case missing =>
    intro hno
    exact ⟨_, run_of_not_file hno, rfl⟩

/-- The header of a 64-bit file whose one section header would stand behind its end. -/
def strayHeader : Elf.Header where
  wordSize := .bits64
  order := .little
  machine := Elf.machineX64
  segmentTable := 0
  sectionTable := 200
  segmentEntrySize := 56
  segmentCount := 0
  sectionEntrySize := 64
  sectionCount := 1
  nameTableIndex := 0

/-- An ELF file of nothing but this header. -/
def strayImage : Bytes := (strayHeader.bytes ⟨2, 1, 0x400000, 0⟩).toArray

/-- The one section header of an ELF file is out of place, and the report says so. -/
theorem failures_told_strayImage :
    Registry.defaults.Accepted ∧ (Path.ofString "a").hasZero = false ∧
      (Lookup.file strayImage).Suits (Path.ofString "a") ∧
      FailuresTold Registry.defaults (Path.ofString "a") {} [".text"] (.file strayImage) ∧
      ∃ o, run Registry.defaults (Path.ofString "a") {} (.file strayImage) = .ok o ∧
        o.report.error = some "ELF section table: Reading section 0 at offset 200 past EOF 64" := by
  have hzero : (Path.ofString "a").hasZero = false := by decide
  have hsuits : (Lookup.file strayImage).Suits (Path.ofString "a") := by
    have hlookup := FileTree.lookup_single strayImage (by decide : Path.ofString "a" = ⟨"", ["a"]⟩)
      (by decide) (by decide) (by decide)
    rw [← hlookup]
    exact suits_lookup _ _
  have htold := failures_told Registry.accepted_defaults hzero hsuits {} [".text"]
  have hload : load (Path.ofString "a") (.file strayImage) [] =
      .error (.error (.elfTables (.pastEnd 0 200 64))) := by decide +kernel
  obtain ⟨o, ho, herror⟩ := htold.told strayImage _ rfl rfl hload
  refine ⟨Registry.accepted_defaults, hzero, hsuits, htold, o, ho, herror.trans ?_⟩
  decide

/-- A name that is too long ends a run in an empty directory, and cannot be opened there. -/
example (name : String) (hzero : (Path.mk "" [name]).hasZero = false)
    (hlong : FileTree.nameLimit < name.utf8ByteSize) :
    let found := (FileTree.ofLists [] []).lookup ⟨"", [name]⟩
    run Registry.defaults ⟨"", [name]⟩ {} found = .error (.refused ⟨"", [name]⟩ .nameTooLong) ∧
      load ⟨"", [name]⟩ found [] =
        .error (.error (.unreadable ⟨"", [name]⟩ (.unopened .nameTooLong))) := by
  have hcurrent : (FileTree.ofLists [] []).entryAt (.below []) = .directory := by decide
  simp only [FileTree.lookup_of_long hcurrent (by decide) hzero hlong]
  exact ⟨rfl, rfl⟩

/-! ## A sample out of reach -/

/-- The header of a 64-bit file with one segment and no sections. -/
def farHeader : Elf.Header where
  wordSize := .bits64
  order := .little
  machine := Elf.machineX64
  segmentTable := 64
  sectionTable := 0
  segmentEntrySize := 56
  segmentCount := 1
  sectionEntrySize := 64
  sectionCount := 0
  nameTableIndex := 0

/-- A loaded and executable segment at the first place that is out of reach. -/
def farSegment : Elf.SegmentHeader where
  type := 1
  flags := 5
  offset := 2 ^ 63
  address := 0x400000
  size := 16

/-- An ELF file of nothing but these two headers. -/
def farImage : Bytes :=
  (farHeader.bytes ⟨2, 1, 0x400000, 0⟩ ++
    ByteOrder.little.fields (farSegment.fields .bits64 0x1000)).toArray

/-- **One number in a file is enough to end loading and running for good.** -/
theorem run_farImage :
    (FileTree.ofLists [] [("a", farImage)]).lookup (Path.ofString "a") = .file farImage ∧
      load (Path.ofString "a") (.file farImage) [] = .error (.abort (.unreachable .position)) ∧
      run Registry.defaults (Path.ofString "a") {} (.file farImage) =
        .error (.unreachable .position) := by
  have hload : load (Path.ofString "a") (.file farImage) [] =
      .error (.abort (.unreachable .position)) := by decide +kernel
  refine ⟨FileTree.lookup_single _ (by decide) (by decide) (by decide) (by decide), hload, ?_⟩
  rw [run_eq_error_iff Registry.accepted_defaults, endsRun_file_iff]
  exact ⟨rfl, (load_eq_abort_iff (by simp)).1 hload⟩

end SigScan
