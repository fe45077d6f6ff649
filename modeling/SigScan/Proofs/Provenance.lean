/-
# Scanned bytes are bytes of the file

Whatever the headers of an image say, the content of a code section is a stretch of the file. A
section that would reach past the end of the file is cut there, and one that would start behind the
end is empty; nothing is filled in. So a match in a section is a place in the file where the whole
pattern of its signature occurs.

The flag for compressed sections is not looked at: such a section, too, counts with the bytes that
the file has for it.

* `Section.isFrom_of_slice`: a stretch that the headers ask for, however far it would reach;
* `Elf.isFrom_of_codeOf`, `Pe.isFrom_of_codeOf`: the code of an image;
* `isFrom_of_run`: the sections of a report;
* `run_drawnFrom`: the sections and the matches of a report.
-/
import SigScan.Proofs.Elf.CodeChoice
import SigScan.Proofs.Registry.ScanOrder
import SigScan.Proofs.Transcript

namespace SigScan

/-! ## Stretches of a file -/

namespace Section

/-- The content of the section stands in the file from `p` on. -/
def IsAt (s : Section) (file : Bytes) (p : Nat) : Prop :=
  p + s.content.size ≤ file.size ∧ file.Holds p s.content.toList

/-- The content of the section stands somewhere in the file. -/
def IsFrom (s : Section) (file : Bytes) : Prop := ∃ p, s.IsAt file p

/-- **What a header asks for is cut to a stretch of the file.** -/
theorem isFrom_of_slice {s : Section} {file : Bytes} {offset length : Nat}
    (h : s.content = file.slice offset length) : s.IsFrom file := by
  have hsize := file.size_slice offset length
  have hlist := file.toList_slice offset length
  rw [← h] at hsize hlist
  by_cases hin : offset ≤ file.size
  · refine ⟨offset, by omega, ?_⟩
    rw [hlist]
    exact List.take_prefix _ _
  · -- behind the end of the file there is nothing to be found, as at its start
    have hempty : s.content.toList = [] := by
      rw [← List.length_eq_zero_iff, Array.length_toList]
      omega
    refine ⟨0, by omega, ?_⟩
    rw [hempty]
    exact List.nil_prefix

end Section

/-! ## The code of an image -/

namespace Elf

/-- **The code of an ELF image is from the file**, by its sections and by its segments. -/
theorem isFrom_of_codeOf {file : Bytes} {h : Header} {sections : List Section}
    (hcode : codeOf file h = .ok sections) : ∀ s ∈ sections, s.IsFrom file := by
  intro s hs
  rcases exists_header_of_mem_codeOf hcode hs with
    ⟨_, _, _, -, hcontent, -⟩ | ⟨_, _, -, hcontent, -⟩
  · exact Section.isFrom_of_slice hcontent
  · exact Section.isFrom_of_slice hcontent

end Elf

/-- **The code of a PE image is from the file.** -/
theorem Pe.isFrom_of_codeOf (file : Bytes) (image : Image) :
    ∀ s ∈ image.codeOf file, s.IsFrom file := by
  intro s hs
  obtain ⟨e, he, -, rfl⟩ := mem_codeSections.1 hs
  obtain ⟨header, -, rfl⟩ := List.mem_map.1 he
  exact Section.isFrom_of_slice rfl

/-- The code of an image of either format is from the file. -/
theorem isFrom_of_loadAll {path : Path} {file : Bytes} {format : Format}
    {sections : List Section} (h : loadAll path (.file file) = .ok (some (format, sections))) :
    ∀ s ∈ sections, s.IsFrom file := by
  have hcode : codeOf file = .ok (some (format, sections)) := h
  unfold codeOf at hcode
  split at hcode
  · cases hcode
  · next f _ =>
    obtain ⟨found, hfound, heq⟩ := map_eq_ok_iff.1 hcode
    obtain ⟨rfl, rfl⟩ := Prod.mk.inj (Option.some.inj heq)
    cases f with
    | pe =>
      obtain ⟨image, -, rfl⟩ := map_eq_ok_iff.1 hfound
      exact Pe.isFrom_of_codeOf file image
    | elf =>
      obtain ⟨header, -, hwalk⟩ := bind_eq_ok_iff.1 hfound
      exact Elf.isFrom_of_codeOf (mapError_eq_ok_iff.1 hwalk)

/-! ## The report of a run -/

/-- **Every section of a report is from the file**, that of a raw sample too. -/
theorem isFrom_of_run {r : Registry} {path : Path} {options : Options} {file : Bytes} {o : Outcome}
    (h : run r path options (.file file) = .ok o) : ∀ s ∈ o.report.sections, s.IsFrom file := by
  intro s hs
  rcases run_eq_ok h with ⟨-, _, f, rfl⟩ | ⟨format, sections, trace, htoScan, hscan⟩
  · cases hs
  · rw [(sections_of_scanSections hscan).1] at hs
    cases htoScan with
    | raw =>
      rw [List.mem_singleton.1 hs]
      exact ⟨0, Nat.le_of_eq (Nat.zero_add _), List.prefix_rfl⟩
    | image _ hload =>
      obtain ⟨loaded, hall, rfl⟩ := load_eq_some_iff.1 hload
      exact isFrom_of_loadAll hall s (Section.mem_keepNamed.1 hs).1

/-- Each match of a report is a match in a section of that name. -/
theorem Report.Transcribes.exists_section {r : Registry} {wanted : List Arch} {report : Report}
    (h : report.Transcribes r wanted) {i : Nat} {m : Match} (hm : report.found[i]? = some m) :
    ∃ s ∈ report.sections, report.foundIn[i]? = some s.name ∧ m ∈ r.matchesIn wanted s := by
  have hlt : i < report.foundIn.length := by
    rw [← h.aligned]
    exact (List.getElem?_eq_some_iff.1 hm).1
  have hpair : report.placedMatches[i]? = some (m, report.foundIn[i]) := by
    rw [placedMatches, List.getElem?_zip_eq_some]
    exact ⟨hm, List.getElem?_eq_getElem hlt⟩
  have hmem := List.mem_of_getElem? hpair
  rw [h.placed, List.mem_flatMap] at hmem
  obtain ⟨s, hs, hplaced⟩ := hmem
  obtain ⟨m', hm', heq⟩ := List.mem_map.1 hplaced
  obtain ⟨rfl, hname⟩ := Prod.mk.inj heq
  exact ⟨s, hs, by rw [List.getElem?_eq_getElem hlt, hname], hm'⟩

/-- A report of the scan for the given architectures tells of nothing but bytes of the file. -/
structure Report.DrawnFrom (wanted : List Arch) (file : Bytes) (report : Report) : Prop where
  /-- The content of every section stands somewhere in the file. -/
  isFrom : ∀ s ∈ report.sections, s.IsFrom file
  /-- Each match is one of those in a section, and is reported with the name of that section.
  Wherever the content of the section is in the file, so is the whole pattern, at the offset of the
  match. -/
  occurs : ∀ (i : Nat) (m : Match), report.found[i]? = some m → ∃ s ∈ report.sections, ∃ offset : Nat,
    report.foundIn[i]? = some s.name ∧ m ∈ Registry.defaults.matchesIn wanted s ∧
      m.offset = offset ∧ s.IsFrom file ∧
        ∀ p, s.IsAt file p →
          Pattern.OccursIn (Signature.builtIn m.arch).pattern file (p + offset)

/-- **Every byte that a run scans is a byte of the file**, and so is every byte that a match
rests on. -/
theorem run_drawnFrom {path : Path} {options : Options} {file : Bytes} {o : Outcome}
    (h : run Registry.defaults path options (.file file) = .ok o) :
    o.report.DrawnFrom options.archs file where
  isFrom := isFrom_of_run h
  occurs := by
    intro i m hm
    have htold := transcribes_of_run h
    obtain ⟨s, hs, hname, hmem⟩ := htold.exists_section hm
    obtain ⟨-, signature, hsignature, offset, hoffset, hoccurs⟩ :=
      Registry.mem_find (htold.scanned s hs) hmem
    rw [Registry.get?_defaults] at hsignature
    cases hsignature
    refine ⟨s, hs, offset, hname, hmem, hoffset, isFrom_of_run h s hs, ?_⟩
    rintro p ⟨hle, hholds⟩
    exact hoccurs.of_holds hle hholds

/-- A stripped file whose one segment would reach far past the end of the file. -/
def cutImage : Bytes :=
  ((Elf.Header.mk .bits64 .little Elf.machineX64 64 0 56 1 64 0 0).bytes ⟨2, 1, 0x400000, 0⟩ ++
    ByteOrder.little.fields
      ((Elf.SegmentHeader.mk 1 5 118 0x400000 0x1000).fields .bits64 0x1000)).toArray ++ rawIdiom

/-- The segment of `cutImage` starts two bytes in front of the idiom and ends with it. -/
theorem run_cutImage : ∃ o,
    run Registry.defaults (Path.ofString "a.elf") {} (.file cutImage) = .ok o ∧
    o.report.found = [⟨.x64, 2, 0x66DA98⟩] ∧ o.report.DrawnFrom Arch.all cutImage := by
  have hfound : (run Registry.defaults (Path.ofString "a.elf") {} (.file cutImage)).toOption.map
      (·.report.found) = some [⟨.x64, 2, 0x66DA98⟩] := by
    decide +kernel
  cases hrun : run Registry.defaults (Path.ofString "a.elf") {} (.file cutImage) with
  | error a =>
    rw [hrun] at hfound
    cases hfound
  | ok o =>
    rw [hrun] at hfound
    exact ⟨o, rfl, Option.some.inj hfound, run_drawnFrom hrun⟩

end SigScan
