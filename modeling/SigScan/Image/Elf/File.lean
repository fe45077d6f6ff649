/-
# The code of an ELF file

The sections are walked first, and the segments only if no section has code.

`codeOf_of_sections` says that the segments then do not count.
-/
import SigScan.Image.Elf.SegmentTable

namespace SigScan.Elf

/-- The code sections of a file, from its section table. -/
def sectionsOf (file : Bytes) (h : Header) : Walk (List Section) := do
  collect (codeSectionAt file h) (← sectionCount file h) 0 []

/-- The code sections of a file, from its segment table. -/
def segmentsOf (file : Bytes) (h : Header) : Walk (List Section) := do
  collect (codeSegmentAt file h) (← segmentCount file h) 0 []

/-- The code of the image in a file. -/
def codeOf (file : Bytes) (h : Header) : Walk (List Section) := do
  let sections ← sectionsOf file h
  if sections.isEmpty then segmentsOf file h else return sections

/-- Where a section has code, the segments do not count. -/
theorem codeOf_of_sections {file : Bytes} {h : Header} {sections : List Section}
    (hs : sectionsOf file h = .ok sections) (hne : sections ≠ []) :
    codeOf file h = .ok sections := by
  have he : sections.isEmpty = false := by simpa using hne
  simp [codeOf, hs, he, bind, Except.bind, pure, Except.pure]

/-- Where no section has code, the segments stand in. -/
theorem codeOf_of_no_sections {file : Bytes} {h : Header} (hs : sectionsOf file h = .ok []) :
    codeOf file h = segmentsOf file h := by
  simp [codeOf, hs, bind, Except.bind]

end SigScan.Elf
