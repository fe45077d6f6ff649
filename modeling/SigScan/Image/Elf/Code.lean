/-
# Code of an ELF image

An ELF image has code in its executable sections that occupy space in the file. An image
without any, as after its section table was stripped, has code in its executable load segments,
which are named by their place among all segments.

* `codeSections_eq_ofSections`: sections come first;
* `codeSections_eq_ofSegments`: segments stand in where no section has code.
-/
import SigScan.Section

namespace SigScan.Elf

/-- The type of a section or segment: a name where it has one, a number otherwise. -/
inductive EntryType where
  | named (name : String)
  | numbered (value : Int)
  deriving DecidableEq, Repr

/-- What the extraction of code looks at in a section. -/
structure SectionEntry where
  name : Option String
  flags : Int
  type : EntryType
  address : Int
  content : Bytes
  deriving DecidableEq, Repr

/-- What the extraction of code looks at in a segment. -/
structure SegmentEntry where
  type : EntryType
  flags : Int
  address : Int
  content : Bytes
  deriving DecidableEq, Repr

/-- Is a section with these flags and of this type code in the file? -/
def isCodeSection (flags : Int) (type : EntryType) : Bool :=
  hasBit flags 2 && type != .named "SHT_NOBITS"

/-- Is a segment of this type and with these flags loaded code? -/
def isCodeSegment (type : EntryType) (flags : Int) : Bool :=
  (type == .named "PT_LOAD" || type == .numbered 1) && hasBit flags 0

/-- The name of the segment at an index. -/
def segmentName (index : Nat) : String := s!"LOAD[{index}]"

/-- The code sections among the sections. -/
def ofSections (sections : List SectionEntry) : List Section :=
  (sections.filter fun e => isCodeSection e.flags e.type).map fun e =>
    ⟨e.name.getD "", e.content, e.address⟩

/-- The code sections among the segments. -/
def ofSegments (segments : List SegmentEntry) : List Section :=
  (segments.zipIdx.filter fun e => isCodeSegment e.1.type e.1.flags).map fun e =>
    ⟨segmentName e.2, e.1.content, e.1.address⟩

/-- The code of an image with these sections and segments. -/
def codeSections (sections : List SectionEntry) (segments : List SegmentEntry) : List Section :=
  if (ofSections sections).isEmpty then ofSegments segments else ofSections sections

/-- Where a section has code, the segments do not count. -/
theorem codeSections_eq_ofSections {sections : List SectionEntry} {segments : List SegmentEntry}
    (h : ofSections sections ≠ []) : codeSections sections segments = ofSections sections := by
  simp [codeSections, h]

/-- Where no section has code, the segments stand in. -/
theorem codeSections_eq_ofSegments {sections : List SectionEntry} {segments : List SegmentEntry}
    (h : ofSections sections = []) : codeSections sections segments = ofSegments segments := by
  simp [codeSections, h]

end SigScan.Elf
