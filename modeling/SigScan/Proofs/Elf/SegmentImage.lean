/-
# Images without a section table

An ELF image whose section table was stripped is written from a list of segments: the file
header, the segment table, and the contents of the segments. The file header has zeros in place
of a section table and of an index for a table of names.

Loading such an image gives back exactly its loaded executable segments, `load_segmentImage`, in
either word size, whose tables have their fields in different orders, and either byte order. A
segment is named by its place among all segments. `SegmentImage.codeSegmentAt_eq` is one step of
the walk over the segment table.
-/
import SigScan.Proofs.Elf.Encoding

namespace SigScan.Elf

/-! ## What is written -/

/-- What a segment is for. -/
inductive SegmentKind where
  /-- To be loaded. -/
  | load
  /-- To be told about only. -/
  | note
  deriving DecidableEq, Repr

/-- A segment to be written. -/
structure SegmentPlan where
  kind : SegmentKind
  flags : Nat
  address : Nat
  alignment : Nat
  /-- The bytes that the file has for the segment. -/
  body : Bytes
  deriving DecidableEq, Repr

namespace SegmentPlan

/-- The segment type. -/
def type (s : SegmentPlan) : Nat :=
  match s.kind with
  | .load => 1
  | .note => 4

/-- Is the segment loaded and executable? -/
def isCode (s : SegmentPlan) : Bool := s.kind == .load && s.flags.testBit 0

/-- The segment at an index, as it is loaded. -/
def loaded (s : SegmentPlan) (index : Nat) : Section := ⟨segmentName index, s.body, s.address⟩

/-- The segments that the loader takes for code are the executable ones to be loaded. -/
theorem isCodeSegment_eq (s : SegmentPlan) :
    isCodeSegment (.numbered s.type) s.flags = s.isCode := by
  rw [isCodeSegment, isCode, hasBit_natCast, type]
  cases s.kind <;> rfl

end SegmentPlan

/-- An image to be written without a section table. -/
structure SegmentImage where
  wordSize : WordSize
  order : ByteOrder
  machine : Nat
  preamble : Preamble
  segments : List SegmentPlan
  deriving DecidableEq, Repr

namespace SegmentImage

/-- The contents of the segments. -/
def bodies (image : SegmentImage) : List (List UInt8) := image.segments.map (·.body.toList)

/-- Where the segment table starts. -/
def tableAt (image : SegmentImage) : Nat := Header.size image.wordSize

/-- Where the contents of the segments start. -/
def bodiesAt (image : SegmentImage) : Nat :=
  image.tableAt + image.segments.length * SegmentHeader.width image.wordSize

/-- The header of a segment of the list. -/
def planHeader (image : SegmentImage) (i : Nat) (s : SegmentPlan) : SegmentHeader where
  type := s.type
  flags := s.flags
  offset := image.bodiesAt + startOf image.bodies i
  address := s.address
  size := s.body.size

/-- The entries of the segment table, each with its alignment. -/
def headers (image : SegmentImage) : List (SegmentHeader × Nat) :=
  image.segments.mapIdx fun i s => (image.planHeader i s, s.alignment)

/-- The entries of the segment table as they are written. -/
def table (image : SegmentImage) : List (List UInt8) :=
  image.headers.map fun s => image.order.fields (s.1.fields image.wordSize s.2)

/-- The file header. -/
def header (image : SegmentImage) : Header where
  wordSize := image.wordSize
  order := image.order
  machine := image.machine
  segmentTable := image.tableAt
  sectionTable := 0
  segmentEntrySize := SegmentHeader.width image.wordSize
  segmentCount := image.segments.length
  sectionEntrySize := SectionHeader.width image.wordSize
  sectionCount := 0
  nameTableIndex := 0

/-- The bytes of the image. -/
def bytes (image : SegmentImage) : List UInt8 :=
  image.header.bytes image.preamble ++ (image.table.flatten ++ image.bodies.flatten)

/-- The image as a file. -/
def file (image : SegmentImage) : Bytes := image.bytes.toArray

/-- An image that can be written: fewer segments than the number with a meaning of its own,
fields that have room for their numbers, and fewer bytes than a file position can tell. -/
structure WellFormed (image : SegmentImage) : Prop where
  few : image.segments.length < indexEscape
  headerFits : FieldsFit (image.header.fields image.preamble)
  headersFit : ∀ s ∈ image.headers, FieldsFit (s.1.fields image.wordSize s.2)
  inReach : image.file.size < reach

/-! ## Where everything is -/

/-- Every entry of the segment table has the width of a segment header. -/
theorem length_of_mem_table (image : SegmentImage) :
    ∀ b ∈ image.table, b.length = SegmentHeader.width image.wordSize := by
  intro b hb
  obtain ⟨e, -, rfl⟩ := List.mem_map.1 hb
  exact SegmentHeader.length_fields image.order image.wordSize e.2 e.1

/-- The segment table has an entry for each segment. -/
theorem length_table (image : SegmentImage) : image.table.length = image.segments.length := by
  rw [table, headers, List.length_map, List.length_mapIdx]

/-- The segment table ends where the contents of the segments start. -/
theorem length_flatten_table (image : SegmentImage) :
    image.tableAt + image.table.flatten.length = image.bodiesAt := by
  have h := startOf_of_width image.table _ image.table.length image.length_of_mem_table
    (Nat.le_refl _)
  rw [startOf, List.take_length, length_table] at h
  rw [h, bodiesAt]

/-- The parts of the image are where the layout puts them. -/
theorem file_holds (image : SegmentImage) :
    image.file.Holds 0 (image.header.bytes image.preamble) ∧
      image.file.Holds image.tableAt image.table.flatten ∧
      image.file.Holds image.bodiesAt image.bodies.flatten := by
  have h : image.file.Holds 0 image.bytes := Bytes.holds_self image.bytes
  have hheader : 0 + (image.header.bytes image.preamble).length = image.tableAt := by
    rw [Nat.zero_add]
    exact Header.length_bytes image.header image.preamble
  rw [bytes, Bytes.holds_append, Bytes.holds_append, hheader, length_flatten_table] at h
  exact h

/-- The file header is read back. -/
theorem header_read (image : SegmentImage) (hw : image.WellFormed) :
    Header.read image.file = .ok image.header :=
  Header.read_of_holds image.file image.header image.preamble hw.headerFits image.file_holds.1

/-- The contents of a segment start in the file. -/
theorem bodiesAt_add_startOf_le (image : SegmentImage) (i : Nat) :
    image.bodiesAt + startOf image.bodies i ≤ image.file.size := by
  have hstart := startOf_le image.bodies i
  have htable := image.length_flatten_table
  have hheader : (image.header.bytes image.preamble).length = image.tableAt :=
    Header.length_bytes image.header image.preamble
  have hlen : image.file.size = image.bytes.length := by
    rw [file, List.size_toArray]
  rw [hlen, bytes, List.length_append, hheader, List.length_append]
  omega

/-- **The entries of the segment table are read back.** -/
theorem segmentHeader_eq (image : SegmentImage) (hw : image.WellFormed) (i : Nat) (s : SegmentPlan)
    (hi : image.segments[i]? = some s) :
    segmentHeader image.file image.header i = .ok (image.planHeader i s) := by
  have hlt : i < image.segments.length := (List.getElem?_eq_some_iff.1 hi).1
  have hheader : image.headers[i]? = some (image.planHeader i s, s.alignment) := by
    rw [headers, List.getElem?_mapIdx, hi]
    rfl
  have hentry : image.table[i]? =
      some (image.order.fields ((image.planHeader i s).fields image.wordSize s.alignment)) := by
    rw [table, List.getElem?_map, hheader]
    rfl
  have hstart : startOf image.table i = i * SegmentHeader.width image.wordSize :=
    startOf_of_width image.table _ i image.length_of_mem_table (by rw [length_table]; omega)
  have hholds := Bytes.Holds.block image.file_holds.2.1 i _ hentry
  rw [hstart] at hholds
  have hreach : image.tableAt + i * SegmentHeader.width image.wordSize < reach := by
    have hle := image.bodiesAt_add_startOf_le 0
    have hmul : i * SegmentHeader.width image.wordSize ≤
        image.segments.length * SegmentHeader.width image.wordSize :=
      Nat.mul_le_mul_right _ (Nat.le_of_lt hlt)
    have hin := hw.inReach
    rw [bodiesAt] at hle
    omega
  exact segmentHeader_of_holds image.file image.header i s.alignment _ (Nat.le_refl _) hreach
    (hw.headersFit _ (List.mem_of_getElem? hheader)) hholds

/-! ## The walk over the segment table -/

/-- **A segment is kept if it is code**, with its own address and bytes, and the name that its
index gives. -/
theorem codeSegmentAt_eq (image : SegmentImage) (hw : image.WellFormed) (i : Nat) (s : SegmentPlan)
    (hi : image.segments[i]? = some s) :
    codeSegmentAt image.file image.header i =
      .ok (if s.isCode then some (s.loaded i) else none) := by
  have hbody : image.bodies[i]? = some s.body.toList := by
    rw [bodies, List.getElem?_map, hi]
    rfl
  have hcontent : readAt image.file (image.bodiesAt + startOf image.bodies i) s.body.size =
      .ok s.body :=
    readAt_of_holds image.file s.body _ hw.inReach (image.bodiesAt_add_startOf_le i)
      (image.file_holds.2.2.block i _ hbody)
  rw [codeSegmentAt, image.segmentHeader_eq hw i s hi]
  show (if isCodeSegment (.numbered s.type) s.flags then _ else _) = _
  rw [s.isCodeSegment_eq]
  by_cases hc : s.isCode = true
  · rw [if_pos hc, if_pos hc]
    show (readAt image.file (image.bodiesAt + startOf image.bodies i) s.body.size >>= _) = _
    rw [hcontent]
    rfl
  · rw [if_neg hc, if_neg hc]
    rfl

/-- **The segment table gives back the loaded executable segments**, in the order of the list. -/
theorem segmentsOf_eq (image : SegmentImage) (hw : image.WellFormed) :
    segmentsOf image.file image.header =
      .ok ((image.segments.zipIdx.filter (·.1.isCode)).map fun e => e.1.loaded e.2) := by
  have hread : ∀ i e, image.segments.zipIdx[i]? = some e →
      codeSegmentAt image.file image.header i =
        .ok (if e.1.isCode then some (e.1.loaded e.2) else none) := by
    intro i e hi
    rw [List.getElem?_zipIdx, Nat.zero_add] at hi
    obtain ⟨s, hs, rfl⟩ := Option.map_eq_some_iff.1 hi
    exact image.codeSegmentAt_eq hw i s hs
  have hcount : segmentCount image.file image.header = .ok image.segments.zipIdx.length := by
    rw [segmentCount_of_ne (Nat.ne_of_lt hw.few), List.length_zipIdx]
    rfl
  have hkept : (image.segments.zipIdx.filterMap fun e =>
        if e.1.isCode then some (e.1.loaded e.2) else none) =
      (image.segments.zipIdx.filter (·.1.isCode)).map fun e => e.1.loaded e.2 := by
    rw [← List.filterMap_eq_map, List.filterMap_filter]
    rfl
  rw [segmentsOf, hcount]
  exact (collect_table _ image.segments.zipIdx _ hread).trans (congrArg _ hkept)

/-- There are no sections. -/
theorem sectionsOf_eq_nil (image : SegmentImage) : sectionsOf image.file image.header = .ok [] :=
  rfl

end SegmentImage

/-- **A stripped image is loaded by its segments**: with exactly the executable segments that are
to be loaded, in the order of the segment table, each with its address and its bytes, and named
by its index in the whole table. -/
theorem load_segmentImage (image : SegmentImage) (hw : image.WellFormed) (path : Path) :
    load path (.file image.file) [] =
      .ok (some (.elf, (image.segments.zipIdx.filter (·.1.isCode)).map fun e =>
        e.1.loaded e.2)) := by
  have hcode := (codeOf_of_no_sections image.sectionsOf_eq_nil).trans (image.segmentsOf_eq hw)
  exact load_elf path image.file image.header _ (image.header_read hw) hcode

/-- A big-endian 64-bit image: a note in front, loaded data, and two executable segments, one of
them empty. -/
def strippedImage : SegmentImage where
  wordSize := .bits64
  order := .big
  machine := 21
  preamble := ⟨2, 1, 0x10000000, 0⟩
  segments :=
    [⟨.note, 5, 0, 4, #[1, 2, 3, 4]⟩,
      ⟨.load, 5, 0x10000000, 0x1000, #[0x3C, 0x80, 0, 0x2C]⟩,
      ⟨.load, 6, 0x10020000, 0x1000, #[0xFF]⟩,
      ⟨.load, 1, 2 ^ 64 - 1, 0x1000, #[]⟩]

/-- The code of `strippedImage` is its two executable segments, the second and the fourth. -/
theorem load_strippedImage :
    strippedImage.WellFormed ∧
      load ⟨"", ["sample"]⟩ (.file strippedImage.file) [] =
        .ok (some (.elf, [⟨"LOAD[1]", #[0x3C, 0x80, 0, 0x2C], 0x10000000⟩,
          ⟨"LOAD[3]", #[], 2 ^ 64 - 1⟩])) := by
  have hw : strippedImage.WellFormed := {
    few := by decide
    headerFits := by decide
    headersFit := by decide
    inReach := by decide +kernel }
  exact ⟨hw, load_segmentImage strippedImage hw ⟨"", ["sample"]⟩⟩

end SigScan.Elf
