/-
# Images with a section table

An ELF image is written from a list of sections: the file header, the contents of the sections,
the table of their names, and at the end the section table, with an empty entry in front and the
table of names as its last section. There are no segments.

Loading such an image gives back exactly its code sections, `load_sectionImage`, in either word
size and either byte order. On the way there, `SectionImage.header_read` and
`SectionImage.sectionHeader_eq` read the headers back, `SectionImage.nameAt_eq` the names, and
`SectionImage.codeSectionAt_plan` is one step of the walk over the table.
-/
import SigScan.Proofs.Elf.Encoding

namespace SigScan.Elf

/-! ## Section types of every machine -/

/-- The section types of one machine lie behind those that every machine has. -/
theorem le_of_mem_machineSectionTypes (machine : Nat) :
    ∀ e ∈ machineSectionTypes machine, 0x70000000 ≤ e.1 := by
  unfold machineSectionTypes
  repeat' split
  all_goals decide

/-- A section type in front of those of one machine has the same name on every machine. -/
theorem sectionType_of_lt (machine number : Nat) (h : number < 0x70000000) :
    sectionType machine number =
      (commonSectionTypes.lookup number).elim (.numbered number) .named := by
  have hnone : (machineSectionTypes machine).lookup number = none := by
    rw [List.lookup_eq_none_iff]
    intro e he
    have hle := le_of_mem_machineSectionTypes machine e he
    rw [bne_iff_ne]
    omega
  rw [sectionType, List.lookup_append, hnone, Option.none_or]
  cases commonSectionTypes.lookup number <;> rfl

/-! ## What is written -/

/-- Where a section has its bytes. -/
inductive Storage where
  /-- In the file, as many as the file has for it. -/
  | stored
  /-- In memory only, as many as told. -/
  | reserved (size : Nat)
  deriving DecidableEq, Repr

/-- A section to be written. -/
structure SectionPlan where
  name : String
  storage : Storage
  flags : Nat
  address : Nat
  alignment : Nat
  /-- The bytes that the file has for the section. -/
  body : Bytes
  deriving DecidableEq, Repr

namespace SectionPlan

/-- The section type: program bits, or no bits. -/
def type (s : SectionPlan) : Nat :=
  match s.storage with
  | .stored => 1
  | .reserved _ => 8

/-- The size in the section header. -/
def size (s : SectionPlan) : Nat :=
  match s.storage with
  | .stored => s.body.size
  | .reserved n => n

/-- Is the section executable, with its bytes in the file? -/
def isCode (s : SectionPlan) : Bool := s.flags.testBit 2 && s.storage == .stored

/-- The section as it is loaded. -/
def loaded (s : SectionPlan) : Section := ⟨s.name, s.body, s.address⟩

/-- The section header, with the name and the body at given places. -/
def header (s : SectionPlan) (nameOffset offset : Nat) : SectionHeader where
  nameOffset := nameOffset
  type := s.type
  flags := s.flags
  address := s.address
  offset := offset
  size := s.size
  link := 0
  info := 0
  entrySize := 0

/-- Sections of the list are no symbol tables. -/
theorem not_symbolTable (s : SectionPlan) : symbolTableTypes.contains s.type = false := by
  rw [type]
  cases s.storage <;> rfl

/-- Sections of the list are no tables about symbols. -/
theorem type_ne_symbolInfo (s : SectionPlan) : s.type ≠ symbolInfoType := by
  rw [type]
  cases s.storage with
  | stored => decide
  | reserved n =>
    show 8 ≠ symbolInfoType
    decide

/-- A code section is as large as its bytes in the file. -/
theorem size_of_isCode (s : SectionPlan) (h : s.isCode = true) : s.size = s.body.size := by
  simp only [isCode, Bool.and_eq_true, beq_iff_eq] at h
  rw [size, h.2]

/-- The sections that the loader takes for code are the executable ones with bytes in the file. -/
theorem isCodeSection_eq (s : SectionPlan) (machine : Nat) :
    isCodeSection s.flags (sectionType machine s.type) = s.isCode := by
  rw [isCodeSection, isCode, hasBit_natCast]
  cases h : s.storage with
  | stored =>
    have ht : sectionType machine s.type = .named "SHT_PROGBITS" := by
      rw [type, h]
      exact sectionType_of_lt machine 1 (by decide)
    rw [ht]
    rfl
  | reserved n =>
    have ht : sectionType machine s.type = .named "SHT_NOBITS" := by
      rw [type, h]
      exact sectionType_of_lt machine 8 (by decide)
    rw [ht]
    rfl

end SectionPlan

/-- An image to be written with a section table. -/
structure SectionImage where
  wordSize : WordSize
  order : ByteOrder
  machine : Nat
  preamble : Preamble
  sections : List SectionPlan
  /-- The bytes between the names and the section table, as an alignment may ask for. -/
  filler : Bytes
  deriving DecidableEq, Repr

namespace SectionImage

/-- The name of the table of names. -/
def nameTableName : String := ".shstrtab"

/-- The contents of the sections. -/
def bodies (image : SectionImage) : List (List UInt8) := image.sections.map (·.body.toList)

/-- The names of the sections, that of the table of names last. -/
def names (image : SectionImage) : List String := image.sections.map (·.name) ++ [nameTableName]

/-- The table of names: an empty name first, for the empty entry of the section table. -/
def nameTable (image : SectionImage) : List UInt8 := 0 :: (image.names.map nameBytes).flatten

/-- Where the contents of the sections start. -/
def bodiesAt (image : SectionImage) : Nat := Header.size image.wordSize

/-- Where the table of names starts. -/
def namesAt (image : SectionImage) : Nat := image.bodiesAt + image.bodies.flatten.length

/-- Where the section table starts. -/
def tableAt (image : SectionImage) : Nat :=
  image.namesAt + image.nameTable.length + image.filler.size

/-- Where a name stands in the table of names. -/
def nameStart (image : SectionImage) (i : Nat) : Nat := 1 + startOf (image.names.map nameBytes) i

/-- The header of a section of the list. -/
def planHeader (image : SectionImage) (i : Nat) (s : SectionPlan) : SectionHeader :=
  s.header (image.nameStart i) (image.bodiesAt + startOf image.bodies i)

/-- The empty entry of the section table. -/
def emptyHeader : SectionHeader := ⟨0, 0, 0, 0, 0, 0, 0, 0, 0⟩

/-- The header of the table of names. -/
def nameTableHeader (image : SectionImage) : SectionHeader where
  nameOffset := image.nameStart image.sections.length
  type := stringTableType
  flags := 0
  address := 0
  offset := image.namesAt
  size := image.nameTable.length
  link := 0
  info := 0
  entrySize := 0

/-- The entries of the section table, each with its alignment. -/
def headers (image : SectionImage) : List (SectionHeader × Nat) :=
  (emptyHeader, 0) :: image.sections.mapIdx (fun i s => (image.planHeader i s, s.alignment)) ++
    [(image.nameTableHeader, 1)]

/-- The entries of the section table as they are written. -/
def table (image : SectionImage) : List (List UInt8) :=
  image.headers.map fun s => image.order.fields (s.1.fields image.wordSize s.2)

/-- The file header. -/
def header (image : SectionImage) : Header where
  wordSize := image.wordSize
  order := image.order
  machine := image.machine
  segmentTable := 0
  sectionTable := image.tableAt
  segmentEntrySize := SegmentHeader.width image.wordSize
  segmentCount := 0
  sectionEntrySize := SectionHeader.width image.wordSize
  sectionCount := image.sections.length + 2
  nameTableIndex := image.sections.length + 1

/-- The bytes of the image. -/
def bytes (image : SectionImage) : List UInt8 :=
  image.header.bytes image.preamble ++ (image.bodies.flatten ++ (image.nameTable ++
    (image.filler.toList ++ image.table.flatten)))

/-- The image as a file. -/
def file (image : SectionImage) : Bytes := image.bytes.toArray

/-- An image that can be written: names of plain characters, sections that are not compressed,
fewer entries than the numbers with a meaning of their own, fields that have room for their
numbers, and fewer bytes than a file position can tell. -/
structure WellFormed (image : SectionImage) : Prop where
  plain : ∀ s ∈ image.sections, IsPlainName s.name
  uncompressed : ∀ s ∈ image.sections, s.flags.testBit 11 = false
  few : image.sections.length + 2 < 0xFF00
  headerFits : FieldsFit (image.header.fields image.preamble)
  headersFit : ∀ s ∈ image.headers, FieldsFit (s.1.fields image.wordSize s.2)
  inReach : image.file.size < reach

/-! ## Where everything is -/

/-- The parts of the image are where the layout puts them. -/
theorem file_holds (image : SectionImage) :
    image.file.Holds 0 (image.header.bytes image.preamble) ∧
      image.file.Holds image.bodiesAt image.bodies.flatten ∧
      image.file.Holds image.namesAt image.nameTable ∧
      image.file.Holds image.tableAt image.table.flatten := by
  have h : image.file.Holds 0 image.bytes := Bytes.holds_self image.bytes
  simp only [bytes, Bytes.holds_append, Header.length_bytes, Array.length_toList] at h
  obtain ⟨hheader, hbodies, hnames, -, htable⟩ := h
  rw [Nat.zero_add] at hbodies hnames htable
  exact ⟨hheader, hbodies, hnames, htable⟩

/-- The file header is read back. -/
theorem header_read (image : SectionImage) (hw : image.WellFormed) :
    Header.read image.file = .ok image.header :=
  Header.read_of_holds image.file image.header image.preamble hw.headerFits image.file_holds.1

/-- **The entries of the section table are read back.** -/
theorem sectionHeader_eq (image : SectionImage) (hw : image.WellFormed) (i alignment : Nat)
    (s : SectionHeader) (hi : image.headers[i]? = some (s, alignment)) :
    sectionHeader image.file image.header i = .ok s := by
  have hlt : i < image.headers.length := (List.getElem?_eq_some_iff.1 hi).1
  have hentry : image.table[i]? = some (image.order.fields (s.fields image.wordSize alignment)) := by
    rw [table, List.getElem?_map, hi]
    rfl
  have hwidth : ∀ b ∈ image.table, b.length = SectionHeader.width image.wordSize := by
    intro b hb
    obtain ⟨e, -, rfl⟩ := List.mem_map.1 hb
    exact SectionHeader.length_fields image.order image.wordSize e.2 e.1
  have hstart : startOf image.table i = i * SectionHeader.width image.wordSize :=
    startOf_of_width image.table _ i hwidth (by rw [table, List.length_map]; omega)
  have hholds := Bytes.Holds.block image.file_holds.2.2.2 i _ hentry
  rw [hstart] at hholds
  exact sectionHeader_of_holds image.file image.header i alignment s (Nat.le_refl _)
    (hw.headersFit _ (List.mem_of_getElem? hi)) hholds

/-- The entry of a section of the list. -/
theorem headers_succ (image : SectionImage) (i : Nat) (s : SectionPlan)
    (hi : image.sections[i]? = some s) :
    image.headers[i + 1]? = some (image.planHeader i s, s.alignment) := by
  have hlt : i < image.sections.length := (List.getElem?_eq_some_iff.1 hi).1
  rw [headers, List.cons_append, List.getElem?_cons_succ,
    List.getElem?_append_left (by rw [List.length_mapIdx]; exact hlt), List.getElem?_mapIdx, hi]
  rfl

/-- The last entry is the table of names. -/
theorem headers_last (image : SectionImage) :
    image.headers[image.sections.length + 1]? = some (image.nameTableHeader, 1) := by
  rw [headers, List.cons_append, List.getElem?_cons_succ,
    List.getElem?_append_right (Nat.le_of_eq List.length_mapIdx), List.length_mapIdx, Nat.sub_self]
  rfl

/-- The table of names is found. -/
theorem nameTable_eq (image : SectionImage) (hw : image.WellFormed) :
    Elf.nameTable image.file image.header = .ok image.nameTableHeader := by
  have hne : image.header.nameTableIndex ≠ indexEscape := by
    have hfew := hw.few
    simp only [header, indexEscape]
    omega
  have hread : sectionHeader image.file image.header image.header.nameTableIndex =
      .ok image.nameTableHeader :=
    image.sectionHeader_eq hw (image.sections.length + 1) 1 _ image.headers_last
  simp only [Elf.nameTable, if_neg hne, pure, Except.pure, bind, Except.bind, hread]

/-- **The names are read back**, each from its place in the table of names. -/
theorem nameAt_eq (image : SectionImage) (hw : image.WellFormed) (i : Nat) (name : String)
    (hi : image.names[i]? = some name) :
    nameAt image.file (image.namesAt + image.nameStart i) = .ok name := by
  have hplain : IsPlainName name := by
    rcases List.mem_append.1 (List.mem_of_getElem? hi) with hm | hm
    · obtain ⟨s, hs, rfl⟩ := List.mem_map.1 hm
      exact hw.plain s hs
    · rw [List.mem_singleton.1 hm]
      decide
  have hnames : image.file.Holds (image.namesAt + 1) (image.names.map nameBytes).flatten := by
    have h := image.file_holds.2.2.1
    rw [nameTable, ← List.singleton_append, Bytes.holds_append] at h
    exact h.2
  have hblock : (image.names.map nameBytes)[i]? = some (nameBytes name) := by
    rw [List.getElem?_map, hi]
    rfl
  rw [nameStart, ← Nat.add_assoc]
  exact nameAt_of_holds image.file name _ hw.inReach hplain (hnames.block i _ hblock)

/-- The empty entry has the empty name. -/
theorem nameAt_zero (image : SectionImage) (hw : image.WellFormed) :
    nameAt image.file image.namesAt = .ok "" := by
  have h := image.file_holds.2.2.1
  rw [nameTable, ← List.singleton_append, Bytes.holds_append] at h
  exact nameAt_of_holds image.file "" _ hw.inReach (by decide) h.1

/-! ## The walk over the section table -/

/-- A section of the list starts in the file. -/
theorem bodiesAt_add_startOf_le (image : SectionImage) (i : Nat) :
    image.bodiesAt + startOf image.bodies i ≤ image.file.size := by
  have hstart := startOf_le image.bodies i
  have hlen : image.file.size = image.bytes.length := by
    rw [file, List.size_toArray]
  have hheader : (image.header.bytes image.preamble).length = image.bodiesAt :=
    Header.length_bytes image.header image.preamble
  rw [hlen, bytes, List.length_append, hheader, List.length_append]
  omega

/-- A section that is no symbol table is looked at for its code only. -/
theorem codeSectionAt_of_header (image : SectionImage) (hw : image.WellFormed) (i alignment : Nat)
    (s : SectionHeader) (name : String) (hi : image.headers[i]? = some (s, alignment))
    (hname : nameAt image.file (image.namesAt + s.nameOffset) = .ok name)
    (htable : symbolTableTypes.contains s.type = false) (hinfo : s.type ≠ symbolInfoType) :
    codeSectionAt image.file image.header i =
      if isCodeSection s.flags (sectionType image.machine s.type) then
        (readAt image.file s.offset s.size).map fun content => some ⟨name, content, s.address⟩
      else .ok none := by
  have hnamed : namedSection image.file image.header i = .ok (s, name) := by
    simp only [namedSection, sectionName, image.sectionHeader_eq hw i alignment s hi,
      image.nameTable_eq hw, htable, if_neg hinfo, bind, Except.bind, pure, Except.pure]
    rw [nameTableHeader, hname]
    rfl
  rw [codeSectionAt, hnamed]
  show (if isCodeSection s.flags (sectionType image.machine s.type) then _ else _) = _
  by_cases hc : isCodeSection s.flags (sectionType image.machine s.type) = true
  · rw [if_pos hc, if_pos hc]
    cases readAt image.file s.offset s.size <;> rfl
  · rw [if_neg hc, if_neg hc]
    rfl

/-- **A section of the list is kept if it is code**, with its own name, address and bytes. -/
theorem codeSectionAt_plan (image : SectionImage) (hw : image.WellFormed) (i : Nat)
    (s : SectionPlan) (hi : image.sections[i]? = some s) :
    codeSectionAt image.file image.header (i + 1) =
      .ok (if s.isCode then some s.loaded else none) := by
  have hname : image.names[i]? = some s.name := by
    have hlt : i < (image.sections.map (·.name)).length := by
      rw [List.length_map]
      exact (List.getElem?_eq_some_iff.1 hi).1
    rw [names, List.getElem?_append_left hlt, List.getElem?_map, hi]
    rfl
  have hbody : image.bodies[i]? = some s.body.toList := by
    rw [bodies, List.getElem?_map, hi]
    rfl
  have hcontent : readAt image.file (image.bodiesAt + startOf image.bodies i) s.body.size =
      .ok s.body :=
    readAt_of_holds image.file s.body _ hw.inReach (image.bodiesAt_add_startOf_le i)
      (image.file_holds.2.1.block i _ hbody)
  rw [image.codeSectionAt_of_header hw (i + 1) s.alignment _ s.name (image.headers_succ i s hi)
    (image.nameAt_eq hw i s.name hname) s.not_symbolTable s.type_ne_symbolInfo]
  rw [show isCodeSection (image.planHeader i s).flags
    (sectionType image.machine (image.planHeader i s).type) = s.isCode from
      s.isCodeSection_eq image.machine]
  by_cases hc : s.isCode = true
  · have hsize : s.size = s.body.size := s.size_of_isCode hc
    rw [if_pos hc, if_pos hc]
    show (readAt image.file (image.bodiesAt + startOf image.bodies i) s.size).map _ = _
    rw [hsize, hcontent]
    rfl
  · rw [if_neg hc, if_neg hc]

/-- The empty entry and the table of names are no code. -/
theorem codeSectionAt_ends (image : SectionImage) (hw : image.WellFormed) :
    codeSectionAt image.file image.header 0 = .ok none ∧
      codeSectionAt image.file image.header (image.sections.length + 1) = .ok none := by
  have hlast : image.names[image.sections.length]? = some nameTableName := by
    have hlen : (image.sections.map (·.name)).length = image.sections.length := List.length_map _
    rw [names, List.getElem?_append_right (Nat.le_of_eq hlen), hlen, Nat.sub_self]
    rfl
  have hnone : ∀ type, isCodeSection (0 : Nat) (sectionType image.machine type) = false :=
    fun _ => rfl
  constructor
  · rw [image.codeSectionAt_of_header hw 0 0 emptyHeader "" rfl (image.nameAt_zero hw) rfl
      (by decide)]
    rw [emptyHeader, hnone]
    rfl
  · rw [image.codeSectionAt_of_header hw _ 1 _ nameTableName image.headers_last
      (image.nameAt_eq hw _ _ hlast) rfl (show stringTableType ≠ symbolInfoType by decide)]
    rw [nameTableHeader, hnone]
    rfl

/-- The entries of the section table: those in front and at the end are not of the list. -/
def entries (image : SectionImage) : List (Option SectionPlan) :=
  none :: image.sections.map some ++ [none]

/-- **The section table gives back the code sections**, in the order of the list. -/
theorem sectionsOf_eq (image : SectionImage) (hw : image.WellFormed) :
    sectionsOf image.file image.header = .ok ((image.sections.filter (·.isCode)).map (·.loaded)) := by
  have hread : ∀ i e, image.entries[i]? = some e → codeSectionAt image.file image.header i =
      .ok (e.bind fun s => if s.isCode then some s.loaded else none) := by
    intro i e hi
    obtain ⟨hfirst, hlast⟩ := image.codeSectionAt_ends hw
    rw [entries, List.cons_append] at hi
    cases i with
    | zero =>
      cases hi
      exact hfirst
    | succ i =>
      rw [List.getElem?_cons_succ] at hi
      rcases Nat.lt_trichotomy i image.sections.length with hlt | rfl | hgt
      · rw [List.getElem?_append_left (by rwa [List.length_map]), List.getElem?_map,
          List.getElem?_eq_getElem hlt] at hi
        cases hi
        exact image.codeSectionAt_plan hw i _ (List.getElem?_eq_getElem hlt)
      · rw [List.getElem?_append_right (Nat.le_of_eq (List.length_map _)), List.length_map,
          Nat.sub_self] at hi
        cases hi
        exact hlast
      · rw [List.getElem?_eq_none (by simp; omega)] at hi
        cases hi
  have hcount : sectionCount image.file image.header = .ok image.entries.length := by
    have htable : image.header.sectionTable ≠ 0 := by
      simp only [header, tableAt, namesAt, bodiesAt, Header.size]
      omega
    have hsections : image.header.sectionCount ≠ 0 := Nat.succ_ne_zero _
    have hlen : image.entries.length = image.header.sectionCount := by
      simp [entries, header]
    rw [sectionCount, if_neg htable, if_neg hsections, hlen]
  have hkept : (image.entries.filterMap fun e =>
        e.bind fun s => if s.isCode then some s.loaded else none) =
      (image.sections.filter (·.isCode)).map (·.loaded) := by
    rw [entries, List.cons_append, List.filterMap_cons, List.filterMap_append, List.filterMap_map]
    simp only [Option.bind_none, List.filterMap_cons, List.filterMap_nil, List.append_nil]
    rw [← List.filterMap_eq_map, List.filterMap_filter]
    rfl
  rw [sectionsOf, hcount]
  exact (collect_table _ image.entries _ hread).trans (congrArg _ hkept)

/-- There are no segments. -/
theorem segmentsOf_eq (image : SectionImage) : segmentsOf image.file image.header = .ok [] := rfl

end SectionImage

/-- **A written image is loaded as it was**: with exactly its code sections, in the order of the
section table, each with its name, its address and its bytes. -/
theorem load_sectionImage (image : SectionImage) (hw : image.WellFormed) (path : Path) :
    load path (.file image.file) [] =
      .ok (some (.elf, (image.sections.filter (·.isCode)).map (·.loaded))) := by
  have hcode : Elf.codeOf image.file image.header =
      .ok ((image.sections.filter (·.isCode)).map (·.loaded)) := by
    by_cases he : (image.sections.filter (·.isCode)).map (·.loaded) = []
    · rw [codeOf_of_no_sections (he ▸ image.sectionsOf_eq hw), he]
      exact image.segmentsOf_eq
    · exact codeOf_of_sections (image.sectionsOf_eq hw) he
  exact load_elf path image.file image.header _ (image.header_read hw) hcode

/-- A big-endian 32-bit image: two code sections of one name, and between them executable room in
memory and data that are not executable. -/
def bigEndianImage : SectionImage where
  wordSize := .bits32
  order := .big
  machine := 20
  preamble := ⟨2, 1, 0x10000, 0⟩
  sections :=
    [⟨".text", .stored, 6, 0x10000, 4, #[0x3C, 0x80, 0, 0x2C]⟩,
      ⟨".tbss", .reserved 0x1000, 6, 0x20000, 4, #[]⟩,
      ⟨"", .stored, 3, 0x30000, 1, #[0x4D, 0x5A]⟩,
      ⟨".text", .stored, 4, 0xFFFFFFFF, 1, #[0x60]⟩]
  filler := #[0, 0]

/-- The code sections of `bigEndianImage` are its two executable ones with bytes in the file. -/
theorem load_bigEndianImage :
    bigEndianImage.WellFormed ∧
      load ⟨"", ["sample"]⟩ (.file bigEndianImage.file) [] =
        .ok (some (.elf, [⟨".text", #[0x3C, 0x80, 0, 0x2C], 0x10000⟩,
          ⟨".text", #[0x60], 0xFFFFFFFF⟩])) := by
  have hw : bigEndianImage.WellFormed := {
    plain := by decide
    uncompressed := by decide
    few := by decide
    headerFits := by decide
    headersFit := by decide
    inReach := by decide +kernel }
  exact ⟨hw, load_sectionImage bigEndianImage hw ⟨"", ["sample"]⟩⟩

end SigScan.Elf
